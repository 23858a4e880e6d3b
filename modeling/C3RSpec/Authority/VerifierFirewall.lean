import C3RSpec.Authority.Attestation
import C3RSpec.Base.Dict

/-!
# Verifier firewall

`c3r/verifier_firewall.py:12–74`. The policy, not the proposal, selects the verifier; the
result carries a signature over six fields. A verifier is a host callable, so the firewall is
generic in the monad its verifiers run in.
-/

namespace C3RSpec.Authority

open Base

/-- `VerifierDecision`. -/
structure VerifierDecision where
  accepted : Bool
  evidence : Text
  deriving DecidableEq

/-- `VerifierPolicy`. -/
structure VerifierPolicy where
  defaultVerifier : Text
  byRisk : Dict RiskClass Text := ∅
  version : Text := "policy-v1"

/-- `VerifierPolicy.select`. -/
def VerifierPolicy.select (p : VerifierPolicy) (c : ActionCandidate) : Text :=
  (p.byRisk.get? c.riskClass).getD p.defaultVerifier

/-- `VerifierFirewall`, with verifiers that run in `m`. -/
structure VerifierFirewall (m : Type → Type) where
  verifiers : Dict Text (ActionCandidate → m VerifierDecision)
  policy : VerifierPolicy
  attestationKey : ByteArray

namespace VerifierFirewall

/-- `available_verifier_ids`. -/
def availableVerifierIds {m : Type → Type} (fw : VerifierFirewall m) : List Text :=
  fw.verifiers.keys

/-- `"1" if accepted else "0"`. -/
def acceptedField (accepted : Bool) : Text := if accepted then "1" else "0"

/-- The six signed fields, in the order of `verify` and of the gateway. -/
def signedFields (verifierId candidateId fingerprint policyVersion : Text) (accepted : Bool)
    (evidence : Text) : List Text :=
  [verifierId, candidateId, fingerprint, policyVersion, acceptedField accepted, evidence]

private theorem ofExcept_eq {α : Type} (x : Except PyError α) :
    (MonadExcept.ofExcept x : Except PyError α) = x := by
  cases x <;> rfl

variable [Digest] [FloatText]

/-- `VerifierFirewall.verify`. -/
def verify {m : Type → Type} [Monad m] [MonadExceptOf PyError m] (fw : VerifierFirewall m)
    (c : ActionCandidate) : m VerificationResult := do
  let verifierId := fw.policy.select c
  match fw.verifiers.get? verifierId with
  | none => throw (valueError "policy-selected verifier is unavailable")
  | some verifier =>
    let decision ← verifier c
    let fingerprint ← MonadExcept.ofExcept (actionFingerprint c)
    let attestation ← MonadExcept.ofExcept (signFields fw.attestationKey
      (signedFields verifierId c.id fingerprint fw.policy.version decision.accepted
        decision.evidence))
    return { verifierId
             candidateId := c.id
             actionFingerprint := fingerprint
             policyVersion := fw.policy.version
             accepted := decision.accepted
             evidence := decision.evidence
             attestation }

/-- Everything a returned verification says. -/
theorem verify_eq_ok {fw : VerifierFirewall (Except PyError)} {c : ActionCandidate}
    {r : VerificationResult} (h : fw.verify c = .ok r) :
    ∃ verifier decision fingerprint attestation,
      fw.verifiers.get? (fw.policy.select c) = some verifier ∧
      verifier c = .ok decision ∧
      actionFingerprint c = .ok fingerprint ∧
      signFields fw.attestationKey
        (signedFields (fw.policy.select c) c.id fingerprint fw.policy.version decision.accepted
          decision.evidence) = .ok attestation ∧
      r = ⟨fw.policy.select c, c.id, fingerprint, fw.policy.version, decision.accepted,
        decision.evidence, attestation⟩ := by
  unfold verify at h
  simp only [ofExcept_eq] at h
  split at h
  · cases h
  · next verifier hv =>
    obtain ⟨decision, hd, h⟩ := bind_eq_ok.mp h
    obtain ⟨fingerprint, hf, h⟩ := bind_eq_ok.mp h
    obtain ⟨attestation, ha, h⟩ := bind_eq_ok.mp h
    exact ⟨verifier, decision, fingerprint, attestation, hv, hd, hf, ha, (Except.ok.inj h).symm⟩

/-- A verification that is decided and signed is returned. -/
theorem verify_of_signed {fw : VerifierFirewall (Except PyError)} {c : ActionCandidate}
    {verifier : ActionCandidate → Except PyError VerifierDecision} {decision : VerifierDecision}
    {fingerprint attestation : Text} (hv : fw.verifiers.get? (fw.policy.select c) = some verifier)
    (hd : verifier c = .ok decision) (hf : actionFingerprint c = .ok fingerprint)
    (hs : signFields fw.attestationKey (signedFields (fw.policy.select c) c.id fingerprint
      fw.policy.version decision.accepted decision.evidence) = .ok attestation) :
    fw.verify c = .ok ⟨fw.policy.select c, c.id, fingerprint, fw.policy.version, decision.accepted,
      decision.evidence, attestation⟩ := by
  unfold verify
  simp only [ofExcept_eq, hv, hd, hf]
  exact bind_eq_ok.mpr ⟨_, rfl, bind_eq_ok.mpr ⟨_, rfl, bind_eq_ok.mpr ⟨_, hs, rfl⟩⟩⟩

end VerifierFirewall

end C3RSpec.Authority
