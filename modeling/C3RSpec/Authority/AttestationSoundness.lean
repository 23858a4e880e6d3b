import C3RSpec.Authority.CommitGateway
import C3RSpec.Base.JsonParse

/-!
# Soundness of verification attestations

What an executed commit says about the verify calls before it
(`c3r/verifier_firewall.py:48–74`, `c3r/commit_gateway.py:89–122`). The signed text is the
six fields joined with NUL, and a verifier id or a candidate id may hold NUL itself: a
signed text then opens with the fields of another action, and the caller supplies the rest
as evidence. Exactly then an attestation is read as an acceptance nobody gave.
-/

namespace C3RSpec.Authority

open Base

/-- One call of `VerifierFirewall.verify`. -/
structure VerifyCall where
  firewall : VerifierFirewall (Except PyError)
  candidate : ActionCandidate

namespace VerifyCall

variable [Digest] [FloatText]

/-- What the call returns or raises. -/
def outcome (call : VerifyCall) : Except PyError VerificationResult :=
  call.firewall.verify call.candidate

/-- The call is on a candidate with `c`'s id and fingerprint, its policy selects `verifierId`
and that verifier accepts. -/
def Accepts (call : VerifyCall) (verifierId : Text) (c : ActionCandidate) : Prop :=
  call.candidate.id = c.id ∧ actionFingerprint call.candidate = actionFingerprint c ∧
    call.firewall.policy.select call.candidate = verifierId ∧
    ∃ verifier decision, call.firewall.verifiers.get? verifierId = some verifier ∧
      verifier call.candidate = .ok decision ∧ decision.accepted = true

/-- The text the call signed opens with the first five fields of an acceptance of `c`. -/
def Opens (call : VerifyCall) (verifierId : Text) (c : ActionCandidate) (version : Text) :
    Prop :=
  ∃ r fingerprint, call.outcome = .ok r ∧ actionFingerprint c = .ok fingerprint ∧
    Text.joinHeader nul [verifierId, c.id, fingerprint, version,
      VerifierFirewall.acceptedField true] <+:
    Text.join nul (VerifierFirewall.signedFields r.verifierId r.candidateId
      r.actionFingerprint r.policyVersion r.accepted r.evidence)

instance (call : VerifyCall) (verifierId : Text) (c : ActionCandidate) (version : Text) :
    Decidable (call.Opens verifierId c version) :=
  match hr : call.outcome, hf : actionFingerprint c with
  | .ok r, .ok fingerprint =>
    decidable_of_iff (Text.joinHeader nul [verifierId, c.id, fingerprint, version,
        VerifierFirewall.acceptedField true] <+:
      Text.join nul (VerifierFirewall.signedFields r.verifierId r.candidateId
        r.actionFingerprint r.policyVersion r.accepted r.evidence)) (by simp [Opens, hr, hf])
  | .error e, _ => isFalse (by simp [Opens, hr])
  | .ok r, .error e => isFalse (by simp [Opens, hf])

/-- The verifier id and the candidate id of the call are free of NUL. -/
def NulFree (call : VerifyCall) : Prop :=
  nul ∉ call.firewall.policy.select call.candidate ∧ nul ∉ call.candidate.id

end VerifyCall

section Soundness

variable [Digest] [FloatText]

/-- The tags signed in a history of verify calls. -/
def issued (history : List VerifyCall) : List Text :=
  history.filterMap fun call ↦ call.outcome.toOption.map VerificationResult.attestation

/-- The gateway runs the executor on a candidate. -/
def TrustedCommitGateway.Executes (g : TrustedCommitGateway) (request : CommitRequest)
    (c : ActionCandidate) : Prop :=
  ∃ events rest outcome, Prog.Runs (g.commit request) events rest ∧
    (⟨.execute c, outcome⟩ : Event CommitOp CommitOp.Res) ∈ events

/-- A gateway with this key and policy version executes `c` on a verification by `verifierId`
only after a verify call accepted it. Tags that are valid under the key come from the history. -/
def CommitSound (key : ByteArray) (version : Text) (history : List VerifyCall)
    (verifierId : Text) (c : ActionCandidate) : Prop :=
  ∀ (g : TrustedCommitGateway) (request : CommitRequest),
    g.verificationKey = key → g.policyVersion = version →
    request.verification.verifierId = verifierId →
    (∀ payload, request.verification.attestation = Digest.hmacSha256Hex key payload →
      request.verification.attestation ∈ issued history) →
    g.Executes request c → ∃ call ∈ history, call.Accepts verifierId c

/-- Only an admitted request is executed, and only its own candidate. -/
theorem TrustedCommitGateway.Executes.admitted {g : TrustedCommitGateway}
    {request : CommitRequest} {c : ActionCandidate} (h : g.Executes request c) :
    g.Admitted request ∧ c = request.candidate := by
  obtain ⟨events, rest, outcome, hr, hm⟩ := h
  obtain ⟨reason, hc⟩ | ⟨e, hc⟩ | ⟨ha, -, hc⟩ | ⟨ha, -, approval, -, hc⟩ := g.commit_cases request
  · rw [hc] at hr
    rw [(Prog.runs_ret.mp hr).1] at hm
    cases hm
  · rw [hc] at hr
    rw [(Prog.runs_raise.mp hr).1] at hm
    cases hm
  · rw [hc] at hr
    exact ⟨ha, TrustedCommitGateway.execute_of_runs hr hm⟩
  · rw [hc] at hr
    obtain ⟨rfl, -⟩ | ⟨now, k, rfl, -⟩ | ⟨now, rfl, -⟩ | ⟨now, tail, rfl, htail⟩ :=
      TrustedCommitGateway.runs_claimAndExecute hr
    · cases hm
    · simp at hm
    · simp at hm
    · simp only [List.mem_cons, Event.mk.injEq, reduceCtorEq, false_and, false_or] at hm
      exact ⟨ha, TrustedCommitGateway.execute_of_runs htail hm⟩

private theorem exists_outcome_of_issued {history : List VerifyCall} {tag : Text}
    (h : tag ∈ issued history) : ∃ call ∈ history, ∃ r, call.outcome = .ok r ∧
      r.attestation = tag := by
  obtain ⟨call, hc, ho⟩ := List.mem_filterMap.mp h
  obtain ⟨r, hr, hrt⟩ := Option.map_eq_some_iff.mp ho
  exact ⟨call, hc, r, toOption_eq_some.mp hr, hrt⟩

private theorem verify_text {call : VerifyCall} {r : VerificationResult}
    (h : call.outcome = .ok r) : ∃ payload,
      (Text.join nul (VerifierFirewall.signedFields r.verifierId r.candidateId
        r.actionFingerprint r.policyVersion r.accepted r.evidence)).encodeUtf8 = .ok payload ∧
      16 ≤ call.firewall.attestationKey.size ∧
      Digest.hmacSha256Hex call.firewall.attestationKey payload = r.attestation := by
  obtain ⟨_, _, _, _, _, _, _, hs, rfl⟩ := VerifierFirewall.verify_eq_ok h
  obtain ⟨hk, payload, hp, ht⟩ := signFields_eq_ok.mp hs
  exact ⟨payload, hp, hk, ht⟩

omit [Digest] [FloatText] in
private theorem signedText_eq (v id fingerprint version : Text) (accepted : Bool)
    (evidence : Text) :
    Text.join nul (VerifierFirewall.signedFields v id fingerprint version accepted evidence) =
      Text.joinHeader nul [v, id, fingerprint, version,
        VerifierFirewall.acceptedField accepted] ++ evidence :=
  Text.join_append_singleton nul
    [v, id, fingerprint, version, VerifierFirewall.acceptedField accepted] evidence

/-- An executed commit was signed in a call whose text opens with the acceptance it presents. -/
theorem exists_opens_of_executes {key : ByteArray} {history : List VerifyCall}
    (hinj : Function.Injective (Digest.hmacSha256Hex key))
    (hkey : ∀ call ∈ history, call.firewall.attestationKey = key)
    {g : TrustedCommitGateway} {request : CommitRequest} {c : ActionCandidate}
    (hg : g.verificationKey = key)
    (hissued : ∀ payload,
      request.verification.attestation = Digest.hmacSha256Hex key payload →
        request.verification.attestation ∈ issued history)
    (hex : g.Executes request c) :
    ∃ call ∈ history, call.Opens request.verification.verifierId c g.policyVersion := by
  obtain ⟨ha, rfl⟩ := hex.admitted
  have hsigned := ha.attested
  rw [hg] at hsigned
  obtain ⟨-, payload, hp, ht⟩ := signFields_eq_ok.mp hsigned
  obtain ⟨call, hcall, r, hr, hrt⟩ := exists_outcome_of_issued (hissued payload ht.symm)
  obtain ⟨payload', hp', -, ht'⟩ := verify_text hr
  rw [hkey call hcall] at ht'
  -- both texts have the presented tag, so they are one text
  have hpp : payload' = payload := hinj (ht'.trans (hrt.trans ht.symm))
  subst hpp
  have htext := Text.encodeUtf8_inj hp hp'
  rw [signedText_eq] at htext
  exact ⟨call, hcall, r, _, hr, ha.action, ⟨_, htext⟩⟩

/-! ### The text read as an acceptance -/

/-- An admitted request runs the executor once its approval, if it needs one, checks. -/
theorem executes_of_admitted {g : TrustedCommitGateway} {request : CommitRequest}
    (h : g.Admitted request)
    (happ : request.candidate.riskClass ∈ TrustedCommitGateway.approvalClasses →
      ∃ approval, g.Approved request approval) : g.Executes request request.candidate := by
  have hrun : Prog.Runs (TrustedCommitGateway.runExecutor request.candidate)
      [⟨.execute request.candidate, .ok ()⟩] (.ret ⟨true, "committed"⟩) :=
    Prog.runs_call.mpr (.inr ⟨_, _, rfl, .nil _⟩)
  by_cases hr : request.candidate.riskClass ∈ TrustedCommitGateway.approvalClasses
  · obtain ⟨approval, ha⟩ := happ hr
    have hclaim : Prog.Runs (TrustedCommitGateway.claimAndExecute request.candidate approval)
        [⟨.clock, .fin 0⟩, ⟨.claim approval.nonce approval.expiresAtEpochS (.fin 0), true⟩,
          ⟨.execute request.candidate, .ok ()⟩] (.ret ⟨true, "committed"⟩) :=
      Prog.runs_call.mpr (.inr ⟨_, _, rfl, Prog.runs_call.mpr (.inr ⟨_, _, rfl, hrun⟩)⟩)
    rw [← TrustedCommitGateway.commit_of_approved h hr ha] at hclaim
    exact ⟨_, _, .ok (), hclaim, by simp⟩
  · rw [← TrustedCommitGateway.commit_of_notMem h hr] at hrun
    exact ⟨_, _, .ok (), hrun, List.mem_singleton_self _⟩

/-- A 16-byte approval key. -/
def zeroKey : ByteArray := ⟨Array.replicate 16 0⟩

omit [FloatText] in
/-- An approval of scalar fields can be signed with any key that is long enough. -/
theorem exists_approval {key : ByteArray} (hkey : 16 ≤ key.size) {id fingerprint version : Text}
    (hid : id.IsScalar) (hf : fingerprint.IsScalar) (hv : version.IsScalar) :
    ∃ tag, signFields key (TrustedCommitGateway.approvalFields
      ⟨id, fingerprint, version, [], [], 0, []⟩) = .ok tag := by
  apply exists_signFields_iff.mpr ⟨hkey, ?_⟩
  intro f hmem
  simp only [TrustedCommitGateway.approvalFields, List.mem_cons, List.not_mem_nil,
    or_false] at hmem
  obtain rfl | rfl | rfl | rfl | rfl | rfl := hmem
  · simp [Text.IsScalar]
  · exact hid
  · exact hf
  · exact hv
  · simp [Text.IsScalar]
  · exact Text.isScalar_of_isAscii (by decide)

/-- Whatever a call signed, if the text opens with an acceptance of `c` then some gateway
executes `c` on it. -/
theorem exists_executes_of_opens {history : List VerifyCall} {call : VerifyCall}
    (hcall : call ∈ history) {verifierId : Text} {c : ActionCandidate} {version : Text}
    (h : call.Opens verifierId c version) :
    ∃ (g : TrustedCommitGateway) (request : CommitRequest),
      g.verificationKey = call.firewall.attestationKey ∧ g.policyVersion = version ∧
      request.verification.verifierId = verifierId ∧
      request.verification.attestation ∈ issued history ∧ g.Executes request c := by
  obtain ⟨r, fingerprint, hr, hf, evidence, htext⟩ := h
  obtain ⟨payload, hp, hk, ht⟩ := verify_text hr
  have hscalar : (Text.joinHeader nul [verifierId, c.id, fingerprint, version,
      VerifierFirewall.acceptedField true]).IsScalar := by
    intro x hx
    exact Text.exists_encodeUtf8_iff.mp ⟨payload, hp⟩ x
      (htext ▸ List.mem_append_left evidence hx)
  have hfield : ∀ t ∈ [verifierId, c.id, fingerprint, version], t.IsScalar := by
    intro t ht x hx
    apply hscalar x
    simp only [List.mem_cons, List.not_mem_nil, or_false] at ht
    obtain rfl | rfl | rfl | rfl := ht <;> simp [Text.joinHeader, hx]
  obtain ⟨tag, htag⟩ := exists_approval (show 16 ≤ zeroKey.size by decide) (hfield c.id (by simp))
    (hfield fingerprint (by simp)) (hfield version (by simp))
  let g : TrustedCommitGateway :=
    ⟨{verifierId}, call.firewall.attestationKey, zeroKey, version, ⟨verifierId, by simp⟩⟩
  let request : CommitRequest :=
    ⟨c, ⟨verifierId, c.id, fingerprint, version, true, evidence, r.attestation⟩,
      some ⟨c.id, fingerprint, version, [], [], 0, tag⟩⟩
  have hadm : g.Admitted request := by
    refine ⟨by simp [g, request], rfl, hf, rfl, rfl, ?_⟩
    refine signFields_eq_ok.mpr ⟨hk, payload, ?_, ht⟩
    rw [signedText_eq]
    exact htext ▸ hp
  have happ : g.Approved request ⟨c.id, fingerprint, version, [], [], 0, tag⟩ :=
    ⟨rfl, rfl, rfl, rfl, htag⟩
  refine ⟨g, request, rfl, rfl, rfl, ?_, executes_of_admitted hadm fun _ ↦ ⟨_, happ⟩⟩
  refine List.mem_filterMap.mpr ⟨call, hcall, ?_⟩
  rw [hr]
  rfl

/-- Without NUL in the ids, a signed text opens with an acceptance only by being one. -/
theorem accepts_of_opens {call : VerifyCall} {verifierId : Text} {c : ActionCandidate}
    (hv : nul ∉ verifierId) (hc : nul ∉ c.id) (hn : call.NulFree)
    (h : call.Opens verifierId c call.firewall.policy.version) : call.Accepts verifierId c := by
  obtain ⟨r, fingerprint, hr, hf, evidence, htext⟩ := h
  obtain ⟨verifier, decision, fingerprint', attestation, hver, hd, hf', -, rfl⟩ :=
    VerifierFirewall.verify_eq_ok hr
  rw [signedText_eq] at htext
  simp only [Text.joinHeader_cons, List.append_assoc, List.cons_append] at htext
  obtain ⟨hvid, htext⟩ := Text.field_inj hv hn.1 htext
  obtain ⟨hcid, htext⟩ := Text.field_inj hc hn.2 htext
  obtain ⟨hfp, htext⟩ := Text.field_inj (nul_notMem_actionFingerprint hf)
    (nul_notMem_actionFingerprint hf') htext
  have haccepted : decision.accepted = true := by
    have htail := List.append_cancel_left htext
    cases hda : decision.accepted with
    | true => rfl
    | false =>
      rw [hda] at htail
      exact absurd (List.cons.inj (List.cons.inj htail).2).1 (by decide)
  subst hvid
  exact ⟨hcid.symm, by rw [hf', hf, hfp], rfl, verifier, decision, hver, hd, haccepted⟩

/-- Soundness, exactly: an executed `c` was accepted in every use of the history if and only if
an acceptance of `c` is in the history whenever some signed text opens with one. Verifier and
candidate ids without NUL are always enough. -/
theorem commitSound_iff {key : ByteArray} {version : Text} {history : List VerifyCall}
    {verifierId : Text} {c : ActionCandidate}
    (hinj : Function.Injective (Digest.hmacSha256Hex key))
    (hkey : ∀ call ∈ history, call.firewall.attestationKey = key)
    (hversion : ∀ call ∈ history, call.firewall.policy.version = version) :
    (CommitSound key version history verifierId c ↔
      ((∃ call ∈ history, call.Opens verifierId c version) →
        ∃ call ∈ history, call.Accepts verifierId c)) ∧
    (nul ∉ verifierId → nul ∉ c.id → (∀ call ∈ history, call.NulFree) →
      CommitSound key version history verifierId c) := by
  have hsound : ((∃ call ∈ history, call.Opens verifierId c version) →
      ∃ call ∈ history, call.Accepts verifierId c) →
      CommitSound key version history verifierId c := by
    intro h g request hg hver hvid hissued hex
    have hopens := exists_opens_of_executes hinj hkey hg hissued hex
    rw [hvid, hver] at hopens
    exact h hopens
  refine ⟨⟨?_, hsound⟩, ?_⟩
  · rintro h ⟨call, hcall, hopens⟩
    obtain ⟨g, request, hg, hver, hvid, hissued, hex⟩ := exists_executes_of_opens hcall hopens
    exact h g request (hg.trans (hkey call hcall)) hver hvid (fun _ _ ↦ hissued) hex
  · intro hv hc hn
    refine hsound ?_
    rintro ⟨call, hcall, hopens⟩
    rw [← hversion call hcall] at hopens
    exact ⟨call, hcall, accepts_of_opens hv hc (hn call hcall) hopens⟩

end Soundness

/-! ### A rejection read as an acceptance -/

/-- A read-only action. -/
def readAction : ActionCandidate := ⟨Text.ofString "read", .tool, .readOnly, .fin 0, none, []⟩

section Replay

attribute [local instance] Digest.transparent FloatText.fraction

/-- The fingerprint of the read-only action. -/
def readFingerprint : Text := ((actionFingerprint readAction).toOption).getD []

/-- An action whose id continues the fields of an acceptance of the read-only action. -/
def shiftedAction : ActionCandidate :=
  { readAction with
    id := Text.join nul [readAction.id, readFingerprint, "policy-v1", "1", ""] }

/-- A firewall with one verifier. -/
def soleVerifier (decision : VerifierDecision) : VerifierFirewall (Except PyError) where
  verifiers := Dict.ofList [(Text.ofString "checker", fun _ ↦ .ok decision)]
  policy := { defaultVerifier := Text.ofString "checker" }
  attestationKey := zeroKey

private theorem hmac_injective : Function.Injective (Digest.hmacSha256Hex zeroKey) :=
  hexBytes_injective

private theorem soleVerifier_shared {decision : VerifierDecision} {c : ActionCandidate} :
    ∀ call ∈ [(⟨soleVerifier decision, c⟩ : VerifyCall)],
      call.firewall.attestationKey = zeroKey ∧ call.firewall.policy.version = "policy-v1" := by
  intro call hcall
  cases List.mem_singleton.mp hcall
  exact ⟨rfl, rfl⟩

/-- An accepted action without NUL in its id, committed soundly. -/
theorem commitSound_read :
    CommitSound zeroKey "policy-v1" [⟨soleVerifier ⟨true, []⟩, readAction⟩] "checker"
      readAction := by
  refine (commitSound_iff hmac_injective (fun call h ↦ (soleVerifier_shared call h).1)
    (fun call h ↦ (soleVerifier_shared call h).2)).2 (by decide) (by decide) ?_
  intro call hcall
  cases List.mem_singleton.mp hcall
  exact ⟨by decide, by decide⟩

/-- The rejection of the shifted action executes the read-only action, which no call was
made on. -/
theorem not_commitSound_shifted :
    Function.Injective (Digest.hmacSha256Hex zeroKey) ∧
    (∀ call ∈ [(⟨soleVerifier ⟨false, []⟩, shiftedAction⟩ : VerifyCall)],
      call.firewall.attestationKey = zeroKey ∧ call.firewall.policy.version = "policy-v1") ∧
    ¬ CommitSound zeroKey "policy-v1" [⟨soleVerifier ⟨false, []⟩, shiftedAction⟩] "checker"
      readAction := by
  refine ⟨hmac_injective, soleVerifier_shared, fun h ↦ ?_⟩
  have hopens : VerifyCall.Opens ⟨soleVerifier ⟨false, []⟩, shiftedAction⟩ "checker" readAction
      "policy-v1" := by decide +kernel
  obtain ⟨g, request, hg, hver, hvid, hissued, hex⟩ :=
    exists_executes_of_opens (List.mem_singleton_self _) hopens
  obtain ⟨call, hcall, haccepts⟩ := h g request hg hver hvid (fun _ _ ↦ hissued) hex
  cases List.mem_singleton.mp hcall
  exact absurd haccepts.1 (by decide +kernel)

end Replay

end C3RSpec.Authority
