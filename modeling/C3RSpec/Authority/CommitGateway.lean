import C3RSpec.Authority.VerifierFirewall
import C3RSpec.Base.Prog
import Mathlib.Data.Finset.Basic

/-!
# Trusted commit gateway

`c3r/commit_gateway.py:14–147`. `commit` is a program over three host operations: reading the
clock, claiming a nonce and running the executor. Every refusal branch of the source is kept
with its reason.
-/

namespace C3RSpec.Authority

open Base

/-- `ApprovalGrant`. -/
structure ApprovalGrant where
  candidateId : Text
  actionFingerprint : Text
  policyVersion : Text
  authorityId : Text
  nonce : Text
  expiresAtEpochS : Int
  attestation : Text
  deriving DecidableEq

/-- `CommitRequest`. -/
structure CommitRequest where
  candidate : ActionCandidate
  verification : VerificationResult
  approval : Option ApprovalGrant := none
  deriving DecidableEq

/-- `CommitResult`. -/
structure CommitResult where
  committed : Bool
  reason : String
  deriving DecidableEq, Repr

/-! ### The nonce store -/

/-- `InMemoryApprovalNonceStore._claimed`. -/
abbrev NonceStore := Finset Text

/-- `now_epoch_s > expires_at_epoch_s`; Python compares a float and an int exactly. -/
def isExpired (expiresAtEpochS : Int) (nowEpochS : PyFloat) : Bool :=
  PyFloat.lt (.fin expiresAtEpochS) nowEpochS

/-- `InMemoryApprovalNonceStore.claim`, one atomic step under the store's lock. -/
def NonceStore.claim (claimed : NonceStore) (nonce : Text) (expiresAtEpochS : Int)
    (nowEpochS : PyFloat) : Bool × NonceStore :=
  if isExpired expiresAtEpochS nowEpochS || decide (nonce ∈ claimed) then (false, claimed)
  else (true, insert nonce claimed)

/-- A successful claim is of an unexpired, unclaimed nonce and records it. -/
theorem NonceStore.claim_eq_true {claimed claimed' : NonceStore} {nonce : Text} {expires : Int}
    {now : PyFloat} (h : claimed.claim nonce expires now = (true, claimed')) :
    isExpired expires now = false ∧ nonce ∉ claimed ∧ claimed' = insert nonce claimed := by
  unfold claim at h
  split at h
  · cases h
  · next hc =>
    rw [Bool.or_eq_true, not_or, Bool.not_eq_true, decide_eq_true_eq] at hc
    cases h
    exact ⟨hc.1, hc.2, rfl⟩

/-- A failed claim leaves the store alone. -/
theorem NonceStore.claim_eq_false {claimed claimed' : NonceStore} {nonce : Text} {expires : Int}
    {now : PyFloat} (h : claimed.claim nonce expires now = (false, claimed')) :
    claimed' = claimed := by
  unfold claim at h
  split at h
  · cases h
    rfl
  · cases h

/-! ### The gateway -/

/-- What a commit asks of its host. -/
inductive CommitOp where
  | clock
  | claim (nonce : Text) (expiresAtEpochS : Int) (nowEpochS : PyFloat)
  | execute (candidate : ActionCandidate)
  deriving DecidableEq

/-- The answers: a reading, whether the claim succeeded, and whether the executor raised. -/
@[reducible] def CommitOp.Res : CommitOp → Type
  | .clock => PyFloat
  | .claim _ _ _ => Bool
  | .execute _ => Except PyError Unit

/-- `TrustedCommitGateway`; its constructor refuses an empty set of trusted verifiers. -/
structure TrustedCommitGateway where
  trustedVerifierIds : Finset Text
  verificationKey : ByteArray
  approvalKey : ByteArray
  policyVersion : Text
  trusted : trustedVerifierIds.Nonempty

namespace TrustedCommitGateway

/-- `_approval_classes`. -/
def approvalClasses : List RiskClass :=
  [.externalWrite, .highConsequence, .destructive, .approvalRequired]

/-- A refusal. -/
def refuse (reason : String) : Prog CommitOp CommitOp.Res CommitResult := .ret ⟨false, reason⟩

/-- `executor(candidate)` and the committed result. -/
def runExecutor (c : ActionCandidate) : Prog CommitOp CommitOp.Res CommitResult :=
  .call (.execute c) fun outcome ↦
    match outcome with
    | .ok () => .ret ⟨true, "committed"⟩
    | .error e => .raise e

/-- The signed fields of an approval. -/
def approvalFields (a : ApprovalGrant) : List Text :=
  [a.authorityId, a.candidateId, a.actionFingerprint, a.policyVersion, a.nonce,
    decimalInt a.expiresAtEpochS]

/-- Claiming the nonce of a checked approval at the current time, then executing. -/
def claimAndExecute (c : ActionCandidate) (approval : ApprovalGrant) :
    Prog CommitOp CommitOp.Res CommitResult := do
  let now ← Prog.perform CommitOp.clock
  let claimed ← Prog.perform (CommitOp.claim approval.nonce approval.expiresAtEpochS now)
  if !claimed then refuse "approval expired or replayed"
  else runExecutor c

/-- How far an execution can have come. -/
theorem runs_runExecutor {c : ActionCandidate} {events : List (Event CommitOp CommitOp.Res)}
    {rest : Prog CommitOp CommitOp.Res CommitResult}
    (h : Prog.Runs (runExecutor c) events rest) :
    (events = [] ∧ rest = runExecutor c) ∨
    (events = [⟨.execute c, .ok ()⟩] ∧ rest = .ret ⟨true, "committed"⟩) ∨
    (∃ e, events = [⟨.execute c, .error e⟩] ∧ rest = .raise e) := by
  unfold runExecutor at h
  obtain ⟨he, hq⟩ | ⟨outcome, es, he, hr⟩ := Prog.runs_call.mp h
  · exact .inl ⟨he, hq⟩
  · cases outcome with
    | ok u =>
      obtain ⟨rfl, rfl⟩ := Prog.runs_ret.mp hr
      exact .inr (.inl ⟨he, rfl⟩)
    | error e =>
      obtain ⟨rfl, rfl⟩ := Prog.runs_raise.mp hr
      exact .inr (.inr ⟨e, he, rfl⟩)

/-- The executor is run on the given candidate. -/
theorem execute_of_runs {c d : ActionCandidate} {events : List (Event CommitOp CommitOp.Res)}
    {rest : Prog CommitOp CommitOp.Res CommitResult} {outcome : Except PyError Unit}
    (h : Prog.Runs (runExecutor c) events rest)
    (hm : (⟨.execute d, outcome⟩ : Event CommitOp CommitOp.Res) ∈ events) : d = c := by
  obtain ⟨rfl, -⟩ | ⟨rfl, -⟩ | ⟨e, rfl, -⟩ := runs_runExecutor h
  · cases hm
  · cases List.mem_singleton.mp hm
    rfl
  · cases List.mem_singleton.mp hm
    rfl

/-- How far a claim and execution can have come: the executor waits for a claim that returned
`True` at the reading taken just before it. -/
theorem runs_claimAndExecute {c : ActionCandidate} {approval : ApprovalGrant}
    {events : List (Event CommitOp CommitOp.Res)}
    {rest : Prog CommitOp CommitOp.Res CommitResult}
    (h : Prog.Runs (claimAndExecute c approval) events rest) :
    (events = [] ∧ rest = claimAndExecute c approval) ∨
    (∃ now k, events = [⟨.clock, now⟩] ∧
      rest = .call (.claim approval.nonce approval.expiresAtEpochS now) k) ∨
    (∃ now, events = [⟨.clock, now⟩,
        ⟨.claim approval.nonce approval.expiresAtEpochS now, false⟩] ∧
      rest = refuse "approval expired or replayed") ∨
    (∃ now tail, events = ⟨.clock, now⟩ ::
        ⟨.claim approval.nonce approval.expiresAtEpochS now, true⟩ :: tail ∧
      Prog.Runs (runExecutor c) tail rest) := by
  unfold claimAndExecute at h
  simp only [Prog.bind_perform] at h
  obtain ⟨he, hq⟩ | ⟨now, es, rfl, hclaim⟩ := Prog.runs_call.mp h
  · exact .inl ⟨he, hq⟩
  obtain ⟨rfl, hq⟩ | ⟨claimed, tail, rfl, htail⟩ := Prog.runs_call.mp hclaim
  · exact .inr (.inl ⟨now, _, rfl, hq⟩)
  cases claimed with
  | false =>
    obtain ⟨rfl, hq⟩ := Prog.runs_ret.mp htail
    exact .inr (.inr (.inl ⟨now, rfl, hq⟩))
  | true => exact .inr (.inr (.inr ⟨now, tail, rfl, htail⟩))

variable [Digest] [FloatText]

omit [FloatText] in
/-- The checks of an approval, the claim of its nonce and the execution. -/
def approveAndExecute (g : TrustedCommitGateway) (request : CommitRequest) (fingerprint : Text) :
    Prog CommitOp CommitOp.Res CommitResult :=
  match request.approval with
  | none => refuse "approval required"
  | some approval =>
    if approval.candidateId ≠ request.candidate.id then refuse "approval candidate mismatch"
    else if approval.actionFingerprint ≠ fingerprint then refuse "approval action mismatch"
    else if approval.policyVersion ≠ g.policyVersion then refuse "approval policy mismatch"
    else do
      let matches? ← Prog.ofExcept
        (attestationMatches approval.attestation g.approvalKey (approvalFields approval))
      if !matches? then refuse "invalid approval attestation"
      else claimAndExecute request.candidate approval

/-- `TrustedCommitGateway.commit`. -/
def commit (g : TrustedCommitGateway) (request : CommitRequest) :
    Prog CommitOp CommitOp.Res CommitResult :=
  let verification := request.verification
  let candidate := request.candidate
  if verification.verifierId ∉ g.trustedVerifierIds then refuse "untrusted verifier"
  else if verification.candidateId ≠ candidate.id then refuse "verification candidate mismatch"
  else do
    let fingerprint ← Prog.ofExcept (actionFingerprint candidate)
    if verification.actionFingerprint ≠ fingerprint then refuse "verification action mismatch"
    else if verification.policyVersion ≠ g.policyVersion then
      refuse "verification policy mismatch"
    else do
      let matches? ← Prog.ofExcept (attestationMatches verification.attestation g.verificationKey
        (VerifierFirewall.signedFields verification.verifierId verification.candidateId
          verification.actionFingerprint verification.policyVersion verification.accepted
          verification.evidence))
      if !matches? then refuse "invalid verification attestation"
      else if !verification.accepted then refuse "verification failed"
      else if candidate.riskClass ∈ approvalClasses then approveAndExecute g request fingerprint
      else runExecutor candidate

/-! ### The shape of a commit -/

/-- What the verification checks establish before anything else happens. -/
structure Admitted (g : TrustedCommitGateway) (request : CommitRequest) : Prop where
  trusted : request.verification.verifierId ∈ g.trustedVerifierIds
  candidate : request.verification.candidateId = request.candidate.id
  action : actionFingerprint request.candidate = .ok request.verification.actionFingerprint
  policy : request.verification.policyVersion = g.policyVersion
  accepted : request.verification.accepted = true
  attested : signFields g.verificationKey
    (VerifierFirewall.signedFields request.verification.verifierId request.candidate.id
      request.verification.actionFingerprint g.policyVersion true
      request.verification.evidence) = .ok request.verification.attestation

omit [FloatText] in
/-- What the approval checks establish before the claim. -/
structure Approved (g : TrustedCommitGateway) (request : CommitRequest)
    (approval : ApprovalGrant) : Prop where
  given : request.approval = some approval
  candidate : approval.candidateId = request.candidate.id
  action : approval.actionFingerprint = request.verification.actionFingerprint
  policy : approval.policyVersion = g.policyVersion
  attested : signFields g.approvalKey (approvalFields approval) = .ok approval.attestation

omit [FloatText] in
private theorem approveAndExecute_cases (g : TrustedCommitGateway) (request : CommitRequest) :
    (∃ reason, approveAndExecute g request request.verification.actionFingerprint =
      refuse reason) ∨
    (∃ e, approveAndExecute g request request.verification.actionFingerprint = .raise e) ∨
    (∃ approval, g.Approved request approval ∧
      approveAndExecute g request request.verification.actionFingerprint =
        claimAndExecute request.candidate approval) := by
  unfold approveAndExecute
  cases ha : request.approval with
  | none => exact .inl ⟨_, rfl⟩
  | some approval =>
    by_cases hc : approval.candidateId = request.candidate.id
    swap
    · exact .inl ⟨_, if_pos hc⟩
    by_cases hf : approval.actionFingerprint = request.verification.actionFingerprint
    swap
    · simp only [hc, hf, ne_eq, not_true_eq_false, not_false_eq_true, ↓reduceIte]
      exact .inl ⟨_, rfl⟩
    by_cases hp : approval.policyVersion = g.policyVersion
    swap
    · simp only [hc, hf, hp, ne_eq, not_true_eq_false, not_false_eq_true, ↓reduceIte]
      exact .inl ⟨_, rfl⟩
    simp only [hc, hf, hp, ne_eq, not_true_eq_false, ↓reduceIte]
    cases hm : attestationMatches approval.attestation g.approvalKey
        (approvalFields approval) with
    | error e => exact .inr (.inl ⟨e, rfl⟩)
    | ok b =>
      cases b with
      | false => exact .inl ⟨_, rfl⟩
      | true =>
        have hs := attestationMatches_eq_true.mp hm
        exact .inr (.inr ⟨approval, ⟨ha, hc, hf, hp, hs⟩, rfl⟩)

/-- Everything a commit can be: a refusal, an error, or an execution after all checks. -/
theorem commit_cases (g : TrustedCommitGateway) (request : CommitRequest) :
    (∃ reason, g.commit request = refuse reason) ∨
    (∃ e, g.commit request = .raise e) ∨
    (g.Admitted request ∧ request.candidate.riskClass ∉ approvalClasses ∧
      g.commit request = runExecutor request.candidate) ∨
    (g.Admitted request ∧ request.candidate.riskClass ∈ approvalClasses ∧
      ∃ approval, g.Approved request approval ∧
        g.commit request = claimAndExecute request.candidate approval) := by
  unfold commit
  by_cases ht : request.verification.verifierId ∈ g.trustedVerifierIds
  swap
  · exact .inl ⟨_, if_pos ht⟩
  by_cases hc : request.verification.candidateId = request.candidate.id
  swap
  · simp only [ht, hc, not_true_eq_false, ne_eq, not_false_eq_true, ↓reduceIte]
    exact .inl ⟨_, rfl⟩
  simp only [ht, hc, not_true_eq_false, ne_eq, ↓reduceIte]
  cases hf : actionFingerprint request.candidate with
  | error e => exact .inr (.inl ⟨e, rfl⟩)
  | ok fingerprint =>
    rw [Prog.bind_ofExcept_ok]
    by_cases ha : request.verification.actionFingerprint = fingerprint
    swap
    · exact .inl ⟨_, if_pos ha⟩
    by_cases hp : request.verification.policyVersion = g.policyVersion
    swap
    · simp only [ha, hp, not_true_eq_false, not_false_eq_true, ↓reduceIte]
      exact .inl ⟨_, rfl⟩
    subst ha
    simp only [hp, not_true_eq_false, ↓reduceIte]
    cases hm : attestationMatches request.verification.attestation g.verificationKey
        (VerifierFirewall.signedFields request.verification.verifierId request.candidate.id
          request.verification.actionFingerprint g.policyVersion request.verification.accepted
          request.verification.evidence) with
    | error e => exact .inr (.inl ⟨e, rfl⟩)
    | ok b =>
      rw [Prog.bind_ofExcept_ok]
      cases b with
      | false => exact .inl ⟨_, rfl⟩
      | true =>
        cases hacc : request.verification.accepted with
        | false => exact .inl ⟨_, rfl⟩
        | true =>
          rw [hacc] at hm
          have hadm : g.Admitted request :=
            ⟨ht, hc, hf, hp, hacc, attestationMatches_eq_true.mp hm⟩
          by_cases hr : request.candidate.riskClass ∈ approvalClasses
          · simp only [Bool.not_true, Bool.false_eq_true, ↓reduceIte, hr]
            obtain h | h | ⟨approval, happ, h⟩ := approveAndExecute_cases g request
            · exact .inl h
            · exact .inr (.inl h)
            · exact .inr (.inr (.inr ⟨hadm, trivial, approval, happ, h⟩))
          · simp only [Bool.not_true, Bool.false_eq_true, ↓reduceIte, hr]
            exact .inr (.inr (.inl ⟨hadm, not_false, trivial⟩))

private theorem commit_of_admitted {g : TrustedCommitGateway} {request : CommitRequest}
    (h : g.Admitted request) : g.commit request =
      if request.candidate.riskClass ∈ approvalClasses then
        approveAndExecute g request request.verification.actionFingerprint
      else runExecutor request.candidate := by
  have hm := attestationMatches_eq_true.mpr h.attested
  simp only [commit, h.trusted, h.candidate, h.action, h.policy, h.accepted, hm,
    not_true_eq_false, ne_eq, ↓reduceIte, Prog.bind_ofExcept_ok, Bool.not_true,
    Bool.false_eq_true]

/-- An admitted request that needs no approval is executed. -/
theorem commit_of_notMem {g : TrustedCommitGateway} {request : CommitRequest}
    (h : g.Admitted request) (hr : request.candidate.riskClass ∉ approvalClasses) :
    g.commit request = runExecutor request.candidate := by
  rw [commit_of_admitted h, if_neg hr]

/-- An admitted and approved request claims its nonce and is executed. -/
theorem commit_of_approved {g : TrustedCommitGateway} {request : CommitRequest}
    {approval : ApprovalGrant} (h : g.Admitted request)
    (hr : request.candidate.riskClass ∈ approvalClasses) (ha : g.Approved request approval) :
    g.commit request = claimAndExecute request.candidate approval := by
  have hm := attestationMatches_eq_true.mpr ha.attested
  rw [commit_of_admitted h, if_pos hr]
  simp only [approveAndExecute, ha.given, ha.candidate, ha.action, ha.policy, hm,
    not_true_eq_false, ne_eq, ↓reduceIte, Prog.bind_ofExcept_ok, Bool.not_true,
    Bool.false_eq_true]

end TrustedCommitGateway

end C3RSpec.Authority
