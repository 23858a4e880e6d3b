import C3RSpec.Authority.AttestationSoundness
import C3RSpec.Authority.Fingerprint

/-!
# A commit of what was verified

`c3r/commit_gateway.py:89–147` after `c3r/verifier_firewall.py:48–74`. The gateway checks the
fields that the firewall signed, so the verification of a candidate always passes with it. A
candidate that was changed in between is refused when its canonical text changed.
-/

namespace C3RSpec.Authority

open Base

/-- The host of a commit: the nonces that are claimed, the reading of the clock and the executor. -/
structure CommitHost where
  claimed : NonceStore
  now : PyFloat
  executor : ActionCandidate → Except PyError Unit

/-- What the host answers. -/
def CommitHost.answer (host : CommitHost) : (o : CommitOp) → CommitOp.Res o
  | .clock => host.now
  | .claim nonce expiresAtEpochS now => (host.claimed.claim nonce expiresAtEpochS now).1
  | .execute candidate => host.executor candidate

/-- Only the order of the payload differs. -/
def Reordered (a b : ActionCandidate) : Prop :=
  { a with payload := b.payload } = b ∧ a.payload.Perm b.payload

namespace TrustedCommitGateway

section Commit

variable [Digest] [FloatText]

/-- The host ran the executor on the candidate of the request. -/
def Ran (g : TrustedCommitGateway) (request : CommitRequest) (host : CommitHost) : Prop :=
  ⟨.execute request.candidate, host.executor request.candidate⟩ ∈
    (Prog.play host.answer (g.commit request)).1

/-- The gateway refuses before it asks its host anything. -/
def Refuses (g : TrustedCommitGateway) (request : CommitRequest) : Prop :=
  ∃ reason, g.commit request = refuse reason

omit [FloatText] in
/-- The approval is given, names the action, is signed, and its nonce can be claimed now. -/
structure Grants (g : TrustedCommitGateway) (request : CommitRequest) (host : CommitHost)
    (approval : ApprovalGrant) : Prop where
  approved : g.Approved request approval
  unexpired : isExpired approval.expiresAtEpochS host.now = false
  unclaimed : approval.nonce ∉ host.claimed

/-! ### What a commit does under a host -/

section Play

variable {g : TrustedCommitGateway} {request : CommitRequest} {host : CommitHost}

omit [Digest] [FloatText] in
private theorem play_runExecutor (host : CommitHost) (c : ActionCandidate) :
    Prog.play host.answer (runExecutor c) =
      ([⟨.execute c, host.executor c⟩], (host.executor c).map fun _ ↦ ⟨true, "committed"⟩) := by
  unfold runExecutor
  simp only [Prog.play, CommitHost.answer]
  cases host.executor c <;> rfl

omit [Digest] [FloatText] in
private theorem committed_iff (x : Except PyError Unit) :
    x.map (fun _ ↦ (⟨true, "committed"⟩ : CommitResult)) = .ok ⟨true, "committed"⟩ ↔
      x = .ok () := by
  cases x with
  | ok u => exact iff_of_true rfl rfl
  | error e => exact iff_of_false (fun h ↦ (nomatch h)) fun h ↦ (nomatch h)

omit [Digest] [FloatText] in
private theorem claim_fst {claimed : NonceStore} {nonce : Text} {expires : Int} {now : PyFloat} :
    (claimed.claim nonce expires now).1 = true ↔
      isExpired expires now = false ∧ nonce ∉ claimed := by
  unfold NonceStore.claim
  split
  · next h =>
    rw [Bool.or_eq_true, decide_eq_true_eq] at h
    refine iff_of_false Bool.false_ne_true fun ⟨hexpired, hnonce⟩ ↦ ?_
    obtain h | h := h
    · rw [hexpired] at h
      cases h
    · exact hnonce h
  · next h =>
    rw [Bool.or_eq_true, decide_eq_true_eq, not_or, Bool.not_eq_true] at h
    exact iff_of_true rfl h

omit [Digest] [FloatText] in
private theorem execute_mem_runExecutor (host : CommitHost) (c : ActionCandidate) :
    (⟨.execute c, host.executor c⟩ : Event CommitOp CommitOp.Res) ∈
      (Prog.play host.answer (runExecutor c)).1 := by
  rw [play_runExecutor]
  exact List.mem_singleton_self _

omit [Digest] [FloatText] in
private theorem play_claimAndExecute (host : CommitHost) (c : ActionCandidate)
    (approval : ApprovalGrant) :
    Prog.play host.answer (claimAndExecute c approval) =
      let claimed := (host.claimed.claim approval.nonce approval.expiresAtEpochS host.now).1
      let rest := Prog.play host.answer
        (if claimed then runExecutor c else refuse "approval expired or replayed")
      (⟨.clock, host.now⟩ ::
        ⟨.claim approval.nonce approval.expiresAtEpochS host.now, claimed⟩ :: rest.1, rest.2) := by
  unfold claimAndExecute
  simp only [Prog.bind_perform, Prog.play, CommitHost.answer, Bool.not_eq_true', ← Bool.not_eq_true,
    ite_not]
  rfl

omit [Digest] [FloatText] in
private theorem execute_mem_claimAndExecute {host : CommitHost} {c : ActionCandidate}
    {approval : ApprovalGrant} :
    (⟨.execute c, host.executor c⟩ : Event CommitOp CommitOp.Res) ∈
        (Prog.play host.answer (claimAndExecute c approval)).1 ↔
      isExpired approval.expiresAtEpochS host.now = false ∧ approval.nonce ∉ host.claimed := by
  rw [← claim_fst, play_claimAndExecute]
  cases (host.claimed.claim approval.nonce approval.expiresAtEpochS host.now).1 with
  | true =>
    refine iff_of_true ?_ rfl
    exact List.mem_cons_of_mem _ (List.mem_cons_of_mem _ (execute_mem_runExecutor host c))
  | false => simp [refuse, Prog.play]

omit [Digest] [FloatText] in
private theorem committed_claimAndExecute {host : CommitHost} {c : ActionCandidate}
    {approval : ApprovalGrant} :
    (Prog.play host.answer (claimAndExecute c approval)).2 = .ok ⟨true, "committed"⟩ ↔
      (isExpired approval.expiresAtEpochS host.now = false ∧ approval.nonce ∉ host.claimed) ∧
        host.executor c = .ok () := by
  rw [← claim_fst, play_claimAndExecute]
  cases (host.claimed.claim approval.nonce approval.expiresAtEpochS host.now).1 with
  | true =>
    rw [← committed_iff]
    simp [play_runExecutor]
  | false => simp [refuse, Prog.play]

-- A commit that neither refuses nor raises has passed the checks before the claim.
private theorem ran_iff : g.Ran request host ↔ g.Admitted request ∧
    (request.candidate.riskClass ∈ approvalClasses →
      ∃ approval, g.Grants request host approval) := by
  constructor
  · intro h
    unfold Ran at h
    obtain ⟨reason, hc⟩ | ⟨e, hc⟩ | ⟨ha, hr, -⟩ | ⟨ha, -, approval, happroved, hc⟩ :=
      g.commit_cases request
    · rw [hc] at h
      cases h
    · rw [hc] at h
      cases h
    · exact ⟨ha, fun hmem ↦ absurd hmem hr⟩
    · rw [hc, execute_mem_claimAndExecute] at h
      exact ⟨ha, fun _ ↦ ⟨approval, happroved, h.1, h.2⟩⟩
  · rintro ⟨ha, hgrant⟩
    unfold Ran
    by_cases hr : request.candidate.riskClass ∈ approvalClasses
    · obtain ⟨approval, hgrant⟩ := hgrant hr
      rw [commit_of_approved ha hr hgrant.approved, execute_mem_claimAndExecute]
      exact ⟨hgrant.unexpired, hgrant.unclaimed⟩
    · rw [commit_of_notMem ha hr]
      exact execute_mem_runExecutor host request.candidate

private theorem committed_iff_ran :
    (Prog.play host.answer (g.commit request)).2 = .ok ⟨true, "committed"⟩ ↔
      g.Ran request host ∧ host.executor request.candidate = .ok () := by
  unfold Ran
  obtain ⟨reason, hc⟩ | ⟨e, hc⟩ | ⟨-, -, hc⟩ | ⟨-, -, approval, -, hc⟩ := g.commit_cases request
  · simp [hc, refuse, Prog.play]
  · simp [hc, Prog.play]
  · rw [hc, ← committed_iff, play_runExecutor]
    simp
  · rw [hc, committed_claimAndExecute, execute_mem_claimAndExecute]

end Play

/-! ### What the firewall's result is admitted for -/

section Verified

variable {g : TrustedCommitGateway} {fw : VerifierFirewall (Except PyError)} {c : ActionCandidate}
  {r : VerificationResult}

/-- The gateway shares the key and the version of the firewall and trusts its verifier of `c`. -/
structure Shares (g : TrustedCommitGateway) (fw : VerifierFirewall (Except PyError))
    (c : ActionCandidate) : Prop where
  key : g.verificationKey = fw.attestationKey
  version : g.policyVersion = fw.policy.version
  trusted : fw.policy.select c ∈ g.trustedVerifierIds

-- The signed fields of the firewall are the ones that the gateway checks.
private theorem admitted_iff (hg : g.Shares fw c) (hr : fw.verify c = .ok r) {c' : ActionCandidate}
    {approval : Option ApprovalGrant} : g.Admitted ⟨c', r, approval⟩ ↔
      r.accepted = true ∧ c'.id = c.id ∧ actionFingerprint c' = actionFingerprint c := by
  obtain ⟨verifier, decision, fingerprint, attestation, -, -, hf, hsigned, rfl⟩ :=
    VerifierFirewall.verify_eq_ok hr
  constructor
  · intro h
    exact ⟨h.accepted, h.candidate.symm, h.action.trans hf.symm⟩
  · rintro ⟨haccepted, hid, haction⟩
    change decision.accepted = true at haccepted
    refine ⟨hg.trusted, hid.symm, haction.trans hf, hg.version.symm, haccepted, ?_⟩
    rw [haccepted] at hsigned
    rw [hg.key, hg.version]
    exact hid ▸ hsigned

private theorem not_refuse_of_admitted {request : CommitRequest} (ha : g.Admitted request)
    (hgiven : request.candidate.riskClass ∈ approvalClasses →
      ∃ approval, g.Approved request approval) : ¬ g.Refuses request := by
  rintro ⟨reason, h⟩
  by_cases hr : request.candidate.riskClass ∈ approvalClasses
  · obtain ⟨approval, happroved⟩ := hgiven hr
    rw [commit_of_approved ha hr happroved] at h
    cases h
  · rw [commit_of_notMem ha hr] at h
    cases h

private theorem refuses_of_candidate {request : CommitRequest}
    (h : request.verification.candidateId ≠ request.candidate.id) : g.Refuses request := by
  unfold Refuses
  by_cases ht : request.verification.verifierId ∈ g.trustedVerifierIds
  · exact ⟨_, (if_neg (not_not_intro ht)).trans (if_pos h)⟩
  · exact ⟨_, if_pos ht⟩

-- Both fingerprints exist, so a request with another one is refused and raises nothing.
private theorem refuses_of_action {request : CommitRequest}
    (h : actionFingerprint request.candidate ≠ .ok request.verification.actionFingerprint) :
    g.Refuses request := by
  by_cases ht : request.verification.verifierId ∈ g.trustedVerifierIds
  swap
  · exact ⟨_, if_pos ht⟩
  by_cases hc : request.verification.candidateId = request.candidate.id
  swap
  · exact refuses_of_candidate hc
  obtain ⟨canonical, encoded, -, -, hf⟩ := exists_actionFingerprint request.candidate
  have hne : request.verification.actionFingerprint ≠ Digest.sha256Hex encoded :=
    fun he ↦ h (hf.trans (congrArg Except.ok he.symm))
  simp only [Refuses, commit, ht, hc, hf, hne, not_true_eq_false, ne_eq, not_false_eq_true,
    ↓reduceIte, Prog.bind_ofExcept_ok]
  exact ⟨_, rfl⟩

private theorem refuses_of_rejected (hg : g.Shares fw c) (hr : fw.verify c = .ok r)
    (hrejected : r.accepted = false) (c' : ActionCandidate) (approval : Option ApprovalGrant) :
    g.Refuses ⟨c', r, approval⟩ := by
  by_cases hc : r.candidateId = c'.id
  swap
  · exact refuses_of_candidate hc
  by_cases hf : actionFingerprint c' = .ok r.actionFingerprint
  swap
  · exact refuses_of_action hf
  obtain ⟨verifier, decision, fingerprint, attestation, -, -, -, hsigned, rfl⟩ :=
    VerifierFirewall.verify_eq_ok hr
  have hm := attestationMatches_eq_true.mpr hsigned
  simp only at hc hf hrejected
  rw [hc, hrejected] at hm
  simp only [Refuses, commit, hg.trusted, hg.key, hg.version, hc, hf, hrejected, hm,
    not_true_eq_false, ne_eq, ↓reduceIte, Prog.bind_ofExcept_ok]
  exact ⟨_, rfl⟩

/-- The refusals of what was verified, when it is another candidate that is committed. -/
theorem refuses_iff (hg : g.Shares fw c) (hr : fw.verify c = .ok r) (hkey : 16 ≤ g.approvalKey.size)
    (c' : ActionCandidate) : (∀ approval, g.Refuses ⟨c', r, approval⟩) ↔
      ¬ (r.accepted = true ∧ c'.id = c.id ∧ actionFingerprint c' = actionFingerprint c) := by
  constructor
  · intro h hsame
    obtain ⟨verifier, decision, fingerprint, attestation, -, -, hf, hsigned, rfl⟩ :=
      VerifierFirewall.verify_eq_ok hr
    -- the fields of the approval are among those the firewall signed
    have hscalar := (exists_signFields_iff.mp ⟨_, hsigned⟩).2
    simp only [VerifierFirewall.signedFields, List.mem_cons, List.not_mem_nil, or_false,
      forall_eq_or_imp, forall_eq] at hscalar
    obtain ⟨-, hid, hfingerprint, hversion, -, -⟩ := hscalar
    obtain ⟨tag, htag⟩ := exists_approval hkey hid hfingerprint hversion
    let approval : ApprovalGrant := ⟨c.id, fingerprint, fw.policy.version, [], [], 0, tag⟩
    have hadmitted : g.Admitted ⟨c', _, some approval⟩ := (admitted_iff hg hr).mpr hsame
    refine not_refuse_of_admitted hadmitted (fun _ ↦ ⟨approval, ?_⟩) (h (some approval))
    exact ⟨rfl, hsame.2.1.symm, rfl, hg.version.symm, htag⟩
  · intro h approval
    by_cases hid : c'.id = c.id
    · by_cases hf : actionFingerprint c' = actionFingerprint c
      · refine refuses_of_rejected hg hr ?_ c' approval
        exact Bool.eq_false_of_not_eq_true fun haccepted ↦ h ⟨haccepted, hid, hf⟩
      · refine refuses_of_action fun he ↦ hf ?_
        obtain ⟨verifier, decision, fingerprint, attestation, -, -, hfc, -, rfl⟩ :=
          VerifierFirewall.verify_eq_ok hr
        exact he.trans hfc.symm
    · refine refuses_of_candidate fun he ↦ hid ?_
      obtain ⟨verifier, decision, fingerprint, attestation, -, -, -, -, rfl⟩ :=
        VerifierFirewall.verify_eq_ok hr
      exact he.symm

end Verified

/-- A verification of `c` commits `c` exactly when it was accepted and, where the risk class asks
for it, approved. A candidate that differs in more than the order of its payload is refused unless
the verification was accepted and the two have one id and one canonical text. -/
theorem commit_attested_iff (hinj : Function.Injective Digest.sha256Hex) {g : TrustedCommitGateway}
    {fw : VerifierFirewall (Except PyError)} {c : ActionCandidate} {r : VerificationResult}
    {verifier : ActionCandidate → Except PyError VerifierDecision} {decision : VerifierDecision}
    (hverifier : fw.verifiers.get? (fw.policy.select c) = some verifier)
    (hdecision : verifier c = .ok decision) (hr : fw.verify c = .ok r) (hg : g.Shares fw c)
    (hkey : 16 ≤ g.approvalKey.size) :
    (∀ approval host, (g.Ran ⟨c, r, approval⟩ host ↔ decision.accepted = true ∧
        (c.riskClass ∈ approvalClasses → ∃ grant, g.Grants ⟨c, r, approval⟩ host grant)) ∧
      ((Prog.play host.answer (g.commit ⟨c, r, approval⟩)).2 = .ok ⟨true, "committed"⟩ ↔
        g.Ran ⟨c, r, approval⟩ host ∧ host.executor c = .ok ())) ∧
    ∀ c', ¬ Reordered c c' → ((∀ approval, g.Refuses ⟨c', r, approval⟩) ↔
      ¬ (decision.accepted = true ∧ c'.id = c.id ∧ WrittenAlike c' c)) := by
  have haccepted : r.accepted = decision.accepted := by
    obtain ⟨verifier', decision', fingerprint, attestation, hv, hd, -, -, rfl⟩ :=
      VerifierFirewall.verify_eq_ok hr
    rw [hverifier, Option.some.injEq] at hv
    subst hv
    rw [hdecision, Except.ok.injEq] at hd
    rw [hd]
  constructor
  · intro approval host
    refine ⟨?_, committed_iff_ran⟩
    rw [ran_iff, admitted_iff hg hr, haccepted]
    simp
  · intro c' _
    rw [refuses_iff hg hr hkey, haccepted, actionFingerprint_eq_iff hinj]

end Commit

/-! ### A character and its surrogates -/

section Surrogates

attribute [local instance] Digest.transparent FloatText.fraction

/-- A gateway that trusts the sole verifier. -/
def soleGateway : TrustedCommitGateway :=
  ⟨{Text.ofString "checker"}, zeroKey, zeroKey, Text.ofString "policy-v1", by simp⟩

/-- The read-only action with a note. -/
def notedAction (note : Text) : ActionCandidate :=
  { readAction with payload := [(Text.ofString "note", note)] }

private theorem soleGateway_shares (c : ActionCandidate) :
    soleGateway.Shares (soleVerifier ⟨true, []⟩) c :=
  ⟨rfl, rfl, Finset.mem_singleton.mpr rfl⟩

private theorem exists_verify_noted (note : Text) :
    ∃ r, (soleVerifier ⟨true, []⟩).verify (notedAction note) = .ok r := by
  obtain ⟨canonical, encoded, -, -, hf⟩ := exists_actionFingerprint (notedAction note)
  have hfields : ∀ f ∈ VerifierFirewall.signedFields "checker" "read" (Digest.sha256Hex encoded)
      "policy-v1" true [], f.IsScalar := by
    simp only [VerifierFirewall.signedFields, List.forall_mem_cons]
    refine ⟨?_, ?_, ?_, ?_, ?_, ?_, List.forall_mem_nil _⟩
    all_goals apply Text.isScalar_of_isAscii
    · decide
    · decide
    · exact isAscii_of_hex (isHex_actionFingerprint hf)
    · decide
    · decide
    · decide
  obtain ⟨tag, htag⟩ := exists_signFields_iff.mpr ⟨show 16 ≤ zeroKey.size by decide, hfields⟩
  exact ⟨_, VerifierFirewall.verify_of_signed rfl rfl hf htag⟩

/-- A noted action is committed after its verification. -/
theorem commit_attested_iff_noted : ∃ r,
    (soleVerifier ⟨true, []⟩).verify (notedAction "hi") = .ok r ∧
    ∀ c', ¬ Reordered (notedAction "hi") c' → ((∀ approval, soleGateway.Refuses ⟨c', r, approval⟩) ↔
      ¬ (c'.id = "read" ∧ WrittenAlike c' (notedAction "hi"))) := by
  obtain ⟨r, hr⟩ := exists_verify_noted "hi"
  refine ⟨r, hr, fun c' hc' ↦ ?_⟩
  have hattested :=
    commit_attested_iff hexBytes_injective rfl rfl hr (soleGateway_shares _) (by decide)
  rw [hattested.2 c' hc']
  simp only [true_and]
  rfl

/-- A note that was verified as one character and then split into its surrogates is committed. -/
theorem not_refuses_surrogates : Function.Injective Digest.sha256Hex ∧
    ∃ r, (soleVerifier ⟨true, []⟩).verify (notedAction [0x1F600]) = .ok r ∧
      soleGateway.Shares (soleVerifier ⟨true, []⟩) (notedAction [0x1F600]) ∧
      ¬ Reordered (notedAction [0x1F600]) (notedAction [0xD83D, 0xDE00]) ∧
      soleGateway.commit ⟨notedAction [0xD83D, 0xDE00], r, none⟩ =
        runExecutor (notedAction [0xD83D, 0xDE00]) := by
  obtain ⟨r, hr⟩ := exists_verify_noted [0x1F600]
  refine ⟨hexBytes_injective, r, hr, soleGateway_shares _, fun h ↦ ?_, ?_⟩
  · exact absurd (List.singleton_perm_singleton.mp h.2) (by decide)
  have halike : WrittenAlike (notedAction [0xD83D, 0xDE00]) (notedAction [0x1F600]) :=
    ⟨rfl, rfl, rfl, by decide, rfl, rfl⟩
  have hrisk : readAction.riskClass ∉ approvalClasses := by decide
  refine commit_of_notMem ((admitted_iff (soleGateway_shares _) hr).mpr
    ⟨?_, rfl, actionFingerprint_congr halike⟩) hrisk
  obtain ⟨verifier, decision, fingerprint, attestation, hverifier, hdecision, -, -, rfl⟩ :=
    VerifierFirewall.verify_eq_ok hr
  cases hverifier
  cases hdecision
  rfl

end Surrogates

end TrustedCommitGateway

end C3RSpec.Authority
