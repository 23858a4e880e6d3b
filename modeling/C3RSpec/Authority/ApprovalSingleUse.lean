import C3RSpec.Authority.AttestationSoundness

/-!
# Single use of approvals

Any number of gateways share one nonce store and their commit calls interleave
(`c3r/commit_gateway.py:45–57,89–147`). Each call is a thread; reading the clock, claiming a
nonce and running the executor are its atomic steps. The claim ledger ties the store to the
claims that succeeded, and the shape of a commit ties every execution to its own claim.
-/

namespace C3RSpec.Authority

open Base

/-- A commit call: its gateway and its request. -/
structure CommitCall where
  gateway : TrustedCommitGateway
  request : CommitRequest

/-- What the host supplies at one step: a clock reading and how an executor ends. -/
structure CommitInput where
  now : PyFloat
  outcome : Except PyError Unit

/-- Commit calls over one nonce store. -/
abbrev CommitPool := Pool CommitOp CommitOp.Res CommitCall CommitResult NonceStore

/-- The shared store and the host answer one operation. -/
def answerCommit (claimed : NonceStore) (_index : Nat) (input : CommitInput) :
    (o : CommitOp) → Option (o.Res × NonceStore)
  | .clock => some (input.now, claimed)
  | .claim nonce expires now => some (claimed.claim nonce expires now)
  | .execute _ => some (input.outcome, claimed)

/-- The nonce that an event adds to the store. -/
def claimedNonce? : Event CommitOp CommitOp.Res → Option Text
  | ⟨.claim nonce _ _, true⟩ => some nonce
  | _ => none

/-- The nonces claimed so far, in order. -/
def claimedNonces (history : List (Nat × Event CommitOp CommitOp.Res)) : List Text :=
  history.filterMap fun e ↦ claimedNonce? e.2

/-- The event at position `p` runs the executor on a candidate that needs approval, in a call
whose approval carries `nonce`. -/
def ExecutesAt (s : CommitPool) (p : Nat) (nonce : Text) : Prop :=
  ∃ i c outcome t approval, s.history[p]? = some (i, ⟨.execute c, outcome⟩) ∧
    c.riskClass ∈ TrustedCommitGateway.approvalClasses ∧ s.threads[i]? = some t ∧
    t.label.request.approval = some approval ∧ approval.nonce = nonce

/-- The store holds exactly the claimed nonces, each claimed once and before its expiry. -/
structure ClaimLedger (s : CommitPool) : Prop where
  nodup : (claimedNonces s.history).Nodup
  store : ∀ nonce, nonce ∈ s.shared ↔ nonce ∈ claimedNonces s.history
  unexpired : ∀ i nonce expires now, (i, ⟨.claim nonce expires now, true⟩) ∈ s.history →
    isExpired expires now = false

private theorem claimedNonces_snoc (history : List (Nat × Event CommitOp CommitOp.Res))
    (e : Nat × Event CommitOp CommitOp.Res) :
    claimedNonces (history ++ [e]) = claimedNonces history ++ (claimedNonce? e.2).toList := by
  simp only [claimedNonces, List.filterMap_append, List.filterMap_cons, List.filterMap_nil]
  cases claimedNonce? e.2 <;> rfl

/-- An event that claims nothing keeps the ledger. -/
private theorem ClaimLedger.snoc_other {s s' : CommitPool} (h : ClaimLedger s)
    {e : Nat × Event CommitOp CommitOp.Res} (he : claimedNonce? e.2 = none)
    (hh : s'.history = s.history ++ [e]) (hs : s'.shared = s.shared) : ClaimLedger s' := by
  have hn : claimedNonces s'.history = claimedNonces s.history := by
    rw [hh, claimedNonces_snoc, he, Option.toList_none, List.append_nil]
  refine ⟨by rw [hn]; exact h.nodup, by rw [hn, hs]; exact h.store, ?_⟩
  intro i nonce expires now hm
  rw [hh, List.mem_append, List.mem_singleton] at hm
  obtain hm | hm := hm
  · exact h.unexpired i nonce expires now hm
  · rw [← hm] at he
    cases he

/-- A successful claim extends the ledger. -/
private theorem ClaimLedger.snoc_claim {s s' : CommitPool} (h : ClaimLedger s)
    {i : Nat} {nonce : Text} {expires : Int} {now : PyFloat}
    (hc : s.shared.claim nonce expires now = (true, s'.shared))
    (hh : s'.history = s.history ++ [(i, ⟨.claim nonce expires now, true⟩)]) :
    ClaimLedger s' := by
  obtain ⟨hexp, hfresh, hshared⟩ := NonceStore.claim_eq_true hc
  have hn : claimedNonces s'.history = claimedNonces s.history ++ [nonce] := by
    rw [hh, claimedNonces_snoc]
    rfl
  refine ⟨?_, ?_, ?_⟩
  · rw [hn]
    refine List.nodup_append.mpr ⟨h.nodup, List.nodup_singleton nonce, ?_⟩
    intro a ha b hb hab
    rw [List.mem_singleton] at hb
    subst hb
    subst hab
    exact hfresh ((h.store a).mpr ha)
  · intro n
    rw [hn, hshared, Finset.mem_insert, h.store, List.mem_append, List.mem_singleton, or_comm]
  · intro j n x t hm
    rw [hh, List.mem_append, List.mem_singleton] at hm
    obtain hm | hm := hm
    · exact h.unexpired j n x t hm
    · cases hm
      exact hexp

private theorem split_before_last {E : Type} {a b x : E} {l r : List E}
    (h : l ++ x :: r = [a, b, x]) (ha : a ≠ x) (hb : b ≠ x) : l = [a, b] ∧ r = [] := by
  match l, h with
  | [], h => exact absurd (List.cons.inj h).1.symm ha
  | [_], h => exact absurd (List.cons.inj (List.cons.inj h).2).1.symm hb
  | [_, _], h => simpa [and_assoc] using h
  | _ :: _ :: _ :: _, h =>
    have hlen := congrArg List.length h
    simp at hlen

section Runs

variable [Digest] [FloatText]

/-- One step of the calls that share a store. -/
def commitStep : CommitPool → PoolAction CommitCall CommitInput → Option CommitPool :=
  Pool.step (fun call ↦ call.gateway.commit call.request) answerCommit

/-- Every step keeps the ledger. -/
theorem claimLedger_step {s s' : CommitPool} {a : PoolAction CommitCall CommitInput}
    (hs : ClaimLedger s) (h : commitStep s a = some s') : ClaimLedger s' := by
  obtain ⟨label, -, rfl⟩ | ⟨i, input, t, o, k, r, shared, -, -, -, hh, rfl⟩ :=
    Pool.step_cases _ _ h
  · exact ⟨hs.nodup, hs.store, hs.unexpired⟩
  · cases o with
    | clock =>
      cases hh
      exact hs.snoc_other rfl rfl rfl
    | execute c =>
      cases hh
      exact hs.snoc_other rfl rfl rfl
    | claim nonce expires now =>
      have hc : s.shared.claim nonce expires now = (r, shared) := Option.some.inj hh
      cases r with
      | true => exact hs.snoc_claim hc rfl
      | false => exact hs.snoc_other rfl rfl (NonceStore.claim_eq_false hc)

/-- Every reachable pool is coherent and has a claim ledger. -/
theorem reachable_ledger {as : List (PoolAction CommitCall CommitInput)} {s : CommitPool}
    (h : runAll commitStep (Pool.idle ∅) as = some s) :
    Pool.Coherent (fun call ↦ call.gateway.commit call.request) s ∧ ClaimLedger s := by
  have keep : ∀ (s : CommitPool) a s',
      (Pool.Coherent (fun call ↦ call.gateway.commit call.request) s ∧ ClaimLedger s) →
      commitStep s a = some s' →
      (Pool.Coherent (fun call ↦ call.gateway.commit call.request) s' ∧ ClaimLedger s') :=
    fun s a s' hs hstep ↦
      ⟨Pool.coherent_step _ _ s a s' hs.1 hstep, claimLedger_step hs.2 hstep⟩
  have hidle : ClaimLedger (Pool.idle ∅) :=
    ⟨List.nodup_nil, by simp [Pool.idle, claimedNonces], by simp [Pool.idle]⟩
  exact runAll_invariant keep ⟨Pool.coherent_idle _ _, hidle⟩ h

/-- An executed candidate that needs approval went through exactly one reading of the clock and
one successful claim of its approval's nonce. -/
theorem log_of_execute {g : TrustedCommitGateway} {request : CommitRequest}
    {events : List (Event CommitOp CommitOp.Res)}
    {rest : Prog CommitOp CommitOp.Res CommitResult} {c : ActionCandidate}
    {outcome : Except PyError Unit} (h : Prog.Runs (g.commit request) events rest)
    (hm : (⟨.execute c, outcome⟩ : Event CommitOp CommitOp.Res) ∈ events)
    (hr : c.riskClass ∈ TrustedCommitGateway.approvalClasses) :
    c = request.candidate ∧ ∃ approval now, request.approval = some approval ∧
      events = [⟨.clock, now⟩, ⟨.claim approval.nonce approval.expiresAtEpochS now, true⟩,
        ⟨.execute c, outcome⟩] := by
  obtain ⟨reason, hc⟩ | ⟨e, hc⟩ | ⟨-, hn, hc⟩ | ⟨-, -, approval, happ, hc⟩ :=
    g.commit_cases request
  · rw [hc] at h
    rw [(Prog.runs_ret.mp h).1] at hm
    cases hm
  · rw [hc] at h
    rw [(Prog.runs_raise.mp h).1] at hm
    cases hm
  · rw [hc] at h
    rw [TrustedCommitGateway.execute_of_runs h hm] at hr
    exact absurd hr hn
  · rw [hc] at h
    obtain ⟨rfl, -⟩ | ⟨now, k, rfl, -⟩ | ⟨now, rfl, -⟩ | ⟨now, tail, rfl, htail⟩ :=
      TrustedCommitGateway.runs_claimAndExecute h
    · cases hm
    · simp at hm
    · simp at hm
    · simp only [List.mem_cons, Event.mk.injEq, reduceCtorEq, false_and, false_or] at hm
      have hcand := TrustedCommitGateway.execute_of_runs htail hm
      refine ⟨hcand, approval, now, happ.given, ?_⟩
      obtain ⟨rfl, -⟩ | ⟨rfl, -⟩ | ⟨e, rfl, -⟩ := TrustedCommitGateway.runs_runExecutor htail
      · cases hm
      · rw [List.mem_singleton.mp hm]
      · rw [List.mem_singleton.mp hm]

/-- A call that returned without committing ran no executor and claimed no nonce. -/
theorem log_of_refused {g : TrustedCommitGateway} {request : CommitRequest}
    {events : List (Event CommitOp CommitOp.Res)} {reason : String}
    (h : Prog.Runs (g.commit request) events (.ret ⟨false, reason⟩)) :
    ∀ e ∈ events, (∀ c outcome, e ≠ ⟨.execute c, outcome⟩) ∧ claimedNonce? e = none := by
  have hexec : ∀ {c tail}, ¬ Prog.Runs (TrustedCommitGateway.runExecutor c) tail
      (.ret ⟨false, reason⟩) := by
    intro c tail hrun
    obtain ⟨-, hq⟩ | ⟨-, hq⟩ | ⟨e, -, hq⟩ := TrustedCommitGateway.runs_runExecutor hrun
    · cases hq
    · cases hq
    · cases hq
  obtain ⟨_, hc⟩ | ⟨e, hc⟩ | ⟨-, -, hc⟩ | ⟨-, -, approval, -, hc⟩ := g.commit_cases request
  · rw [hc] at h
    simp [(Prog.runs_ret.mp h).1]
  · rw [hc] at h
    cases (Prog.runs_raise.mp h).2
  · rw [hc] at h
    exact absurd h hexec
  · rw [hc] at h
    obtain ⟨-, hq⟩ | ⟨now, k, -, hq⟩ | ⟨now, rfl, -⟩ | ⟨now, tail, -, htail⟩ :=
      TrustedCommitGateway.runs_claimAndExecute h
    · cases hq
    · cases hq
    · simp [claimedNonce?]
    · exact absurd htail hexec


/-- What single use means in a state of the shared store. -/
structure SingleUse (s : CommitPool) : Prop where
  /-- No nonce carries two executions. -/
  once : ∀ nonce p q, ExecutesAt s p nonce → ExecutesAt s q nonce → p = q
  /-- Before its execution a call did one thing: claim its approval's nonce in time. -/
  claimedFirst : ∀ pre post i c outcome,
    s.history = pre ++ (i, ⟨.execute c, outcome⟩) :: post →
    c.riskClass ∈ TrustedCommitGateway.approvalClasses →
    ∃ t approval now, s.threads[i]? = some t ∧ t.label.request.candidate = c ∧
      t.label.request.approval = some approval ∧
      Pool.project i pre = [⟨.clock, now⟩,
        ⟨.claim approval.nonce approval.expiresAtEpochS now, true⟩] ∧
      isExpired approval.expiresAtEpochS now = false
  /-- A call that returned without committing executed and claimed nothing. -/
  refusedClean : ∀ i t reason, s.threads[i]? = some t → t.rest = .ret ⟨false, reason⟩ →
    ∀ e, (i, e) ∈ s.history → (∀ c outcome, e ≠ ⟨.execute c, outcome⟩) ∧ claimedNonce? e = none
  /-- The store holds what successful claims put there. -/
  store : ∀ nonce, nonce ∈ s.shared ↔ nonce ∈ claimedNonces s.history
  /-- Nothing leaves the store, whatever happens next. -/
  kept : ∀ as s', runAll commitStep s as = some s' → s.shared ⊆ s'.shared

private theorem thread_of_event {s : CommitPool}
    (hco : Pool.Coherent (fun call ↦ call.gateway.commit call.request) s) {i : Nat}
    {e : Event CommitOp CommitOp.Res} (h : (i, e) ∈ s.history) :
    ∃ t, s.threads[i]? = some t ∧ t.log = Pool.project i s.history ∧
      Prog.Runs (t.label.gateway.commit t.label.request) t.log t.rest := by
  have hi := hco.bound _ h
  have ht : s.threads[i]? = some (s.threads.get ⟨i, hi⟩) := List.getElem?_eq_getElem hi
  exact ⟨_, ht, hco.logs i _ ht, hco.runs i _ ht⟩

private theorem execution_in_log {s : CommitPool}
    (hco : Pool.Coherent (fun call ↦ call.gateway.commit call.request) s)
    {pre post : List (Nat × Event CommitOp CommitOp.Res)} {i : Nat} {c : ActionCandidate}
    {outcome : Except PyError Unit}
    (hsplit : s.history = pre ++ (i, ⟨.execute c, outcome⟩) :: post)
    (hr : c.riskClass ∈ TrustedCommitGateway.approvalClasses) :
    ∃ t approval now, s.threads[i]? = some t ∧ t.label.request.candidate = c ∧
      t.label.request.approval = some approval ∧
      Pool.project i pre = [⟨.clock, now⟩,
        ⟨.claim approval.nonce approval.expiresAtEpochS now, true⟩] ∧
      Pool.project i post = [] := by
  have hmem : (i, ⟨.execute c, outcome⟩) ∈ s.history := by simp [hsplit]
  obtain ⟨t, ht, hlog, hrun⟩ := thread_of_event hco hmem
  have hin : (⟨.execute c, outcome⟩ : Event CommitOp CommitOp.Res) ∈ t.log := by
    rw [hlog]
    exact Pool.mem_project.mpr hmem
  obtain ⟨hc, approval, now, happ, hevents⟩ := log_of_execute hrun hin hr
  have hproj : Pool.project i pre ++ ⟨.execute c, outcome⟩ :: Pool.project i post =
      [⟨.clock, now⟩, ⟨.claim approval.nonce approval.expiresAtEpochS now, true⟩,
        ⟨.execute c, outcome⟩] := by
    rw [← hevents, hlog, hsplit, Pool.project_append]
    simp [Pool.project]
  refine ⟨t, approval, now, ht, hc.symm, happ, ?_⟩
  exact split_before_last hproj (by simp) (by simp)

private theorem execution_unique {s : CommitPool}
    (hco : Pool.Coherent (fun call ↦ call.gateway.commit call.request) s) {p q i : Nat}
    {c d : ActionCandidate} {outcome outcome' : Except PyError Unit}
    (hp : s.history[p]? = some (i, ⟨.execute c, outcome⟩))
    (hq : s.history[q]? = some (i, ⟨.execute d, outcome'⟩))
    (hr : c.riskClass ∈ TrustedCommitGateway.approvalClasses) : ¬ p < q := by
  intro hpq
  obtain ⟨pre, post, hsplit, hlen⟩ := split_at_position hp
  obtain ⟨-, -, -, -, -, -, -, hpost⟩ := execution_in_log hco hsplit hr
  have hmem : (i, ⟨.execute d, outcome'⟩) ∈ post := by
    rw [hsplit, List.getElem?_append_right (by omega)] at hq
    obtain ⟨n, hn⟩ : ∃ n, q - pre.length = n + 1 := ⟨q - pre.length - 1, by omega⟩
    rw [hn, List.getElem?_cons_succ] at hq
    exact List.mem_of_getElem? hq
  have := Pool.mem_project.mpr hmem
  rw [hpost] at this
  cases this

private theorem shared_subset_step {s s' : CommitPool} {a : PoolAction CommitCall CommitInput}
    (h : commitStep s a = some s') : s.shared ⊆ s'.shared := by
  obtain ⟨label, -, rfl⟩ | ⟨i, input, t, o, k, r, shared, -, -, -, hh, rfl⟩ :=
    Pool.step_cases _ _ h
  · exact Finset.Subset.refl _
  · cases o with
    | clock =>
      cases hh
      exact Finset.Subset.refl _
    | execute c =>
      cases hh
      exact Finset.Subset.refl _
    | claim nonce expires now =>
      have hc : s.shared.claim nonce expires now = (r, shared) := Option.some.inj hh
      cases r with
      | true =>
        rw [(NonceStore.claim_eq_true hc).2.2]
        exact Finset.subset_insert _ _
      | false =>
        rw [NonceStore.claim_eq_false hc]

private theorem claim_of_execution {s : CommitPool}
    (hco : Pool.Coherent (fun call ↦ call.gateway.commit call.request) s) {p : Nat}
    {nonce : Text} (h : ExecutesAt s p nonce) :
    ∃ i c outcome, ∃ (k : Nat) (e : Event CommitOp CommitOp.Res),
      s.history[p]? = some (i, ⟨.execute c, outcome⟩) ∧
      c.riskClass ∈ TrustedCommitGateway.approvalClasses ∧ s.history[k]? = some (i, e) ∧ claimedNonce? e = some nonce := by
  obtain ⟨i, c, outcome, t, approval, hp, hr, ht, happ, rfl⟩ := h
  obtain ⟨pre, post, hsplit, -⟩ := split_at_position hp
  obtain ⟨t', approval', now, ht', -, happ', hpre, -⟩ := execution_in_log hco hsplit hr
  cases ht.symm.trans ht'
  cases happ.symm.trans happ'
  have hm : (i, ⟨.claim approval.nonce approval.expiresAtEpochS now, true⟩) ∈ pre := by
    rw [← Pool.mem_project, hpre]
    simp
  obtain ⟨k, hk⟩ := List.mem_iff_getElem?.mp (hsplit ▸ List.mem_append_left _ hm :
    (i, ⟨.claim approval.nonce approval.expiresAtEpochS now, true⟩) ∈ s.history)
  exact ⟨i, c, outcome, k, _, hp, hr, hk, rfl⟩

/-- Approvals are used once over every run of every number of calls. -/
theorem approvals_single_use {as : List (PoolAction CommitCall CommitInput)} {s : CommitPool}
    (h : runAll commitStep (Pool.idle ∅) as = some s) : SingleUse s := by
  obtain ⟨hco, hledger⟩ := reachable_ledger h
  refine ⟨?_, ?_, ?_, hledger.store, ?_⟩
  · intro nonce p q hp hq
    obtain ⟨i, c, outcome, k, e, hpi, hri, hk, hke⟩ := claim_of_execution hco hp
    obtain ⟨j, d, outcome', l, e', hqj, hrj, hl, hle⟩ := claim_of_execution hco hq
    -- one successful claim of the nonce, so one call
    have hkl := position_unique hledger.nodup hk hl hke hle
    subst hkl
    cases hk.symm.trans hl
    have h1 := execution_unique hco hpi hqj hri
    have h2 := execution_unique hco hqj hpi hrj
    omega
  · intro pre post i c outcome hsplit hr
    obtain ⟨t, approval, now, ht, hc, happ, hpre, -⟩ := execution_in_log hco hsplit hr
    refine ⟨t, approval, now, ht, hc, happ, hpre, hledger.unexpired i approval.nonce _ _ ?_⟩
    rw [hsplit]
    refine List.mem_append_left _ (Pool.mem_project.mp ?_)
    rw [hpre]
    simp
  · intro i t reason ht hrest e he
    have hrun := hco.runs i t ht
    rw [hrest, hco.logs i t ht] at hrun
    exact log_of_refused hrun e (Pool.mem_project.mpr he)
  · intro bs s' hrun
    have one : ∀ (s : CommitPool) a s', commitStep s a = some s' → s.shared ⊆ s'.shared :=
      fun _ _ _ ↦ shared_subset_step
    exact runAll_relation one (fun s ↦ Finset.Subset.refl s.shared)
      (fun _ _ _ ↦ Finset.Subset.trans) hrun

end Runs

section Replay

attribute [local instance] Digest.transparent FloatText.fraction

/-- An action with an external effect. -/
def writeAction : ActionCandidate := ⟨Text.ofString "write", .tool, .externalWrite, .fin 0, none, []⟩

/-- Its verification by an accepting verifier. -/
def writeVerification : VerificationResult :=
  ((soleVerifier ⟨true, []⟩).verify writeAction).toOption.getD ⟨[], [], [], [], false, [], []⟩

/-- Its approval until time 100, before signing. -/
def writeGrant : ApprovalGrant :=
  ⟨writeAction.id, writeVerification.actionFingerprint, "policy-v1", "owner", "nonce-1", 100, []⟩

/-- A commit call with the signed approval. -/
def writeCall : CommitCall where
  gateway :=
    ⟨{Text.ofString "checker"}, zeroKey, zeroKey, "policy-v1", ⟨_, Finset.mem_singleton_self _⟩⟩
  request :=
    { candidate := writeAction
      verification := writeVerification
      approval := some { writeGrant with
        attestation := (signFields zeroKey
          (TrustedCommitGateway.approvalFields writeGrant)).toOption.getD [] } }

/-- Two calls replay one approval: both read the clock, the first claims and its executor
raises, the second is refused. -/
theorem approvals_single_use_replay : ∃ s, runAll commitStep (Pool.idle ∅)
      [.spawn writeCall, .spawn writeCall, .advance 0 ⟨.fin 10, .ok ()⟩,
        .advance 1 ⟨.fin 11, .ok ()⟩, .advance 0 ⟨.fin 12, .ok ()⟩, .advance 1 ⟨.fin 12, .ok ()⟩,
        .advance 0 ⟨.fin 13, .error ⟨.osError, "executor failed"⟩⟩] = some s ∧
      s.history.length = 5 ∧ SingleUse s := by
  have hrun : ((runAll commitStep (Pool.idle ∅)
      [.spawn writeCall, .spawn writeCall, .advance 0 ⟨.fin 10, .ok ()⟩,
        .advance 1 ⟨.fin 11, .ok ()⟩, .advance 0 ⟨.fin 12, .ok ()⟩, .advance 1 ⟨.fin 12, .ok ()⟩,
        .advance 0 ⟨.fin 13, .error ⟨.osError, "executor failed"⟩⟩]).map
          fun s ↦ s.history.length) = some 5 := by decide +kernel
  obtain ⟨s, hs, hlen⟩ := Option.map_eq_some_iff.mp hrun
  exact ⟨s, hs, hlen, approvals_single_use hs⟩

end Replay

end C3RSpec.Authority
