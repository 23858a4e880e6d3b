import C3RSpec.Base.Calls
import C3RSpec.Runtime.AuthorityBoundary

/-!
# The host calls of a run

`c3r/runtime.py:137–351`. A run consults System One, then a verifier, then a deliberator, then the
trace sink: each at most once, never out of this order, and nothing follows the trace.
-/

namespace C3RSpec.Runtime

open Base Telemetry Authority Candidates

/-- The place of a host call in a run. -/
def HostOp.stage : HostOp → Nat
  | .decide _ _ _ _ _ => 0
  | .verifier _ _ => 1
  | .deliberate _ _ => 2
  | .append _ => 3

namespace StandaloneController

variable {D : Type}

/-- The calls of a part of a run rise in stage, from `lo` on and below `hi`. -/
def InOrder {α : Type} (lo hi : Nat) (p : HostProg D α) : Prop :=
  Prog.All (fun es _ ↦ Rising HostOp.stage lo hi es) p

section Rules

variable {α β : Type} {lo mid hi : Nat}

/-- A result needs no call. -/
theorem inOrder_return (a : α) : InOrder lo hi (return a : HostProg D α) := Rising.nil

/-- A wider interval. -/
theorem InOrder.mono {p : HostProg D α} {lo' hi' : Nat} (h : InOrder lo hi p) (hlo : lo' ≤ lo)
    (hhi : hi ≤ hi') : InOrder lo' hi' p :=
  Prog.All.mono (fun _ _ hes ↦ hes.mono hlo hhi) h

/-- One call. -/
theorem inOrder_ask {o : HostOp} (lo : Nat) (h : o.stage = lo) :
    InOrder lo (lo + 1) (ask o : HostProg D _) :=
  all_ask fun _ ↦ Rising.singleton h.ge (h.le.trans_lt (Nat.lt_succ_self lo))

/-- One part after another. -/
theorem InOrder.bind {p : HostProg D α} {f : α → HostProg D β} (hp : InOrder lo mid p)
    (hf : ∀ a, InOrder mid hi (f a)) (hlo : lo ≤ mid) (hhi : mid ≤ hi) : InOrder lo hi (p >>= f) :=
  Prog.All.rising_bind hp hf hlo hhi

/-- Catching a failure makes no call. -/
theorem InOrder.attempt {p : HostProg D α} (hp : InOrder lo hi p) (h : lo ≤ hi) :
    InOrder lo hi (attempt p) := by
  refine Prog.All.rising_tryCatch (hp.bind (fun a ↦ inOrder_return (some a)) h le_rfl) fun e ↦ ?_
  split <;> rfl

end Rules

section Stages

variable {c : StandaloneController} {request : RuntimeRequest} {state : CompiledState}
  {candidates : List ActionCandidate}

/-- Deliberation makes one call. -/
theorem inOrder_deliberateOrStop (ids : List Text) (reason : Text)
    (fast : Option FastPathDecision) (deliberator : Option Deliberator) :
    InOrder 2 3 (c.deliberateOrStop state ids reason fast deliberator : HostProg D (Closing D)) := by
  unfold deliberateOrStop
  split
  · exact inOrder_return _
  · next which _ =>
    refine ((inOrder_ask 2 rfl).attempt (by decide)).bind ?_ (by decide) le_rfl
    intro answer
    cases answer with
    | none => exact inOrder_return _
    | some value =>
      cases value with
      | other value => exact inOrder_return _
      | provider result =>
        dsimp only
        split <;> exact inOrder_return _

variable [Digest] [FloatText] [FloatRound]

omit [FloatRound] in
/-- Verification makes one call. -/
theorem inOrder_verify (candidate : ActionCandidate) :
    InOrder 1 2 (c.verifier.verify candidate : HostProg D VerificationResult) := by
  unfold VerifierFirewall.verify
  simp only [verifier, Dict.get?_mapEntries]
  cases c.verifierIds.get? (c.verifierPolicy.select candidate) with
  | none => exact Rising.nil
  | some u =>
    refine (inOrder_ask 1 rfl).bind (fun decision ↦ ?_) (by decide) le_rfl
    -- what follows is computed
    cases actionFingerprint candidate with
    | error e => exact Rising.nil
    | ok fingerprint =>
      cases hsign : signFields c.attestationKey (VerifierFirewall.signedFields
        (c.verifierPolicy.select candidate) candidate.id fingerprint c.verifierPolicy.version
        decision.accepted decision.evidence) with
      | error e =>
        change InOrder 2 2 (MonadExcept.ofExcept (signFields c.attestationKey _) >>= _)
        rw [hsign]
        exact Rising.nil
      | ok attestation =>
        change InOrder 2 2 (MonadExcept.ofExcept (signFields c.attestationKey _) >>= _)
        rw [hsign]
        exact Rising.nil

/-- Selection verifies, then deliberates. -/
theorem inOrder_selectAction (requestedDeliberator : Bool) (fast : Option FastPathDecision) :
    InOrder 1 3 (c.selectAction request requestedDeliberator state candidates fast :
      HostProg D (Closing D)) := by
  unfold selectAction
  split
  · unfold withoutSelection
    split
    · next fallback _ =>
      refine ((inOrder_verify fallback).attempt (by decide)).bind ?_ (by decide) (by decide)
      intro answer
      cases answer with
      | none => exact inOrder_return _
      | some verification =>
        dsimp only
        split
        · exact inOrder_deliberateOrStop _ _ _ _
        · exact inOrder_return _
    · exact inOrder_return _
  · next selected _ =>
    refine ((inOrder_verify selected).attempt (by decide)).bind ?_ (by decide) (by decide)
    intro answer
    cases answer with
    | none => exact inOrder_return _
    | some verification =>
      dsimp only
      split
      · exact inOrder_return _
      · split
        · exact inOrder_deliberateOrStop _ _ _ _
        · split <;> exact inOrder_return _

/-- What the fast path decided. -/
theorem inOrder_afterFastPath (requestedDeliberator : Bool) (fast : FastPathDecision) :
    InOrder 1 3 (c.afterFastPath request requestedDeliberator state candidates fast :
      HostProg D (Closing D)) := by
  have stop : ∀ reason : Text, InOrder 1 3 (c.deliberateOrStop state
      (candidateIds candidates) reason (some fast) : HostProg D (Closing D)) := fun reason ↦
    (inOrder_deliberateOrStop _ reason _ _).mono (by decide) le_rfl
  unfold afterFastPath
  split
  · exact stop _
  · split
    · exact inOrder_return _
    · split
      · exact stop _
      · exact inOrder_selectAction requestedDeliberator _

/-- System One comes first. -/
theorem inOrder_systemOne (requestedDeliberator : Bool) :
    InOrder 0 3 (c.systemOne request requestedDeliberator state candidates :
      HostProg D (Closing D)) := by
  unfold systemOne
  split
  · exact (inOrder_selectAction requestedDeliberator none).mono (by decide) le_rfl
  · split
    · exact inOrder_return _
    · split
      · exact inOrder_return _
      · refine ((inOrder_ask 0 rfl).attempt (by decide)).bind ?_ (by decide) (by decide)
        intro answer
        cases answer with
        | some fast => exact inOrder_afterFastPath requestedDeliberator fast
        | none =>
          dsimp only
          split
          · exact inOrder_selectAction requestedDeliberator none
          · exact (inOrder_deliberateOrStop _ _ _ _).mono (by decide) le_rfl

/-- A run appends last. -/
theorem inOrder_run (c : StandaloneController) (request : RuntimeRequest)
    (requestedDeliberator : Bool) :
    InOrder 0 4 (c.run request requestedDeliberator : HostProg D (RuntimeOutcome D)) := by
  unfold run
  split
  · exact Rising.nil
  · cases stateHash request.rawState with
    | error e => exact Rising.nil
    | ok hash =>
      rw [Prog.bind_ofExcept_ok]
      have hclosing : InOrder 0 3 (c.chooseClosing request requestedDeliberator :
          HostProg D (Closing D)) := by
        unfold chooseClosing
        split
        · exact inOrder_return _
        · split
          · exact inOrder_return _
          · unfold compileActions
            split
            · exact inOrder_return _
            · cases c.compileCandidates request _ with
              | error e => exact Rising.nil
              | ok compilation =>
                rw [Prog.bind_ofExcept_ok]
                split
                · exact inOrder_return _
                · exact inOrder_systemOne requestedDeliberator
      refine hclosing.bind (fun closing ↦ ?_) (by decide) (by decide)
      exact (inOrder_ask 3 rfl).bind (fun record ↦ inOrder_return _) (by decide) le_rfl

/-- Whatever the host answers: a run makes at most four host calls, in the order System One,
verifier, deliberator, trace sink, and none of them twice. A run that returns made the trace its
last call and returns the record it got; one that raises appended nothing, or failed in that last
call. -/
theorem run_calls_in_order (c : StandaloneController) (request : RuntimeRequest)
    (requestedDeliberator : Bool) :
    Prog.All (fun es x ↦ es.Pairwise (fun a b ↦ a.op.stage < b.op.stage) ∧ es.length ≤ 4 ∧
        (∀ outcome, x = .ok outcome → ∃ pre trace,
          es = pre ++ [⟨.append trace, .ok outcome.ledgerRecord⟩]) ∧
        ∀ e, x = .error e → Silent es ∨ ∃ pre trace, es = pre ++ [⟨.append trace, .error e⟩])
      (c.run request requestedDeliberator : HostProg D (RuntimeOutcome D)) := by
  refine ((inOrder_run c request requestedDeliberator).and
    (all_run c request requestedDeliberator)).mono ?_
  rintro es x ⟨hrising, hclosed⟩
  refine ⟨hrising.sorted, hrising.length_le, ?_, ?_⟩
  · rintro outcome rfl
    obtain ⟨-, e, he⟩ | ⟨hash, closing, answer, pre, candidates, fast, hc, hx⟩ := hclosed
    · cases he
    · cases answer with
      | error e => cases hx
      | ok record =>
        cases hx
        exact ⟨pre, _, hc.events⟩
  · rintro e rfl
    obtain ⟨hsilent, -⟩ | ⟨hash, closing, answer, pre, candidates, fast, hc, hx⟩ := hclosed
    · exact .inl hsilent
    · cases answer with
      | ok record => cases hx
      | error e' =>
        cases hx
        exact .inr ⟨pre, _, hc.events⟩

end Stages

end StandaloneController

end C3RSpec.Runtime
