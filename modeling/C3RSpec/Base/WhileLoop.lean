import Mathlib.Tactic.Choose

/-!
# Loops that may not end

Library `Base`. One turn of `while True:` leads to the state of the next turn or ends the loop
with a result. The loop is run for a number of turns; it ends when some number is enough, and
otherwise there is an endless sequence of states.
-/

namespace C3RSpec.Base

variable {S R : Type} {turn : S → S ⊕ R}

/-- The loop for a number of turns; nothing when it is still running. -/
def loopFor (turn : S → S ⊕ R) : Nat → S → Option R
  | 0, _ => none
  | n + 1, s =>
    match turn s with
    | .inl t => loopFor turn n t
    | .inr r => some r

/-- The loop ends. -/
def LoopHalts (turn : S → S ⊕ R) (s : S) : Prop := ∃ n r, loopFor turn n s = some r

/-- A turn that does not end the loop. -/
theorem loopFor_succ_of_inl {s t : S} (h : turn s = .inl t) (n : Nat) :
    loopFor turn (n + 1) s = loopFor turn n t := by
  simp only [loopFor, h]

/-- What every turn keeps holds in the state of the last one. -/
theorem exists_last_turn {Inv : S → Prop} (keep : ∀ s t, Inv s → turn s = .inl t → Inv t) {n : Nat}
    {s : S} {r : R} (hs : Inv s) (h : loopFor turn n s = some r) :
    ∃ t, Inv t ∧ turn t = .inr r := by
  induction n generalizing s with
  | zero => cases h
  | succ n ih =>
    cases hturn : turn s with
    | inl t =>
      rw [loopFor_succ_of_inl hturn] at h
      exact ih (keep s t hs hturn) h
    | inr r' =>
      simp only [loopFor, hturn] at h
      cases h
      exact ⟨s, hs, hturn⟩

/-- A loop that does not end passes through an endless sequence of states. -/
theorem exists_states_of_not_loopHalts {s : S} (h : ¬ LoopHalts turn s) :
    ∃ state : Nat → S, state 0 = s ∧ ∀ n, turn (state n) = .inl (state (n + 1)) := by
  have hnext : ∀ s, ¬ LoopHalts turn s → ∃ t, turn s = .inl t ∧ ¬ LoopHalts turn t := by
    intro s hs
    cases hturn : turn s with
    | inl t =>
      refine ⟨t, rfl, fun ⟨n, r, hr⟩ ↦ hs ⟨n + 1, r, ?_⟩⟩
      rw [loopFor_succ_of_inl hturn, hr]
    | inr r =>
      refine (hs ⟨1, r, ?_⟩).elim
      simp only [loopFor, hturn]
  choose next hturn hends using hnext
  -- the states from `s` on, each with the fact that the loop does not end there
  let states : Nat → {s : S // ¬ LoopHalts turn s} := fun n ↦
    n.rec ⟨s, h⟩ fun _ t ↦ ⟨next t.1 t.2, hends t.1 t.2⟩
  exact ⟨fun n ↦ (states n).1, rfl, fun n ↦ hturn (states n).1 (states n).2⟩

end C3RSpec.Base
