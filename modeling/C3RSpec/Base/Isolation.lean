import Mathlib.Data.List.Basic

/-!
# Isolation of the parties of a state machine

Library `Base`. A machine answers every action, and each action is made by one party or by others.
Two runs are compared: the whole one, and the one in which the others never act. Where a relation
between their states is kept by every action, and an action of the party is answered alike in
related states, the party cannot tell the two runs apart.
-/

namespace C3RSpec.Base

variable {S A R : Type*}

/-- The actions of a run with their answers. -/
def replies (step : S → A → R × S) : S → List A → List (A × R)
  | _, [] => []
  | s, a :: as => (a, (step s a).1) :: replies step (step s a).2 as

/-- The state after a run. -/
def afterAll (step : S → A → R × S) : S → List A → S
  | s, [] => s
  | s, a :: as => afterAll step (step s a).2 as

/-- The relation is kept as long as the rest of the run meets what it asks of it. -/
structure Isolates (step : S → A → R × S) (own : A → Bool) (Rel : List A → S → S → Prop) :
    Prop where
  answered : ∀ {a : A} {as : List A} {s t : S}, own a = true → Rel (a :: as) s t →
    (step s a).1 = (step t a).1 ∧ Rel as (step s a).2 (step t a).2
  unaffected : ∀ {a : A} {as : List A} {s t : S}, own a = false → Rel (a :: as) s t →
    Rel as (step s a).2 t

namespace Isolates

variable {step : S → A → R × S} {own : A → Bool} {Rel : List A → S → S → Prop}

/-- The party gets the answers that it gets when it acts alone. -/
theorem replies_filter (h : Isolates step own Rel) {as : List A} {s t : S} (hrel : Rel as s t) :
    (replies step s as).filter (fun e ↦ own e.1) = replies step t (as.filter own) := by
  induction as generalizing s t with
  | nil => rfl
  | cons a as ih =>
    cases ha : own a with
    | true =>
      obtain ⟨hanswer, hnext⟩ := h.answered ha hrel
      rw [List.filter_cons_of_pos ha, replies, replies, List.filter_cons_of_pos (by exact ha),
        hanswer, ih hnext]
    | false =>
      have hnot : ¬own a = true := by rw [ha]; exact Bool.false_ne_true
      rw [List.filter_cons_of_neg hnot, replies, List.filter_cons_of_neg (by exact hnot)]
      exact ih (h.unaffected ha hrel)

/-- The two runs end in related states. -/
theorem afterAll_filter (h : Isolates step own Rel) {as : List A} {s t : S} (hrel : Rel as s t) :
    Rel [] (afterAll step s as) (afterAll step t (as.filter own)) := by
  induction as generalizing s t with
  | nil => exact hrel
  | cons a as ih =>
    cases ha : own a with
    | true =>
      rw [List.filter_cons_of_pos ha]
      exact ih (h.answered ha hrel).2
    | false =>
      rw [List.filter_cons_of_neg (by rw [ha]; exact Bool.false_ne_true)]
      exact ih (h.unaffected ha hrel)

end Isolates

end C3RSpec.Base
