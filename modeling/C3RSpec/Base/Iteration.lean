import C3RSpec.Base.Text

/-!
# Iterators

Library `Base`. A Python iterator is a state with a method `__next__` that gives an item, raises
`StopIteration` or raises something else, and leaves another state. What an iteration gives is a
relation between the state before it, the items in their order and the state after it.
-/

namespace C3RSpec.Base

/-- What a call of `__next__` ends in. -/
inductive Next (A : Type) where
  | item (a : A)
  | stop
  | raised (e : PyError)

variable {S A : Type} {next : S → Next A × S}

/-- `Yields next s as t`: the first calls from `s` give `as` and leave `t`. -/
inductive Yields (next : S → Next A × S) : S → List A → S → Prop
  | nil (s : S) : Yields next s [] s
  | cons {s t u : S} {a : A} {as : List A} (h : next s = (.item a, t)) (rest : Yields next t as u) :
      Yields next s (a :: as) u

namespace Yields

/-- Iterations compose. -/
theorem append {s t u : S} {as bs : List A} (h : Yields next s as t) (h' : Yields next t bs u) :
    Yields next s (as ++ bs) u := by
  induction h with
  | nil => exact h'
  | cons hitem _ ih => exact .cons hitem (ih h')

/-- One more call. -/
theorem snoc {s t u : S} {as : List A} {a : A} (h : Yields next s as t)
    (h' : next t = (.item a, u)) : Yields next s (as ++ [a]) u :=
  h.append (.cons h' (.nil u))

/-- What every call that gives an item keeps holds after an iteration. -/
theorem invariant {Inv : S → Prop} (keep : ∀ s a t, Inv s → next s = (.item a, t) → Inv t)
    {s t : S} {as : List A} (h : Yields next s as t) (hs : Inv s) : Inv t := by
  induction h with
  | nil => exact hs
  | cons hitem _ ih => exact ih (keep _ _ _ hs hitem)

end Yields

/-- An iteration to exhaustion: after the items every call raises `StopIteration`. -/
def Exhausts (next : S → Next A × S) (s : S) (as : List A) (t : S) : Prop :=
  Yields next s as t ∧ next t = (.stop, t)

/-- An iterator is exhausted in one way. -/
theorem Exhausts.unique {s t u : S} {as bs : List A} (h : Exhausts next s as t)
    (h' : Exhausts next s bs u) : as = bs ∧ t = u := by
  obtain ⟨h, hstop⟩ := h
  obtain ⟨h', hstop'⟩ := h'
  induction h generalizing bs with
  | nil s =>
    cases h' with
    | nil => exact ⟨rfl, rfl⟩
    | cons hitem _ =>
      rw [hstop] at hitem
      cases hitem
  | cons hitem _ ih =>
    cases h' with
    | nil =>
      rw [hstop'] at hitem
      cases hitem
    | cons hitem' rest' =>
      rw [hitem] at hitem'
      cases hitem'
      obtain ⟨rfl, rfl⟩ := ih hstop rest'
      exact ⟨rfl, rfl⟩

end C3RSpec.Base
