import C3RSpec.Base.Loop
import C3RSpec.StateSchema
import Mathlib.Data.List.Sort

/-!
# Progressive widening

`c3r/progressive_widening.py:10–29`. Candidates are ordered by falling utility and rising id;
the width grows while neighbours at the boundary are within the margin. Where a utility is NaN
Python leaves the order of a sort open; nothing below uses more than that it is a reordering.
-/

namespace C3RSpec.Candidates

open Base

/-- `(-a.optimistic_utility, a.id) < (-b.optimistic_utility, b.id)`. -/
def rankedBefore (a b : ActionCandidate) : Bool :=
  if PyFloat.beq a.optimisticUtility.neg b.optimisticUtility.neg then decide (a.id < b.id)
  else PyFloat.lt a.optimisticUtility.neg b.optimisticUtility.neg

/-- `sorted(ranked, key=lambda item: (-item.optimistic_utility, item.id))`. -/
def orderCandidates (ranked : List ActionCandidate) : List ActionCandidate :=
  ranked.insertionSort fun a b ↦ rankedBefore b a = false

/-- The `while` loop: the width grows below `bound` until a gap exceeds the margin. -/
def widenWidth (margin : PyFloat) (ordered : List ActionCandidate) (bound : Nat) :
    Nat → Nat → Nat
  | 0, width => width
  | fuel + 1, width =>
    if width < bound then
      match ordered[width - 1]?, ordered[width]? with
      | some a, some b =>
        if PyFloat.lt margin (PyFloat.sub a.optimisticUtility b.optimisticUtility) then width
        else widenWidth margin ordered bound fuel (width + 1)
      | _, _ => width
    else width

/-- `widen_when_margin_is_small`. -/
def widenWhenMarginIsSmall (ranked : List ActionCandidate) (initialWidth maximumWidth : Int)
    (margin : PyFloat) : Except PyError (List ActionCandidate) :=
  if initialWidth < 1 ∨ maximumWidth < initialWidth then
    .error (valueError "invalid widening bounds")
  else if ranked = [] then .ok []
  else
    let ordered := orderCandidates ranked
    let width := min initialWidth.toNat ordered.length
    let bound := min maximumWidth.toNat ordered.length
    .ok (ordered.take (widenWidth margin ordered bound bound width))

/-- A prefix of the order is selected. -/
theorem exists_take_of_widen {ranked selected : List ActionCandidate}
    {initialWidth maximumWidth : Int} {margin : PyFloat}
    (h : widenWhenMarginIsSmall ranked initialWidth maximumWidth margin = .ok selected) :
    ∃ n, selected = (orderCandidates ranked).take n := by
  unfold widenWhenMarginIsSmall at h
  split at h
  · cases h
  · split at h
    · cases h
      exact ⟨0, rfl⟩
    · cases h
      exact ⟨_, rfl⟩

/-- Whatever is selected was ranked. -/
theorem mem_of_mem_widen {ranked selected : List ActionCandidate} {initialWidth maximumWidth : Int}
    {margin : PyFloat}
    (h : widenWhenMarginIsSmall ranked initialWidth maximumWidth margin = .ok selected)
    {c : ActionCandidate} (hc : c ∈ selected) : c ∈ ranked := by
  obtain ⟨n, rfl⟩ := exists_take_of_widen h
  exact (List.mem_insertionSort _).mp (List.mem_of_mem_take hc)

/-- The width never shrinks. -/
theorem le_widenWidth (margin : PyFloat) (ordered : List ActionCandidate)
    (bound fuel width : Nat) : width ≤ widenWidth margin ordered bound fuel width := by
  induction fuel generalizing width with
  | zero => exact Nat.le_refl width
  | succ fuel ih =>
    rw [widenWidth]
    split
    · split
      · split
        · exact Nat.le_refl width
        · exact Nat.le_trans (Nat.le_succ width) (ih (width + 1))
      · exact Nat.le_refl width
    · exact Nat.le_refl width

/-- An initial width that covers all candidates selects all of them. -/
theorem widen_all {ranked : List ActionCandidate} {width : Nat} (hpos : 1 ≤ width)
    (hw : ranked.length ≤ width) (margin : PyFloat) :
    ∃ selected, widenWhenMarginIsSmall ranked width width margin = .ok selected ∧
      selected.Perm ranked := by
  unfold widenWhenMarginIsSmall
  rw [if_neg (by omega)]
  by_cases hn : ranked = []
  · rw [if_pos hn]
    exact ⟨[], rfl, by rw [hn]⟩
  · rw [if_neg hn]
    refine ⟨_, rfl, ?_⟩
    have hlen : (orderCandidates ranked).length = ranked.length := List.length_insertionSort _ _
    rw [List.take_of_length_le]
    · exact List.perm_insertionSort _ ranked
    · refine Nat.le_trans ?_ (le_widenWidth _ _ _ _ _)
      rw [Int.toNat_natCast, hlen]
      omega

end C3RSpec.Candidates
