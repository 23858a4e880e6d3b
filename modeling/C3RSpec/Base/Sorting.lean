import C3RSpec.Base.Loop
import C3RSpec.Base.Text
import Mathlib.Data.List.Sort
import Mathlib.Order.Fin.Basic

/-!
# Sorting by a key

Library `Base`. `sorted(xs, key=…)` with a key in a linear order. What is sorted by a key that
tells the elements apart does not depend on the order of the input, and neither does a `min` or a
`max`.
-/

namespace C3RSpec.Base

variable {A B : Type} [LinearOrder B]

/-- `sorted(xs, key=key)`. -/
def sortOn (key : A → B) (xs : List A) : List A := xs.insertionSort fun a b ↦ key a ≤ key b

/-- Sorting rearranges. -/
theorem sortOn_perm (key : A → B) (xs : List A) : (sortOn key xs).Perm xs :=
  List.perm_insertionSort _ xs

/-- Sorting sorts. -/
theorem pairwise_sortOn (key : A → B) (xs : List A) :
    (sortOn key xs).Pairwise fun a b ↦ key a ≤ key b := by
  have htotal : Std.Total fun a b : A ↦ key a ≤ key b := ⟨fun a b ↦ le_total (key a) (key b)⟩
  have htrans : IsTrans A fun a b : A ↦ key a ≤ key b := ⟨fun _ _ _ hab hbc ↦ le_trans hab hbc⟩
  exact List.pairwise_insertionSort _ xs

/-- Where a comparison agrees with the key on the elements, it sorts as the key does. -/
theorem insertionSort_eq_sortOn {key : A → B} {r : A → A → Prop} [DecidableRel r] {xs : List A}
    (h : ∀ a ∈ xs, ∀ b ∈ xs, r a b ↔ key a ≤ key b) : xs.insertionSort r = sortOn key xs := by
  have hmap := List.map_insertionSort (s := fun a b ↦ key a ≤ key b) r id xs h
  rw [List.map_id, List.map_id] at hmap
  exact hmap

/-- Where a comparison agrees with a key on the elements, it holds along what it sorts. -/
theorem pairwise_insertionSort_of_key (key : A → B) {r : A → A → Prop} [DecidableRel r]
    {xs : List A} (h : ∀ a ∈ xs, ∀ b ∈ xs, r a b ↔ key a ≤ key b) :
    (xs.insertionSort r).Pairwise r := by
  rw [insertionSort_eq_sortOn h]
  refine (pairwise_sortOn key xs).imp_of_mem fun {a b} ha hb hab ↦ ?_
  have hmem := fun {x} ↦ (sortOn_perm key xs).mem_iff (a := x)
  exact (h a (hmem.mp ha) b (hmem.mp hb)).mpr hab

/-- The order of the input is lost, when the key tells the elements apart. -/
theorem sortOn_eq_of_perm {key : A → B} {xs ys : List A} (h : xs.Perm ys)
    (hinj : ∀ a ∈ xs, ∀ b ∈ xs, key a = key b → a = b) : sortOn key xs = sortOn key ys := by
  apply List.Perm.eq_of_pairwise ?_ (pairwise_sortOn key xs) (pairwise_sortOn key ys)
    (((sortOn_perm key xs).trans h).trans (sortOn_perm key ys).symm)
  intro a b ha hb hab hba
  have ha := (sortOn_perm key xs).mem_iff.mp ha
  have hb := h.mem_iff.mpr ((sortOn_perm key ys).mem_iff.mp hb)
  exact hinj a ha b hb (le_antisymm hab hba)

/-- Nothing precedes the head of a sorted list. -/
theorem head_sortOn_le {key : A → B} {xs rest : List A} {x : A} (h : sortOn key xs = x :: rest)
    {y : A} (hy : y ∈ xs) : key x ≤ key y := by
  have hsorted := pairwise_sortOn key xs
  rw [h, List.pairwise_cons] at hsorted
  have hmem := (sortOn_perm key xs).mem_iff.mpr hy
  rw [h] at hmem
  obtain rfl | hmem := List.mem_cons.mp hmem
  · exact le_refl (key y)
  · exact hsorted.1 y hmem

/-! ### `max` of a rearranged list -/

private theorem firstMax_eq_of_agree {below : A → A → Bool} {key : A → B} {x : A} {xs : List A}
    (h : ∀ a ∈ x :: xs, ∀ b ∈ x :: xs, below a b = decide (key a < key b)) :
    firstMax below x xs = firstMax (fun a b ↦ decide (key a < key b)) x xs := by
  induction xs generalizing x with
  | nil => rfl
  | cons y ys ih =>
    have hy : y ∈ x :: y :: ys := List.mem_cons_of_mem x List.mem_cons_self
    rw [firstMax, firstMax, List.foldl_cons, List.foldl_cons, h x List.mem_cons_self y hy]
    apply ih
    intro a ha b hb
    have hmem : ∀ {c}, c ∈ (if decide (key x < key y) = true then y else x) :: ys →
        c ∈ x :: y :: ys := by
      intro c hc
      split at hc
      · exact List.mem_cons_of_mem x hc
      · obtain rfl | hc := List.mem_cons.mp hc
        · exact List.mem_cons_self
        · exact List.mem_cons_of_mem x (List.mem_cons_of_mem y hc)
    exact h a (hmem ha) b (hmem hb)

/-- Nothing has a greater key than the `max`. -/
theorem key_le_firstMax (below : A → A → Bool) (key : A → B) {x : A} {xs : List A}
    (h : ∀ a ∈ x :: xs, ∀ b ∈ x :: xs, below a b = decide (key a < key b)) {a : A}
    (ha : a ∈ x :: xs) : key a ≤ key (firstMax below x xs) := by
  rw [firstMax_eq_of_agree h]
  apply le_firstMax _ (fun a b ↦ key a ≤ key b) (fun _ ↦ True) le_trans (fun a _ ↦ le_refl (key a))
    ?_ ?_ (fun _ _ ↦ trivial) a ha
  · intro a b hab
    exact (of_decide_eq_true hab).le
  · intro a b _ _ hab
    exact not_lt.mp (of_decide_eq_false hab)

/-- `max` finds the same greatest key in any order. -/
theorem key_firstMax_eq_of_perm (below : A → A → Bool) (key : A → B) {x y : A} {xs ys : List A}
    (hperm : (x :: xs).Perm (y :: ys))
    (h : ∀ a ∈ x :: xs, ∀ b ∈ x :: xs, below a b = decide (key a < key b)) :
    key (firstMax below x xs) = key (firstMax below y ys) := by
  have h' : ∀ a ∈ y :: ys, ∀ b ∈ y :: ys, below a b = decide (key a < key b) :=
    fun a ha b hb ↦ h a (hperm.mem_iff.mpr ha) b (hperm.mem_iff.mpr hb)
  apply le_antisymm
  · exact key_le_firstMax below key h' (hperm.mem_iff.mp (firstMax_mem below x xs))
  · exact key_le_firstMax below key h (hperm.mem_iff.mpr (firstMax_mem below y ys))

/-! ### Texts -/

instance isTrans_text : IsTrans Text fun a b ↦ a ≤ b := inferInstance

instance antisymm_text : @Std.Antisymm Text fun a b ↦ a ≤ b := inferInstance

instance total_text : @Std.Total Text fun a b ↦ a ≤ b := inferInstance

end C3RSpec.Base
