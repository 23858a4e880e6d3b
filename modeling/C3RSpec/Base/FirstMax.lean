import C3RSpec.Base.Loop
import Mathlib.Data.List.Induction
import Mathlib.Order.Lattice

/-!
# The first greatest element

Library `Base`. What `max(items, key=…)` returns, said without the scan: everything before it has
a smaller key and nothing after it a greater one. Such an element is unique, so what a filter, a
rearrangement or another key does to a `max` follows from the description alone.
-/

namespace C3RSpec.Base

variable {A B : Type} [LinearOrder B]

/-- `a` is the first element of `xs` with the greatest key. -/
def IsFirstMax (key : A → B) (xs : List A) (a : A) : Prop :=
  ∃ before after, xs = before ++ a :: after ∧ (∀ b ∈ before, key b < key a) ∧
    ∀ b ∈ after, key b ≤ key a

namespace IsFirstMax

variable {key : A → B} {xs ys : List A} {a b : A}

/-- It is one of the elements. -/
theorem mem (h : IsFirstMax key xs a) : a ∈ xs := by
  obtain ⟨before, after, rfl, -, -⟩ := h
  simp

/-- No key is greater. -/
theorem key_le (h : IsFirstMax key xs a) (hb : b ∈ xs) : key b ≤ key a := by
  obtain ⟨before, after, rfl, hbefore, hafter⟩ := h
  simp only [List.mem_append, List.mem_cons] at hb
  obtain hb | rfl | hb := hb
  · exact (hbefore b hb).le
  · exact le_refl (key b)
  · exact hafter b hb

/-- There is only one. -/
theorem unique (ha : IsFirstMax key xs a) (hb : IsFirstMax key xs b) : a = b := by
  obtain ⟨before, after, rfl, hbefore, hafter⟩ := ha
  obtain ⟨before', after', heq, hbefore', hafter'⟩ := hb
  induction before generalizing before' with
  | nil =>
    cases before' with
    | nil => exact (List.cons.inj heq).1
    | cons c cs =>
      obtain ⟨rfl, rfl⟩ := List.cons.inj heq
      have hlt := hbefore' a List.mem_cons_self
      have hle := hafter b (by simp)
      exact absurd hlt (not_lt_of_ge hle)
  | cons c cs ih =>
    cases before' with
    | nil =>
      obtain ⟨rfl, rfl⟩ := List.cons.inj heq
      have hlt := hbefore c List.mem_cons_self
      have hle := hafter' a (by simp)
      exact absurd hlt (not_lt_of_ge hle)
    | cons d ds =>
      apply ih (fun b hb ↦ hbefore b (List.mem_cons_of_mem c hb)) ds (List.cons.inj heq).2
      exact fun b hb ↦ hbefore' b (List.mem_cons_of_mem d hb)

/-- Under another key it stays in front, when what was below it stays below it and what was
beside it does not overtake it. -/
theorem mono {key' : A → B} (h : IsFirstMax key xs a)
    (hlt : ∀ b ∈ xs, key b < key a → key' b < key' a)
    (heq : ∀ b ∈ xs, key b = key a → key' b ≤ key' a) : IsFirstMax key' xs a := by
  obtain ⟨before, after, rfl, hbefore, hafter⟩ := h
  refine ⟨before, after, rfl, fun b hb ↦ ?_, fun b hb ↦ ?_⟩
  · exact hlt b (by simp [hb]) (hbefore b hb)
  · obtain hb' | hb' := (hafter b hb).lt_or_eq
    · exact (hlt b (by simp [hb]) hb').le
    · exact heq b (by simp [hb]) hb'

/-- It survives a filter that keeps it. -/
theorem filter {p : A → Bool} (h : IsFirstMax key xs a) (ha : p a = true) :
    IsFirstMax key (xs.filter p) a := by
  obtain ⟨before, after, rfl, hbefore, hafter⟩ := h
  refine ⟨before.filter p, after.filter p, ?_, ?_, ?_⟩
  · rw [List.filter_append, List.filter_cons_of_pos ha]
  · exact fun b hb ↦ hbefore b (List.mem_of_mem_filter hb)
  · exact fun b hb ↦ hafter b (List.mem_of_mem_filter hb)

/-- What a filter drops from below it was not needed. -/
theorem of_filter {p : A → Bool} (h : IsFirstMax key (xs.filter p) a)
    (hdrop : ∀ b ∈ xs, p b = false → key b < key a) : IsFirstMax key xs a := by
  obtain ⟨before, after, heq, hbefore, hafter⟩ := h
  obtain ⟨before', rest, rfl, rfl, hrest⟩ := List.filter_eq_append_iff.mp heq
  obtain ⟨skipped, after', rfl, hskipped, ha, rfl⟩ := List.filter_eq_cons_iff.mp hrest
  refine ⟨before' ++ skipped, after', by simp, fun b hb ↦ ?_, fun b hb ↦ ?_⟩
  · obtain hb | hb := List.mem_append.mp hb
    · by_cases hp : p b = true
      · exact hbefore b (List.mem_filter.mpr ⟨hb, hp⟩)
      · exact hdrop b (by simp [hb]) (Bool.eq_false_of_not_eq_true hp)
    · exact hdrop b (by simp [hb]) (Bool.eq_false_of_not_eq_true (hskipped b hb))
  · by_cases hp : p b = true
    · exact hafter b (List.mem_filter.mpr ⟨hb, hp⟩)
    · exact (hdrop b (by simp [hb]) (Bool.eq_false_of_not_eq_true hp)).le

/-- The order of the elements does not matter, when the key tells them apart. -/
theorem perm (h : IsFirstMax key xs a) (hperm : xs.Perm ys)
    (hinj : ∀ b ∈ xs, ∀ c ∈ xs, key b = key c → b = c) (hnodup : ys.Nodup) :
    IsFirstMax key ys a := by
  obtain ⟨before, after, rfl⟩ := List.append_of_mem (hperm.mem_iff.mp h.mem)
  have hne : ∀ b ∈ before, b ≠ a := by
    rintro b hb rfl
    exact (List.nodup_append.mp hnodup).2.2 b hb b List.mem_cons_self rfl
  refine ⟨before, after, rfl, fun b hb ↦ ?_, fun b hb ↦ ?_⟩
  · have hmem : b ∈ xs := hperm.mem_iff.mpr (by simp [hb])
    apply lt_of_le_of_ne (h.key_le hmem)
    exact fun heq ↦ hne b hb (hinj b hmem a h.mem heq)
  · exact h.key_le (hperm.mem_iff.mpr (by simp [hb]))

/-- Images of the elements. -/
theorem map {C : Type} {f : C → A} {cs : List C} {c : C} (h : IsFirstMax (fun c ↦ key (f c)) cs c) :
    IsFirstMax key (cs.map f) (f c) := by
  obtain ⟨before, after, rfl, hbefore, hafter⟩ := h
  refine ⟨before.map f, after.map f, by simp, ?_, ?_⟩
  · exact List.forall_mem_map.mpr hbefore
  · exact List.forall_mem_map.mpr hafter

end IsFirstMax

/-- The scan finds it. -/
theorem isFirstMax_firstMax {below : A → A → Bool} {key : A → B} {x : A} {xs : List A}
    (h : ∀ a ∈ x :: xs, ∀ b ∈ x :: xs, below a b = decide (key a < key b)) :
    IsFirstMax key (x :: xs) (firstMax below x xs) := by
  induction xs using List.reverseRecOn with
  | nil => exact ⟨[], [], rfl, by simp, by simp⟩
  | append_singleton xs y ih =>
    have hih := ih fun a ha b hb ↦ h a (List.mem_append_left [y] ha) b (List.mem_append_left [y] hb)
    have hstep : firstMax below x (xs ++ [y]) =
        if below (firstMax below x xs) y then y else firstMax below x xs := by
      rw [firstMax, List.foldl_append, List.foldl_cons, List.foldl_nil, ← firstMax]
    rw [hstep, h _ (List.mem_append_left [y] hih.mem) y (by simp)]
    split
    · next hlt =>
      refine ⟨x :: xs, [], by simp, fun b hb ↦ ?_, by simp⟩
      exact (hih.key_le hb).trans_lt (of_decide_eq_true hlt)
    · next hle =>
      obtain ⟨before, after, heq, hbefore, hafter⟩ := hih
      refine ⟨before, after ++ [y], ?_, hbefore, fun b hb ↦ ?_⟩
      · rw [← List.cons_append, heq, List.append_assoc, List.cons_append]
      · obtain hb | hb := List.mem_append.mp hb
        · exact hafter b hb
        · rw [List.mem_singleton.mp hb]
          exact not_lt.mp fun hlt ↦ hle (decide_eq_true hlt)

/-- A list with elements has one. -/
theorem exists_isFirstMax (key : A → B) {xs : List A} (h : xs ≠ []) : ∃ a, IsFirstMax key xs a := by
  cases xs with
  | nil => exact absurd rfl h
  | cons x xs =>
    exact ⟨firstMax (fun a b ↦ decide (key a < key b)) x xs,
      isFirstMax_firstMax fun _ _ _ _ ↦ rfl⟩

end C3RSpec.Base
