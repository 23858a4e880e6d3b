import C3RSpec.Base.Sorting
import Mathlib.Algebra.BigOperators.Group.List.Basic

/-!
# Cutting off a sorted list

Library `Base`. A list is sorted by a falling key and cut off after a number of elements. A sum
over what is left is the same for every sorted rearrangement, unless the cut separates elements
that have one key and different weights.
-/

namespace C3RSpec.Base

variable {A B M : Type} [LinearOrder B] {key : A → B} {weight : A → M} {xs ys : List A} {count : Nat}

/-- Sorted by a falling key. -/
def Falling (key : A → B) (xs : List A) : Prop := xs.Pairwise fun a b ↦ key b ≤ key a

/-- The cut after `count` elements separates two elements with one key and different weights. -/
def CutsTie (key : A → B) (weight : A → M) (count : Nat) (xs : List A) : Prop :=
  ∃ a ∈ xs, ∃ b ∈ xs, key a = key b ∧ weight a ≠ weight b ∧
    xs.countP (fun c ↦ decide (key a < key c)) < count ∧
    count < xs.countP (fun c ↦ decide (key a ≤ key c))

/-- Rearranging changes nothing. -/
theorem CutsTie.perm (h : CutsTie key weight count xs) (hperm : xs.Perm ys) :
    CutsTie key weight count ys := by
  obtain ⟨a, ha, b, hb, hkey, hweight, hlow, hhigh⟩ := h
  rw [hperm.countP_eq] at hlow hhigh
  exact ⟨a, hperm.mem_iff.mp ha, b, hperm.mem_iff.mp hb, hkey, hweight, hlow, hhigh⟩

/-! ### Above, at and below a key -/

/-- The elements above a key. -/
def aboveKey (key : A → B) (c : B) (xs : List A) : List A := xs.filter fun a ↦ decide (c < key a)

/-- The elements at a key. -/
def atKey (key : A → B) (c : B) (xs : List A) : List A := xs.filter fun a ↦ decide (key a = c)

/-- The elements below a key. -/
def belowKey (key : A → B) (c : B) (xs : List A) : List A := xs.filter fun a ↦ decide (key a < c)

@[simp] theorem mem_aboveKey {c : B} {a : A} : a ∈ aboveKey key c xs ↔ a ∈ xs ∧ c < key a := by
  simp [aboveKey]

@[simp] theorem mem_atKey {c : B} {a : A} : a ∈ atKey key c xs ↔ a ∈ xs ∧ key a = c := by
  simp [atKey]

@[simp] theorem mem_belowKey {c : B} {a : A} : a ∈ belowKey key c xs ↔ a ∈ xs ∧ key a < c := by
  simp [belowKey]

/-- A sorted list is what is above a key, at it and below it. -/
theorem Falling.eq_append (h : Falling key xs) (c : B) :
    xs = aboveKey key c xs ++ atKey key c xs ++ belowKey key c xs := by
  induction xs with
  | nil => rfl
  | cons x xs ih =>
    obtain ⟨hhead, htail⟩ := List.pairwise_cons.mp h
    have hrest := ih htail
    have habove : key x ≤ c → aboveKey key c xs = [] := by
      intro hx
      exact List.filter_eq_nil_iff.mpr fun y hy ↦ by
        simpa using (hhead y hy).trans hx
    obtain hlt | heq | hgt := lt_trichotomy c (key x)
    · have hne : key x ≠ c := hlt.ne'
      simp only [aboveKey, atKey, belowKey, List.filter_cons, hlt, hne, not_lt_of_gt hlt, decide_true,
        decide_false, if_true, Bool.false_eq_true, if_false, List.cons_append]
      exact congrArg _ hrest
    · rw [habove heq.ge, List.nil_append] at hrest
      have hnil := habove heq.ge
      unfold aboveKey at hnil
      simp only [aboveKey, atKey, belowKey, List.filter_cons, heq, lt_irrefl, decide_true, decide_false,
        if_true, Bool.false_eq_true, if_false]
      rw [heq] at hrest hnil
      rw [hnil, List.nil_append]
      exact congrArg _ hrest
    · have hlevel : atKey key c xs = [] := List.filter_eq_nil_iff.mpr fun y hy ↦ by
        simpa using ((hhead y hy).trans_lt hgt).ne
      have hne : key x ≠ c := hgt.ne
      have hnil := habove hgt.le
      rw [hnil, hlevel, List.nil_append, List.nil_append] at hrest
      unfold aboveKey at hnil
      unfold atKey at hlevel
      simp only [aboveKey, atKey, belowKey, List.filter_cons, hgt, hne, not_lt_of_gt hgt, decide_true,
        decide_false, if_true, Bool.false_eq_true, if_false, hnil, hlevel, List.nil_append]
      exact congrArg _ hrest

private theorem length_above (c : B) :
    (aboveKey key c xs).length = xs.countP fun a ↦ decide (c < key a) :=
  List.countP_eq_length_filter.symm

private theorem length_above_at (c : B) :
    (aboveKey key c xs).length + (atKey key c xs).length = xs.countP fun a ↦ decide (c ≤ key a) := by
  induction xs with
  | nil => rfl
  | cons x xs ih =>
    unfold aboveKey atKey at ih ⊢
    rw [List.filter_cons, List.filter_cons, List.countP_cons, ← ih]
    obtain hlt | heq | hgt := lt_trichotomy c (key x)
    · simp [hlt, hlt.le, hlt.ne']
      omega
    · simp [heq]
      omega
    · simp [hgt.ne, hgt.not_ge, not_lt_of_gt hgt]

theorem Falling.perm_atKey {c : B} {at' : List A} (h : Falling key xs)
    (hperm : at'.Perm (atKey key c xs)) :
    Falling key (aboveKey key c xs ++ at' ++ belowKey key c xs) := by
  have hat : ∀ a ∈ at', key a = c := fun a ha ↦ (mem_atKey.mp (hperm.mem_iff.mp ha)).2
  unfold Falling
  rw [List.pairwise_append, List.pairwise_append]
  refine ⟨⟨h.sublist List.filter_sublist, ?_, ?_⟩, h.sublist List.filter_sublist, ?_⟩
  · exact List.pairwise_of_forall_mem_list fun a ha b hb ↦ by rw [hat a ha, hat b hb]
  · intro a ha b hb
    rw [hat b hb]
    exact (mem_aboveKey.mp ha).2.le
  · intro a ha b hb
    have hb := (mem_belowKey.mp hb).2.le
    obtain ha | ha := List.mem_append.mp ha
    · exact hb.trans (mem_aboveKey.mp ha).2.le
    · rw [hat a ha]
      exact hb

/-! ### Sums over what is left -/

section Sums

variable [AddCommMonoid M]

/-- What is left of a sorted list, when the cut is within the elements at a key. -/
private theorem Falling.take_eq (h : Falling key xs) {c : B}
    (habove : (aboveKey key c xs).length ≤ count)
    (hat : count ≤ (aboveKey key c xs).length + (atKey key c xs).length) :
    xs.take count =
      aboveKey key c xs ++ (atKey key c xs).take (count - (aboveKey key c xs).length) := by
  conv_lhs => rw [h.eq_append c]
  rw [List.append_assoc, List.take_append, List.take_of_length_le habove,
    List.take_append_of_le_length (by omega)]

/-- Elements of one weight are told apart by nothing. -/
private theorem sum_take_of_forall {w : M} (h : ∀ a ∈ xs, weight a = w) {n : Nat}
    (hn : n ≤ xs.length) : ((xs.take n).map weight).sum = n • w := by
  have hrep : (xs.take n).map weight = List.replicate n w := by
    rw [List.eq_replicate_iff, List.length_map, List.length_take]
    refine ⟨by omega, fun x hx ↦ ?_⟩
    obtain ⟨a, ha, rfl⟩ := List.mem_map.mp hx
    exact h a (List.mem_of_mem_take ha)
  rw [hrep, List.sum_replicate]

/-- An element is after those above its key and before those below it. -/
private theorem Falling.index_bounds (h : Falling key xs) {i : Nat} (hi : i < xs.length) :
    (aboveKey key (key xs[i]) xs).length ≤ i ∧
      i < (aboveKey key (key xs[i]) xs).length + (atKey key (key xs[i]) xs).length := by
  have hget : xs[i]? = some xs[i] := List.getElem?_eq_getElem hi
  generalize xs[i] = a at hget ⊢
  have hsplit := h.eq_append (key a)
  rw [hsplit] at hget
  constructor
  · by_contra hlt
    rw [List.append_assoc, List.getElem?_append_left (by omega)] at hget
    exact absurd (mem_aboveKey.mp (List.mem_of_getElem? hget)).2 (lt_irrefl _)
  · by_contra hge
    rw [List.getElem?_append_right (by rw [List.length_append]; omega)] at hget
    exact absurd (mem_belowKey.mp (List.mem_of_getElem? hget)).2 (lt_irrefl _)

/-- Without a tie at the cut, every sorted rearrangement leaves the same sum. -/
theorem sum_take_eq_of_not_cutsTie (hperm : ys.Perm xs) (hxs : Falling key xs)
    (hys : Falling key ys) (hcut : ¬ CutsTie key weight count xs) :
    ((ys.take count).map weight).sum = ((xs.take count).map weight).sum := by
  by_cases hlong : xs.length ≤ count
  · rw [List.take_of_length_le hlong, List.take_of_length_le (by rw [hperm.length_eq]; exact hlong)]
    exact (hperm.map weight).sum_eq
  obtain hzero | hpos := Nat.eq_zero_or_pos count
  · rw [hzero]
    rfl
  -- the last element that is left, and its key
  have hlast : count - 1 < xs.length := by omega
  have hbounds := hxs.index_bounds hlast
  have hmem : xs[count - 1] ∈ xs := List.getElem_mem hlast
  generalize xs[count - 1] = a at hbounds hmem
  have habove : (aboveKey key (key a) ys).Perm (aboveKey key (key a) xs) := hperm.filter _
  have hat : (atKey key (key a) ys).Perm (atKey key (key a) xs) := hperm.filter _
  have habove' := habove.length_eq
  have hat' := hat.length_eq
  have htakexs : xs.take count = aboveKey key (key a) xs ++
      (atKey key (key a) xs).take (count - (aboveKey key (key a) xs).length) :=
    hxs.take_eq (by omega) (by omega)
  have htakeys : ys.take count = aboveKey key (key a) ys ++
      (atKey key (key a) ys).take (count - (aboveKey key (key a) ys).length) :=
    hys.take_eq (by omega) (by omega)
  rw [htakexs, htakeys, habove', List.map_append, List.map_append, List.sum_append,
    List.sum_append, (habove.map weight).sum_eq]
  congr 1
  obtain ⟨left, hleft⟩ : ∃ left, left = count - (aboveKey key (key a) xs).length := ⟨_, rfl⟩
  rw [← hleft]
  by_cases hfull : (atKey key (key a) xs).length ≤ left
  · rw [List.take_of_length_le hfull, List.take_of_length_le (hat'.trans_le hfull)]
    exact (hat.map weight).sum_eq
  · have hsame : ∀ b ∈ atKey key (key a) xs, weight b = weight a := by
      intro b hb
      obtain ⟨hb, hkey⟩ := mem_atKey.mp hb
      by_contra hne
      refine hcut ⟨a, hmem, b, hb, hkey.symm, Ne.symm hne, ?_, ?_⟩
      · rw [← length_above]
        omega
      · rw [← length_above_at]
        omega
    have hsame' : ∀ b ∈ atKey key (key a) ys, weight b = weight a :=
      fun b hb ↦ hsame b (hat.mem_iff.mp hb)
    rw [sum_take_of_forall hsame (Nat.le_of_not_le hfull),
      sum_take_of_forall hsame' (hat' ▸ Nat.le_of_not_le hfull)]

end Sums

/-! ### A tie at the cut -/

private theorem exists_perm_cons_cons {a b : A} (ha : a ∈ xs) (hb : b ∈ xs) (hne : a ≠ b) :
    ∃ rest, xs.Perm (a :: b :: rest) := by
  obtain ⟨s, t, rfl⟩ := List.append_of_mem ha
  have hb : b ∈ s ++ t := by
    rw [List.mem_append, List.mem_cons] at hb
    rw [List.mem_append]
    exact hb.imp_right fun h ↦ h.resolve_left (Ne.symm hne)
  obtain ⟨u, v, huv⟩ := List.append_of_mem hb
  refine ⟨u ++ v, List.perm_middle.trans (List.Perm.cons a ?_)⟩
  rw [huv]
  exact List.perm_middle

section Cancel

variable [AddCancelCommMonoid M]

/-- A sorted list with two elements around the cut. -/
private theorem sum_take_around (pre post : List A) (a b : A) (hcount : pre.length + 1 = count) :
    (((pre ++ a :: b :: post).take count).map weight).sum =
      (pre.map weight).sum + weight a := by
  rw [← hcount, List.take_append, List.take_of_length_le (Nat.le_succ _), Nat.add_sub_cancel_left,
    List.take_succ_cons, List.take_zero, List.map_append, List.sum_append, List.map_singleton,
    List.sum_singleton]

/-- With a tie at the cut, two sorted rearrangements leave different sums. -/
theorem exists_sum_take_ne (h : CutsTie key weight count xs) :
    ∃ ys zs, ys.Perm xs ∧ zs.Perm xs ∧ Falling key ys ∧ Falling key zs ∧
      ((ys.take count).map weight).sum ≠ ((zs.take count).map weight).sum := by
  obtain ⟨a, ha, b, hb, hkey, hweight, hlow, hhigh⟩ := h
  have hne : a ≠ b := fun h ↦ hweight (congrArg weight h)
  -- one sorted rearrangement, in which only the elements at the key are moved
  obtain ⟨sorted, hsorted, hperm⟩ : ∃ sorted, Falling key sorted ∧ sorted.Perm xs :=
    ⟨_, pairwise_sortOn (fun x ↦ OrderDual.toDual (key x)) xs, sortOn_perm _ xs⟩
  rw [← hperm.countP_eq, ← length_above] at hlow
  rw [← hperm.countP_eq, ← length_above_at] at hhigh
  obtain ⟨rest, hrest⟩ := @exists_perm_cons_cons A (atKey key (key a) sorted) a b
    (mem_atKey.mpr ⟨hperm.mem_iff.mpr ha, rfl⟩)
    (mem_atKey.mpr ⟨hperm.mem_iff.mpr hb, hkey.symm⟩) hne
  have hlength := hrest.length_eq
  rw [List.length_cons, List.length_cons] at hlength
  obtain ⟨cut, hcut⟩ : ∃ cut, cut = count - (aboveKey key (key a) sorted).length - 1 := ⟨_, rfl⟩
  have hat : ∀ c d, (c :: d :: rest).Perm (atKey key (key a) sorted) →
      (rest.take cut ++ c :: d :: rest.drop cut).Perm (atKey key (key a) sorted) := by
    intro c d hcd
    refine List.Perm.trans ?_ hcd
    refine List.perm_middle.trans (List.Perm.cons c (List.perm_middle.trans (List.Perm.cons d ?_)))
    rw [List.take_append_drop]
  have hwhole : ∀ c d, (c :: d :: rest).Perm (atKey key (key a) sorted) →
      ∃ ys, ys.Perm xs ∧ Falling key ys ∧ ((ys.take count).map weight).sum =
        ((aboveKey key (key a) sorted ++ rest.take cut).map weight).sum + weight c := by
    intro c d hcd
    refine ⟨_, ?_, hsorted.perm_atKey (hat c d hcd), ?_⟩
    · refine List.Perm.trans ?_ hperm
      conv_rhs => rw [hsorted.eq_append (key a)]
      exact ((hat c d hcd).append_left _).append_right _
    · have hassoc : aboveKey key (key a) sorted ++ (rest.take cut ++ c :: d :: rest.drop cut) ++
          belowKey key (key a) sorted = (aboveKey key (key a) sorted ++ rest.take cut) ++
            c :: d :: (rest.drop cut ++ belowKey key (key a) sorted) := by
        simp only [List.append_assoc, List.cons_append]
      rw [hassoc]
      apply sum_take_around
      rw [List.length_append, List.length_take]
      omega
  obtain ⟨ys, hys, hfys, hsumys⟩ := hwhole a b hrest.symm
  obtain ⟨zs, hzs, hfzs, hsumzs⟩ := hwhole b a ((List.Perm.swap a b rest).trans hrest.symm)
  refine ⟨ys, zs, hys, hzs, hfys, hfzs, fun heq ↦ hweight ?_⟩
  rw [hsumys, hsumzs] at heq
  exact add_left_cancel heq

end Cancel

end C3RSpec.Base
