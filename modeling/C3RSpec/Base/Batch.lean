import Mathlib.Data.List.Count
import Mathlib.Data.List.Dedup
import Mathlib.Data.List.Perm.Basic

/-!
# Deleting rows in batches

Library `Base`. `DELETE … WHERE … LIMIT n` on the rows of a table. A batch takes rows that meet a
condition, at most so many, and leaves the others where they are; repeated, it takes all of them.
-/

namespace C3RSpec.Base

variable {A K : Type}

/-- `rows'` is what a batch of at most `n` rows that meet `p` leaves of `rows`. -/
structure Batch (p : A → Bool) (n : Nat) (rows rows' : List A) : Prop where
  sublist : rows'.Sublist rows
  others : rows'.filter (fun a ↦ !p a) = rows.filter fun a ↦ !p a
  left : rows'.countP p = rows.countP p - n

namespace Batch

variable {p : A → Bool} {n : Nat} {rows rows' : List A}

/-- A batch takes as many rows as it may and can. -/
theorem length_sub (h : Batch p n rows rows') :
    rows.length - rows'.length = min n (rows.countP p) := by
  have hsplit : ∀ l : List A, l.length = l.countP p + (l.filter fun a ↦ !p a).length := by
    intro l
    rw [← List.countP_eq_length_filter, List.length_eq_countP_add_countP p]
    congr 2
    funext a
    cases p a <;> rfl
  have hleft := h.left
  rw [hsplit rows, hsplit rows', h.others]
  omega

/-- A condition that the rows do not tell from another. -/
theorem congr {q : A → Bool} (h : Batch p n rows rows') (heq : ∀ a ∈ rows, p a = q a) :
    Batch q n rows rows' where
  sublist := h.sublist
  others := by
    rw [← List.filter_congr fun a ha ↦ congrArg (!·) (heq a (h.sublist.subset ha)),
      ← List.filter_congr fun a ha ↦ congrArg (!·) (heq a ha)]
    exact h.others
  left := by
    have hcount : ∀ l : List A, (∀ a ∈ l, p a = q a) → l.countP p = l.countP q := fun l hl ↦
      List.countP_congr fun a ha ↦ by rw [hl a ha]
    rw [← hcount rows heq, ← hcount rows' fun a ha ↦ heq a (h.sublist.subset ha)]
    exact h.left

/-- A filter that drops the right number of rows that meet the condition. -/
theorem of_filter {q : A → Bool} (hkeep : ∀ a ∈ rows, p a = false → q a = true)
    (hcount : rows.countP (fun a ↦ !q a) = min n (rows.countP p)) :
    Batch p n rows (rows.filter q) where
  sublist := List.filter_sublist
  others := by
    rw [List.filter_filter]
    apply List.filter_congr
    intro a ha
    cases hp : p a with
    | true => rfl
    | false => simp [hkeep a ha hp]
  left := by
    have hsplit : rows.countP p = rows.countP (fun a ↦ p a && q a) + rows.countP fun a ↦ !q a := by
      clear hcount
      induction rows with
      | nil => rfl
      | cons a rows ih =>
        have hih := ih fun b hb ↦ hkeep b (List.mem_cons_of_mem a hb)
        have ha := hkeep a List.mem_cons_self
        simp only [List.countP_cons, hih]
        cases hp : p a <;> cases hq : q a <;> simp_all <;> omega
    rw [List.countP_filter]
    omega

end Batch

/-- `DELETE … WHERE rowid IN (SELECT rowid … ORDER BY rowid LIMIT n)`. -/
def deleteFirst (p : A → Bool) : Nat → List A → List A
  | 0, rows => rows
  | _ + 1, [] => []
  | n + 1, row :: rows => if p row then deleteFirst p n rows else row :: deleteFirst p (n + 1) rows

/-- It deletes a batch. -/
theorem batch_deleteFirst (p : A → Bool) (n : Nat) (rows : List A) :
    Batch p n rows (deleteFirst p n rows) := by
  induction rows generalizing n with
  | nil =>
    cases n with
    | zero => exact ⟨List.Sublist.refl [], rfl, rfl⟩
    | succ n => exact ⟨List.Sublist.refl [], rfl, by simp [deleteFirst]⟩
  | cons row rows ih =>
    cases n with
    | zero => exact ⟨List.Sublist.refl _, rfl, rfl⟩
    | succ n =>
      rw [deleteFirst]
      by_cases hp : p row = true
      · obtain ⟨hsub, hothers, hleft⟩ := ih n
        rw [if_pos hp]
        refine ⟨hsub.cons row, ?_, ?_⟩
        · rw [hothers, List.filter_cons_of_neg (by simp [hp])]
        · rw [hleft, List.countP_cons_of_pos hp]
          omega
      · obtain ⟨hsub, hothers, hleft⟩ := ih (n + 1)
        rw [if_neg hp]
        refine ⟨hsub.cons_cons row, ?_, ?_⟩
        · rw [List.filter_cons_of_pos (by simp [hp]), hothers,
            List.filter_cons_of_pos (by simp [hp])]
        · rw [List.countP_cons_of_neg hp, hleft, List.countP_cons_of_neg hp]

/-- A batch of rows that are kept anyway, among the rows that are kept. -/
theorem deleteFirst_filter {p q : A → Bool} (h : ∀ a, p a = true → q a = true) (n : Nat)
    (rows : List A) : (deleteFirst p n rows).filter q = deleteFirst p n (rows.filter q) := by
  induction rows generalizing n with
  | nil => cases n <;> rfl
  | cons row rows ih =>
    cases n with
    | zero => rw [deleteFirst, deleteFirst]
    | succ n =>
      by_cases hp : p row = true
      · rw [List.filter_cons_of_pos (h row hp), deleteFirst, deleteFirst, if_pos hp, if_pos hp, ih]
      · by_cases hq : q row = true
        · rw [List.filter_cons_of_pos hq, deleteFirst, deleteFirst, if_neg hp, if_neg hp,
            List.filter_cons_of_pos hq, ih]
        · rw [List.filter_cons_of_neg hq, deleteFirst, if_neg hp, List.filter_cons_of_neg hq, ih]

/-- A batch of other rows. -/
theorem filter_deleteFirst_of_disjoint {p q : A → Bool} (h : ∀ a, p a = true → q a = false)
    (n : Nat) (rows : List A) : (deleteFirst p n rows).filter q = rows.filter q := by
  induction rows generalizing n with
  | nil => cases n <;> rfl
  | cons row rows ih =>
    cases n with
    | zero => rw [deleteFirst]
    | succ n =>
      by_cases hp : p row = true
      · have hnot : ¬q row = true := by
          rw [h row hp]
          exact Bool.false_ne_true
        rw [deleteFirst, if_pos hp, ih, List.filter_cons_of_neg hnot]
      · rw [deleteFirst, if_neg hp, List.filter_cons, List.filter_cons, ih]

/-- Deleting by key the first `n` keys, in some order, of the rows that meet a condition deletes a
batch, when keys are unique. -/
theorem batch_deleteKeys {p : A → Bool} {n : Nat} {rows : List A} {key : A → K}
    (hkeys : (rows.map key).Nodup) {keys : List K} (hperm : keys.Perm ((rows.filter p).map key))
    {taken : A → Bool} (htaken : ∀ a, taken a = true ↔ key a ∈ keys.take n) :
    Batch p n rows (rows.filter fun a ↦ !taken a) := by
  have hnodup : keys.Nodup :=
    hperm.nodup_iff.mpr (hkeys.sublist (List.filter_sublist.map key))
  have hmem : ∀ {k}, k ∈ keys.take n → ∃ a ∈ rows, p a = true ∧ key a = k := by
    intro k hk
    obtain ⟨a, ha, rfl⟩ := List.mem_map.mp (hperm.mem_iff.mp (List.mem_of_mem_take hk))
    exact ⟨a, (List.mem_filter.mp ha).1, (List.mem_filter.mp ha).2, rfl⟩
  apply Batch.of_filter
  · intro a ha hp
    rw [Bool.not_eq_true', ← Bool.not_eq_true]
    intro hk
    obtain ⟨b, hb, hpb, hkey⟩ := hmem ((htaken a).mp hk)
    rw [List.inj_on_of_nodup_map hkeys hb ha hkey] at hpb
    rw [hp] at hpb
    cases hpb
  · have hperm' : ((rows.filter taken).map key).Perm (keys.take n) := by
      rw [List.perm_ext_iff_of_nodup (hkeys.sublist (List.filter_sublist.map key))
        (hnodup.sublist (List.take_sublist n keys))]
      intro k
      rw [List.mem_map]
      constructor
      · rintro ⟨a, ha, rfl⟩
        exact (htaken a).mp (List.mem_filter.mp ha).2
      · intro hk
        obtain ⟨a, ha, -, rfl⟩ := hmem hk
        exact ⟨a, List.mem_filter.mpr ⟨ha, (htaken a).mpr hk⟩, rfl⟩
    have hlength := hperm'.length_eq
    rw [List.length_map, ← List.countP_eq_length_filter, List.length_take, hperm.length_eq,
      List.length_map, ← List.countP_eq_length_filter] at hlength
    simp only [Bool.not_not]
    exact hlength

end C3RSpec.Base
