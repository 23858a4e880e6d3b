import C3RSpec.Base.Text
import Mathlib.Data.List.Forall2
import Mathlib.Order.Lattice

/-!
# Loops that fill a bounded list

Library `Base`. `for x in xs: …; if len(acc) >= cap: break`, nested to any depth. As long as
every body only appends, up to the cap, the loop computes a prefix of the unbounded result.
-/

namespace C3RSpec.Base

variable {A B : Type}

/-- A loop over `xs` that stops once the accumulator holds `cap` elements. -/
def forBreak (cap : Nat) (body : List B → A → List B) : List A → List B → List B
  | [], acc => acc
  | x :: xs, acc =>
    if cap ≤ (body acc x).length then body acc x else forBreak cap body xs (body acc x)

/-- A body that appends `f x`, up to the cap. -/
def FillsUpTo (cap : Nat) (body : List B → A → List B) (f : A → List B) : Prop :=
  ∀ acc x, acc.length < cap → body acc x = (acc ++ f x).take cap

/-- A loop of filling bodies fills. -/
theorem forBreak_eq_take {cap : Nat} {body : List B → A → List B} {f : A → List B}
    (h : FillsUpTo cap body f) (xs : List A) (acc : List B) (hacc : acc.length < cap) :
    forBreak cap body xs acc = (acc ++ xs.flatMap f).take cap := by
  induction xs generalizing acc with
  | nil => rw [forBreak, List.flatMap_nil, List.append_nil, List.take_of_length_le hacc.le]
  | cons x xs ih =>
    have hb := h acc x hacc
    rw [forBreak, List.flatMap_cons, ← List.append_assoc]
    by_cases hfull : cap ≤ (body acc x).length
    · rw [if_pos hfull]
      rw [hb, List.length_take, Nat.le_min] at hfull
      rw [hb, List.take_append_of_le_length hfull.2]
    · rw [if_neg hfull]
      have hshort : (acc ++ f x).length < cap := by
        rw [hb, List.length_take] at hfull
        omega
      rw [List.take_of_length_le hshort.le] at hb
      rw [hb]
      exact ih (acc ++ f x) hshort

/-- Appending one element fills. -/
theorem fillsUpTo_singleton (cap : Nat) (g : A → B) :
    FillsUpTo cap (fun acc x ↦ acc ++ [g x]) fun x ↦ [g x] := by
  intro acc x hacc
  rw [List.take_of_length_le]
  rw [List.length_append, List.length_singleton]
  exact hacc

/-- An inner loop fills. -/
theorem fillsUpTo_forBreak {C : Type} {cap : Nat} {body : C → List B → A → List B}
    {f : C → A → List B} {xs : C → List A} (h : ∀ c, FillsUpTo cap (body c) (f c)) :
    FillsUpTo cap (fun acc c ↦ forBreak cap (body c) (xs c) acc)
      fun c ↦ (xs c).flatMap (f c) :=
  fun acc c hacc ↦ forBreak_eq_take (h c) (xs c) acc hacc

/-! ### Comprehensions whose body can raise -/

section MapM

variable {ε : Type} {f : A → Except ε B} {xs : List A} {ys : List B}

/-- A comprehension succeeds when every element does. -/
theorem mapM_eq_ok_iff : xs.mapM f = .ok ys ↔ List.Forall₂ (fun x y ↦ f x = .ok y) xs ys := by
  induction xs generalizing ys with
  | nil =>
    rw [List.mapM_nil, List.forall₂_nil_left_iff]
    constructor
    · exact fun h ↦ (Except.ok.inj h).symm
    · exact fun h ↦ congrArg Except.ok h.symm
  | cons x xs ih =>
    rw [List.mapM_cons, bind_eq_ok, List.forall₂_cons_left_iff]
    constructor
    · rintro ⟨y, hy, h⟩
      obtain ⟨rest, hrest, h⟩ := bind_eq_ok.mp h
      exact ⟨y, rest, hy, ih.mp hrest, (Except.ok.inj h).symm⟩
    · rintro ⟨y, rest, hy, hrest, rfl⟩
      exact ⟨y, hy, bind_eq_ok.mpr ⟨rest, ih.mpr hrest, rfl⟩⟩

/-- A comprehension over elements that all succeed. -/
theorem exists_mapM_ok (h : ∀ x ∈ xs, ∃ y, f x = .ok y) : ∃ ys, xs.mapM f = .ok ys := by
  induction xs with
  | nil => exact ⟨[], rfl⟩
  | cons x xs ih =>
    obtain ⟨y, hy⟩ := h x List.mem_cons_self
    obtain ⟨ys, hys⟩ := ih fun z hz ↦ h z (List.mem_cons_of_mem x hz)
    exact ⟨y :: ys, by rw [List.mapM_cons, hy, hys]; rfl⟩

end MapM

/-! ### Inserts under a unique key -/

/-- A loop of inserts, each of which raises on a key that is held and on a row that is not allowed,
succeeds when the keys are new and distinct and every row is allowed. -/
theorem foldlM_insert_eq_ok_iff {σ κ ε : Type} {f : σ → A → Except ε σ} (key : A → κ)
    (held : σ → List κ) (allowed : σ → A → Prop) (next : σ → A → σ)
    (hf : ∀ s x s', f s x = .ok s' ↔ key x ∉ held s ∧ allowed s x ∧ s' = next s x)
    (hheld : ∀ s x, key x ∉ held s → held (next s x) = held s ++ [key x])
    (hallowed : ∀ s x y, allowed (next s x) y ↔ allowed s y) {rows : List A} {s s' : σ}
    (hs : (held s).Nodup) :
    rows.foldlM f s = .ok s' ↔
      (held s ++ rows.map key).Nodup ∧ (∀ x ∈ rows, allowed s x) ∧ s' = rows.foldl next s := by
  induction rows generalizing s with
  | nil =>
    rw [List.map_nil, List.append_nil]
    constructor
    · intro h
      exact ⟨hs, fun x hx ↦ (List.not_mem_nil hx).elim, (Except.ok.inj h).symm⟩
    · rintro ⟨-, -, rfl⟩
      rfl
  | cons x rows ih =>
    have hnext : key x ∉ held s → (held (next s x)).Nodup := by
      intro hx
      rw [hheld s x hx]
      exact (List.perm_append_singleton (key x) (held s)).nodup_iff.mpr
        (List.nodup_cons.mpr ⟨hx, hs⟩)
    rw [List.foldlM_cons, bind_eq_ok, List.map_cons, List.forall_mem_cons, List.foldl_cons]
    constructor
    · rintro ⟨t, ht, h⟩
      obtain ⟨hx, hax, rfl⟩ := (hf s x t).mp ht
      obtain ⟨hnodup, hall, hs'⟩ := (ih (hnext hx)).mp h
      rw [hheld s x hx, List.append_assoc, List.singleton_append] at hnodup
      exact ⟨hnodup, ⟨hax, fun y hy ↦ (hallowed s x y).mp (hall y hy)⟩, hs'⟩
    · rintro ⟨hnodup, ⟨hax, hall⟩, hs'⟩
      have hx : key x ∉ held s := by
        intro hmem
        exact (List.nodup_append.mp hnodup).2.2 _ hmem _ List.mem_cons_self rfl
      refine ⟨next s x, (hf s x _).mpr ⟨hx, hax, rfl⟩, (ih (hnext hx)).mpr ⟨?_, ?_, hs'⟩⟩
      · rw [hheld s x hx, List.append_assoc, List.singleton_append]
        exact hnodup
      · exact fun y hy ↦ (hallowed s x y).mpr (hall y hy)

/-- Every element of the one list has a partner in the other. -/
theorem exists_partner {R : A → B → Prop} {xs : List A} {ys : List B} (h : List.Forall₂ R xs ys)
    {x : A} (hx : x ∈ xs) : ∃ y ∈ ys, R x y := by
  induction h with
  | nil => cases hx
  | cons hr _ ih =>
    obtain rfl | hx := List.mem_cons.mp hx
    · exact ⟨_, List.mem_cons_self, hr⟩
    · obtain ⟨y, hy, hr⟩ := ih hx
      exact ⟨y, List.mem_cons_of_mem _ hy, hr⟩

/-! ### `min` and `max` -/

/-- `min(items, key=…)`: the first element no later one is below. -/
def firstMin (below : A → A → Bool) (x : A) (xs : List A) : A :=
  xs.foldl (fun m y ↦ if below y m then y else m) x

/-- `max(items, key=…)`: the first element no later one is above. -/
def firstMax (below : A → A → Bool) (x : A) (xs : List A) : A :=
  xs.foldl (fun m y ↦ if below m y then y else m) x

/-- The greatest element is one of them. -/
theorem firstMax_mem (below : A → A → Bool) (x : A) (xs : List A) :
    firstMax below x xs ∈ x :: xs := by
  induction xs generalizing x with
  | nil => exact List.mem_singleton_self x
  | cons y ys ih =>
    have hm := ih (if below x y then y else x)
    rw [firstMax, List.foldl_cons]
    rcases List.mem_cons.mp hm with hm | hm
    · rw [firstMax] at hm
      rw [hm]
      split <;> simp
    · exact List.mem_cons_of_mem _ (List.mem_cons_of_mem _ hm)

/-- Nothing is above the greatest element, when the order that the comparison stands for is
transitive and the comparison decides it. -/
theorem le_firstMax (below : A → A → Bool) (le : A → A → Prop) (s : A → Prop)
    (htrans : ∀ {a b c}, le a b → le b c → le a c) (hself : ∀ a, s a → le a a)
    (hlt : ∀ {a b}, below a b = true → le a b)
    (hnot : ∀ {a b}, s a → s b → below a b = false → le b a) {x : A} {xs : List A}
    (hs : ∀ a ∈ x :: xs, s a) : ∀ a ∈ x :: xs, le a (firstMax below x xs) := by
  induction xs generalizing x with
  | nil =>
    intro a ha
    rw [List.mem_singleton.mp ha]
    exact hself x (hs x List.mem_cons_self)
  | cons y ys ih =>
    have hx : s x := hs x List.mem_cons_self
    have hy : s y := hs y (List.mem_cons_of_mem x List.mem_cons_self)
    have hys : ∀ a ∈ ys, s a := fun a ha ↦ hs a (by simp [ha])
    intro a ha
    rw [firstMax, List.foldl_cons, ← firstMax]
    cases hb : below x y with
    | true =>
      have hmax := ih (x := y) (by simpa [hy] using hys)
      obtain rfl | ha := List.mem_cons.mp ha
      · exact htrans (hlt hb) (hmax y List.mem_cons_self)
      · exact hmax a ha
    | false =>
      have hmax := ih (x := x) (by simpa [hx] using hys)
      obtain rfl | ha := List.mem_cons.mp ha
      · exact hmax a List.mem_cons_self
      · obtain rfl | ha := List.mem_cons.mp ha
        · exact htrans (hnot hx hy hb) (hmax x List.mem_cons_self)
        · exact hmax a (List.mem_cons_of_mem x ha)

/-- `max(start, *xs)` when nothing exceeds the start. -/
theorem foldl_max_eq {N : Type} [LinearOrder N] {xs : List N} {n : N} (h : ∀ x ∈ xs, x ≤ n) :
    xs.foldl max n = n := by
  induction xs with
  | nil => rfl
  | cons x xs ih =>
    rw [List.foldl_cons, max_eq_left (h x List.mem_cons_self)]
    exact ih fun y hy ↦ h y (List.mem_cons_of_mem x hy)

end C3RSpec.Base
