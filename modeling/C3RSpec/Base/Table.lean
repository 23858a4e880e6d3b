import C3RSpec.Base.Dict

/-!
# Heap tables

Library `Base`. The rows of a table under their primary key, in the order of the heap: an insert
appends, an update writes new versions behind the others, and a selection by key finds the one
row that has it. A table represents a dictionary when it holds the same rows in any order.
-/

namespace C3RSpec.Base

/-- Rows under their primary key. -/
abbrev Table (K V : Type) := List (K × V)

namespace Table

variable {K V : Type} [DecidableEq K]

/-- `SELECT … WHERE key = k`, and its first row. -/
def select (k : K) (rows : Table K V) : Option V :=
  (rows.find? fun e ↦ decide (e.1 = k)).map Prod.snd

/-- `UPDATE … SET … WHERE`: new versions of the rows that match. -/
def update (p : K → V → Bool) (f : V → V) (rows : Table K V) : Table K V :=
  rows.filter (fun e ↦ !p e.1 e.2) ++ (rows.filter fun e ↦ p e.1 e.2).map fun e ↦ (e.1, f e.2)

/-- The number of rows that match. -/
def count (p : K → V → Bool) (rows : Table K V) : Nat := (rows.filter fun e ↦ p e.1 e.2).length

/-- `INSERT … ON CONFLICT … DO UPDATE`. -/
def upsert (k : K) (v : V) (f : V → V) (rows : Table K V) : Table K V :=
  if (rows.select k).isSome then rows.update (fun a _ ↦ decide (a = k)) f else rows ++ [(k, v)]

/-- `DELETE … WHERE`. -/
def delete (p : K → V → Bool) (rows : Table K V) : Table K V := rows.filter fun e ↦ !p e.1 e.2

/-- The rows of a dictionary in any order. -/
def Represents (rows : Table K V) (d : Dict K V) : Prop := rows.Perm d.entries

namespace Represents

variable {rows : Table K V} {d : Dict K V}

omit [DecidableEq K] in
/-- An empty table. -/
theorem empty : Represents ([] : Table K V) Dict.empty := List.Perm.refl _

private theorem mem_iff (h : Represents rows d) {k : K} {v : V} :
    (k, v) ∈ rows ↔ d.get? k = some v := by
  rw [Dict.get?_eq_some_iff]
  exact List.Perm.mem_iff h

omit [DecidableEq K] in
private theorem nodup (h : Represents rows d) : rows.Nodup :=
  (List.Perm.nodup_iff h).mpr (List.Nodup.of_map Prod.fst d.nodup)

private theorem of_mem (hn : rows.Nodup) (h : ∀ k v, (k, v) ∈ rows ↔ d.get? k = some v) :
    Represents rows d := by
  refine (List.perm_ext_iff_of_nodup hn (List.Nodup.of_map Prod.fst d.nodup)).mpr ?_
  rintro ⟨k, v⟩
  rw [h, Dict.get?_eq_some_iff]

/-- A selection by key is a lookup. -/
theorem select_eq (h : Represents rows d) (k : K) : rows.select k = d.get? k := by
  unfold select
  cases hfind : rows.find? fun e ↦ decide (e.1 = k) with
  | some e =>
    obtain rfl : e.1 = k := of_decide_eq_true (List.find?_some hfind :)
    exact (h.mem_iff.mp (List.mem_of_find?_eq_some hfind)).symm
  | none =>
    symm
    rw [Option.map_none, Option.eq_none_iff_forall_ne_some]
    intro v hv
    exact List.find?_eq_none.mp hfind _ (h.mem_iff.mpr hv) (decide_eq_true rfl)

/-- A new row. -/
theorem append (h : Represents rows d) {k : K} (hk : d.get? k = none) (v : V) :
    Represents (rows ++ [(k, v)]) (d.insert k v) := by
  have hnot : ∀ b, (k, b) ∉ rows := by
    intro b hb
    rw [h.mem_iff, hk] at hb
    cases hb
  refine of_mem (List.nodup_append.mpr ⟨h.nodup, List.nodup_singleton _, ?_⟩) fun a b ↦ ?_
  · rintro e he _ hs rfl
    rw [List.mem_singleton] at hs
    exact hnot v (hs ▸ he)
  · rw [List.mem_append, List.mem_singleton, h.mem_iff, Dict.get?_insert]
    split
    · next hka =>
      subst hka
      simp [hk, eq_comm]
    · next hka => simp [Ne.symm hka]

private theorem filter_eq (h : Represents rows d) {k : K} {v : V} (hk : d.get? k = some v)
    {p : K → V → Bool} (hp : ∀ a b, d.get? a = some b → (p a b = true ↔ a = k)) :
    rows.filter (fun e ↦ p e.1 e.2) = [(k, v)] := by
  rw [← List.perm_singleton]
  refine (List.perm_ext_iff_of_nodup (h.nodup.filter _) (List.nodup_singleton _)).mpr ?_
  rintro ⟨a, b⟩
  rw [List.mem_filter, List.mem_singleton, h.mem_iff]
  constructor
  · rintro ⟨hab, hpab⟩
    obtain rfl := (hp a b hab).mp hpab
    rw [hk] at hab
    cases hab
    rfl
  · intro he
    cases he
    exact ⟨hk, (hp k v hk).mpr rfl⟩

/-- An update of the one row under a key. -/
theorem update_eq (h : Represents rows d) {k : K} {v : V} (hk : d.get? k = some v)
    {p : K → V → Bool} (hp : ∀ a b, d.get? a = some b → (p a b = true ↔ a = k)) (f : V → V) :
    Represents (rows.update p f) (d.insert k (f v)) := by
  have hothers : ∀ a b, (a, b) ∈ rows.filter (fun e ↦ !p e.1 e.2) ↔
      a ≠ k ∧ d.get? a = some b := by
    intro a b
    rw [List.mem_filter, h.mem_iff]
    constructor
    · rintro ⟨hab, hpab⟩
      refine ⟨fun hak ↦ ?_, hab⟩
      simp [(hp a b hab).mpr hak] at hpab
    · rintro ⟨hak, hab⟩
      refine ⟨hab, ?_⟩
      simp only [Bool.not_eq_true']
      exact Bool.eq_false_iff.mpr fun hpab ↦ hak ((hp a b hab).mp hpab)
  rw [update, filter_eq h hk hp]
  refine of_mem (List.nodup_append.mpr ⟨h.nodup.filter _, List.nodup_singleton _, ?_⟩)
    fun a b ↦ ?_
  · rintro e he _ hs rfl
    rw [List.map_singleton, List.mem_singleton] at hs
    subst hs
    exact ((hothers _ _).mp he).1 rfl
  · rw [List.mem_append, hothers, List.map_singleton, List.mem_singleton, Dict.get?_insert]
    split
    · next hka =>
      subst hka
      simp [eq_comm]
    · next hka => simp [Ne.symm hka]

/-- A write that inserts or updates. -/
theorem upsert_eq (h : Represents rows d) (k : K) (v : V) (f : V → V) :
    Represents (rows.upsert k v f) (d.insert k (((d.get? k).map f).getD v)) := by
  unfold upsert
  rw [h.select_eq]
  cases hk : d.get? k with
  | none => exact h.append hk v
  | some w => exact h.update_eq hk (fun a _ _ ↦ decide_eq_true_iff) f

omit [DecidableEq K] in
/-- A deletion. -/
theorem delete_eq (h : Represents rows d) (p : K → V → Bool) :
    Represents (rows.delete p) (d.filterEntries fun k v ↦ !p k v) :=
  List.Perm.filter _ h

/-- How many rows match a condition that only one key can meet. -/
theorem count_eq (h : Represents rows d) {k : K} {p : K → V → Bool}
    (hp : ∀ a b, p a b = true → a = k) :
    rows.count p = if (d.get? k).any (p k) then 1 else 0 := by
  have hnone : (d.get? k).any (p k) = false → rows.filter (fun e ↦ p e.1 e.2) = [] := by
    intro hany
    rw [List.filter_eq_nil_iff]
    rintro ⟨a, b⟩ he hpab
    obtain rfl := hp a b hpab
    rw [h.mem_iff.mp he, Option.any_some, hpab] at hany
    cases hany
  unfold count
  cases hk : d.get? k with
  | none =>
    rw [hnone (by rw [hk]; rfl)]
    rfl
  | some v =>
    cases hv : p k v with
    | false =>
      rw [hnone (by rw [hk, Option.any_some, hv]), Option.any_some, hv]
      rfl
    | true =>
      rw [filter_eq h hk, Option.any_some, hv]
      · rfl
      · intro a b hab
        refine ⟨hp a b, ?_⟩
        rintro rfl
        rw [hk] at hab
        cases hab
        exact hv

end Represents

end Table

end C3RSpec.Base
