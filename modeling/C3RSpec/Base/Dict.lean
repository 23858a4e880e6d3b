import Mathlib.Algebra.GroupWithZero.Nat
import Mathlib.Data.List.Dedup
import Mathlib.Data.List.Nodup

/-!
# Insertion-ordered dictionaries

Library `Base`. A Python `dict` keeps its keys distinct and in the order of their first
insertion; assigning to a present key keeps the position and replaces the value. The
distinctness of keys is a field, so a malformed dictionary cannot be built.
-/

namespace C3RSpec.Base

/-- A Python `dict`: entries in insertion order with distinct keys. -/
structure Dict (K V : Type) where
  entries : List (K × V)
  nodup : (entries.map Prod.fst).Nodup

namespace Dict

variable {K V A : Type} [DecidableEq K]

instance [DecidableEq V] : DecidableEq (Dict K V) := fun a b ↦
  decidable_of_iff (a.entries = b.entries) (by
    cases a
    cases b
    simp)

/-- The empty dictionary. -/
def empty : Dict K V := ⟨[], List.nodup_nil⟩

instance : EmptyCollection (Dict K V) := ⟨empty⟩

/-- `list(d)`: the keys in insertion order. -/
def keys (d : Dict K V) : List K := d.entries.map Prod.fst

/-- `list(d.values())`. -/
def values (d : Dict K V) : List V := d.entries.map Prod.snd

/-- `len(d)`. -/
def size (d : Dict K V) : Nat := d.entries.length

private def lookupEntry (k : K) : List (K × V) → Option V
  | [] => none
  | e :: es => if e.1 = k then some e.2 else lookupEntry k es

/-- `d.get(k)`. -/
def get? (d : Dict K V) (k : K) : Option V := lookupEntry k d.entries

private def assignEntry (k : K) (v : V) : List (K × V) → List (K × V)
  | [] => [(k, v)]
  | e :: es => if e.1 = k then (k, v) :: es else e :: assignEntry k v es

private theorem fst_assignEntry (k : K) (v : V) (es : List (K × V)) :
    (assignEntry k v es).map Prod.fst =
      if k ∈ es.map Prod.fst then es.map Prod.fst else es.map Prod.fst ++ [k] := by
  induction es with
  | nil => simp [assignEntry]
  | cons e es ih =>
    simp only [assignEntry]
    by_cases h : e.1 = k
    · simp [h]
    · rw [if_neg h, List.map_cons, ih, List.map_cons]
      have hk : k ≠ e.1 := fun he ↦ h he.symm
      by_cases hm : k ∈ es.map Prod.fst
      · simp [hm]
      · simp [hm, hk]

/-- `d[k] = v`. -/
def insert (d : Dict K V) (k : K) (v : V) : Dict K V :=
  ⟨assignEntry k v d.entries, by
    rw [fst_assignEntry]
    split
    · exact d.nodup
    · next h =>
      refine List.nodup_append.mpr ⟨d.nodup, List.nodup_singleton k, ?_⟩
      intro a ha b hb he
      rw [List.mem_singleton] at hb
      subst hb
      subst he
      exact h ha⟩

/-- The dictionary comprehension over a list of pairs; a later pair replaces an earlier one. -/
def ofList (es : List (K × V)) : Dict K V := es.foldl (fun d e ↦ d.insert e.1 e.2) ∅

/-- The entries that satisfy a condition. -/
def filterEntries (p : K → V → Bool) (d : Dict K V) : Dict K V :=
  ⟨d.entries.filter fun e ↦ p e.1 e.2, d.nodup.sublist (List.filter_sublist.map _)⟩

/-- `for x in xs: d[key(x)].append(x)` on a `defaultdict(list)`. -/
def groupBy (key : A → K) (xs : List A) : Dict K (List A) :=
  xs.foldl (fun d x ↦ d.insert (key x) ((d.get? (key x)).getD [] ++ [x])) ∅

/-- The values replaced entry by entry; keys and their order stay. -/
def mapEntries {W : Type} (f : K → V → W) (d : Dict K V) : Dict K W :=
  ⟨d.entries.map fun e ↦ (e.1, f e.1 e.2), by
    rw [List.map_map]
    exact d.nodup⟩

private theorem lookupEntry_map {W : Type} (f : K → V → W) (k : K) (es : List (K × V)) :
    lookupEntry k (es.map fun e ↦ (e.1, f e.1 e.2)) = (lookupEntry k es).map (f k) := by
  induction es with
  | nil => rfl
  | cons e es ih =>
    rw [List.map_cons, lookupEntry, lookupEntry]
    by_cases h : e.1 = k
    · simp [h]
    · rw [if_neg h, if_neg h, ih]

/-- Lookup sees the replaced value. -/
theorem get?_mapEntries {W : Type} (f : K → V → W) (d : Dict K V) (k : K) :
    (d.mapEntries f).get? k = (d.get? k).map (f k) :=
  lookupEntry_map f k d.entries

/-- Nothing is found in the empty dictionary. -/
@[simp] theorem get?_empty (k : K) : (∅ : Dict K V).get? k = none := rfl

private theorem lookupEntry_assignEntry (k a : K) (v : V) (es : List (K × V)) :
    lookupEntry a (assignEntry k v es) = if k = a then some v else lookupEntry a es := by
  induction es with
  | nil => simp [assignEntry, lookupEntry]
  | cons e es ih =>
    simp only [assignEntry]
    by_cases h : e.1 = k
    · by_cases ha : k = a
      · simp [h, lookupEntry, ha]
      · have he : ¬ e.1 = a := fun he ↦ ha (h.symm.trans he)
        simp [h, lookupEntry, ha]
    · rw [if_neg h]
      simp only [lookupEntry]
      by_cases he : e.1 = a
      · have ha : ¬ k = a := fun hk ↦ h (he.trans hk.symm)
        simp [he, ha]
      · simp [he, ih]

/-- Assignment is read back at its key and leaves every other key alone. -/
theorem get?_insert (d : Dict K V) (k a : K) (v : V) :
    (d.insert k v).get? a = if k = a then some v else d.get? a :=
  lookupEntry_assignEntry k a v d.entries

private theorem lookupEntry_eq_some_iff {es : List (K × V)} (h : (es.map Prod.fst).Nodup)
    (k : K) (v : V) : lookupEntry k es = some v ↔ (k, v) ∈ es := by
  induction es with
  | nil => simp [lookupEntry]
  | cons e es ih =>
    rw [List.map_cons, List.nodup_cons] at h
    rcases e with ⟨a, w⟩
    simp only [lookupEntry]
    by_cases ha : a = k
    · subst a
      have hn : (k, v) ∉ es := fun hm ↦ h.1 (List.mem_map.mpr ⟨(k, v), hm, rfl⟩)
      simp [hn, eq_comm]
    · have hk : k ≠ a := fun he ↦ ha he.symm
      simp [ha, hk, ih h.2]

/-- Lookup finds exactly the stored entries. -/
theorem get?_eq_some_iff (d : Dict K V) (k : K) (v : V) :
    d.get? k = some v ↔ (k, v) ∈ d.entries :=
  lookupEntry_eq_some_iff d.nodup k v

/-- A present key has a value. -/
theorem get?_isSome_iff (d : Dict K V) (k : K) : (d.get? k).isSome ↔ k ∈ d.keys := by
  constructor
  · intro h
    obtain ⟨v, hv⟩ := Option.isSome_iff_exists.mp h
    exact List.mem_map.mpr ⟨(k, v), (d.get?_eq_some_iff k v).mp hv, rfl⟩
  · intro h
    obtain ⟨e, he, rfl⟩ := List.mem_map.mp h
    rw [(d.get?_eq_some_iff e.1 e.2).mpr he]
    rfl

/-- A lookup in the entries that are kept. -/
theorem get?_filterEntries (p : K → V → Bool) (d : Dict K V) (k : K) :
    (d.filterEntries p).get? k = (d.get? k).filter (p k) := by
  ext v
  rw [get?_eq_some_iff, Option.filter_eq_some_iff, get?_eq_some_iff]
  exact List.mem_filter

private theorem filter_assignEntry (p : K → Bool) (k : K) (v : V) (es : List (K × V)) :
    (assignEntry k v es).filter (fun e ↦ p e.1) = if p k = true then
      assignEntry k v (es.filter fun e ↦ p e.1) else es.filter fun e ↦ p e.1 := by
  induction es with
  | nil => by_cases hk : p k = true <;> simp [assignEntry, hk]
  | cons e es ih =>
    simp only [assignEntry]
    by_cases h : e.1 = k
    · by_cases hk : p k = true
      · simp [h, hk, assignEntry]
      · simp [h, hk]
    · rw [if_neg h]
      by_cases he : p e.1 = true
      · by_cases hk : p k = true
        · simp [he, ih, hk, assignEntry, h]
        · simp [he, ih, hk]
      · simp [he, ih]

/-- An assignment is seen by the filters on keys that keep its key. -/
theorem filterEntries_insert (p : K → Bool) (d : Dict K V) (k : K) (v : V) :
    (d.insert k v).filterEntries (fun a _ ↦ p a) = if p k = true then
      (d.filterEntries fun a _ ↦ p a).insert k v else d.filterEntries fun a _ ↦ p a := by
  have hentries := filter_assignEntry p k v d.entries
  split
  · next hk =>
    rw [if_pos hk] at hentries
    simp only [filterEntries, insert, hentries]
  · next hk =>
    rw [if_neg hk] at hentries
    simp only [filterEntries, insert, hentries]

private theorem foldl_insert_get? (es : List (K × V)) (d : Dict K V) (k : K) :
    (es.foldl (fun d e ↦ d.insert e.1 e.2) d).get? k =
      ((es.reverse.find? (fun e ↦ decide (e.1 = k))).map Prod.snd).or (d.get? k) := by
  induction es generalizing d with
  | nil => simp
  | cons e es ih =>
    rw [List.foldl_cons, ih, get?_insert, List.reverse_cons, List.find?_append]
    cases hf : es.reverse.find? (fun e ↦ decide (e.1 = k)) with
    | some x => simp
    | none =>
      by_cases he : e.1 = k
      · simp [he]
      · simp [he]

/-- A comprehension maps each key to the value of its last pair. -/
theorem get?_ofList (es : List (K × V)) (k : K) :
    (ofList es).get? k = (es.reverse.find? (fun e ↦ decide (e.1 = k))).map Prod.snd := by
  rw [ofList, foldl_insert_get?, get?_empty, Option.or_none]

private theorem assignEntry_of_notMem {k : K} {es : List (K × V)} (v : V)
    (h : k ∉ es.map Prod.fst) : assignEntry k v es = es ++ [(k, v)] := by
  induction es with
  | nil => rfl
  | cons e es ih =>
    rw [List.map_cons, List.mem_cons, not_or] at h
    rw [assignEntry, if_neg fun he ↦ h.1 he.symm, ih h.2, List.cons_append]

private theorem foldl_insert_entries (es : List (K × V)) (d : Dict K V)
    (h : ((d.entries ++ es).map Prod.fst).Nodup) :
    (es.foldl (fun d e ↦ d.insert e.1 e.2) d).entries = d.entries ++ es := by
  induction es generalizing d with
  | nil => simp
  | cons e es ih =>
    have hn : e.1 ∉ d.entries.map Prod.fst := by
      rw [List.map_append, List.nodup_append] at h
      intro hm
      exact h.2.2 e.1 hm e.1 (by simp) rfl
    have he : (d.insert e.1 e.2).entries = d.entries ++ [e] := assignEntry_of_notMem e.2 hn
    rw [List.foldl_cons, ih, he, List.append_assoc, List.singleton_append]
    rw [he, List.append_assoc, List.singleton_append]
    exact h

/-- A new entry comes last. -/
theorem entries_insert_of_notMem {d : Dict K V} {k : K} (v : V) (h : k ∉ d.keys) :
    (d.insert k v).entries = d.entries ++ [(k, v)] :=
  assignEntry_of_notMem v h

/-- A new key comes last. -/
theorem keys_insert_of_notMem {d : Dict K V} {k : K} (v : V) (h : k ∉ d.keys) :
    (d.insert k v).keys = d.keys ++ [k] := by
  rw [keys, entries_insert_of_notMem v h, List.map_append]
  rfl

/-- An assignment to a key that is there keeps the keys. -/
theorem keys_insert_of_mem {d : Dict K V} {k : K} (v : V) (h : k ∈ d.keys) :
    (d.insert k v).keys = d.keys := by
  change (assignEntry k v d.entries).map Prod.fst = _
  rw [fst_assignEntry]
  exact if_pos h

/-- Lookup does not depend on the order of the entries. -/
theorem get?_of_perm {d d' : Dict K V} (h : d.entries.Perm d'.entries) (k : K) :
    d.get? k = d'.get? k := by
  apply Option.ext
  intro v
  rw [get?_eq_some_iff, get?_eq_some_iff]
  exact h.mem_iff

private theorem sum_assignEntry_le (f : K × V → Nat) (k : K) (v : V) (es : List (K × V)) :
    ((assignEntry k v es).map f).sum ≤ (es.map f).sum + f (k, v) := by
  induction es with
  | nil => simp [assignEntry]
  | cons e es ih =>
    rw [assignEntry]
    split
    · rw [List.map_cons, List.map_cons, List.sum_cons, List.sum_cons]
      omega
    · rw [List.map_cons, List.map_cons, List.sum_cons, List.sum_cons]
      omega

/-- A comprehension weighs at most its pairs. -/
theorem sum_ofList_le (f : K × V → Nat) (es : List (K × V)) :
    ((ofList es).entries.map f).sum ≤ (es.map f).sum := by
  have hfold : ∀ (es : List (K × V)) (d : Dict K V),
      ((es.foldl (fun d e ↦ d.insert e.1 e.2) d).entries.map f).sum ≤
        (d.entries.map f).sum + (es.map f).sum := by
    intro es
    induction es with
    | nil => simp
    | cons e es ih =>
      intro d
      have hinsert := sum_assignEntry_le f e.1 e.2 d.entries
      rw [List.foldl_cons, List.map_cons, List.sum_cons]
      refine Nat.le_trans (ih _) ?_
      change ((assignEntry e.1 e.2 d.entries).map f).sum + _ ≤ _
      change _ ≤ (d.entries.map f).sum + f e at hinsert
      omega
  have h := hfold es ∅
  change _ ≤ 0 + (es.map f).sum at h
  rw [Nat.zero_add] at h
  exact h

/-- A comprehension over distinct keys keeps its pairs. -/
theorem entries_ofList {es : List (K × V)} (h : (es.map Prod.fst).Nodup) :
    (ofList es).entries = es :=
  foldl_insert_entries es ∅ h

private theorem foldl_groupBy_get? (key : A → K) (xs : List A) (d : Dict K (List A)) (k : K) :
    (xs.foldl (fun d x ↦ d.insert (key x) ((d.get? (key x)).getD [] ++ [x])) d).get? k =
      if xs.filter (fun x ↦ decide (key x = k)) = [] then d.get? k
      else some ((d.get? k).getD [] ++ xs.filter (fun x ↦ decide (key x = k))) := by
  induction xs generalizing d with
  | nil => simp
  | cons x xs ih =>
    rw [List.foldl_cons, ih, get?_insert]
    by_cases hx : key x = k
    · subst hx
      by_cases hf : xs.filter (fun y ↦ decide (key y = key x)) = []
      · simp [hf]
      · simp [hf]
    · simp [hx]

/-- A group holds exactly the elements of its key, in order. -/
theorem get?_groupBy (key : A → K) (xs : List A) (k : K) :
    (groupBy key xs).get? k =
      if xs.filter (fun x ↦ decide (key x = k)) = [] then none
      else some (xs.filter (fun x ↦ decide (key x = k))) := by
  rw [groupBy, foldl_groupBy_get?, get?_empty, Option.getD_none, List.nil_append]

/-- Every stored group is the filter of its key, and it is not empty. -/
theorem mem_entries_groupBy {key : A → K} {xs : List A} {k : K} {group : List A}
    (h : (k, group) ∈ (groupBy key xs).entries) :
    group = xs.filter (fun x ↦ decide (key x = k)) ∧ group ≠ [] := by
  rw [← get?_eq_some_iff, get?_groupBy] at h
  split at h
  · cases h
  · next hne =>
    cases h
    exact ⟨rfl, hne⟩

/-- The key of every element has a group. -/
theorem mem_keys_groupBy {key : A → K} {xs : List A} {x : A} (hx : x ∈ xs) :
    key x ∈ (groupBy key xs).keys := by
  rw [← get?_isSome_iff, get?_groupBy, if_neg]
  · rfl
  · intro h
    have hm : x ∈ xs.filter (fun y ↦ decide (key y = key x)) := by simp [hx]
    rw [h] at hm
    exact List.not_mem_nil hm

/-- `d[k]` of the groups: a key without elements gives the empty list. -/
theorem getD_groupBy (key : A → K) (xs : List A) (k : K) :
    ((groupBy key xs).get? k).getD [] = xs.filter (fun x ↦ decide (key x = k)) := by
  rw [get?_groupBy]
  split
  · next hnil => rw [Option.getD_none, hnil]
  · rw [Option.getD_some]

/-- The keys of the groups are the keys of the elements. -/
theorem keys_groupBy_perm (key : A → K) (xs : List A) :
    (groupBy key xs).keys.Perm (xs.map key).dedup := by
  have hkeys : (groupBy key xs).keys.Nodup := (groupBy key xs).nodup
  rw [List.perm_ext_iff_of_nodup hkeys (List.nodup_dedup _)]
  intro k
  rw [List.mem_dedup]
  constructor
  · intro hk
    obtain ⟨⟨k, group⟩, hentry, rfl⟩ := List.mem_map.mp hk
    obtain ⟨hgroup, hne⟩ := mem_entries_groupBy hentry
    obtain ⟨x, hx⟩ := List.exists_mem_of_ne_nil group hne
    rw [hgroup, List.mem_filter, decide_eq_true_eq] at hx
    exact List.mem_map.mpr ⟨x, hx.1, hx.2⟩
  · intro hk
    obtain ⟨x, hx, rfl⟩ := List.mem_map.mp hk
    exact mem_keys_groupBy hx

/-- The groups, read off the keys. -/
theorem entries_groupBy (key : A → K) (xs : List A) :
    (groupBy key xs).entries =
      (groupBy key xs).keys.map fun k ↦ (k, xs.filter (fun x ↦ decide (key x = k))) := by
  rw [keys, List.map_map]
  refine (List.map_congr_left fun e he ↦ ?_).trans (List.map_id _) |>.symm
  exact Prod.ext rfl (mem_entries_groupBy he).1.symm

end Dict

end C3RSpec.Base
