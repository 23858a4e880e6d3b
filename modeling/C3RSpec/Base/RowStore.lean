import C3RSpec.Base.Dict

/-!
# Row locks under READ COMMITTED

Library `Base`. A table whose rows are locked by at most one transaction. A locking read sees
the latest committed version and waits for a row held by another transaction; a row that does
not exist is neither waited for nor locked. A write waits for whoever holds its key, an
uncommitted inserter included. Locks and uncommitted values last until commit or rollback. An
operation that has to wait has no result.
-/

namespace C3RSpec.Base

/-- A row: its committed value, who holds it and what the holder has written. -/
structure RowState (V : Type) where
  committed : Option V
  holder : Option Nat
  pending : Option (Option V)
  deriving DecidableEq

namespace RowState

variable {V : Type}

/-- A row that was never written. -/
def absent : RowState V := ⟨none, none, none⟩

/-- The row is not held by another transaction. -/
def freeFor (r : RowState V) (txn : Nat) : Bool := r.holder == none || r.holder == some txn

/-- What the transaction sees: its own write, else the committed value. -/
def visible (r : RowState V) (txn : Nat) : Option V :=
  if r.holder = some txn then r.pending.getD r.committed else r.committed

/-- The row after its holder commits. -/
def commit (txn : Nat) (r : RowState V) : RowState V :=
  if r.holder = some txn then ⟨r.pending.getD r.committed, none, none⟩ else r

/-- The row after its holder rolls back. -/
def rollback (txn : Nat) (r : RowState V) : RowState V :=
  if r.holder = some txn then ⟨r.committed, none, none⟩ else r

/-- The row after its holder deletes it. -/
def delete (txn : Nat) (r : RowState V) : RowState V :=
  if (r.visible txn).isSome then { r with holder := some txn, pending := some none } else r

end RowState

/-- A table of rows. -/
abbrev RowStore (K V : Type) := Dict K (RowState V)

namespace RowStore

variable {K V : Type} [DecidableEq K]

/-- The state of a row. -/
def row (s : RowStore K V) (k : K) : RowState V := (s.get? k).getD .absent

/-- `SELECT … FOR UPDATE` of one row. -/
def lockRead (s : RowStore K V) (txn : Nat) (k : K) : Option (Option V × RowStore K V) :=
  match (s.row k).visible txn with
  | none => some (none, s)
  | some v =>
    if (s.row k).freeFor txn then
      some (some v, s.insert k { s.row k with holder := some txn })
    else none

/-- `INSERT … ON CONFLICT DO UPDATE` of one row. -/
def upsert (s : RowStore K V) (txn : Nat) (k : K) (f : Option V → V) :
    Option (RowStore K V) :=
  if (s.row k).freeFor txn then
    some (s.insert k { s.row k with
      holder := some txn
      pending := some (some (f ((s.row k).visible txn))) })
  else none

/-- `DELETE … WHERE` of the visible rows whose key satisfies `p`. -/
def deleteWhere (s : RowStore K V) (txn : Nat) (p : K → Bool) : Option (RowStore K V) :=
  if s.entries.all fun e ↦ !(p e.1 && (e.2.visible txn).isSome) || e.2.freeFor txn then
    some (s.mapEntries fun k r ↦ if p k then r.delete txn else r)
  else none

/-- `COMMIT`. -/
def commit (s : RowStore K V) (txn : Nat) : RowStore K V := s.mapEntries fun _ ↦ .commit txn

/-- `ROLLBACK`, or a lost connection. -/
def rollback (s : RowStore K V) (txn : Nat) : RowStore K V := s.mapEntries fun _ ↦ .rollback txn

private theorem row_insert (s : RowStore K V) (k l : K) (r : RowState V) :
    row (s.insert k r) l = if k = l then r else s.row l := by
  rw [row, Dict.get?_insert]
  split
  · rfl
  · rfl

/-- A locking read returns the visible value; it locks what exists and nothing else. -/
theorem lockRead_eq_some {s s' : RowStore K V} {txn : Nat} {k : K} {v : Option V}
    (h : s.lockRead txn k = some (v, s')) :
    v = (s.row k).visible txn ∧
    ((v = none ∧ s' = s) ∨
      (v.isSome ∧ (s.row k).freeFor txn = true ∧
        ∀ l, row s' l = if k = l then { s.row k with holder := some txn } else s.row l)) := by
  unfold lockRead at h
  split at h
  · next hv =>
    cases h
    exact ⟨hv.symm, .inl ⟨rfl, rfl⟩⟩
  · next w hv =>
    split at h
    · next hf =>
      cases h
      exact ⟨hv.symm, .inr ⟨rfl, hf, fun l ↦ row_insert s k l _⟩⟩
    · cases h

/-- A write holds its row and leaves every other row alone. -/
theorem upsert_eq_some {s s' : RowStore K V} {txn : Nat} {k : K} {f : Option V → V}
    (h : s.upsert txn k f = some s') :
    (s.row k).freeFor txn = true ∧ ∀ l, row s' l =
      if k = l then { s.row k with
        holder := some txn
        pending := some (some (f ((s.row k).visible txn))) } else s.row l := by
  unfold upsert at h
  split at h
  · next hf =>
    cases h
    exact ⟨hf, fun l ↦ row_insert s k l _⟩
  · cases h

private theorem row_mapEntries {f : K → RowState V → RowState V} (hf : ∀ k, f k .absent = .absent)
    (s : RowStore K V) (k : K) : row (s.mapEntries f) k = f k (s.row k) := by
  rw [row, row, Dict.get?_mapEntries]
  cases s.get? k with
  | none => exact (hf k).symm
  | some r => rfl

/-- A deletion leaves rows outside its condition alone. -/
theorem row_deleteWhere {s s' : RowStore K V} {txn : Nat} {p : K → Bool}
    (h : s.deleteWhere txn p = some s') {k : K} (hk : p k = false) : row s' k = s.row k := by
  unfold deleteWhere at h
  split at h
  · cases h
    rw [row_mapEntries]
    · simp [hk]
    · intro l
      by_cases hl : p l = true <;> simp [hl, RowState.delete, RowState.visible, RowState.absent]
  · cases h

/-- Commit acts row by row. -/
@[simp] theorem row_commit (s : RowStore K V) (txn : Nat) (k : K) :
    row (s.commit txn) k = (s.row k).commit txn :=
  row_mapEntries (fun _ ↦ by simp [RowState.commit, RowState.absent]) s k

/-- Rollback acts row by row. -/
@[simp] theorem row_rollback (s : RowStore K V) (txn : Nat) (k : K) :
    row (s.rollback txn) k = (s.row k).rollback txn :=
  row_mapEntries (fun _ ↦ by simp [RowState.rollback, RowState.absent]) s k

end RowStore

end C3RSpec.Base
