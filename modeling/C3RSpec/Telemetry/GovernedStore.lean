import C3RSpec.Base.DateTime
import C3RSpec.Base.JsonParse
import C3RSpec.Telemetry.Redaction

/-!
# Governed trace store

`c3r/telemetry/governed_store.py:92–301`. The database is the metadata row, the `records` table
in the order of its key, the `sqlite_sequence` entry of that table and the purge audit; a missing
table is an empty one. A transaction either commits whole or leaves the database alone. Clock
readings are UTC instants and are arguments of the operations. File modes, PRAGMAs and the
scheduling of calls are not modelled.
-/

namespace C3RSpec.Telemetry

open Base

/-- `RETENTION_DAYS`. -/
def retentionDays : Nat := 30

/-- The row of `metadata`. -/
structure Metadata where
  checkpointHash : Text
  lastCollectedAt : Text
  deriving DecidableEq

/-- A row of `records`. -/
structure Row where
  sequence : Int
  runId : Text
  collectedAt : Text
  previousHash : Text
  recordHash : Text
  canonicalJson : Text
  deriving DecidableEq

/-- The record that a row stores. -/
def Row.record (row : Row) : LedgerRecord := ⟨row.previousHash, row.recordHash, row.canonicalJson⟩

/-- A row of `purge_audit`. -/
structure PurgeAudit where
  purgedAt : Text
  recordCount : Nat
  checkpointHash : Text
  deriving DecidableEq

/-- The database file. -/
structure Db where
  metadata : Option Metadata
  rows : List Row
  sequence : Option Int
  purgeAudit : List PurgeAudit
  deriving DecidableEq

namespace Db

/-- A new file. -/
def fresh : Db := ⟨none, [], none, []⟩

/-- After the statements of the constructor: only `INSERT OR IGNORE` changes anything. -/
def created (db : Db) : Db :=
  { db with metadata := some (db.metadata.getD ⟨genesis, []⟩) }

/-- The key that `AUTOINCREMENT` assigns: above the counter and above every present key. -/
def nextSequence (db : Db) : Int :=
  (db.rows.map Row.sequence).foldl max (db.sequence.getD 0) + 1

end Db

section Store

variable [Digest] [FloatText]

/-! ### Verification -/

/-- `decoded["trace"]["run_id"] != run_id or decoded["collected_at"] != collected_at`, negated;
a missing key or a value of another type is a mismatch. -/
def payloadNames (decoded : Json) (runId collectedAt : Text) : Bool :=
  (match (decoded.get? "trace").bind fun trace ↦ trace.get? "run_id" with
    | some (.str t) => decide (t = runId)
    | _ => false) &&
  match decoded.get? "collected_at" with
  | some (.str t) => decide (t = collectedAt)
  | _ => false

/-- The checks on one row apart from its link. -/
def rowVerified (row : Row) : Except PyError Bool :=
  match loads row.canonicalJson with
  | none => .ok false
  | some decoded =>
    match dumps false false decoded with
    | .error _ => .ok false
    | .ok canonical =>
      if !payloadNames decoded row.runId row.collectedAt then .ok false
      else if canonical ≠ row.canonicalJson then .ok false
      else do
        let digest ← recordHash row.previousHash row.canonicalJson
        return decide (digest = row.recordHash)

/-- The loop of `_verified_head` over the rows. -/
def verifyRows : Text → List Row → Except PyError (Option Text)
  | previous, [] => .ok (some previous)
  | previous, row :: rest =>
    if row.previousHash ≠ previous then .ok none
    else do
      if ← rowVerified row then verifyRows row.recordHash rest else .ok none

/-- `_verified_head` on what its three `SELECT`s returned. -/
def verifiedHead (metadata : Option Metadata) (rows : List Row) (sequence : Option Int) :
    Except PyError (Option (Int × Text)) :=
  match metadata with
  | none => .error ⟨.typeError, "cannot unpack non-iterable NoneType object"⟩
  | some md =>
    if rows.getLast?.any fun row ↦ decide (row.collectedAt ≠ md.lastCollectedAt) then .ok none
    else if rows.getLast?.any fun row ↦ decide (row.sequence ≠ sequence.getD 0) then .ok none
    else do
      let previous ← verifyRows md.checkpointHash rows
      return previous.map fun hash ↦ (sequence.getD 0, hash)

/-- `_verified_head` with no commit between its `SELECT`s. -/
def Db.verifiedHead (db : Db) : Except PyError (Option (Int × Text)) :=
  Telemetry.verifiedHead db.metadata db.rows db.sequence

/-- `verify`. -/
def Db.verify (db : Db) : Except PyError Bool := do
  let head ← db.verifiedHead
  return head.isSome

/-! ### Append -/

/-- The payload of a record, before serialization. -/
def payloadJson (collectedAt sourceId taskId : Text) (trace : DecisionTrace) : Json :=
  .obj [
    ("collected_at", .str collectedAt),
    ("source_id", .str sourceId),
    ("task_id", .str taskId),
    ("trace", trace.asdict)]

/-- `{grant.source_id: grant for grant in grants}`: every grant is found under its own id. -/
structure Grants where
  bySource : Dict Text SourceGrant
  keyed : ∀ (id : Text) (grant : SourceGrant), bySource.get? id = some grant → grant.sourceId = id

/-- The dictionary of the constructor. -/
def Grants.ofList (grants : List SourceGrant) : Grants where
  bySource := Dict.ofList (grants.map fun g ↦ (g.sourceId, g))
  keyed := by
    intro id grant h
    rw [Dict.get?_ofList, Option.map_eq_some_iff] at h
    obtain ⟨e, he, rfl⟩ := h
    have hm := List.mem_of_find?_eq_some he
    have hid := List.find?_some he
    rw [List.mem_reverse, List.mem_map] at hm
    obtain ⟨g, -, rfl⟩ := hm
    exact of_decide_eq_true hid

/-- What an append has computed when it takes the lock. -/
structure Prepared where
  runId : Text
  collectedAt : Text
  retentionCutoff : Text
  payload : Text

/-- `isoformat` of the instant `RETENTION_DAYS` earlier. -/
def retentionCutoff (now : DateTime) : Except PyError Text :=
  match now.minusDays retentionDays with
  | none => .error ⟨.overflowError, "date value out of range"⟩
  | some cutoff => .ok cutoff.isoformat

/-- The checks of `append` before it reads the clock. -/
def admitTrace (grants : Grants) (trace : DecisionTrace) (sourceId taskId : Text) :
    Except PyError Unit :=
  match grants.bySource.get? sourceId with
  | none => .error (valueError "unapproved source or task")
  | some grant =>
    if taskId ∉ grant.taskIds then .error (valueError "unapproved source or task")
    else validateTrace trace

/-- `append` from the clock reading `now` up to the lock. -/
def serialize (trace : DecisionTrace) (sourceId taskId : Text) (now : DateTime) :
    Except PyError Prepared := do
  let cutoff ← retentionCutoff now
  let payload ← dumps false false (payloadJson now.isoformat sourceId taskId trace)
  return ⟨trace.runId, now.isoformat, cutoff, payload⟩

/-- `append` up to the lock, for the clock reading `now`. -/
def prepare (grants : Grants) (trace : DecisionTrace) (sourceId taskId : Text)
    (now : DateTime) : Except PyError Prepared := do
  admitTrace grants trace sourceId taskId
  serialize trace sourceId taskId now

/-- `SELECT record_hash FROM records ORDER BY sequence DESC LIMIT 1`, or the checkpoint. -/
def previousHash (md : Metadata) (rows : List Row) : Text :=
  (rows.getLast?.map Row.recordHash).getD md.checkpointHash

/-- The transaction of `append`. -/
def appendTransaction (db : Db) (p : Prepared) : Except PyError (LedgerRecord × Db) :=
  match db.metadata with
  | none => .error ⟨.typeError, "cannot unpack non-iterable NoneType object"⟩
  | some md =>
    if p.collectedAt < md.lastCollectedAt then .error (valueError "trace clock moved backwards")
    else if db.rows.any fun row ↦ decide (row.collectedAt ≤ p.retentionCutoff) then
      .error (valueError "retention purge overdue; new collection is disabled")
    else do
      let previous := previousHash md db.rows
      let digest ← recordHash previous p.payload
      if db.rows.any fun row ↦ decide (row.runId = p.runId) then
        .error ⟨.sqliteError, "UNIQUE constraint failed: records.run_id"⟩
      else
        return (⟨previous, digest, p.payload⟩,
          { db with
            metadata := some { md with lastCollectedAt := p.collectedAt }
            rows := db.rows ++
              [⟨db.nextSequence, p.runId, p.collectedAt, previous, digest, p.payload⟩]
            sequence := some db.nextSequence })

/-! ### Purge -/

/-- The transaction of `purge_expired`: it selects by timestamp and deletes by key. -/
def purgeTransaction (db : Db) (purgedAt cutoff : Text) : Nat × Db :=
  let expired := db.rows.filter fun row ↦ decide (row.collectedAt ≤ cutoff)
  match expired.getLast? with
  | none => (0, db)
  | some last =>
    (expired.length,
      { db with
        metadata := db.metadata.map fun md ↦ { md with checkpointHash := last.recordHash }
        rows := db.rows.filter fun row ↦ !decide (row.sequence ≤ last.sequence)
        purgeAudit := db.purgeAudit ++ [⟨purgedAt, expired.length, last.recordHash⟩] })

/-! ### Operations on a store -/

/-- The database with the grants of the store that has it open. -/
structure Store where
  db : Db
  grants : Option Grants

/-- How an operation is cut short by SQLite or the host: nothing goes wrong, the open transaction
is rolled back, or the operation fails after its commit (the `VACUUM` of a purge, the later
statements of the constructor). -/
inductive Fault where
  | none
  | rolledBack (e : PyError)
  | afterCommit (e : PyError)

/-- The calls of a host. -/
inductive StoreOp where
  | openStore (grants : List SourceGrant) (fault : Fault)
  | append (trace : DecisionTrace) (sourceId taskId : Text) (now : DateTime) (fault : Fault)
  | purgeExpired (now : DateTime) (fault : Fault)
  | close

/-- What a call returns. -/
inductive StoreResult where
  | opened
  | appended (record : LedgerRecord)
  | purged (count : Nat)
  | closed
  deriving DecidableEq

/-- A call on a closed connection. -/
def closedError : PyError := ⟨.sqliteError, "Cannot operate on a closed database."⟩

/-- The constructor. -/
def openStore (s : Store) (grants : List SourceGrant) (fault : Fault) :
    Except PyError StoreResult × Store :=
  if grants = [] ∨ ¬ (grants.map SourceGrant.sourceId).Nodup then
    (.error (valueError "unique approved sources are required"), s)
  else
    match fault with
    | .rolledBack e => (.error e, ⟨s.db, none⟩)
    | .afterCommit e => (.error e, ⟨s.db.created, none⟩)
    | .none =>
      match s.db.created.verify with
      | .ok true =>
        (.ok .opened, ⟨s.db.created, some (Grants.ofList grants)⟩)
      | .ok false =>
        (.error (valueError "governed trace hash chain is invalid"), ⟨s.db.created, none⟩)
      | .error e => (.error e, ⟨s.db.created, none⟩)

/-- A prepared append, under the lock. -/
def commitAppend (s : Store) (p : Prepared) : Except PyError StoreResult × Store :=
  match appendTransaction s.db p with
  | .error e => (.error e, s)
  | .ok (record, db) => (.ok (.appended record), { s with db })

/-- `append`. A failed commit rolls back; after the commit nothing can fail. -/
def appendStore (s : Store) (trace : DecisionTrace) (sourceId taskId : Text) (now : DateTime)
    (fault : Fault) : Except PyError StoreResult × Store :=
  match s.grants with
  | none => (.error closedError, s)
  | some grants =>
    match prepare grants trace sourceId taskId now with
    | .error e => (.error e, s)
    | .ok p =>
      match fault with
      | .rolledBack e => (.error e, s)
      | .none | .afterCommit _ => commitAppend s p

/-- `purge_expired`; `VACUUM` follows the commit of a purge that removed something. -/
def purgeExpired (s : Store) (now : DateTime) (fault : Fault) :
    Except PyError StoreResult × Store :=
  match s.grants with
  | none => (.error closedError, s)
  | some _ =>
    match retentionCutoff now with
    | .error e => (.error e, s)
    | .ok cutoff =>
      let r := purgeTransaction s.db now.isoformat cutoff
      match fault with
      | .rolledBack e => (.error e, s)
      | .afterCommit e =>
        (if r.1 = 0 then .ok (.purged r.1) else .error e, { s with db := r.2 })
      | .none => (.ok (.purged r.1), { s with db := r.2 })

/-- One call. -/
def Store.step (s : Store) : StoreOp → Except PyError StoreResult × Store
  | .openStore grants fault => openStore s grants fault
  | .append trace sourceId taskId now fault => appendStore s trace sourceId taskId now fault
  | .purgeExpired now fault => purgeExpired s now fault
  | .close => (.ok .closed, { s with grants := none })

end Store

end C3RSpec.Telemetry
