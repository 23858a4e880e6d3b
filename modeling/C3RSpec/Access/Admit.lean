import C3RSpec.Base.Prog
import C3RSpec.Base.RowStore

/-!
# Quota admission on Postgres

`c3r/pg_access.py:121–140,263–287`. `admit` is a program over the SQL statements of one READ
COMMITTED transaction; `_cursor` commits after the body and discards the connection on any
exception. The quota table is a row store keyed by kind, tenant, project, key and window.
-/

namespace C3RSpec.Access

open Base

/-- `quota.kind`. -/
inductive QuotaKind where
  | key
  | project
  deriving DecidableEq, Repr

/-- The primary key of a quota row. -/
structure QuotaRow where
  kind : QuotaKind
  tenant : Text
  project : Text
  keyId : Text
  windowStart : Int
  deriving DecidableEq

/-- The fields of a `Principal` that admission reads. -/
structure Principal where
  tenantId : Text
  projectId : Text
  keyId : Text
  deriving DecidableEq

/-- A row of `projects`; `create_project` refuses limits below one. -/
structure ProjectLimits where
  rpm : Nat
  keyRps : Nat
  rpm_pos : 1 ≤ rpm
  keyRps_pos : 1 ≤ keyRps

/-- The statements of an admission, its commit, and giving the connection up. -/
inductive AdmitOp where
  | selectLimits (tenant project : Text)
  | selectForUpdate (row : QuotaRow)
  | upsert (row : QuotaRow)
  | deleteBefore (windowStart : Int)
  | commit
  | discard
  deriving DecidableEq

/-- A statement returns its rows or raises. -/
@[reducible] def AdmitOp.Res : AdmitOp → Type
  | .selectLimits _ _ => Except PyError (Option ProjectLimits)
  | .selectForUpdate _ => Except PyError (Option Nat)
  | .upsert _ => Except PyError Unit
  | .deleteBefore _ => Except PyError Unit
  | .commit => Except PyError Unit
  | .discard => Unit

/-- Programs over admission statements. -/
abbrev AdmitProg := Prog AdmitOp AdmitOp.Res

/-- `cursor.execute("SELECT rpm,key_rps …")`. -/
def selectLimits (tenant project : Text) : AdmitProg (Option ProjectLimits) :=
  .call (.selectLimits tenant project) .ofExcept

/-- `cursor.execute("SELECT count … FOR UPDATE")`. -/
def selectForUpdate (row : QuotaRow) : AdmitProg (Option Nat) :=
  .call (.selectForUpdate row) .ofExcept

/-- `cursor.execute("INSERT … ON CONFLICT … DO UPDATE SET count=quota.count+1")`. -/
def upsert (row : QuotaRow) : AdmitProg Unit := .call (.upsert row) .ofExcept

/-- `cursor.execute("DELETE FROM quota WHERE window_start<%s")`. -/
def deleteBefore (windowStart : Int) : AdmitProg Unit :=
  .call (.deleteBefore windowStart) .ofExcept

/-- `connection.commit()`. -/
def commit : AdmitProg Unit := .call .commit .ofExcept

/-- `_cursor`: the body, then commit; an exception of either discards the connection. -/
def withCursor {α : Type} (body : AdmitProg α) : AdmitProg α :=
  Prog.catchError (do let a ← body; commit; return a) fun e ↦ .call .discard fun _ ↦ .raise e

/-- The row and limit of one entry of `requests`. -/
structure QuotaRequest where
  row : QuotaRow
  limit : Nat

/-- `("key", principal.key_id, now, limits[1])`. -/
def keyRow (p : Principal) (now : Int) : QuotaRow := ⟨.key, p.tenantId, p.projectId, p.keyId, now⟩

/-- `("project", "", now // 60 * 60, limits[0])`. -/
def projectRow (p : Principal) (now : Int) : QuotaRow :=
  ⟨.project, p.tenantId, p.projectId, [], now / 60 * 60⟩

/-- `requests`. -/
def requests (p : Principal) (now : Int) (limits : ProjectLimits) : List QuotaRequest :=
  [⟨keyRow p now, limits.keyRps⟩, ⟨projectRow p now, limits.rpm⟩]

/-- The checking loop; `False` as soon as a row has reached its limit. -/
def checkAll : List QuotaRequest → AdmitProg Bool
  | [] => .ret true
  | q :: rest => do
    let row ← selectForUpdate q.row
    match row with
    | some count => if q.limit ≤ count then .ret false else checkAll rest
    | none => checkAll rest

/-- The counting loop. -/
def recordAll : List QuotaRequest → AdmitProg Unit
  | [] => .ret ()
  | q :: rest => do
    upsert q.row
    recordAll rest

/-- The transaction of `admit`. -/
def admitBody (now : Int) (p : Principal) : AdmitProg Bool := do
  let limits ← selectLimits p.tenantId p.projectId
  match limits with
  | none => .ret false
  | some limits => do
    let passed ← checkAll (requests p now limits)
    if passed then do
      recordAll (requests p now limits)
      deleteBefore (now - 120)
      .ret true
    else .ret false

/-- `PostgresAccessStore.admit` at the integer clock reading `now`. -/
def admitPrincipal (now : Int) (p : Principal) : AdmitProg Bool := withCursor (admitBody now p)

/-! ### The database -/

/-- The tables an admission touches. -/
structure QuotaDb where
  projects : Dict (Text × Text) ProjectLimits
  quota : RowStore QuotaRow Nat

/-- Whether a statement fails, and for a failed commit whether it had taken effect. -/
inductive Fault where
  | none
  | error (e : PyError) (applied : Bool)

/-- The committed count of a row, zero where it does not exist. -/
def QuotaDb.count (db : QuotaDb) (row : QuotaRow) : Nat := ((db.quota.row row).committed).getD 0

/-- No transaction is open. -/
def QuotaDb.Quiet (db : QuotaDb) : Prop :=
  ∀ row, (db.quota.row row).holder = none ∧ (db.quota.row row).pending = none

/-- The server executes one statement of transaction `txn`, or makes it wait. -/
def execute (db : QuotaDb) (txn : Nat) (fault : Fault) : (o : AdmitOp) → Option (o.Res × QuotaDb)
  | .selectLimits tenant project =>
    match fault with
    | .error e _ => some (.error e, db)
    | .none => some (.ok (db.projects.get? (tenant, project)), db)
  | .selectForUpdate row =>
    match fault with
    | .error e _ => some (.error e, db)
    | .none => (db.quota.lockRead txn row).map fun r ↦ (.ok r.1, { db with quota := r.2 })
  | .upsert row =>
    match fault with
    | .error e _ => some (.error e, db)
    | .none => (db.quota.upsert txn row fun count ↦ count.getD 0 + 1).map fun quota ↦
        (.ok (), { db with quota })
  | .deleteBefore windowStart =>
    match fault with
    | .error e _ => some (.error e, db)
    | .none => (db.quota.deleteWhere txn fun row ↦ decide (row.windowStart < windowStart)).map
        fun quota ↦ (.ok (), { db with quota })
  | .commit =>
    match fault with
    | .error e applied =>
      some (.error e,
        { db with quota := if applied then db.quota.commit txn else db.quota.rollback txn })
    | .none => some (.ok (), { db with quota := db.quota.commit txn })
  | .discard => some ((), { db with quota := db.quota.rollback txn })

/-- Admission calls over one database. -/
abbrev AdmitPool := Pool AdmitOp AdmitOp.Res Principal Bool QuotaDb

/-- One statement of one of the admissions at clock reading `now`. -/
def admitStep (now : Int) : AdmitPool → PoolAction Principal Fault → Option AdmitPool :=
  Pool.step (admitPrincipal now) execute

end C3RSpec.Access
