import C3RSpec.ApiAccess.AccessStore
import C3RSpec.Base.Table

/-!
# The access store on PostgreSQL

`c3r/pg_access.py:66–287`. The server keeps heap tables and executes the
statements of a method in one transaction on a pooled connection: `_cursor` commits after the body
and hands the connection back, and an exception closes the connection, which rolls back. A method
that finds neither an idle connection nor room for a new one waits for another thread, so it has
no result here. Limits of the server on the size of what it stores are faults of the host.
-/

namespace C3RSpec.ApiAccess.Pg

open Base Access

/-- The tables of the server. -/
structure PgDatabase where
  organizations : List Text
  projects : Table (Text × Text) ProjectLimits
  apiKeys : Table Text KeyRow
  quota : Table QuotaRow Nat
  auditEvents : List AuditEvent
  usageRecords : List UsageRecord

/-- A new database, after `_SCHEMA`. -/
def PgDatabase.empty : PgDatabase := ⟨[], [], [], [], [], []⟩

/-- The statements of a transaction. -/
abbrev PgTxn := StateT PgDatabase (Except PyError)

section Statements

variable {γ δ : Type}

/-- A statement that succeeds hands on its result. -/
theorem bind_ok {x : PgTxn γ} {f : γ → PgTxn δ} {pg pg' : PgDatabase} {a : γ}
    (h : x pg = .ok (a, pg')) : (x >>= f) pg = f a pg' := by
  change (x pg >>= fun p ↦ f p.1 p.2) = _
  rw [h]
  rfl

/-- A statement that raises ends the transaction. -/
theorem bind_error {x : PgTxn γ} {f : γ → PgTxn δ} {pg : PgDatabase}
    {e : PyError} (h : x pg = .error e) : (x >>= f) pg = .error e := by
  change (x pg >>= fun p ↦ f p.1 p.2) = _
  rw [h]
  rfl

theorem get_bind (f : PgDatabase → PgTxn δ) (pg : PgDatabase) :
    ((get : PgTxn PgDatabase) >>= f) pg = f pg pg := rfl

theorem modify_bind (g : PgDatabase → PgDatabase) (f : PUnit → PgTxn δ)
    (pg : PgDatabase) : ((modify g : PgTxn PUnit) >>= f) pg = f ⟨⟩ (g pg) := rfl

theorem lift_ok {x : Except PyError γ} {f : γ → PgTxn δ} {a : γ} (h : x = .ok a)
    (pg : PgDatabase) : ((liftM x : PgTxn γ) >>= f) pg = f a pg := by
  subst h
  rfl

theorem lift_error {x : Except PyError γ} {f : γ → PgTxn δ} {e : PyError}
    (h : x = .error e) (pg : PgDatabase) : ((liftM x : PgTxn γ) >>= f) pg = .error e := by
  subst h
  rfl

end Statements

/-- An error that the server reports. -/
def serverError (message : String) : PyError := ⟨.driverError, message⟩

/-- Text parameters: the driver encodes them, and the server takes no NUL. -/
def bindParams (params : List Text) : PgTxn Unit := fun db ↦
  match bindTexts params with
  | .error e => .error e
  | .ok _ =>
    if params.any fun t ↦ decide (0 ∈ t) then
      .error (serverError "invalid byte sequence for encoding \"UTF8\": 0x00")
    else .ok ((), db)

/-! ### The pool -/

/-- `PostgresAccessStore` between calls. -/
structure PgStore where
  db : PgDatabase
  size : Nat
  created : Nat
  idle : Nat

/-- `_acquire`; `none` waits for a connection. -/
def acquire (s : PgStore) : Option PgStore :=
  if 0 < s.idle then some { s with idle := s.idle - 1 }
  else if s.created < s.size then some { s with created := s.created + 1 }
  else none

/-- `_discard`. -/
def discard (s : PgStore) : PgStore := { s with created := s.created - 1 }

/-- `_release`. -/
def release (s : PgStore) : PgStore :=
  if s.idle < s.size then { s with idle := s.idle + 1 } else discard s

/-- A method: what it returns or raises, and the store afterwards. -/
abbrev PgMethod (α : Type) := PgStore → Option (Except PyError α × PgStore)

/-- `with self._cursor() as cursor`. -/
def withCursor {α : Type} (body : PgTxn α) : PgMethod α := fun s ↦
  (acquire s).map fun s ↦
    match body s.db with
    | .ok (a, db) => (.ok a, release { s with db })
    | .error e => (.error e, discard s)

/-- A method raises before it takes a connection. -/
def guarded {α : Type} (check : Except PyError Unit) (method : PgMethod α) : PgMethod α := fun s ↦
  match check with
  | .error e => some (.error e, s)
  | .ok _ => method s

/-- `PostgresAccessStore(dsn, pool_size=…)` on a new database, which creates the schema over a
first connection. -/
def connected (poolSize : Nat) : PgStore := ⟨.empty, poolSize, 1, 1⟩

/-! ### Projects and keys -/

/-- `INSERT INTO organizations (id) VALUES (%s) ON CONFLICT DO NOTHING`. -/
def insertOrganization (tenant : Text) : PgTxn Unit := do
  bindParams [tenant]
  modify fun db ↦
    if tenant ∈ db.organizations then db
    else { db with organizations := db.organizations ++ [tenant] }

/-- `INSERT INTO projects`. -/
def insertProject (tenant project : Text) (limits : ProjectLimits) : PgTxn Unit := do
  bindParams [tenant, project]
  let db ← get
  if (db.projects.select (tenant, project)).isSome then
    throw (serverError "duplicate key value violates unique constraint \"projects_pkey\"")
  else if tenant ∉ db.organizations then
    throw (serverError "insert or update on table \"projects\" violates foreign key constraint")
  else set { db with projects := db.projects ++ [((tenant, project), limits)] }

/-- `create_project`. -/
def createProject (tenant project : Text) (rpm keyRps : Int) : PgMethod Unit :=
  guarded (identifier tenant) (guarded (identifier project) fun s ↦
    if h : (1 ≤ rpm ∧ rpm ≤ 100000) ∧ 1 ≤ keyRps ∧ keyRps ≤ 10000 then
      withCursor (do
        insertOrganization tenant
        insertProject tenant project (boundedLimits h)) s
    else some (.error (valueError "bounded rate limits required"), s))

/-- `INSERT INTO audit_events`. -/
def insertEvent (tenant project keyId : Text) (action : AuditAction) (requestId : Option Text)
    (time : ℚ) : PgTxn Unit := do
  bindParams ([tenant, project, keyId] ++ requestId.toList)
  modify fun db ↦ { db with
    auditEvents := db.auditEvents ++ [⟨tenant, project, keyId, action, requestId, time⟩] }

/-- `INSERT INTO api_keys`. -/
def insertKeyRow (id : Text) (row : KeyRow) : PgTxn Unit := do
  bindParams [row.tenant, row.project]
  let db ← get
  if (db.apiKeys.select id).isSome then
    throw (serverError "duplicate key value violates unique constraint \"api_keys_pkey\"")
  else if (db.projects.select (row.tenant, row.project)).isNone then
    throw (serverError "insert or update on table \"api_keys\" violates foreign key constraint")
  else set { db with apiKeys := db.apiKeys ++ [(id, row)] }

section Keys

variable [Digest] [FloatText]

/-- The statements of `issue_key`. -/
def insertKey (clock : Nat → ℚ) (tenant project : Text) (scopes : Finset Text)
    (expiresAt : Option PyFloat) (material : KeyMaterial) (digest : Text) : PgTxn Unit := do
  insertKeyRow material.keyId
    { salt := hexBytes material.salt
      digest
      tenant
      project
      scopes := scopesText scopes
      createdAt := clock 0
      expiresAt
      lastUsedAt := none
      revoked := false }
  insertEvent tenant project material.keyId .keyIssued none (clock 1)

/-- `issue_key`. -/
def issueKey (clock : Nat → ℚ) (tenant project : Text) (scopes : Finset Text) (live : Bool)
    (expiresAt : Option PyFloat) (material : KeyMaterial) : PgMethod IssuedKey :=
  guarded (checkIssue scopes expiresAt) fun s ↦
    match saltedDigest material.salt (keyText live material.keyId material.tail) with
    | .error e => some (.error e, s)
    | .ok digest =>
      (withCursor (insertKey clock tenant project scopes expiresAt material digest) s).map fun r ↦
        (r.1.map fun _ ↦ ⟨material.keyId, keyText live material.keyId material.tail⟩, r.2)

/-- The checks of `authenticate` on a row: whether the key is accepted. -/
def acceptsKey (clock : Nat → ℚ) (plaintext : Text) (row : KeyRow) : Except PyError Bool := do
  let salt ← bytesFromHex row.salt
  let actual ← saltedDigest salt plaintext
  let same ← compareDigest row.digest actual
  return same && !row.revoked && !hasExpired (clock 0) row.expiresAt

/-- The statements of `authenticate`. -/
def selectPrincipal (clock : Nat → ℚ) (plaintext keyId : Text) : PgTxn (Option Principal) := do
  bindParams [keyId]
  let db ← get
  match db.apiKeys.select keyId with
  | none => return none
  | some row =>
    let accepted ← (acceptsKey clock plaintext row : Except PyError Bool)
    if !accepted then return none
    else
      modify fun db ↦ { db with
        apiKeys := db.apiKeys.update (fun id _ ↦ decide (id = keyId))
          (fun stored ↦ { stored with lastUsedAt := some (usedAt clock row) }) }
      let scopes ← (scopesOf row.scopes : Except PyError (Finset Text))
      return some ⟨row.tenant, row.project, keyId, scopes⟩

/-- `authenticate`. -/
def authenticate (clock : Nat → ℚ) (plaintext : Text) : PgMethod (Option Principal) := fun s ↦
  match matchKey plaintext with
  | none => some (.ok none, s)
  | some keyId => withCursor (selectPrincipal clock plaintext keyId) s

end Keys

/-- The condition of the `UPDATE` in `revoke_key`. -/
def isKeyOf (tenant project keyId : Text) (id : Text) (row : KeyRow) : Bool :=
  decide (row.tenant = tenant) && decide (row.project = project) && decide (id = keyId)

/-- The statements of `revoke_key`. -/
def updateRevoked (clock : Nat → ℚ) (tenant project keyId : Text) : PgTxn Unit := do
  bindParams [tenant, project, keyId]
  let db ← get
  set { db with
    apiKeys := db.apiKeys.update (isKeyOf tenant project keyId)
      (fun row ↦ { row with revoked := true }) }
  if db.apiKeys.count (isKeyOf tenant project keyId) ≠ 1 then
    throw (valueError "key not found in selected project")
  else insertEvent tenant project keyId .keyRevoked none (clock 0)

/-- `revoke_key`. -/
def revokeKey (clock : Nat → ℚ) (tenant project keyId : Text) : PgMethod Unit :=
  withCursor (updateRevoked clock tenant project keyId)

/-- The statement of `list_keys`. -/
def selectKeys (scan : Scan) (tenant project : Text) : PgTxn (List KeyListing) := do
  bindParams [tenant, project]
  let db ← get
  return scan.order ((db.apiKeys.filter fun e ↦
    decide (e.2.tenant = tenant) && decide (e.2.project = project)).map fun e ↦
      keyListing e.1 e.2)

/-- `list_keys`. -/
def listKeys (scan : Scan) (tenant project : Text) : PgMethod (List KeyListing) :=
  withCursor (selectKeys scan tenant project)

/-! ### Events and usage -/

/-- `dispatch_event`. -/
def dispatchEvent (clock : Nat → ℚ) (principal : Principal) (requestId : Text) : PgMethod Unit :=
  withCursor (insertEvent principal.tenantId principal.projectId principal.keyId .requestDispatch
    (some requestId) (clock 0))

/-- The statement of `record_usage`. -/
def insertUsage (principal : Principal) (requestId : Text) (metadata : Json) : PgTxn Unit := do
  checkWritten metadata
  bindParams [requestId, principal.tenantId, principal.projectId, principal.keyId]
  let db ← get
  if db.usageRecords.any fun r ↦ decide (r.requestId = requestId) then
    throw (serverError "duplicate key value violates unique constraint \"usage_records_pkey\"")
  else
    let record : UsageRecord :=
      ⟨requestId, principal.tenantId, principal.projectId, principal.keyId, metadata⟩
    set { db with usageRecords := db.usageRecords ++ [record] }

/-- `record_usage`. -/
def recordUsage (clock : Nat → ℚ) (principal : Principal) (requestId : Text) (usage : Usage) :
    PgMethod Unit :=
  withCursor (insertUsage principal requestId (usageMetadata (clock 0) principal requestId usage))

/-- The statement of `project_usage`, with its answer. -/
def selectUsage [FloatText] (scan : Scan) (tenant project : Text) : PgTxn (List Json) := do
  bindParams [tenant, project]
  let db ← get
  let rows := scan.order (db.usageRecords.filter fun r ↦
    decide (r.tenant = tenant) && decide (r.project = project))
  ((rows.map UsageRecord.metadata).mapM readMetadata : Except PyError (List Json))

/-- `project_usage`. -/
def projectUsage [FloatText] (scan : Scan) (tenant project : Text) : PgMethod (List Json) :=
  withCursor (selectUsage scan tenant project)

/-! ### Retention -/

/-- How the server reads stored text: what `metadata::jsonb` raises, which takes no escaped NUL and
no lone surrogate, and text as a `double precision`. -/
structure PgCasts where
  jsonb : Json → Option PyError
  double : Text → Except PyError PyFloat

/-- `(metadata::jsonb->>'timestamp')::double precision`, with `none` for NULL. -/
def timestampOf (casts : PgCasts) (metadata : Json) : Except PyError (Option PyFloat) :=
  match casts.jsonb metadata with
  | some e => .error e
  | none =>
    match metadata.get? "timestamp" with
    | none | some .null => .ok none
    | some (.int n) => (casts.double (decimalInt n)).map some
    | some (.float x) => .ok (some x)
    | some (.str t) => (casts.double t).map some
    | some _ => .error (serverError "invalid input syntax for type double precision")

/-- The order of texts in the database. -/
structure Collation where
  le : Text → Text → Bool

/-- The rows of a project. -/
def isRecordOf (tenant project : Text) (r : UsageRecord) : Bool :=
  decide (r.tenant = tenant) && decide (r.project = project)

/-- The timestamp is before the cutoff; a NULL is not. -/
def isBefore (cutoff : ℚ) : Option PyFloat → Bool
  | some x => x.lt (.fin cutoff)
  | none => false

/-- `SELECT request_id FROM usage_records WHERE … ORDER BY request_id`. -/
def expiredIds (casts : PgCasts) (collation : Collation) (tenant project : Text) (cutoff : ℚ)
    (rows : List UsageRecord) : Except PyError (List Text) := do
  let stamped ← (rows.filter (isRecordOf tenant project)).mapM fun r ↦ do
    let timestamp ← timestampOf casts r.metadata
    return (r.requestId, timestamp)
  return ((stamped.filter fun e ↦ isBefore cutoff e.2).map Prod.fst).insertionSort
    fun a b ↦ collation.le a b = true

/-- `DELETE FROM usage_records WHERE request_id IN (… LIMIT %s)`, with its row count. -/
def deleteUsage (casts : PgCasts) (collation : Collation) (tenant project : Text) (cutoff : ℚ)
    (limit : Nat) : PgTxn Nat := do
  let db ← get
  let ids ← (expiredIds casts collation tenant project cutoff db.usageRecords :
    Except PyError (List Text))
  let usageRecords := db.usageRecords.filter fun r ↦ !decide (r.requestId ∈ ids.take limit)
  set { db with usageRecords }
  return db.usageRecords.length - usageRecords.length

/-- `DELETE FROM audit_events WHERE id IN (… ORDER BY id LIMIT %s)`, with its row count. -/
def deleteEvents (tenant project : Text) (cutoff : ℚ) (limit : Nat) : PgTxn Nat := do
  let db ← get
  let auditEvents := deleteFirst (fun e : AuditEvent ↦ decide (e.tenant = tenant) &&
    decide (e.project = project) && decide (e.time < cutoff)) limit db.auditEvents
  set { db with auditEvents }
  return db.auditEvents.length - auditEvents.length

/-- `purge_metadata`. -/
def purgeMetadata (casts : PgCasts) (collation : Collation) (clock : Nat → ℚ)
    (tenant project : Text) (retentionSeconds limit : Int) : PgMethod PurgeReport :=
  guarded (identifier tenant) (guarded (identifier project) fun s ↦
    if (60 ≤ retentionSeconds ∧ retentionSeconds ≤ 30 * 86400) ∧ 1 ≤ limit ∧ limit ≤ 10000 then
      withCursor (do
        let usage ← deleteUsage casts collation tenant project (clock 0 - retentionSeconds)
          limit.toNat
        let audit ← deleteEvents tenant project (clock 0 - retentionSeconds) limit.toNat
        return ⟨usage, audit, clock 0 - retentionSeconds, limit.toNat⟩) s
    else some (.error (valueError "bounded metadata retention and batch size required"), s))

/-! ### Admission -/

/-- The checking loop of `admit`. -/
def checkRequests : List QuotaRequest → PgTxn Bool
  | [] => return true
  | q :: rest => do
    bindParams [q.row.tenant, q.row.project, q.row.keyId]
    let db ← get
    match db.quota.select q.row with
    | some count => if q.limit ≤ count then return false else checkRequests rest
    | none => checkRequests rest

/-- The counting loop of `admit`. -/
def recordRequests : List QuotaRequest → PgTxn Unit
  | [] => return ()
  | q :: rest => do
    bindParams [q.row.tenant, q.row.project, q.row.keyId]
    modify fun db ↦ { db with quota := db.quota.upsert q.row 1 (· + 1) }
    recordRequests rest

/-- The statements of `admit`. -/
def countRequest (now : Int) (principal : Principal) : PgTxn Bool := do
  bindParams [principal.tenantId, principal.projectId]
  let db ← get
  match db.projects.select (principal.tenantId, principal.projectId) with
  | none => return false
  | some limits =>
    let passed ← checkRequests (quotaRequests principal now limits)
    if !passed then return false
    else
      recordRequests (quotaRequests principal now limits)
      modify fun db ↦ { db with
        quota := db.quota.delete fun row _ ↦ decide (row.windowStart < now - 120) }
      return true

/-- `admit`. -/
def admitRequest (clock : Nat → ℚ) (principal : Principal) : PgMethod Bool :=
  withCursor (countRequest (truncate (clock 0)) principal)

end C3RSpec.ApiAccess.Pg
