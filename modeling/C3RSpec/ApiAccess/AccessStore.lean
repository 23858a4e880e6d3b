import C3RSpec.Access.Admit
import C3RSpec.Base.Batch
import C3RSpec.Base.Digest
import C3RSpec.Base.JsonSpaced
import C3RSpec.Base.Sorting
import Mathlib.Algebra.Order.Floor.Ring
import Mathlib.Data.Finset.Sort
import Mathlib.Data.Rat.Floor

/-!
# The access store

`c3r/api_access.py:23–330`. Developer credentials, quota counters, audit events and usage records
in one database. Every method opens its own connection and runs in one transaction: an exception,
of a statement, of the commit or of the method's own checks, leaves every table as it was. The
clock and the generated key material are inputs of a call.
-/

namespace C3RSpec.ApiAccess

open Base Access

/-- `SCOPES`. -/
def supportedScopes : Finset Text :=
  {Text.ofString "responses:write", Text.ofString "system_one:write", Text.ofString "rank:write",
    Text.ofString "decide:write", Text.ofString "models:read"}

/-- `IssuedKey`. -/
structure IssuedKey where
  keyId : Text
  secret : Text
  deriving DecidableEq

/-- `Principal`. -/
structure Principal where
  tenantId : Text
  projectId : Text
  keyId : Text
  scopes : Finset Text
  deriving DecidableEq

/-! ### Key material -/

/-- Membership in `[A-Za-z0-9_-]`. -/
def isUrlSafe (c : CodePoint) : Bool :=
  (65 ≤ c.val && c.val ≤ 90) || (97 ≤ c.val && c.val ≤ 122) || (48 ≤ c.val && c.val ≤ 57) ||
    c.val == 95 || c.val == 45

/-- What `secrets` generates for a key: `token_hex(12)`, `token_urlsafe(32)`, `token_bytes(32)`. -/
structure KeyMaterial where
  keyId : Text
  tail : Text
  salt : ByteArray
  length_keyId : keyId.length = 24
  isHex_keyId : keyId.all isHexChar = true
  length_tail : tail.length = 43
  isUrlSafe_tail : tail.all isUrlSafe = true

/-- `f"c3r_sk_{'live' if live else 'test'}_{key_id}_" + tail`. -/
def keyText (live : Bool) (keyId tail : Text) : Text :=
  Text.ofString "c3r_sk_" ++ (Text.ofString (if live then "live" else "test") ++
    95 :: (keyId ++ 95 :: tail))

/-- `KEY.fullmatch`, with `match[2]`. Every part of the pattern has a fixed length. -/
def matchKey (t : Text) : Option Text :=
  let mode := (t.drop 7).take 4
  let keyId := (t.drop 12).take 24
  let tail := t.drop 37
  if t.take 7 = Text.ofString "c3r_sk_" ∧
      (mode = Text.ofString "live" ∨ mode = Text.ofString "test") ∧
      (t.drop 11).head? = some 95 ∧ keyId.length = 24 ∧ keyId.all isHexChar = true ∧
      (t.drop 36).head? = some 95 ∧ tail.length = 43 ∧ tail.all isUrlSafe = true
  then some keyId else none

/-- `_identifier`. -/
def identifier (value : Text) : Except PyError Unit :=
  match value with
  | [] => .error (valueError "bounded organization/project identifier required")
  | c :: rest =>
    if isUrlSafe c && c.val != 95 && c.val != 45 && decide (rest.length ≤ 63) &&
        rest.all (fun d ↦ isUrlSafe d || d.val == 46)
    then .ok ()
    else .error (valueError "bounded organization/project identifier required")

/-! ### Tables -/

/-- A row of `api_keys`. -/
structure KeyRow where
  salt : Text
  digest : Text
  tenant : Text
  project : Text
  scopes : Text
  createdAt : ℚ
  expiresAt : Option PyFloat
  lastUsedAt : Option ℚ
  revoked : Bool

/-- `audit_events.action`. -/
inductive AuditAction where
  | keyIssued
  | keyRevoked
  | requestDispatch
  deriving DecidableEq

/-- A row of `audit_events`. -/
structure AuditEvent where
  tenant : Text
  project : Text
  keyId : Text
  action : AuditAction
  requestId : Option Text
  time : ℚ

/-- A row of `usage_records`, with its metadata as the JSON value that is stored. -/
structure UsageRecord where
  requestId : Text
  tenant : Text
  project : Text
  keyId : Text
  metadata : Json

/-- The database; rows of the last two tables are in the order of their row ids. -/
structure Database where
  organizations : List Text
  projects : Dict (Text × Text) ProjectLimits
  apiKeys : Dict Text KeyRow
  quota : Dict QuotaRow Nat
  auditEvents : List AuditEvent
  usageRecords : List UsageRecord

/-- A new database. -/
def Database.empty : Database := ⟨[], ∅, ∅, ∅, [], []⟩

/-! ### Transactions -/

/-- The statements of a method: a result and the tables afterwards, or an exception. -/
abbrev Txn (α : Type) := Database → Except PyError (α × Database)

/-- What the host contributes to a call: the readings of the clock, in order, and an exception
that a statement or the commit raises. -/
structure Host where
  clock : Nat → ℚ
  fault : Option PyError

/-- `with self.connect() as connection`: commit, or roll back on any exception. -/
def connect {α : Type} (host : Host) (body : Txn α) (db : Database) :
    Except PyError α × Database :=
  match body db with
  | .error e => (.error (host.fault.getD e), db)
  | .ok (a, db') =>
    match host.fault with
    | some e => (.error e, db)
    | none => (.ok a, db')

/-- A method raises before it opens a connection. -/
def checked {α : Type} (check : Except PyError Unit)
    (method : Database → Except PyError α × Database) (db : Database) :
    Except PyError α × Database :=
  match check with
  | .error e => (.error e, db)
  | .ok _ => method db

/-- Binding text parameters of a statement; a surrogate cannot be bound. -/
def bindTexts : List Text → Except PyError Unit
  | [] => .ok ()
  | t :: ts => match t.encodeUtf8 with
    | .error e => .error e
    | .ok _ => bindTexts ts

/-- An `IntegrityError`. -/
def integrityError (message : String) : PyError := ⟨.sqliteError, message⟩

/-! ### Projects and keys -/

/-- The statements of `create_project`. -/
def insertProject (tenant project : Text) (limits : ProjectLimits) : Txn Unit := fun db ↦
  let organizations :=
    if tenant ∈ db.organizations then db.organizations else db.organizations ++ [tenant]
  if (db.projects.get? (tenant, project)).isSome then
    .error (integrityError "UNIQUE constraint failed: projects.tenant, projects.id")
  else .ok ((), { db with
    organizations
    projects := db.projects.insert (tenant, project) limits })

/-- The limits of a project, once they are checked. -/
def boundedLimits {rpm keyRps : Int}
    (h : (1 ≤ rpm ∧ rpm ≤ 100000) ∧ 1 ≤ keyRps ∧ keyRps ≤ 10000) : ProjectLimits :=
  ⟨rpm.toNat, keyRps.toNat, by omega, by omega⟩

/-- `create_project`. -/
def createProject (host : Host) (tenant project : Text) (rpm keyRps : Int) (db : Database) :
    Except PyError Unit × Database :=
  checked (identifier tenant) (checked (identifier project) fun db ↦
    if h : (1 ≤ rpm ∧ rpm ≤ 100000) ∧ 1 ≤ keyRps ∧ keyRps ≤ 10000 then
      connect host (insertProject tenant project (boundedLimits h)) db
    else (.error (valueError "bounded rate limits required"), db)) db

section Keys

variable [Digest] [FloatText]

/-- `json.dumps(sorted(scopes))`. -/
def scopesText (scopes : Finset Text) : Text :=
  (Json.arr ((scopes.sort (· ≤ ·)).map .str)).renderSpaced true

/-- The texts of a list of strings. -/
def strings? : List Json → Option (List Text)
  | [] => some []
  | .str t :: rest => (strings? rest).map (t :: ·)
  | _ :: _ => none

/-- `frozenset(json.loads(scope_json))`. -/
def scopesOf (t : Text) : Except PyError (Finset Text) :=
  match loads t with
  | some (.arr xs) =>
    match strings? xs with
    | some ts => .ok ts.toFinset
    | none => .error ⟨.typeError, "unhashable scope"⟩
  | some _ => .error ⟨.typeError, "scopes are not a list"⟩
  | none => .error (valueError "Expecting value")

/-- `plaintext.encode()`, then the salted digest. -/
def saltedDigest (salt : ByteArray) (plaintext : Text) : Except PyError Text :=
  match plaintext.encodeUtf8 with
  | .error e => .error e
  | .ok bytes => .ok (Digest.hmacSha256Hex salt bytes)

/-- The statements of `issue_key`. -/
def insertKey (host : Host) (tenant project : Text) (scopes : Finset Text)
    (expiresAt : Option PyFloat) (material : KeyMaterial) (digest : Text) : Txn Unit := fun db ↦
  match bindTexts [tenant, project] with
  | .error e => .error e
  | .ok _ =>
    if (db.apiKeys.get? material.keyId).isSome then
      .error (integrityError "UNIQUE constraint failed: api_keys.id")
    else if (db.projects.get? (tenant, project)).isNone then
      .error (integrityError "FOREIGN KEY constraint failed")
    else .ok ((), { db with
      apiKeys := db.apiKeys.insert material.keyId
        { salt := hexBytes material.salt
          digest
          tenant
          project
          scopes := scopesText scopes
          createdAt := host.clock 0
          expiresAt
          lastUsedAt := none
          revoked := false }
      auditEvents := db.auditEvents ++
        [⟨tenant, project, material.keyId, .keyIssued, none, host.clock 1⟩] })

/-- The checks of `issue_key`. -/
def checkIssue (scopes : Finset Text) (expiresAt : Option PyFloat) : Except PyError Unit :=
  if scopes = ∅ ∨ ¬ scopes ⊆ supportedScopes then
    .error (valueError "nonempty supported API scopes required")
  else if (expiresAt.map PyFloat.isFinite).getD true = false then
    .error (valueError "finite expiration required")
  else .ok ()

/-- `issue_key` after its checks. -/
def mintKey (host : Host) (tenant project : Text) (scopes : Finset Text) (live : Bool)
    (expiresAt : Option PyFloat) (material : KeyMaterial) (db : Database) :
    Except PyError IssuedKey × Database :=
  match saltedDigest material.salt (keyText live material.keyId material.tail) with
  | .error e => (.error e, db)
  | .ok digest =>
    match connect host (insertKey host tenant project scopes expiresAt material digest) db with
    | (.error e, db) => (.error e, db)
    | (.ok _, db) => (.ok ⟨material.keyId, keyText live material.keyId material.tail⟩, db)

/-- `issue_key`. -/
def issueKey (host : Host) (tenant project : Text) (scopes : Finset Text) (live : Bool)
    (expiresAt : Option PyFloat) (material : KeyMaterial) (db : Database) :
    Except PyError IssuedKey × Database :=
  checked (checkIssue scopes expiresAt)
    (mintKey host tenant project scopes live expiresAt material) db

/-- `expiration is not None and self.clock() >= expiration`. -/
def hasExpired (now : ℚ) : Option PyFloat → Bool
  | none => false
  | some expiration => expiration.le (.fin now)

/-- The reading for `last_used_at`; the expiry test takes one only of a key that expires. -/
def usedAt (clock : Nat → ℚ) (row : KeyRow) : ℚ :=
  match row.expiresAt with
  | none => clock 0
  | some _ => clock 1

/-- The statements of `authenticate`, for a key of the right form. -/
def selectPrincipal (host : Host) (plaintext keyId : Text) : Txn (Option Principal) := fun db ↦
  match db.apiKeys.get? keyId with
  | none => .ok (none, db)
  | some row =>
    match bytesFromHex row.salt with
    | .error e => .error e
    | .ok salt =>
      match saltedDigest salt plaintext with
      | .error e => .error e
      | .ok actual =>
        match compareDigest row.digest actual with
        | .error e => .error e
        | .ok same =>
          if !same || row.revoked || hasExpired (host.clock 0) row.expiresAt then .ok (none, db)
          else
            match scopesOf row.scopes with
            | .error e => .error e
            | .ok scopes => .ok (some ⟨row.tenant, row.project, keyId, scopes⟩, { db with
                apiKeys := db.apiKeys.insert keyId
                  { row with lastUsedAt := some (usedAt host.clock row) } })

/-- `authenticate`. -/
def authenticate (host : Host) (plaintext : Text) (db : Database) :
    Except PyError (Option Principal) × Database :=
  match matchKey plaintext with
  | none => (.ok none, db)
  | some keyId => connect host (selectPrincipal host plaintext keyId) db

/-- The statements of `revoke_key`. -/
def updateRevoked (host : Host) (tenant project keyId : Text) : Txn Unit := fun db ↦
  match bindTexts [tenant, project, keyId] with
  | .error e => .error e
  | .ok _ =>
    match db.apiKeys.get? keyId with
    | none => .error (valueError "key not found in selected project")
    | some row =>
      if row.tenant = tenant ∧ row.project = project then .ok ((), { db with
        apiKeys := db.apiKeys.insert keyId { row with revoked := true }
        auditEvents := db.auditEvents ++
          [⟨tenant, project, keyId, .keyRevoked, none, host.clock 0⟩] })
      else .error (valueError "key not found in selected project")

/-- `revoke_key`. -/
def revokeKey (host : Host) (tenant project keyId : Text) (db : Database) :
    Except PyError Unit × Database :=
  connect host (updateRevoked host tenant project keyId) db

end Keys

/-! ### Events and usage -/

/-- The statement of `dispatch_event`. -/
def insertDispatch (host : Host) (principal : Principal) (requestId : Text) : Txn Unit := fun db ↦
  match bindTexts [principal.tenantId, principal.projectId, principal.keyId, requestId] with
  | .error e => .error e
  | .ok _ => .ok ((), { db with
      auditEvents := db.auditEvents ++ [⟨principal.tenantId, principal.projectId, principal.keyId,
        .requestDispatch, some requestId, host.clock 0⟩] })

/-- `dispatch_event`. -/
def dispatchEvent (host : Host) (principal : Principal) (requestId : Text) (db : Database) :
    Except PyError Unit × Database :=
  connect host (insertDispatch host principal requestId) db

/-- The keyword arguments of `record_usage`. -/
structure Usage where
  route : Text
  model : Option Text
  status : Int
  latencyMs : PyFloat
  inputTokens : Option Int
  outputTokens : Option Int
  systemOneInvocations : Option Int
  systemTwoInvocations : Option Int
  invocationBasis : Option Text

private def textOrNull (t : Option Text) : Json := (t.map Json.str).getD .null

private def intOrNull (n : Option Int) : Json := (n.map Json.int).getD .null

/-- `metadata`. -/
def usageMetadata (now : ℚ) (principal : Principal) (requestId : Text) (usage : Usage) : Json :=
  .obj [("request_id", .str requestId), ("tenant_id", .str principal.tenantId),
    ("project_id", .str principal.projectId), ("api_key_id", .str principal.keyId),
    ("route", .str usage.route), ("model", textOrNull usage.model),
    ("status", .int usage.status), ("latency_ms", .float usage.latencyMs),
    ("timestamp", .float (.fin now)), ("input_tokens", intOrNull usage.inputTokens),
    ("output_tokens", intOrNull usage.outputTokens),
    ("system_one_invocations", intOrNull usage.systemOneInvocations),
    ("system_two_invocations", intOrNull usage.systemTwoInvocations),
    ("invocation_basis", textOrNull usage.invocationBasis), ("gpu_allocation_ms", .null),
    ("allocated_cost_usd", .null), ("cost_basis", .str "unmeasured")]

/-- What `json.dumps(…, allow_nan=False)` refuses: NaN, infinities and ints with too many digits. -/
def checkWritten (j : Json) : Except PyError Unit :=
  if j.allFinite = false then
    .error (valueError "Out of range float values are not JSON compliant")
  else if j.allShort = false then .error tooManyDigits
  else .ok ()

/-- The statement of `record_usage`. -/
def insertUsage (principal : Principal) (requestId : Text) (metadata : Json) : Txn Unit := fun db ↦
  match checkWritten metadata with
  | .error e => .error e
  | .ok _ =>
    match bindTexts [requestId, principal.tenantId, principal.projectId, principal.keyId] with
    | .error e => .error e
    | .ok _ =>
      if db.usageRecords.any fun r ↦ decide (r.requestId = requestId) then
        .error (integrityError "UNIQUE constraint failed: usage_records.request_id")
      else .ok ((), { db with
        usageRecords := db.usageRecords ++ [⟨requestId, principal.tenantId, principal.projectId,
          principal.keyId, metadata⟩] })

/-- `record_usage`. -/
def recordUsage (host : Host) (principal : Principal) (requestId : Text) (usage : Usage)
    (db : Database) : Except PyError Unit × Database :=
  connect host (insertUsage principal requestId
    (usageMetadata (host.clock 0) principal requestId usage)) db

/-! ### Retention -/

/-- How SQLite reads the text of a real. Its conversion keeps fifteen significant digits, so it need
not find the nearest `float`. -/
class SqliteReal where
  ofText : Text → PyFloat

/-- Texts that stand for rationals are read as they are. -/
@[reducible] def SqliteReal.fraction : SqliteReal where
  ofText := FloatText.fraction.parse

section Statements

variable [FloatText] [SqliteReal]

/-- `json_extract(metadata,'$.timestamp')<?`. Integers of 64 bits are extracted as they are, other
numbers as reals from their text, and booleans as numbers; a text is never below a number. -/
def isOlder (cutoff : ℚ) (metadata : Json) : Bool :=
  match metadata.get? "timestamp" with
  | some (.float (.fin q)) => (SqliteReal.ofText (FloatText.repr q)).lt (.fin cutoff)
  | some (.float x) => x.lt (.fin cutoff)
  | some (.int n) =>
    if -2 ^ 63 ≤ n ∧ n < 2 ^ 63 then decide ((n : ℚ) < cutoff)
    else (SqliteReal.ofText (decimalInt n)).lt (.fin cutoff)
  | some (.bool b) => decide ((if b then 1 else 0 : ℚ) < cutoff)
  | _ => false

/-- The counts in the answer of `purge_metadata`. -/
structure PurgeReport where
  usageDeleted : Nat
  auditDeleted : Nat
  cutoff : ℚ
  limit : Nat

/-- The statements of `purge_metadata`. -/
def deleteMetadata (tenant project : Text) (cutoff : ℚ) (limit : Nat) : Txn PurgeReport :=
  fun db ↦
    let usageRecords := deleteFirst (fun r : UsageRecord ↦ decide (r.tenant = tenant) &&
      decide (r.project = project) && isOlder cutoff r.metadata) limit db.usageRecords
    let auditEvents := deleteFirst (fun e : AuditEvent ↦ decide (e.tenant = tenant) &&
      decide (e.project = project) && decide (e.time < cutoff)) limit db.auditEvents
    .ok (⟨db.usageRecords.length - usageRecords.length,
      db.auditEvents.length - auditEvents.length, cutoff, limit⟩,
      { db with usageRecords, auditEvents })

/-- `purge_metadata`. -/
def purgeMetadata (host : Host) (tenant project : Text) (retentionSeconds limit : Int)
    (db : Database) : Except PyError PurgeReport × Database :=
  checked (identifier tenant) (checked (identifier project) fun db ↦
    if (60 ≤ retentionSeconds ∧ retentionSeconds ≤ 30 * 86400) ∧ 1 ≤ limit ∧ limit ≤ 10000 then
      connect host (deleteMetadata tenant project (host.clock 0 - retentionSeconds) limit.toNat) db
    else (.error (valueError "bounded metadata retention and batch size required"), db)) db

end Statements

/-! ### Admission -/

/-- `int(x)` of a float: towards zero. -/
def truncate (x : ℚ) : Int := if x < 0 then ⌈x⌉ else ⌊x⌋

/-- `requests`, with the limits of the project. -/
def quotaRequests (principal : Principal) (now : Int) (limits : ProjectLimits) :
    List QuotaRequest :=
  requests ⟨principal.tenantId, principal.projectId, principal.keyId⟩ now limits

/-- The statements of `admit`; the key is bound only when the project exists. -/
def countRequest (now : Int) (principal : Principal) : Txn Bool := fun db ↦
  match bindTexts [principal.tenantId, principal.projectId] with
  | .error e => .error e
  | .ok _ =>
    match db.projects.get? (principal.tenantId, principal.projectId) with
    | none => .ok (false, db)
    | some limits =>
      match bindTexts [principal.keyId] with
      | .error e => .error e
      | .ok _ =>
        let rows := quotaRequests principal now limits
        if rows.any fun q ↦ decide (q.limit ≤ (db.quota.get? q.row).getD 0) &&
            (db.quota.get? q.row).isSome then .ok (false, db)
        else
          let counted := rows.foldl
            (fun quota q ↦ quota.insert q.row ((quota.get? q.row).getD 0 + 1)) db.quota
          .ok (true, { db with
            quota := counted.filterEntries fun row _ ↦ decide (now - 120 ≤ row.windowStart) })

/-- `admit`. -/
def admitRequest (host : Host) (principal : Principal) (db : Database) :
    Except PyError Bool × Database :=
  connect host (countRequest (truncate (host.clock 0)) principal) db

/-! ### Listings -/

/-- The order in which a `SELECT` without `ORDER BY` returns its rows. -/
structure Scan where
  order : {α : Type} → List α → List α
  perm : ∀ {α : Type} (rows : List α), (order rows).Perm rows

/-- The order in which rows were written. -/
def Scan.written : Scan := ⟨fun rows ↦ rows, fun _ ↦ .refl _⟩

/-- A row of the answer of `list_keys`. -/
structure KeyListing where
  id : Text
  tenant : Text
  project : Text
  scopes : Text
  createdAt : ℚ
  expiresAt : Option PyFloat
  lastUsedAt : Option ℚ
  revoked : Bool

/-- The listed columns of a row. -/
def keyListing (id : Text) (row : KeyRow) : KeyListing :=
  ⟨id, row.tenant, row.project, row.scopes, row.createdAt, row.expiresAt, row.lastUsedAt,
    row.revoked⟩

/-- The statement of `list_keys`. -/
def selectKeys (scan : Scan) (tenant project : Text) : Txn (List KeyListing) := fun db ↦
  match bindTexts [tenant, project] with
  | .error e => .error e
  | .ok _ => .ok (scan.order ((db.apiKeys.entries.filter fun e ↦
      decide (e.2.tenant = tenant) && decide (e.2.project = project)).map fun e ↦
        keyListing e.1 e.2), db)

/-- `list_keys`. -/
def listKeys (host : Host) (scan : Scan) (tenant project : Text) (db : Database) :
    Except PyError (List KeyListing) × Database :=
  connect host (selectKeys scan tenant project) db

/-- `json.loads` of the text that `record_usage` stored. -/
def readMetadata [FloatText] (metadata : Json) : Except PyError Json :=
  match loads (metadata.renderSpaced true) with
  | some j => .ok j
  | none => .error (valueError "Expecting value")

/-- The statement of `project_usage`, with its answer. -/
def selectUsage [FloatText] (scan : Scan) (tenant project : Text) : Txn (List Json) := fun db ↦
  match bindTexts [tenant, project] with
  | .error e => .error e
  | .ok _ =>
    let rows := scan.order (db.usageRecords.filter fun r ↦
      decide (r.tenant = tenant) && decide (r.project = project))
    match (rows.map UsageRecord.metadata).mapM readMetadata with
    | .error e => .error e
    | .ok usage => .ok (usage, db)

/-- `project_usage`. -/
def projectUsage [FloatText] (host : Host) (scan : Scan) (tenant project : Text) (db : Database) :
    Except PyError (List Json) × Database :=
  connect host (selectUsage scan tenant project) db

/-! ### Calls -/

/-- A call of one of the methods. -/
inductive Call where
  | createProject (tenant project : Text) (rpm keyRps : Int)
  | issueKey (tenant project : Text) (scopes : Finset Text) (live : Bool)
      (expiresAt : Option PyFloat) (material : KeyMaterial)
  | revokeKey (tenant project keyId : Text)
  | authenticate (plaintext : Text)
  | admitRequest (principal : Principal)
  | recordUsage (principal : Principal) (requestId : Text) (usage : Usage)
  | purgeMetadata (tenant project : Text) (retentionSeconds limit : Int)
  | dispatchEvent (principal : Principal) (requestId : Text)

/-- What a method returns. -/
inductive Reply where
  | done
  | issued (key : IssuedKey)
  | principal (principal : Option Principal)
  | admitted (answer : Bool)
  | purged (report : PurgeReport)

section Calls

variable [Digest] [FloatText] [SqliteReal]

/-- A result as a reply. -/
def replying {α : Type} (reply : α → Reply) (x : Except PyError α × Database) :
    Except PyError Reply × Database := (x.1.map reply, x.2)

/-- Perform a call. -/
def perform (host : Host) (db : Database) : Call → Except PyError Reply × Database
  | .createProject tenant project rpm keyRps =>
    replying (fun _ ↦ .done) (createProject host tenant project rpm keyRps db)
  | .issueKey tenant project scopes live expiresAt material =>
    replying .issued (issueKey host tenant project scopes live expiresAt material db)
  | .revokeKey tenant project keyId =>
    replying (fun _ ↦ .done) (revokeKey host tenant project keyId db)
  | .authenticate plaintext => replying .principal (authenticate host plaintext db)
  | .admitRequest principal => replying .admitted (admitRequest host principal db)
  | .recordUsage principal requestId usage =>
    replying (fun _ ↦ .done) (recordUsage host principal requestId usage db)
  | .purgeMetadata tenant project retentionSeconds limit =>
    replying .purged (purgeMetadata host tenant project retentionSeconds limit db)
  | .dispatchEvent principal requestId =>
    replying (fun _ ↦ .done) (dispatchEvent host principal requestId db)

end Calls

end C3RSpec.ApiAccess
