import C3RSpec.ApiAccess.CredentialHistory

/-!
# Credential backup and recovery

`c3r/credential_recovery.py:13–100`. `copy_credentials` writes the credential tables of one
database file into a new one. A backup marks the new file as a snapshot; a restore takes only a
marked file with the approved hash and revokes every key. SQLite is a parameter (`DatabaseFile`):
a file has bytes, a connection to it reads tables from them, a new file has no rows while its
tables are made, and a committed transaction leaves a file that reads back as what it wrote.
Owners, modes and links of files are answers of the host, and so are the order in which a `SELECT`
without `ORDER BY` returns its rows and what is raised at a point of the copy.
-/

namespace C3RSpec.ApiAccess

open Base Access

/-- `MAX_SNAPSHOT_BYTES`. -/
def maxSnapshotBytes : Nat := 64 * 1024 * 1024

/-- The tables in a database file: those of the store, and `credential_snapshot` where it is. -/
structure Content where
  db : Database
  snapshot : Option (List Int)

/-- SQLite database files. `content` raises what `deserialize`, the integrity check or a missing
credential table raises; `schema n` is a new file after `n` statements of the schema. -/
class DatabaseFile (F : Type) where
  bytes : F → ByteArray
  content : F → Except PyError Content
  schema : Nat → F
  content_schema : ∀ n c, content (schema n) = .ok c → c = ⟨.empty, none⟩
  commit : F → Content → F
  content_commit : ∀ f c, content (commit f c) = .ok c

/-- The files of a host by their absolute paths. -/
abbrev Files (F : Type) := Dict Text F

/-- The tables of `CREDENTIAL_TABLES`. -/
inductive CredentialTable
  | organizations
  | projects
  | apiKeys
deriving DecidableEq

/-- The points at which the host or SQLite can raise once the source is open. After `commit` the
new file holds the copied rows. -/
inductive CopyPoint
  | reserve
  | closeReserved
  | openStore
  | schema (statement : Fin 6)
  | connect
  | copyTable (table : CredentialTable)
  | mark
  | checkRelations
  | commit
  | reopen
  | sync
  | stat
  | digest
deriving DecidableEq

/-- What the host answers about a path, how it orders the rows of a table, and the exception that
it or SQLite raises at a point of the copy. -/
structure RecoveryHost where
  validatePath : Text → Except PyError Unit
  isResolved : Text → Bool
  isUnlinked : Text → Bool
  isPrivate : Text → Bool
  scan : Scan
  fault : CopyPoint → Option PyError

/-- The copy comes to a point. -/
def RecoveryHost.reach (host : RecoveryHost) (point : CopyPoint) : Except PyError Unit :=
  match host.fault point with
  | some e => .error e
  | none => .ok ()

/-- A snapshot, or the error of a source that is none. -/
def requireSnapshot (c : Content) : Except PyError Content :=
  match c.snapshot with
  | some versions =>
    if versions = [1] then .ok c
    else .error (valueError "versioned credential snapshot required")
  | none => .error ⟨.sqliteError, "no such table: credential_snapshot"⟩

/-- `-wal`, `-shm` or `-journal` stands beside the file. -/
def hasSidecar {F : Type} (files : Files F) (path : Text) : Bool :=
  [("-wal" : Text), ("-shm" : Text), ("-journal" : Text)].any fun suffix ↦
    (files.get? (path ++ suffix)).isSome

section Source

variable {F : Type} [DatabaseFile F] [Digest]

/-- `hashlib.sha256(raw).hexdigest()`. -/
def fileDigest (file : F) : Text := Digest.sha256Hex (DatabaseFile.bytes file)

/-- The checks of a file that is to be restored. -/
def approvedContent (files : Files F) (path : Text) (file : F) (expected : Text) :
    Except PyError Content := do
  if !isHash expected then throw (valueError "approved backup hash required")
  else if hasSidecar files path then throw (valueError "unbound snapshot sidecar")
  else if maxSnapshotBytes < (DatabaseFile.bytes file).size then
    throw (valueError "credential snapshot exceeds recovery bound")
  else
    let same ← compareDigest (fileDigest file) expected
    if !same then throw (valueError "credential snapshot hash mismatch")
    else
      let c ← DatabaseFile.content file
      requireSnapshot c

/-- `credential_source`. -/
def credentialSource (host : RecoveryHost) (files : Files F) (path : Text)
    (expected : Option Text) : Except PyError Content := do
  host.validatePath path
  match files.get? path with
  | none => throw (valueError "existing unlinked credential source required")
  | some file =>
    if !host.isResolved path || !host.isUnlinked path then
      throw (valueError "existing unlinked credential source required")
    else if !host.isPrivate path then
      throw (valueError "private credential source ownership/mode required")
    else
      match expected with
      | none => DatabaseFile.content file
      | some hash => approvedContent files path file hash

end Source

/-! ### Copied rows -/

/-- `INSERT INTO organizations`. -/
def insertOrganization (db : Database) (id : Text) : Except PyError Database :=
  if id ∈ db.organizations then .error (integrityError "UNIQUE constraint failed: organizations.id")
  else .ok { db with organizations := db.organizations ++ [id] }

/-- `INSERT INTO projects`. -/
def insertProjectRow (db : Database) (row : (Text × Text) × ProjectLimits) :
    Except PyError Database :=
  if (db.projects.get? row.1).isSome then
    .error (integrityError "UNIQUE constraint failed: projects.tenant, projects.id")
  else if row.1.1 ∉ db.organizations then .error (integrityError "FOREIGN KEY constraint failed")
  else .ok { db with projects := db.projects.insert row.1 row.2 }

/-- `INSERT INTO api_keys`. -/
def insertKeyRow (db : Database) (row : Text × KeyRow) : Except PyError Database :=
  if (db.apiKeys.get? row.1).isSome then
    .error (integrityError "UNIQUE constraint failed: api_keys.id")
  else if (db.projects.get? (row.2.tenant, row.2.project)).isNone then
    .error (integrityError "FOREIGN KEY constraint failed")
  else .ok { db with apiKeys := db.apiKeys.insert row.1 row.2 }

/-- The loop over `CREDENTIAL_TABLES`. -/
def copyTables (host : RecoveryHost) (source target : Database) : Except PyError Database := do
  host.reach (.copyTable .organizations)
  let db ← (host.scan.order source.organizations).foldlM insertOrganization target
  host.reach (.copyTable .projects)
  let db ← (host.scan.order source.projects.entries).foldlM insertProjectRow db
  host.reach (.copyTable .apiKeys)
  (host.scan.order source.apiKeys.entries).foldlM insertKeyRow db

/-- `UPDATE api_keys SET revoked=1`. -/
def revokeAll (db : Database) : Database :=
  { db with apiKeys := db.apiKeys.mapEntries fun _ row ↦ { row with revoked := true } }

/-- `PRAGMA foreign_key_check` finds nothing. -/
def relationsHold (db : Database) : Bool :=
  db.projects.keys.all (fun key ↦ decide (key.1 ∈ db.organizations)) &&
    db.apiKeys.values.all fun row ↦ (db.projects.get? (row.tenant, row.project)).isSome

/-- The transaction on the new file. Whatever it raises rolls it back. -/
def copyContent (host : RecoveryHost) (restore : Bool) (source : Database) :
    Except PyError Content := do
  host.reach .connect
  let db ← copyTables host source .empty
  host.reach .mark
  let c : Content := if restore then ⟨revokeAll db, none⟩ else ⟨db, some [1]⟩
  host.reach .checkRelations
  if !relationsHold c.db then throw (valueError "credential relationships invalid")
  else
    host.reach .commit
    return c

/-- What `copy_credentials` reports. -/
structure CopyReceipt where
  status : Text
  organizationsCopied : Nat
  projectsCopied : Nat
  keysCopied : Nat
  sha256 : Text
  requiresKeyRotation : Bool
  scope : Text := "credentials_and_project_limits_only"
  encryptionVerified : Bool := false
  backupDeletionVerified : Bool := false

section Copy

variable {F : Type} [DatabaseFile F] [Digest]

/-- The report on a finished copy. -/
def copyReceipt (restore : Bool) (db : Database) (file : F) : CopyReceipt where
  status := if restore then "restored_keys_revoked" else "credential_snapshot_created"
  organizationsCopied := db.organizations.length
  projectsCopied := db.projects.size
  keysCopied := db.apiKeys.size
  sha256 := fileDigest file
  requiresKeyRotation := restore

/-- The checks of `copy_credentials` before it creates the destination. -/
def openSource (host : RecoveryHost) (files : Files F) (source destination : Text)
    (expected : Option Text) : Except PyError Content := do
  host.validatePath destination
  if !host.isResolved destination then throw (valueError "non-redirected destination required")
  else credentialSource host files source expected

/-- The schema script: every statement is committed on its own. -/
def createTables (host : RecoveryHost) : Except PyError Unit × F :=
  match (List.finRange 6).find? fun n ↦ (host.fault (.schema n)).isSome with
  | some n => (host.reach (.schema n), DatabaseFile.schema n)
  | none => (.ok (), DatabaseFile.schema 6)

/-- `AccessStore(destination)` on the file that `O_EXCL` has just reserved. -/
def createStore (host : RecoveryHost) : Except PyError Unit × F :=
  match (do host.reach .closeReserved; host.reach .openStore : Except PyError Unit) with
  | .error e => (.error e, DatabaseFile.schema 0)
  | .ok () => createTables host

/-- The checks of the committed file. -/
def finishCopy (host : RecoveryHost) (restore : Bool) (db : Database) (file : F) :
    Except PyError CopyReceipt := do
  host.reach .reopen
  host.reach .sync
  host.reach .stat
  if maxSnapshotBytes < (DatabaseFile.bytes file).size then
    throw (valueError "credential snapshot exceeds recovery bound")
  else
    host.reach .digest
    return copyReceipt restore db file

/-- The copy into a destination that does not exist. What is raised leaves the new file as it is
at that point. -/
def fillDestination (host : RecoveryHost) (files : Files F) (destination : Text) (restore : Bool)
    (source : Database) : Except PyError CopyReceipt × Files F :=
  match host.reach .reserve with
  | .error e => (.error e, files)
  | .ok () =>
    match createStore host with
    | (.error e, created) => (.error e, files.insert destination created)
    | (.ok (), created) =>
      match copyContent host restore source with
      | .error e => (.error e, files.insert destination created)
      | .ok c =>
        let file := DatabaseFile.commit created c
        (finishCopy host restore c.db file, files.insert destination file)

/-- `copy_credentials`. -/
def copyCredentials (host : RecoveryHost) (files : Files F) (source destination : Text)
    (expected : Option Text) : Except PyError CopyReceipt × Files F :=
  match openSource host files source destination expected with
  | .error e => (.error e, files)
  | .ok c =>
    if (files.get? destination).isSome then (.error ⟨.osError, "File exists"⟩, files)
    else fillDestination host files destination expected.isSome c.db

end Copy

end C3RSpec.ApiAccess
