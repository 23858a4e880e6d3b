import C3RSpec.ApiAccess.RecoveredKeys

/-!
# What a failed credential copy leaves

`copy_credentials` reserves the destination, makes its tables, copies the rows in one transaction,
and checks the committed file: it is opened again, synced, and refused above
`MAX_SNAPSHOT_BYTES`. Until the commit an exception leaves a file without rows. The checks come
after it, so what they raise leaves the rows, and the keys of a backup still authenticate.
-/

namespace C3RSpec.ApiAccess

open Base Access

/-! ### The transaction -/

/-- The file is opened again after the commit. -/
def CopyPoint.isLate : CopyPoint → Bool
  | .reopen => true
  | .sync => true
  | .stat => true
  | .digest => true
  | _ => false

/-- What the transaction writes. -/
def writtenContent (host : RecoveryHost) (restore : Bool) (source : Database) : Content :=
  if restore then ⟨revokeAll (copyOf host source), none⟩ else ⟨copyOf host source, some [1]⟩

private theorem mem_keys_copyOf {host : RecoveryHost} {source : Database} {key : Text × Text} :
    key ∈ (copyOf host source).projects.keys ↔ key ∈ source.projects.keys := by
  rw [← Dict.get?_isSome_iff, ← Dict.get?_isSome_iff, (copies_copyOf host source).projects]

private theorem mem_values_copyOf {host : RecoveryHost} {source : Database} {row : KeyRow}
    (hrow : row ∈ (copyOf host source).apiKeys.values) : row ∈ source.apiKeys.values := by
  obtain ⟨entry, hentry, rfl⟩ := List.mem_map.mp hrow
  have hget := (Dict.get?_eq_some_iff _ _ _).mpr hentry
  rw [(copies_copyOf host source).apiKeys] at hget
  exact List.mem_map_of_mem ((Dict.get?_eq_some_iff _ _ _).mp hget)

private theorem related_copyOf {host : RecoveryHost} {source : Database} (h : Related source) :
    Related (copyOf host source) where
  organizations := (copies_copyOf host source).organizations.nodup_iff.mpr h.organizations
  projects key hkey := (copies_copyOf host source).organizations.mem_iff.mpr
    (h.projects key (mem_keys_copyOf.mp hkey))
  apiKeys row hrow := mem_keys_copyOf.mpr (h.apiKeys row (mem_values_copyOf hrow))

private theorem related_revokeAll {db : Database} (h : Related db) : Related (revokeAll db) where
  organizations := h.organizations
  projects := h.projects
  apiKeys row hrow := by
    obtain ⟨entry, hentry, rfl⟩ := List.mem_map.mp hrow
    obtain ⟨old, hold, rfl⟩ := List.mem_map.mp hentry
    exact h.apiKeys old.2 (List.mem_map_of_mem hold)

private theorem relationsHold_of_related {db : Database} (h : Related db) :
    relationsHold db = true := by
  rw [relationsHold, Bool.and_eq_true, List.all_eq_true, List.all_eq_true]
  constructor
  · intro key hkey
    exact decide_eq_true (h.projects key hkey)
  · intro row hrow
    exact (Dict.get?_isSome_iff _ _).mpr (h.apiKeys row hrow)

private theorem relationsHold_writtenContent {host : RecoveryHost} {source : Database}
    (h : Related source) (restore : Bool) :
    relationsHold (writtenContent host restore source).db = true := by
  apply relationsHold_of_related
  cases restore with
  | false => exact related_copyOf h
  | true => exact related_revokeAll (related_copyOf h)

/-- The points of the transaction. -/
def CopyPoint.inTransaction : CopyPoint → Bool
  | .connect => true
  | .copyTable _ => true
  | .mark => true
  | .checkRelations => true
  | .commit => true
  | _ => false

/-- The transaction is committed when nothing is raised in it and the rows are related. -/
theorem copyContent_eq_ok_iff {host : RecoveryHost} {restore : Bool} {source : Database}
    {c : Content} :
    copyContent host restore source = .ok c ↔
      (∀ point : CopyPoint, point.inTransaction = true → host.fault point = none) ∧
        Related source ∧ c = writtenContent host restore source := by
  have hholds := fun h : Related source ↦ @relationsHold_writtenContent host source h restore
  simp only [writtenContent] at hholds
  simp only [copyContent, bind_eq_ok, reach_eq_ok_iff, copyTables_eq_ok_iff]
  constructor
  · rintro ⟨-, hconnect, db, ⟨htables, hrelated, rfl⟩, -, hmark, -, hcheck, h⟩
    rw [hholds hrelated, Bool.not_true, if_neg Bool.false_ne_true, bind_eq_ok] at h
    obtain ⟨_, hcommit, h⟩ := h
    cases h
    refine ⟨fun point hpoint ↦ ?_, hrelated, rfl⟩
    cases point with
    | copyTable table => exact htables table
    | commit => exact reach_eq_ok_iff.mp hcommit
    | _ => first | assumption | cases hpoint
  · rintro ⟨hfault, hrelated, rfl⟩
    refine ⟨(), hfault _ rfl, _, ⟨fun _ ↦ hfault _ rfl, hrelated, rfl⟩, (), hfault _ rfl, (),
      hfault _ rfl, ?_⟩
    rw [hholds hrelated, Bool.not_true, if_neg Bool.false_ne_true, bind_eq_ok]
    exact ⟨(), reach_eq_ok_iff.mpr (hfault _ rfl), rfl⟩

/-! ### The new file -/

section Copy

variable {F : Type} [DatabaseFile F]

/-- The credential tables are empty. -/
def NoCredentials (db : Database) : Prop :=
  db.organizations = [] ∧ db.projects.entries = [] ∧ db.apiKeys.entries = []

/-- The points of `AccessStore(destination)`. -/
def CopyPoint.inStore : CopyPoint → Bool
  | .closeReserved => true
  | .openStore => true
  | .schema _ => true
  | _ => false

private theorem isLate_of_inStore {point : CopyPoint} (h : point.inStore = true) :
    point.isLate = false := by
  cases point <;> first | rfl | cases h

private theorem isLate_of_inTransaction {point : CopyPoint} (h : point.inTransaction = true) :
    point.isLate = false := by
  cases point <;> first | rfl | cases h

/-- A file has no row in a credential table. -/
def HoldsNoCredentials (file : F) : Prop :=
  ∀ c, DatabaseFile.content file = .ok c → NoCredentials c.db

private theorem holdsNoCredentials_schema (n : Nat) :
    HoldsNoCredentials (DatabaseFile.schema n : F) := by
  intro c h
  rw [DatabaseFile.content_schema n c h]
  exact ⟨rfl, rfl, rfl⟩

private theorem noCredentials_copyOf_iff {host : RecoveryHost} {source : Database} :
    NoCredentials (copyOf host source) ↔ NoCredentials source := by
  have hprojects := Dict.entries_ofList (((host.scan.perm source.projects.entries).map
    Prod.fst).nodup_iff.mpr source.projects.nodup)
  have hkeys := Dict.entries_ofList (((host.scan.perm source.apiKeys.entries).map
    Prod.fst).nodup_iff.mpr source.apiKeys.nodup)
  simp only [NoCredentials, copyOf, hprojects, hkeys, ← List.length_eq_zero_iff,
    (host.scan.perm _).length_eq]

private theorem noCredentials_writtenContent_iff (host : RecoveryHost) (restore : Bool)
    {source : Database} :
    NoCredentials (writtenContent host restore source).db ↔ NoCredentials source := by
  refine Iff.trans ?_ (noCredentials_copyOf_iff : NoCredentials (copyOf host source) ↔ _)
  cases restore with
  | false => rfl
  | true => simp [NoCredentials, writtenContent, revokeAll, Dict.mapEntries]

private theorem createStore_eq_ok {host : RecoveryHost}
    (h : ∀ point : CopyPoint, point.inStore = true → host.fault point = none) :
    createStore (F := F) host = (.ok (), DatabaseFile.schema 6) := by
  have hclose := h .closeReserved rfl
  have hopen := h .openStore rfl
  have hschema : (List.finRange 6).find? (fun n ↦ (host.fault (.schema n)).isSome) = none := by
    rw [List.find?_eq_none]
    intro n _
    rw [h (.schema n) rfl]
    exact Bool.false_ne_true
  rw [createStore, RecoveryHost.reach, RecoveryHost.reach, hclose, hopen]
  change createTables host = _
  rw [createTables, hschema]

/-- A new store has its tables, or what is raised leaves a file without rows. -/
theorem createStore_cases (host : RecoveryHost) :
    (∀ point : CopyPoint, point.inStore = true → host.fault point = none) ∧
        createStore (F := F) host = (.ok (), DatabaseFile.schema 6) ∨
      ∃ e n, createStore (F := F) host = (.error e, DatabaseFile.schema n) := by
  by_cases h : ∀ point : CopyPoint, point.inStore = true → host.fault point = none
  · exact .inl ⟨h, createStore_eq_ok h⟩
  · refine .inr ?_
    unfold createStore
    split
    · next e _ => exact ⟨e, 0, rfl⟩
    · next hopened =>
      rw [bind_eq_ok] at hopened
      obtain ⟨_, hclose, hopen⟩ := hopened
      unfold createTables
      split
      · next n hn =>
        have hsome := List.find?_some hn
        obtain ⟨e, he⟩ := Option.isSome_iff_exists.mp hsome
        exact ⟨e, n, by rw [RecoveryHost.reach, he]⟩
      · next hnone =>
        refine absurd (fun point hpoint ↦ ?_) h
        cases point with
        | closeReserved => exact reach_eq_ok_iff.mp hclose
        | openStore => exact reach_eq_ok_iff.mp hopen
        | schema n =>
          have hn := List.find?_eq_none.mp hnone n (List.mem_finRange n)
          rwa [Option.not_isSome_iff_eq_none] at hn
        | _ => cases hpoint

/-- The file that a committed copy leaves. -/
def committedFile (host : RecoveryHost) (restore : Bool) (source : Database) : F :=
  DatabaseFile.commit (DatabaseFile.schema 6) (writtenContent host restore source)

private theorem holdsNoCredentials_committedFile_iff (host : RecoveryHost) (restore : Bool)
    (source : Database) :
    HoldsNoCredentials (committedFile (F := F) host restore source) ↔ NoCredentials source := by
  rw [← noCredentials_writtenContent_iff host restore]
  constructor
  · exact fun h ↦ h _ (DatabaseFile.content_commit _ _)
  · intro h c hc
    rw [committedFile, DatabaseFile.content_commit] at hc
    cases hc
    exact h

variable [Digest]

/-- Nothing is raised up to the commit, and the rows satisfy the constraints of the schema. -/
structure Commits (host : RecoveryHost) (source : Database) : Prop where
  reached : ∀ point : CopyPoint, point.isLate = false → host.fault point = none
  related : Related source

/-- A copy into a new destination that comes to its commit. -/
theorem fillDestination_of_commits {host : RecoveryHost} {source : Database}
    (h : Commits host source) (files : Files F) (destination : Text) (restore : Bool) :
    fillDestination host files destination restore source =
      (finishCopy host restore (writtenContent host restore source).db
        (committedFile (F := F) host restore source),
        files.insert destination (committedFile host restore source)) := by
  have hstore := createStore_eq_ok (F := F) fun point hpoint ↦
    h.reached point (isLate_of_inStore hpoint)
  have hcopy := (@copyContent_eq_ok_iff host restore source _).mpr ⟨fun point hpoint ↦
    h.reached point (isLate_of_inTransaction hpoint), h.related, rfl⟩
  rw [fillDestination, (@reach_eq_ok_iff host .reserve ()).mpr (h.reached .reserve rfl), hstore]
  dsimp only
  rw [hcopy]
  rfl

/-- A copy into a new destination that does not: there is no file, or one without rows. -/
theorem fillDestination_of_not_commits {host : RecoveryHost} {source : Database}
    (h : ¬Commits host source) (files : Files F) (destination : Text) (restore : Bool) :
    ∃ e, fillDestination host files destination restore source = (.error e, files) ∨
      ∃ n, fillDestination host files destination restore source =
        (.error e, files.insert destination (DatabaseFile.schema n)) := by
  unfold fillDestination
  split
  · next e _ => exact ⟨e, .inl rfl⟩
  · next hreserve =>
    obtain ⟨hfault, hstore⟩ | ⟨e, n, hstore⟩ := createStore_cases (F := F) host
    · rw [hstore]
      dsimp only
      split
      · next e _ => exact ⟨e, .inr ⟨6, rfl⟩⟩
      · next c hc =>
        obtain ⟨hcopy, hrelated, -⟩ := copyContent_eq_ok_iff.mp hc
        refine absurd ⟨fun point hpoint ↦ ?_, hrelated⟩ h
        cases point with
        | reserve => exact reach_eq_ok_iff.mp hreserve
        | _ => first | exact hfault _ rfl | exact hcopy _ rfl | cases hpoint
    · rw [hstore]
      exact ⟨e, .inr ⟨n, rfl⟩⟩

/-- The committed file passes its checks. -/
structure Passes (host : RecoveryHost) (restore : Bool) (source : Database) : Prop where
  reached : ∀ point : CopyPoint, point.isLate = true → host.fault point = none
  bounded : (DatabaseFile.bytes (committedFile (F := F) host restore source)).size ≤ maxSnapshotBytes

theorem finishCopy_isOk_iff {host : RecoveryHost} {restore : Bool} {source : Database}
    (db : Database) :
    (∃ receipt, finishCopy host restore db (committedFile (F := F) host restore source) =
      .ok receipt) ↔ Passes (F := F) host restore source := by
  simp only [finishCopy, bind_eq_ok, reach_eq_ok_iff]
  constructor
  · rintro ⟨receipt, -, hreopen, -, hsync, -, hstat, h⟩
    split at h
    · cases h
    · next hsize =>
      obtain ⟨_, hdigest, -⟩ := bind_eq_ok.mp h
      refine ⟨fun point hpoint ↦ ?_, Nat.le_of_not_lt hsize⟩
      cases point with
      | digest => exact reach_eq_ok_iff.mp hdigest
      | _ => first | assumption | cases hpoint
  · rintro ⟨hreached, hsize⟩
    refine ⟨copyReceipt restore db (committedFile (F := F) host restore source), (),
      hreached _ rfl, (), hreached _ rfl, (), hreached _ rfl, ?_⟩
    rw [if_neg (Nat.not_lt.mpr hsize), bind_eq_ok]
    exact ⟨(), reach_eq_ok_iff.mpr (hreached _ rfl), rfl⟩

/-! ### A failed call -/

variable [FloatText]

/-- Some principal authenticates with the text against the file. -/
def FileAuthenticates (file : F) (plaintext : Text) : Prop :=
  ∃ c, DatabaseFile.content file = .ok c ∧ Authenticates c.db plaintext

/-- What a call may leave at its destination: no file, the file that was there, or one without
credentials; and no new file in which a key authenticates. -/
structure LeavesNothing (files : Files F) (destination : Text)
    (run : Except PyError CopyReceipt × Files F) : Prop where
  residue : run.2.get? destination = none ∨
    (∃ file, files.get? destination = some file ∧ run.2.get? destination = some file) ∨
    ∃ file, run.2.get? destination = some file ∧ HoldsNoCredentials file
  closed : files.get? destination = none → ∀ file plaintext,
    run.2.get? destination = some file → ¬FileAuthenticates file plaintext

private theorem not_fileAuthenticates {file : F} (h : HoldsNoCredentials file) (plaintext : Text) :
    ¬FileAuthenticates file plaintext := by
  rintro ⟨c, hc, host, principal, hauth⟩
  obtain ⟨keyId, row, -, -, hrow, -⟩ := accepts_of_authenticate hauth
  have hmem := (Dict.get?_eq_some_iff _ _ _).mp hrow
  rw [(h c hc).2.2] at hmem
  cases hmem

private theorem leavesNothing_of_same {files : Files F} {destination : Text}
    {run : Except PyError CopyReceipt × Files F}
    (h : run.2.get? destination = files.get? destination) : LeavesNothing files destination run where
  residue := by
    cases hfile : files.get? destination with
    | none => exact .inl (h.trans hfile)
    | some file => exact .inr (.inl ⟨file, rfl, h.trans hfile⟩)
  closed hnone file plaintext hfile := by
    rw [h, hnone] at hfile
    cases hfile

private theorem leavesNothing_insert {files : Files F} {destination : Text} {file : F}
    (h : HoldsNoCredentials file) (result : Except PyError CopyReceipt) :
    LeavesNothing files destination (result, files.insert destination file) := by
  have hget : (files.insert destination file).get? destination = some file := by
    rw [Dict.get?_insert, if_pos rfl]
  refine ⟨.inr (.inr ⟨file, hget, h⟩), fun _ file' plaintext hfile ↦ ?_⟩
  rw [hget] at hfile
  cases hfile
  exact not_fileAuthenticates h plaintext

/-- A call that raises leaves no credentials behind exactly when it does not come to its commit,
has no row to copy, or the committed file passes its checks (and then nothing is raised). -/
theorem failed_copy_leaves_nothing_iff (host : RecoveryHost) (files : Files F)
    (source destination : Text) (expected : Option Text) :
    (∀ e, (copyCredentials host files source destination expected).1 = .error e →
        LeavesNothing files destination (copyCredentials host files source destination expected)) ↔
      ∀ c, openSource host files source destination expected = .ok c →
        files.get? destination = none → Commits host c.db →
        NoCredentials c.db ∨ Passes (F := F) host expected.isSome c.db := by
  cases hopen : openSource host files source destination expected with
  | error e =>
    refine ⟨fun _ c hc ↦ (by cases hc), fun _ _ _ ↦ ?_⟩
    rw [copyCredentials, hopen]
    exact leavesNothing_of_same rfl
  | ok c =>
    rw [copyCredentials, hopen]
    dsimp only
    split
    · next hthere =>
      refine ⟨fun _ c hc hnone ↦ ?_, fun _ _ _ ↦ leavesNothing_of_same rfl⟩
      rw [hnone] at hthere
      cases hthere
    · next hnew =>
      rw [Option.not_isSome_iff_eq_none] at hnew
      by_cases hcommits : Commits host c.db
      · have hget := Dict.get?_insert files destination destination
          (committedFile (F := F) host expected.isSome c.db)
        rw [if_pos rfl] at hget
        have hcredentials :=
          holdsNoCredentials_committedFile_iff (F := F) host expected.isSome c.db
        rw [fillDestination_of_commits hcommits]
        constructor
        · rintro h c' ⟨⟩ - -
          by_contra hnot
          rw [not_or, ← finishCopy_isOk_iff (writtenContent host expected.isSome c.db).db,
            not_exists] at hnot
          cases hfinish : finishCopy host expected.isSome
              (writtenContent host expected.isSome c.db).db
              (committedFile (F := F) host expected.isSome c.db) with
          | ok receipt => exact hnot.2 receipt hfinish
          | error e =>
            obtain hnone | ⟨file, hfile, -⟩ | ⟨file, hfile, hholds⟩ := (h e hfinish).residue
            · rw [hget] at hnone
              cases hnone
            · rw [hnew] at hfile
              cases hfile
            · rw [hget] at hfile
              cases hfile
              exact hnot.1 (hcredentials.mp hholds)
        · intro h e he
          obtain hnone | hpasses := h c rfl hnew hcommits
          · exact leavesNothing_insert (hcredentials.mpr hnone) _
          · obtain ⟨receipt, hok⟩ := (finishCopy_isOk_iff _).mpr hpasses
            rw [hok] at he
            cases he
      · refine ⟨fun _ c' hc' _ h ↦ ?_, fun _ _ _ ↦ ?_⟩
        · cases hc'
          exact absurd h hcommits
        · obtain ⟨e, h | ⟨n, h⟩⟩ := fillDestination_of_not_commits (F := F) hcommits files destination
            expected.isSome
          · rw [h]
            exact leavesNothing_of_same rfl
          · rw [h]
            exact leavesNothing_insert (holdsNoCredentials_schema n) _

end Copy

/-! ### A backup that outgrows its bound -/

section Sample

attribute [local instance] Digest.rolling FloatText.fraction SqliteReal.fraction plainFile

/-- A live database with one key and `n` further organizations. -/
def crowded (n : Nat) : Database :=
  { (after oneKey).db with
    organizations := (after oneKey).db.organizations ++ (List.range n).map decimal }

/-- The host's files, with that database at `/live`. -/
def crowdedFiles (n : Nat) : Files Content := Dict.ofList [("/live", ⟨crowded n, none⟩)]

private theorem commits_crowded (n : Nat) : Commits plainHost (crowded n) where
  reached _ _ := rfl
  related := by
    have horganization : (after oneKey).db.organizations = [Text.ofString "acme"] := by
      decide +kernel
    have hprojects : ∀ key ∈ (after oneKey).db.projects.keys, key.1 ∈
        (after oneKey).db.organizations := by decide +kernel
    have hkeys : ∀ row ∈ (after oneKey).db.apiKeys.values, (row.tenant, row.project) ∈
        (after oneKey).db.projects.keys := by decide +kernel
    have hletter : (Text.ofString "acme").all isDigit = false := by decide +kernel
    refine ⟨?_, fun key hkey ↦ List.mem_append_left _ (hprojects key hkey), hkeys⟩
    change ((after oneKey).db.organizations ++ (List.range n).map decimal).Nodup
    rw [horganization, List.singleton_append, List.nodup_cons]
    constructor
    · intro hmem
      obtain ⟨i, -, hi⟩ := List.mem_map.mp hmem
      rw [← hi, all_isDigit_decimal] at hletter
      cases hletter
    · refine List.nodup_range.map fun i j h ↦ ?_
      rw [← decimalValue_decimal i, h, decimalValue_decimal]

private theorem length_le_flatten {A : Type} {xss : List (List A)} (h : ∀ xs ∈ xss, xs ≠ []) :
    xss.length ≤ xss.flatten.length := by
  rw [List.length_flatten]
  induction xss with
  | nil => exact Nat.le_refl 0
  | cons xs xss ih =>
    rw [List.forall_mem_cons] at h
    have hpos := List.length_pos_iff.mpr h.1
    have hrest := ih h.2
    rw [List.map_cons, List.sum_cons, List.length_cons]
    omega

private theorem lt_size_crowded (n : Nat) :
    n < (DatabaseFile.bytes (committedFile (F := Content) plainHost false (crowded n))).size := by
  have hnonempty : ∀ name ∈ (crowded n).organizations, name ≠ [] := by
    intro name hname
    obtain hname | hname := List.mem_append.mp hname
    · have hold : ∀ name ∈ (after oneKey).db.organizations, name ≠ [] := by decide +kernel
      exact hold name hname
    · obtain ⟨i, -, rfl⟩ := List.mem_map.mp hname
      exact decimal_ne_nil i
  have hlength : (crowded n).organizations.length = n + 1 := by
    change ((after oneKey).db.organizations ++ (List.range n).map decimal).length = _
    rw [List.length_append, List.length_map, List.length_range, Nat.add_comm]
    rfl
  have hflatten := length_le_flatten hnonempty
  change n < ((crowded n).organizations.flatten.map _).toArray.size
  rw [List.size_toArray, List.length_map]
  omega

private theorem new_crowded (n : Nat) : (crowdedFiles n).get? "/backup" = none := rfl

private theorem copyCredentials_crowded (n : Nat) :
    copyCredentials plainHost (crowdedFiles n) "/live" "/backup" none =
      fillDestination plainHost (crowdedFiles n) "/backup" false (crowded n) := rfl

private theorem fileAuthenticates_crowded (n : Nat) :
    FileAuthenticates (committedFile (F := Content) plainHost false (crowded n))
      (keyText false plainMaterial.keyId plainMaterial.tail) := by
  have hlive : ((authenticate steadyHost (keyText false plainMaterial.keyId plainMaterial.tail)
      (after oneKey).db).1.toOption.bind id).isSome = true := by decide +kernel
  obtain ⟨principal, hprincipal⟩ := Option.isSome_iff_exists.mp hlive
  obtain ⟨answer, hanswer, hsome⟩ := Option.bind_eq_some_iff.mp hprincipal
  cases hsome
  obtain ⟨keyId, row, scopes, hkey, hrow, haccepts, -⟩ :=
    accepts_of_authenticate (toOption_eq_some.mp hanswer)
  refine ⟨_, rfl, steadyHost, _, (authenticate_eq_iff rfl).mpr
    ⟨keyId, row, scopes, hkey, ?_, haccepts, rfl⟩⟩
  exact ((copies_copyOf plainHost (crowded n)).apiKeys keyId).trans hrow

/-- More than 64 MiB of organizations: the backup reports a failure and leaves a file against
which the live key authenticates. -/
theorem oversized_backup_keeps_key :
    let run := copyCredentials plainHost (crowdedFiles maxSnapshotBytes) "/live" "/backup" none
    (crowdedFiles maxSnapshotBytes).get? "/backup" = none ∧ (∃ e, run.1 = .error e) ∧
      ∃ file, run.2.get? "/backup" = some file ∧
        FileAuthenticates file (keyText false plainMaterial.keyId plainMaterial.tail) := by
  intro run
  have hrun := copyCredentials_crowded maxSnapshotBytes
  rw [fillDestination_of_commits (commits_crowded maxSnapshotBytes)] at hrun
  rw [show run = _ from hrun]
  refine ⟨new_crowded _, ?_, _, ?_, fileAuthenticates_crowded maxSnapshotBytes⟩
  · cases hfinish : finishCopy plainHost false
        (writtenContent plainHost false (crowded maxSnapshotBytes)).db
        (committedFile (F := Content) plainHost false (crowded maxSnapshotBytes)) with
    | error e => exact ⟨e, rfl⟩
    | ok receipt =>
      have hpasses := (finishCopy_isOk_iff _).mp ⟨receipt, hfinish⟩
      exact absurd hpasses.bounded (Nat.not_le.mpr (lt_size_crowded maxSnapshotBytes))
  · rw [Dict.get?_insert, if_pos rfl]

end Sample

end C3RSpec.ApiAccess
