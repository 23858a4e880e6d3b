import C3RSpec.ApiAccess.CredentialRecovery
import C3RSpec.Base.Loop

/-!
# What a restored database grants

A backup holds the credential tables of its source, and a restore holds those of the backup with
every key revoked. Nothing the store does revives a revoked key, so what authenticates in a
restored database was issued in it, and what is issued in it authenticates as in any other.
-/

namespace C3RSpec.ApiAccess

open Base Access

/-! ### Copied tables -/

/-- The credential tables of `source`, in any order of their rows, and nothing else. -/
structure Copies (source db : Database) : Prop where
  organizations : db.organizations.Perm source.organizations
  projects : ∀ k, db.projects.get? k = source.projects.get? k
  apiKeys : ∀ k, db.apiKeys.get? k = source.apiKeys.get? k
  quota : db.quota = ∅
  auditEvents : db.auditEvents = []
  usageRecords : db.usageRecords = []

/-- The tables that a copy writes, each in the order in which the host reads the rows. -/
def copyOf (host : RecoveryHost) (source : Database) : Database :=
  { Database.empty with
    organizations := host.scan.order source.organizations
    projects := Dict.ofList (host.scan.order source.projects.entries)
    apiKeys := Dict.ofList (host.scan.order source.apiKeys.entries) }

/-- The constraints of the schema: organizations are distinct, projects belong to one of them and
keys to a project. -/
structure Related (source : Database) : Prop where
  organizations : source.organizations.Nodup
  projects : ∀ key ∈ source.projects.keys, key.1 ∈ source.organizations
  apiKeys : ∀ row ∈ source.apiKeys.values, (row.tenant, row.project) ∈ source.projects.keys

private theorem nodup_order {K V : Type} (scan : Scan) (d : Dict K V) :
    ((scan.order d.entries).map Prod.fst).Nodup :=
  ((scan.perm d.entries).map Prod.fst).nodup_iff.mpr d.nodup

private theorem entries_ofList_order {K V : Type} [DecidableEq K] (scan : Scan) (d : Dict K V) :
    (Dict.ofList (scan.order d.entries)).entries = scan.order d.entries :=
  Dict.entries_ofList (nodup_order scan d)

theorem copies_copyOf (host : RecoveryHost) (source : Database) :
    Copies source (copyOf host source) where
  organizations := host.scan.perm _
  projects _ := Dict.get?_of_perm (by
    rw [copyOf, entries_ofList_order]
    exact host.scan.perm _) _
  apiKeys _ := Dict.get?_of_perm (by
    rw [copyOf, entries_ofList_order]
    exact host.scan.perm _) _
  quota := rfl
  auditEvents := rfl
  usageRecords := rfl

private theorem insertOrganization_eq_ok {db db' : Database} {id : Text} :
    insertOrganization db id = .ok db' ↔
      id ∉ db.organizations ∧ True ∧
        db' = { db with organizations := db.organizations ++ [id] } := by
  unfold insertOrganization
  split <;> simp_all [eq_comm]

private theorem insertProjectRow_eq_ok {db db' : Database} {row : (Text × Text) × ProjectLimits} :
    insertProjectRow db row = .ok db' ↔
      row.1 ∉ db.projects.keys ∧ row.1.1 ∈ db.organizations ∧
        db' = { db with projects := db.projects.insert row.1 row.2 } := by
  unfold insertProjectRow
  rw [← Dict.get?_isSome_iff]
  split
  · next hheld => simp [hheld]
  · next hnew => split <;> simp_all only [not_false_iff, not_not, true_and, false_and,
      and_false, reduceCtorEq, Except.ok.injEq, eq_comm]

private theorem insertKeyRow_eq_ok {db db' : Database} {row : Text × KeyRow} :
    insertKeyRow db row = .ok db' ↔
      row.1 ∉ db.apiKeys.keys ∧ (row.2.tenant, row.2.project) ∈ db.projects.keys ∧
        db' = { db with apiKeys := db.apiKeys.insert row.1 row.2 } := by
  unfold insertKeyRow
  rw [← Dict.get?_isSome_iff, ← Dict.get?_isSome_iff]
  split
  · next hheld => simp [hheld]
  · next hnew =>
    split
    · next hnone => simp [Option.isNone_iff_eq_none.mp hnone]
    · next hsome =>
      rw [← Option.not_isSome, Bool.not_eq_true', Bool.not_eq_false] at hsome
      simp [hnew, hsome, eq_comm]

private theorem foldlM_insertOrganization {rows : List Text} {db' : Database} :
    rows.foldlM insertOrganization .empty = .ok db' ↔
      rows.Nodup ∧ db' = { Database.empty with organizations := rows } := by
  have hfold : ∀ db : Database,
      rows.foldl (fun db id ↦ { db with organizations := db.organizations ++ [id] }) db =
        { db with organizations := db.organizations ++ rows } := by
    induction rows with
    | nil => simp
    | cons row rows ih => simp [ih]
  rw [foldlM_insert_eq_ok_iff (f := insertOrganization) id Database.organizations
    (fun _ _ ↦ True) (fun db id ↦ { db with organizations := db.organizations ++ [id] })
    (fun _ _ _ ↦ insertOrganization_eq_ok) (fun _ _ _ ↦ rfl) (fun _ _ _ ↦ Iff.rfl) List.nodup_nil,
    hfold, List.map_id]
  simp [Database.empty]

private theorem foldlM_insertProjectRow {rows : List ((Text × Text) × ProjectLimits)}
    {db db' : Database} (hdb : db.projects = ∅) :
    rows.foldlM insertProjectRow db = .ok db' ↔
      (rows.map Prod.fst).Nodup ∧ (∀ row ∈ rows, row.1.1 ∈ db.organizations) ∧
        db' = { db with projects := Dict.ofList rows } := by
  have hfold : ∀ db : Database,
      rows.foldl (fun db row ↦ { db with projects := db.projects.insert row.1 row.2 }) db =
        { db with projects := rows.foldl (fun d e ↦ d.insert e.1 e.2) db.projects } := by
    induction rows with
    | nil => simp
    | cons row rows ih => simp [ih]
  have hkeys : db.projects.keys = [] := by
    rw [hdb]
    rfl
  rw [foldlM_insert_eq_ok_iff Prod.fst (fun db ↦ db.projects.keys)
    (fun db row ↦ row.1.1 ∈ db.organizations)
    (fun db row ↦ { db with projects := db.projects.insert row.1 row.2 })
    (fun _ _ _ ↦ insertProjectRow_eq_ok)
    (fun _ row h ↦ Dict.keys_insert_of_notMem row.2 h) (fun _ _ _ ↦ Iff.rfl)
    (by rw [hkeys]; exact List.nodup_nil), hfold, hkeys, hdb, List.nil_append]
  rfl

private theorem foldlM_insertKeyRow {rows : List (Text × KeyRow)} {db db' : Database}
    (hdb : db.apiKeys = ∅) :
    rows.foldlM insertKeyRow db = .ok db' ↔
      (rows.map Prod.fst).Nodup ∧
        (∀ row ∈ rows, (row.2.tenant, row.2.project) ∈ db.projects.keys) ∧
        db' = { db with apiKeys := Dict.ofList rows } := by
  have hfold : ∀ db : Database,
      rows.foldl (fun db row ↦ { db with apiKeys := db.apiKeys.insert row.1 row.2 }) db =
        { db with apiKeys := rows.foldl (fun d e ↦ d.insert e.1 e.2) db.apiKeys } := by
    induction rows with
    | nil => simp
    | cons row rows ih => simp [ih]
  have hkeys : db.apiKeys.keys = [] := by
    rw [hdb]
    rfl
  rw [foldlM_insert_eq_ok_iff Prod.fst (fun db ↦ db.apiKeys.keys)
    (fun db row ↦ (row.2.tenant, row.2.project) ∈ db.projects.keys)
    (fun db row ↦ { db with apiKeys := db.apiKeys.insert row.1 row.2 })
    (fun _ _ _ ↦ insertKeyRow_eq_ok) (fun _ row h ↦ Dict.keys_insert_of_notMem row.2 h)
    (fun _ _ _ ↦ Iff.rfl) (by rw [hkeys]; exact List.nodup_nil), hfold, hkeys, hdb, List.nil_append]
  rfl

theorem reach_eq_ok_iff {host : RecoveryHost} {point : CopyPoint} {u : Unit} :
    host.reach point = .ok u ↔ host.fault point = none := by
  unfold RecoveryHost.reach
  cases host.fault point <;> simp

/-- The loop over the tables succeeds on related rows when nothing is raised. -/
theorem copyTables_eq_ok_iff {host : RecoveryHost} {source db : Database} :
    copyTables host source .empty = .ok db ↔
      (∀ table, host.fault (.copyTable table) = none) ∧ Related source ∧
        db = copyOf host source := by
  have hmem : ∀ {α : Type} {rows : List α} {x : α}, x ∈ host.scan.order rows ↔ x ∈ rows :=
    fun {_ rows _} ↦ (host.scan.perm rows).mem_iff
  have hkeys : ∀ key, key ∈ (Dict.ofList (host.scan.order source.projects.entries)).keys ↔
      key ∈ source.projects.keys := by
    intro key
    rw [Dict.keys, entries_ofList_order]
    exact ((host.scan.perm _).map Prod.fst).mem_iff
  simp only [copyTables, bind_eq_ok, reach_eq_ok_iff]
  constructor
  · rintro ⟨-, h₁, db₁, ho, -, h₂, db₂, hp, -, h₃, hk⟩
    obtain ⟨hnodup, rfl⟩ := foldlM_insertOrganization.mp ho
    obtain ⟨-, hprojects, rfl⟩ := (foldlM_insertProjectRow rfl).mp hp
    obtain ⟨-, hapiKeys, rfl⟩ := (foldlM_insertKeyRow rfl).mp hk
    refine ⟨fun table ↦ by cases table <;> assumption, ⟨?_, fun key hkey ↦ ?_, fun row hrow ↦ ?_⟩,
      rfl⟩
    · exact (host.scan.perm _).nodup_iff.mp hnodup
    · obtain ⟨entry, hentry, rfl⟩ := List.mem_map.mp hkey
      exact hmem.mp (hprojects entry (hmem.mpr hentry))
    · obtain ⟨entry, hentry, rfl⟩ := List.mem_map.mp hrow
      exact (hkeys _).mp (hapiKeys entry (hmem.mpr hentry))
  · rintro ⟨hfault, hrelated, rfl⟩
    refine ⟨(), hfault _, _, foldlM_insertOrganization.mpr ⟨?_, rfl⟩, (), hfault _, _,
      (foldlM_insertProjectRow rfl).mpr ⟨nodup_order _ _, fun row hrow ↦ ?_, rfl⟩, (), hfault _,
      (foldlM_insertKeyRow rfl).mpr ⟨nodup_order _ _, fun row hrow ↦ ?_, rfl⟩⟩
    · exact (host.scan.perm _).nodup_iff.mpr hrelated.organizations
    · exact hmem.mpr (hrelated.projects _ (List.mem_map_of_mem (hmem.mp hrow)))
    · exact (hkeys _).mpr (hrelated.apiKeys _ (List.mem_map_of_mem (hmem.mp hrow)))

/-- A finished copy holds the three tables. -/
theorem copies_of_copyTables {host : RecoveryHost} {source db : Database}
    (h : copyTables host source .empty = .ok db) : Copies source db := by
  obtain ⟨-, -, rfl⟩ := copyTables_eq_ok_iff.mp h
  exact copies_copyOf host source

/-! ### Two copies -/

private theorem requireSnapshot_eq_ok {c c' : Content} (h : requireSnapshot c = .ok c') :
    c' = c ∧ c.snapshot = some [1] := by
  unfold requireSnapshot at h
  split at h
  · next versions hversions =>
    split at h
    · next hone =>
      cases h
      exact ⟨rfl, hone ▸ hversions⟩
    · cases h
  · cases h

private theorem copyContent_eq_ok {host : RecoveryHost} {restore : Bool} {source : Database}
    {c : Content} (h : copyContent host restore source = .ok c) :
    ∃ db, Copies source db ∧ c = if restore then ⟨revokeAll db, none⟩ else ⟨db, some [1]⟩ := by
  simp only [copyContent, bind_eq_ok] at h
  obtain ⟨-, -, db, hdb, -, -, -, -, h⟩ := h
  generalize hwritten : (if restore then (⟨revokeAll db, none⟩ : Content) else ⟨db, some [1]⟩) =
    written at h
  split at h
  · cases h
  · rw [bind_eq_ok] at h
    obtain ⟨-, -, h⟩ := h
    cases h
    exact ⟨db, copies_of_copyTables hdb, hwritten.symm⟩

section Copy

variable {F : Type} [DatabaseFile F] [Digest]

private theorem content_of_approvedContent {files : Files F} {path : Text} {file : F}
    {expected : Text} {c : Content} (h : approvedContent files path file expected = .ok c) :
    DatabaseFile.content file = .ok c ∧ c.snapshot = some [1] := by
  unfold approvedContent at h
  split at h
  · cases h
  · split at h
    · cases h
    · split at h
      · cases h
      · rw [bind_eq_ok] at h
        obtain ⟨same, -, h⟩ := h
        split at h
        · cases h
        · rw [bind_eq_ok] at h
          obtain ⟨c', hc', h⟩ := h
          obtain ⟨rfl, hone⟩ := requireSnapshot_eq_ok h
          exact ⟨hc', hone⟩

private theorem exists_of_openSource {host : RecoveryHost} {files : Files F}
    {source destination : Text} {expected : Option Text} {c : Content}
    (h : openSource host files source destination expected = .ok c) :
    ∃ file, files.get? source = some file ∧ DatabaseFile.content file = .ok c ∧
      (expected.isSome = true → c.snapshot = some [1]) := by
  simp only [openSource, bind_eq_ok] at h
  obtain ⟨-, -, h⟩ := h
  split at h
  · cases h
  · simp only [credentialSource, bind_eq_ok] at h
    obtain ⟨-, -, h⟩ := h
    split at h
    · cases h
    · next file hfile =>
      split at h
      · cases h
      · split at h
        · cases h
        · split at h
          · exact ⟨file, hfile, h, fun hn ↦ by cases hn⟩
          · obtain ⟨hcontent, hone⟩ := content_of_approvedContent h
            exact ⟨file, hfile, hcontent, fun _ ↦ hone⟩

/-- A finished copy: it read the tables of the source and left a new file with a copy of them. -/
theorem exists_of_copyCredentials {host : RecoveryHost} {files files' : Files F}
    {source destination : Text} {expected : Option Text} {receipt : CopyReceipt}
    (h : copyCredentials host files source destination expected = (.ok receipt, files')) :
    ∃ f c₀ db file, files.get? source = some f ∧ DatabaseFile.content f = .ok c₀ ∧
      Copies c₀.db db ∧ files.get? destination = none ∧
      files' = files.insert destination file ∧
      DatabaseFile.content file = .ok
        (if expected.isSome then ⟨revokeAll db, none⟩ else ⟨db, some [1]⟩) := by
  unfold copyCredentials at h
  split at h
  · cases h
  · next c₀ hopen =>
    obtain ⟨f, hf, hcontent, -⟩ := exists_of_openSource hopen
    split at h
    · cases h
    · next hnew =>
      rw [Option.not_isSome_iff_eq_none] at hnew
      unfold fillDestination at h
      split at h
      · cases h
      · split at h
        · cases h
        · split at h
          · cases h
          · next c hc =>
            obtain ⟨db, hcopies, hdb⟩ := copyContent_eq_ok hc
            rw [Prod.mk.injEq] at h
            obtain ⟨-, rfl⟩ := h
            refine ⟨f, c₀, db, _, hf, hcontent, hcopies, hnew, rfl, ?_⟩
            rw [DatabaseFile.content_commit, hdb]

/-- A file without the snapshot table is no source of a restore. -/
theorem copyCredentials_refuses {files : Files F} {source : Text} {file : F} {db : Database}
    (hfile : files.get? source = some file) (hcontent : DatabaseFile.content file = .ok ⟨db, none⟩)
    (host : RecoveryHost) (destination expected : Text) :
    ∃ e, copyCredentials host files source destination (some expected) = (.error e, files) := by
  unfold copyCredentials
  split
  · next e _ => exact ⟨e, rfl⟩
  · next c hopen =>
    obtain ⟨f, hf, hc, hone⟩ := exists_of_openSource hopen
    rw [hfile] at hf
    cases hf
    rw [hcontent] at hc
    cases hc
    cases hone rfl

end Copy

/-! ### Calls on a restored database -/

section Calls

variable [Digest] [FloatText] [SqliteReal]

/-- The store after calls on a given database. -/
def afterOn (base : Database) (calls : List (Host × Call)) : Store :=
  calls.foldl Store.call ⟨base, []⟩

/-- Keys revoked in `base` stay revoked, and every other key was issued since. -/
structure Descends (base db : Database) (history : List Entry) : Prop where
  stored : Stored db history
  revoked : ∀ keyId row, base.apiKeys.get? keyId = some row → row.revoked = true →
    ∃ row', db.apiKeys.get? keyId = some row' ∧ row'.revoked = true
  known : ∀ keyId row, db.apiKeys.get? keyId = some row →
    (∃ row', base.apiKeys.get? keyId = some row') ∨
      ∃ entry ∈ history, ∃ issue, entry.issue? = some issue ∧ issue.keyId = keyId

omit [SqliteReal] in
/-- No call revives a key. -/
theorem KeyChange.revoked_stays {db db' : Database} {entry : Entry} (hc : KeyChange db db' entry)
    {keyId : Text} {row : KeyRow} (hrow : db.apiKeys.get? keyId = some row)
    (hrevoked : row.revoked = true) :
    ∃ row', db'.apiKeys.get? keyId = some row' ∧ row'.revoked = true := by
  cases hc with
  | none _ _ hsame =>
    have hs := hsame keyId
    rw [hrow] at hs
    obtain ⟨row', hrow', heq⟩ := Option.map_eq_some_iff.mp hs
    have hrev := congrArg KeyRow.revoked heq
    exact ⟨row', hrow', hrev.trans hrevoked⟩
  | issue issue _ _ _ hnew _ _ hget =>
    have hne : issue.keyId ≠ keyId := by
      rintro rfl
      rw [hrow] at hnew
      cases hnew
    exact ⟨row, by rw [hget, if_neg hne]; exact hrow, hrevoked⟩
  | revoke k row' _ _ _ hget =>
    by_cases hk : k = keyId
    · exact ⟨_, by rw [hget, if_pos hk], rfl⟩
    · exact ⟨row, by rw [hget, if_neg hk]; exact hrow, hrevoked⟩

omit [SqliteReal] in
private theorem Descends.step {base db db' : Database} {history : List Entry} {entry : Entry}
    (h : Descends base db history) (hc : KeyChange db db' entry) :
    Descends base db' (history ++ [entry]) where
  stored := h.stored.step hc
  revoked keyId row hrow hrevoked := by
    obtain ⟨row', hrow', hrevoked'⟩ := h.revoked keyId row hrow hrevoked
    exact hc.revoked_stays hrow' hrevoked'
  known keyId row hrow := by
    obtain ⟨row', hrow'⟩ | ⟨issue, hissue, hk⟩ := hc.known hrow
    · obtain hbase | ⟨e, he, hi⟩ := h.known keyId row' hrow'
      · exact .inl hbase
      · exact .inr ⟨e, List.mem_append_left _ he, hi⟩
    · exact .inr ⟨entry, List.mem_append_right _ (List.mem_singleton_self _), issue, hissue, hk⟩

private theorem descends_foldl {base : Database} (calls : List (Host × Call)) (s : Store)
    (h : Descends base s.db s.history) :
    Descends base (calls.foldl Store.call s).db (calls.foldl Store.call s).history := by
  induction calls generalizing s with
  | nil => exact h
  | cons c calls ih => exact ih (s.call c) (h.step (keyChange_perform c.1 s.db c.2))

/-- Every run of calls descends from where it starts. -/
theorem descends_afterOn (base : Database) (calls : List (Host × Call)) :
    Descends base (afterOn base calls).db (afterOn base calls).history := by
  refine descends_foldl calls _ ⟨fun pre entry post issue h ↦ ?_, fun keyId row hrow hr ↦
    ⟨row, hrow, hr⟩, fun keyId row hrow ↦ .inl ⟨row, hrow⟩⟩
  exact absurd h.symm (List.append_ne_nil_of_right_ne_nil _ (List.cons_ne_nil _ _))

/-! ### Backup and restore -/

/-- The credential tables of `source` with every key revoked, and nothing else. -/
structure Restored (source db : Database) : Prop where
  organizations : db.organizations.Perm source.organizations
  projects : ∀ k, db.projects.get? k = source.projects.get? k
  apiKeys : ∀ k, db.apiKeys.get? k =
    (source.apiKeys.get? k).map fun row ↦ { row with revoked := true }
  quota : db.quota = ∅
  auditEvents : db.auditEvents = []
  usageRecords : db.usageRecords = []

omit [Digest] [FloatText] [SqliteReal] in
private theorem restored_of_copies {source middle db : Database} (h : Copies source middle)
    (h' : Copies middle db) : Restored source (revokeAll db) where
  organizations := h'.organizations.trans h.organizations
  projects k := (h'.projects k).trans (h.projects k)
  apiKeys k := by
    change (db.apiKeys.mapEntries fun _ row ↦ { row with revoked := true }).get? k = _
    rw [Dict.get?_mapEntries, h'.apiKeys, h.apiKeys]
  quota := h'.quota
  auditEvents := h'.auditEvents
  usageRecords := h'.usageRecords

/-- Some principal authenticates with the text. -/
def Authenticates (db : Database) (plaintext : Text) : Prop :=
  ∃ host principal, (authenticate host plaintext db).1 = .ok (some principal)

private theorem Restored.issued_since {source db : Database} (h : Restored source db)
    (calls : List (Host × Call)) {plaintext : Text}
    (hauth : Authenticates (afterOn db calls).db plaintext) :
    ∃ keyId, matchKey plaintext = some keyId ∧ source.apiKeys.get? keyId = none ∧
      ∃ entry ∈ (afterOn db calls).history, ∃ issue, entry.issue? = some issue ∧
        issue.keyId = keyId := by
  obtain ⟨host, principal, hauth⟩ := hauth
  obtain ⟨keyId, row, scopes, hkey, hrow, haccepts, -⟩ := accepts_of_authenticate hauth
  have hdescends := descends_afterOn db calls
  have hnew : db.apiKeys.get? keyId = none := by
    rw [Option.eq_none_iff_forall_ne_some]
    intro old hold
    have hrevoked : old.revoked = true := by
      rw [h.apiKeys] at hold
      obtain ⟨_, -, rfl⟩ := Option.map_eq_some_iff.mp hold
      rfl
    obtain ⟨row', hrow', hrevoked'⟩ := hdescends.revoked keyId old hold hrevoked
    rw [hrow] at hrow'
    cases hrow'
    rw [haccepts.live] at hrevoked'
    cases hrevoked'
  refine ⟨keyId, hkey, ?_, ?_⟩
  · rw [h.apiKeys] at hnew
    exact Option.map_eq_none_iff.mp hnew
  · obtain ⟨old, hold⟩ | hissued := hdescends.known keyId row hrow
    · rw [hnew] at hold
      cases hold
    · exact hissued

/-- A backup of any database and a restore of the backup: the credential tables come back with
every key revoked, nothing that existed changes, only keys issued since authenticate, they do so
as in any store, and the restored file is no source of a further restore. -/
theorem backup_restore {F : Type} [DatabaseFile F] {hostB hostR : RecoveryHost}
    {files₀ files₁ files₂ files₃ : Files F} {pathS pathB pathR : Text}
    {backup restore : CopyReceipt} {fileS : F} {S : Content}
    (hS : files₀.get? pathS = some fileS) (hcontent : DatabaseFile.content fileS = .ok S)
    (hbackup : copyCredentials hostB files₀ pathS pathB none = (.ok backup, files₁))
    (hkept : files₂.get? pathB = files₁.get? pathB)
    (hrestore : copyCredentials hostR files₂ pathB pathR (some backup.sha256) =
      (.ok restore, files₃)) :
    ∃ R fileR, files₃.get? pathR = some fileR ∧ DatabaseFile.content fileR = .ok ⟨R, none⟩ ∧
      Restored S.db R ∧
      -- nothing that existed before a copy changes
      (∀ path file, files₀.get? path = some file → files₁.get? path = some file) ∧
      (∀ path file, files₂.get? path = some file → files₃.get? path = some file) ∧
      -- what was issued before does not authenticate, right away or after any calls
      (∀ plaintext, ¬ Authenticates R plaintext) ∧
      (∀ before, S.db = (after before).db → ∀ entry ∈ (after before).history, ∀ issue,
        entry.issue? = some issue → ∀ calls, ¬ Authenticates (afterOn R calls).db issue.secret) ∧
      (∀ calls plaintext, Authenticates (afterOn R calls).db plaintext →
        ∃ keyId, matchKey plaintext = some keyId ∧ S.db.apiKeys.get? keyId = none ∧
          ∃ entry ∈ (afterOn R calls).history, ∃ issue, entry.issue? = some issue ∧
            issue.keyId = keyId) ∧
      -- what is issued since does, until it is revoked or expires
      (∀ calls pre entry post issue (host : Host),
        (afterOn R calls).history = pre ++ entry :: post → entry.issue? = some issue →
        (∀ e ∈ post, e.revoked? ≠ some issue.keyId) → host.fault = none →
        issue.Unexpired (host.clock 0) →
        (authenticate host issue.secret (afterOn R calls).db).1 = .ok (some issue.principal)) ∧
      -- the restored file is refused as a source, also after any use
      ∀ (files : Files F) (file : F) (db : Database), files.get? pathR = some file →
        DatabaseFile.content file = .ok ⟨db, none⟩ →
        ∀ host destination expected, ∃ e,
          copyCredentials host files pathR destination (some expected) = (.error e, files) := by
  obtain ⟨fS, cS, dbB, fileB, hfS, hcS, hcopyB, hnewB, rfl, hfileB⟩ :=
    exists_of_copyCredentials hbackup
  rw [hS] at hfS
  cases hfS
  rw [hcontent] at hcS
  cases hcS
  obtain ⟨fB, cB, dbR, fileR, hfB, hcB, hcopyR, hnewR, rfl, hfileR⟩ :=
    exists_of_copyCredentials hrestore
  rw [hkept, Dict.get?_insert, if_pos rfl] at hfB
  cases hfB
  rw [hfileB] at hcB
  cases hcB
  have hrestored : Restored S.db (revokeAll dbR) := restored_of_copies hcopyB hcopyR
  have hold : ∀ {files : Files F} {destination : Text} {new : F}, files.get? destination = none →
      ∀ path file, files.get? path = some file →
        (files.insert destination new).get? path = some file := by
    intro files destination new hnew path file hfile
    rw [Dict.get?_insert, if_neg]
    · exact hfile
    · rintro rfl
      rw [hnew] at hfile
      cases hfile
  refine ⟨revokeAll dbR, fileR, ?_, hfileR, hrestored, hold hnewB, hold hnewR, ?_, ?_,
    fun calls plaintext ↦ hrestored.issued_since calls, ?_, ?_⟩
  · rw [Dict.get?_insert, if_pos rfl]
  · intro plaintext hauth
    obtain ⟨-, -, -, entry, hentry, -⟩ := hrestored.issued_since [] hauth
    cases hentry
  · intro before hbefore entry hentry issue hissue calls hauth
    obtain ⟨pre, post, hsplit⟩ := List.append_of_mem hentry
    obtain ⟨row, hrow, hholds, -⟩ := (tracks_after before).stored pre entry post issue hsplit hissue
    obtain ⟨keyId, hkey, hnone, -⟩ := hrestored.issued_since calls hauth
    rw [hholds.form] at hkey
    cases hkey
    rw [hbefore, hrow] at hnone
    cases hnone
  · intro calls pre entry post issue host hsplit hissue hnot hfault hexp
    exact (descends_afterOn _ calls).stored.authenticate_eq hsplit hissue hnot hfault hexp
  · intro files file db hfile hcontent host destination expected
    exact copyCredentials_refuses hfile hcontent host destination expected

end Calls

/-! ### One recovered key -/

section Sample

attribute [local instance] Digest.rolling FloatText.fraction SqliteReal.fraction

/-- Files that are the tables they hold; the names of the organizations stand for their bytes. -/
@[reducible] def plainFile : DatabaseFile Content where
  bytes c := ⟨(c.db.organizations.flatten.map fun x ↦ UInt8.ofNat x.val).toArray⟩
  content := .ok
  schema _ := ⟨.empty, none⟩
  content_schema n c h := by
    cases h
    rfl
  commit _ c := c
  content_commit _ _ := rfl

attribute [local instance] plainFile

/-- Every path is in order, and rows come in the order they were written. -/
def plainHost : RecoveryHost where
  validatePath _ := .ok ()
  isResolved _ := true
  isUnlinked _ := true
  isPrivate _ := true
  scan := .written
  fault _ := none

/-- A live database with one key. -/
def liveFiles : Files Content := Dict.ofList [("/live", ⟨(after oneKey).db, none⟩)]

/-- Its backup, and the restore of the backup. -/
def backupRun : Except PyError CopyReceipt × Files Content :=
  copyCredentials plainHost liveFiles "/live" "/backup" none

/-- The hash in the receipt of the backup. -/
def backupHash : Text := (backupRun.1.toOption.map CopyReceipt.sha256).getD []

/-- The restore of the backup under that hash. -/
def restoreRun : Except PyError CopyReceipt × Files Content :=
  copyCredentials plainHost backupRun.2 "/backup" "/restored" (some backupHash)

/-- The key is back and authenticates nobody. -/
theorem backup_restore_oneKey : ∃ R fileR, restoreRun.2.get? "/restored" = some fileR ∧
    DatabaseFile.content fileR = .ok ⟨R, none⟩ ∧ Restored (after oneKey).db R ∧
    (R.apiKeys.get? plainMaterial.keyId).isSome = true ∧ ∀ plaintext, ¬ Authenticates R plaintext := by
  have hkey : ((after oneKey).db.apiKeys.get? plainMaterial.keyId).isSome = true := by
    decide +kernel
  have hbackup : backupRun.1.toOption.isSome = true := by decide +kernel
  have hrestore : restoreRun.1.toOption.isSome = true := by decide +kernel
  obtain ⟨backup, hbackup⟩ := Option.isSome_iff_exists.mp hbackup
  obtain ⟨restore, hrestore⟩ := Option.isSome_iff_exists.mp hrestore
  have hhash : backupHash = backup.sha256 := by
    rw [backupHash, hbackup]
    rfl
  have hrun : copyCredentials plainHost backupRun.2 "/backup" "/restored"
      (some backup.sha256) = (.ok restore, restoreRun.2) := by
    rw [← hhash]
    exact Prod.ext (toOption_eq_some.mp hrestore) rfl
  obtain ⟨R, fileR, hfile, hcontent, hrestored, -, -, hnone, -⟩ :=
    backup_restore (S := ⟨(after oneKey).db, none⟩) rfl rfl
      (Prod.ext (toOption_eq_some.mp hbackup) rfl) rfl hrun
  refine ⟨R, fileR, hfile, hcontent, hrestored, ?_, hnone⟩
  rw [hrestored.apiKeys, Option.isSome_map]
  exact hkey

end Sample

end C3RSpec.ApiAccess
