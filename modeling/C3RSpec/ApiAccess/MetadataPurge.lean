import C3RSpec.ApiAccess.CredentialHistory
import C3RSpec.ApiAccess.PgAccess
import C3RSpec.Base.Loop

/-!
# Purging metadata

`c3r/api_access.py:209–231` and `c3r/pg_access.py:240–261`. Both stores delete from two tables a
batch of the rows of one project that are older than the cutoff. They choose the batch differently
and read the timestamps of usage records differently; what a batch leaves, and that repeating it
ends, is the same argument. Purges do what they are for where the engine reads every timestamp of
the project on the side of the cutoff where it is.
-/

namespace C3RSpec.ApiAccess

open Base

/-- The timestamp of a record, where it has a number for one, is before the cutoff. -/
def isPast (cutoff : ℚ) (metadata : Json) : Bool :=
  match metadata.get? "timestamp" with
  | some (.float x) => x.lt (.fin cutoff)
  | some (.int n) => decide ((n : ℚ) < cutoff)
  | _ => false

/-- Records that `record_usage` wrote are as old as the clock said. -/
theorem isPast_usageMetadata (cutoff now : ℚ) (principal : Principal) (requestId : Text)
    (usage : Usage) :
    isPast cutoff (usageMetadata now principal requestId usage) = decide (now < cutoff) := rfl

/-- A usage record that a purge may delete. -/
def isExpiredRecord (older : Json → Bool) (tenant project : Text) (r : UsageRecord) : Bool :=
  decide (r.tenant = tenant) && decide (r.project = project) && older r.metadata

/-- An audit event that a purge may delete. -/
def isExpiredEvent (tenant project : Text) (cutoff : ℚ) (e : AuditEvent) : Bool :=
  decide (e.tenant = tenant) && decide (e.project = project) && decide (e.time < cutoff)

/-- One purge: a batch of the expired rows of each table, with their numbers in the report. -/
structure Purged (older : Json → Bool) (tenant project : Text) (cutoff : ℚ) (limit : Nat)
    (report : PurgeReport) (records records' : List UsageRecord)
    (events events' : List AuditEvent) : Prop where
  usage : Batch (isExpiredRecord older tenant project) limit records records'
  audit : Batch (isExpiredEvent tenant project cutoff) limit events events'
  usageDeleted : report.usageDeleted = records.length - records'.length
  auditDeleted : report.auditDeleted = events.length - events'.length
  usageBounded : report.usageDeleted ≤ limit
  auditBounded : report.auditDeleted ≤ limit

/-- Rows that the condition does not tell from another are purged alike. -/
theorem Purged.congr {older older' : Json → Bool} {tenant project : Text} {cutoff : ℚ} {limit : Nat}
    {report : PurgeReport} {records records' : List UsageRecord} {events events' : List AuditEvent}
    (h : Purged older tenant project cutoff limit report records records' events events')
    (heq : ∀ r ∈ records, isExpiredRecord older tenant project r =
      isExpiredRecord older' tenant project r) :
    Purged older' tenant project cutoff limit report records records' events events' :=
  { h with usage := h.usage.congr heq }

/-- The arguments that `purge_metadata` accepts. -/
structure PurgeAccepted (tenant project : Text) (retentionSeconds limit : Int) : Prop where
  tenant : identifier tenant = .ok ()
  project : identifier project = .ok ()
  bounds : (60 ≤ retentionSeconds ∧ retentionSeconds ≤ 30 * 86400) ∧ 1 ≤ limit ∧ limit ≤ 10000

theorem PurgeAccepted.toNat_pos {tenant project : Text} {retentionSeconds limit : Int}
    (h : PurgeAccepted tenant project retentionSeconds limit) : 0 < limit.toNat := by
  have hbounds := h.bounds.2.1
  omega

/-! ### Repeating -/

section Repeat

variable {S : Type}

/-- Purges, until one deletes nothing from either table. -/
def purgeUntilEmpty (purge : Nat → S → Option (Except PyError PurgeReport × S)) :
    Nat → Nat → S → Option (List PurgeReport × S)
  | 0, _, _ => none
  | fuel + 1, i, s =>
    match purge i s with
    | some (.ok report, s') =>
      if report.usageDeleted = 0 ∧ report.auditDeleted = 0 then some ([report], s')
      else (purgeUntilEmpty purge fuel (i + 1) s').map fun r ↦ (report :: r.1, r.2)
    | _ => none

/-- The number of purges that `n` expired rows in a table can need. -/
def purgesNeeded (n limit : Nat) : Nat := (n + limit - 1) / limit + 1

/-- What purges with one cutoff are for: one raises and changes nothing, or deletes a batch of the
rows whose timestamp is past; repeated, they end in time and leave every row but those. -/
structure PurgesExpired (purge : Nat → S → Option (Except PyError PurgeReport × S))
    (usage : S → List UsageRecord) (audit : S → List AuditEvent) (Same : S → S → Prop)
    (tenant project : Text) (cutoff : ℚ) (limit : Nat) (s : S) : Prop where
  single : ∀ i result s', purge i s = some (result, s') →
    (∃ e, result = .error e ∧ usage s' = usage s ∧ audit s' = audit s ∧ Same s s') ∨
    ∃ report, result = .ok report ∧ Purged (isPast cutoff) tenant project cutoff limit report
      (usage s) (usage s') (audit s) (audit s') ∧ Same s s'
  repeated : ∃ reports s', purgeUntilEmpty purge (purgesNeeded (max
      ((usage s).countP (isExpiredRecord (isPast cutoff) tenant project))
      ((audit s).countP (isExpiredEvent tenant project cutoff))) limit) 0 s = some (reports, s') ∧
    usage s' = (usage s).filter (fun r ↦ !isExpiredRecord (isPast cutoff) tenant project r) ∧
    audit s' = (audit s).filter (fun e ↦ !isExpiredEvent tenant project cutoff e) ∧ Same s s'

/-- A purge of stores of type `S` that never raises on a ready store and leaves it ready. -/
structure Purges (purge : Nat → S → Option (Except PyError PurgeReport × S))
    (usage : S → List UsageRecord) (audit : S → List AuditEvent) (Ready : S → Prop)
    (Same : S → S → Prop) (older : Json → Bool) (tenant project : Text) (cutoff : ℚ)
    (limit : Nat) : Prop where
  limit_pos : 0 < limit
  trans : ∀ {a b c}, Same a b → Same b c → Same a c
  step : ∀ i s, Ready s → ∃ report s', purge i s = some (.ok report, s') ∧
    Purged older tenant project cutoff limit report (usage s) (usage s') (audit s) (audit s') ∧
    Ready s' ∧ Same s s'

variable {purge : Nat → S → Option (Except PyError PurgeReport × S)} {usage : S → List UsageRecord}
  {audit : S → List AuditEvent} {Ready : S → Prop} {Same : S → S → Prop} {older : Json → Bool}
  {tenant project : Text} {cutoff : ℚ} {limit : Nat}

private theorem filter_of_none {A : Type} {p : A → Bool} {n : Nat} {rows rows' : List A}
    (h : Batch p n rows rows') (hnone : rows.countP p = 0) :
    rows' = rows.filter fun a ↦ !p a := by
  rw [← h.others]
  symm
  apply List.filter_eq_self.mpr
  intro a ha
  have hp := List.countP_eq_zero.mp hnone a (h.sublist.subset ha)
  simpa using hp

private theorem countP_of_deleted {A : Type} {p : A → Bool} {n deleted : Nat} {rows rows' : List A}
    (h : Batch p n rows rows') (hdeleted : deleted = rows.length - rows'.length) (hn : 0 < n) :
    deleted = 0 ↔ rows.countP p = 0 := by
  rw [hdeleted, h.length_sub]
  omega

private theorem purgeUntilEmpty_of_le
    (h : Purges purge usage audit Ready Same older tenant project cutoff limit) (k i : Nat) (s : S)
    (hs : Ready s) (husage : (usage s).countP (isExpiredRecord older tenant project) ≤ k * limit)
    (haudit : (audit s).countP (isExpiredEvent tenant project cutoff) ≤ k * limit) :
    ∃ reports s', purgeUntilEmpty purge (k + 1) i s = some (reports, s') ∧
      usage s' = (usage s).filter (fun r ↦ !isExpiredRecord older tenant project r) ∧
      audit s' = (audit s).filter (fun e ↦ !isExpiredEvent tenant project cutoff e) ∧
      Same s s' := by
  have hlimit := h.limit_pos
  induction k generalizing i s with
  | zero =>
    obtain ⟨report, s', hpurge, hpurged, -, hsame⟩ := h.step i s hs
    have husage : (usage s).countP (isExpiredRecord older tenant project) = 0 := by omega
    have haudit : (audit s).countP (isExpiredEvent tenant project cutoff) = 0 := by omega
    have hzero : report.usageDeleted = 0 ∧ report.auditDeleted = 0 :=
      ⟨(countP_of_deleted hpurged.usage hpurged.usageDeleted hlimit).mpr husage,
        (countP_of_deleted hpurged.audit hpurged.auditDeleted hlimit).mpr haudit⟩
    refine ⟨[report], s', ?_, filter_of_none hpurged.usage husage,
      filter_of_none hpurged.audit haudit, hsame⟩
    rw [purgeUntilEmpty, hpurge]
    exact if_pos hzero
  | succ k ih =>
    obtain ⟨report, s', hpurge, hpurged, hready, hsame⟩ := h.step i s hs
    by_cases hzero : report.usageDeleted = 0 ∧ report.auditDeleted = 0
    · have husage := (countP_of_deleted hpurged.usage hpurged.usageDeleted hlimit).mp hzero.1
      have haudit := (countP_of_deleted hpurged.audit hpurged.auditDeleted hlimit).mp hzero.2
      refine ⟨[report], s', ?_, filter_of_none hpurged.usage husage,
        filter_of_none hpurged.audit haudit, hsame⟩
      rw [purgeUntilEmpty, hpurge]
      exact if_pos hzero
    · have hless : (k + 1) * limit - limit = k * limit := by
        rw [Nat.add_one_mul, Nat.add_sub_cancel]
      obtain ⟨reports, s'', hrest, hrecords, hevents, hsame'⟩ := ih (i + 1) s' hready
        (by rw [hpurged.usage.left]; omega) (by rw [hpurged.audit.left]; omega)
      refine ⟨report :: reports, s'', ?_, ?_, ?_, h.trans hsame hsame'⟩
      · rw [purgeUntilEmpty, hpurge]
        simp only [if_neg hzero, hrest, Option.map_some]
      · rw [hrecords, hpurged.usage.others]
      · rw [hevents, hpurged.audit.others]

private theorem le_purgesNeeded (n : Nat) {limit : Nat} (hlimit : 0 < limit) :
    n ≤ (n + limit - 1) / limit * limit := by
  have hdiv := Nat.div_add_mod (n + limit - 1) limit
  have hmod := Nat.mod_lt (n + limit - 1) hlimit
  rw [Nat.mul_comm]
  omega

/-- One purge for each batch of the expired rows and one more are enough, and nothing expired is
left. -/
theorem purgeUntilEmpty_eq
    (h : Purges purge usage audit Ready Same older tenant project cutoff limit) (s : S)
    (hs : Ready s) :
    ∃ reports s', purgeUntilEmpty purge (purgesNeeded (max
        ((usage s).countP (isExpiredRecord older tenant project))
        ((audit s).countP (isExpiredEvent tenant project cutoff))) limit) 0 s = some (reports, s') ∧
      usage s' = (usage s).filter (fun r ↦ !isExpiredRecord older tenant project r) ∧
      audit s' = (audit s).filter (fun e ↦ !isExpiredEvent tenant project cutoff e) ∧
      Same s s' := by
  apply purgeUntilEmpty_of_le h _ 0 s hs
  · exact (le_max_left _ _).trans (le_purgesNeeded _ h.limit_pos)
  · exact (le_max_right _ _).trans (le_purgesNeeded _ h.limit_pos)

private theorem purgeUntilEmpty_unique {n m i : Nat} {s : S} {r r' : List PurgeReport × S}
    (h : purgeUntilEmpty purge n i s = some r) (h' : purgeUntilEmpty purge m i s = some r') :
    r = r' := by
  induction n generalizing m i s r r' with
  | zero => cases h
  | succ n ih =>
    cases m with
    | zero => cases h'
    | succ m =>
      rw [purgeUntilEmpty] at h h'
      cases hpurge : purge i s with
      | none =>
        rw [hpurge] at h
        cases h
      | some x =>
        obtain ⟨result, s'⟩ := x
        rw [hpurge] at h h'
        cases result with
        | error e => cases h
        | ok report =>
          dsimp only at h h'
          split at h
          · next hzero =>
            rw [if_pos hzero] at h'
            exact Option.some.inj (h.symm.trans h')
          · next hzero =>
            rw [if_neg hzero] at h'
            obtain ⟨a, ha, rfl⟩ := Option.map_eq_some_iff.mp h
            obtain ⟨b, hb, rfl⟩ := Option.map_eq_some_iff.mp h'
            rw [ih ha hb]

private theorem exists_purge_of_untilEmpty {n i : Nat} {s : S} {r : List PurgeReport × S}
    (h : purgeUntilEmpty purge n i s = some r) :
    ∃ report s', purge i s = some (.ok report, s') := by
  cases n with
  | zero => cases h
  | succ n =>
    rw [purgeUntilEmpty] at h
    cases hpurge : purge i s with
    | none =>
      rw [hpurge] at h
      cases h
    | some x =>
      obtain ⟨result, s'⟩ := x
      cases result with
      | error e =>
        rw [hpurge] at h
        cases h
      | ok report => exact ⟨report, s', rfl⟩

private theorem isExpiredRecord_eq (older : Json → Bool) (tenant project : Text) (r : UsageRecord) :
    isExpiredRecord older tenant project r =
      (Pg.isRecordOf tenant project r && older r.metadata) := rfl

/-- Purges of a ready store do what they are for exactly when the condition by which they choose
rows of the project is that the timestamp is past. -/
theorem purgesExpired_iff
    (h : Purges purge usage audit Ready Same older tenant project cutoff limit) {s : S}
    (hs : Ready s) : PurgesExpired purge usage audit Same tenant project cutoff limit s ↔
      ∀ r ∈ usage s, Pg.isRecordOf tenant project r = true →
        older r.metadata = isPast cutoff r.metadata := by
  obtain ⟨reports, s', hrun, husage, haudit, hsame⟩ := purgeUntilEmpty_eq h s hs
  constructor
  · intro hexpired r hr hof
    obtain ⟨reports', s'', hrun', husage', -, -⟩ := hexpired.repeated
    have hleft := congrArg (fun x ↦ r ∈ usage x.2) (purgeUntilEmpty_unique hrun hrun')
    dsimp only at hleft
    rw [husage, husage', List.mem_filter, List.mem_filter, isExpiredRecord_eq, isExpiredRecord_eq,
      hof, Bool.true_and, Bool.true_and] at hleft
    have hnot : (!older r.metadata) = !isPast cutoff r.metadata :=
      Bool.eq_iff_iff.mpr ⟨fun hold ↦ (hleft.mp ⟨hr, hold⟩).2, fun hpast ↦ (hleft.mpr ⟨hr, hpast⟩).2⟩
    rw [← Bool.not_not (older r.metadata), hnot, Bool.not_not]
  · intro hagree
    have heq : ∀ r ∈ usage s, isExpiredRecord older tenant project r =
        isExpiredRecord (isPast cutoff) tenant project r := fun r hr ↦ by
      rw [isExpiredRecord_eq, isExpiredRecord_eq]
      cases hof : Pg.isRecordOf tenant project r with
      | false => rfl
      | true => rw [hagree r hr hof]
    refine ⟨fun i result t ht ↦ .inr ?_, reports, s', ?_, ?_, haudit, hsame⟩
    · obtain ⟨report, t', hpurge, hpurged, -, hsame⟩ := h.step i s hs
      obtain ⟨rfl, rfl⟩ := Prod.mk.inj (Option.some.inj (hpurge.symm.trans ht))
      exact ⟨report, rfl, hpurged.congr heq, hsame⟩
    · have hcount : (usage s).countP (isExpiredRecord older tenant project) =
          (usage s).countP (isExpiredRecord (isPast cutoff) tenant project) :=
        List.countP_congr fun r hr ↦ by rw [heq r hr]
      rw [← hcount]
      exact hrun
    · rw [husage, List.filter_congr fun r hr ↦ congrArg (!·) (heq r hr)]

end Repeat

/-! ### SQLite -/

section Sqlite

/-- Other tables than the two that are purged. -/
def SameTables (db db' : Database) : Prop :=
  db' = { db with usageRecords := db'.usageRecords, auditEvents := db'.auditEvents }

theorem SameTables.trans {a b c : Database} (h : SameTables a b) (h' : SameTables b c) :
    SameTables a c := by
  rw [SameTables] at h h' ⊢
  rw [h', h]

variable [FloatText] [SqliteReal] {tenant project : Text} {retentionSeconds limit : Int}

/-- The statements. -/
private theorem deleteMetadata_eq (tenant project : Text) (cutoff : ℚ) (n : Nat) (db : Database) :
    ∃ report db', deleteMetadata tenant project cutoff n db = .ok (report, db') ∧
      Purged (isOlder cutoff) tenant project cutoff n report db.usageRecords db'.usageRecords
        db.auditEvents db'.auditEvents ∧ SameTables db db' := by
  have husage := batch_deleteFirst (isExpiredRecord (isOlder cutoff) tenant project) n
    db.usageRecords
  have haudit := batch_deleteFirst (isExpiredEvent tenant project cutoff) n db.auditEvents
  refine ⟨_, _, rfl, ⟨husage, haudit, rfl, rfl, ?_, ?_⟩, rfl⟩
  · exact husage.length_sub.trans_le (min_le_left _ _)
  · exact haudit.length_sub.trans_le (min_le_left _ _)

/-- A purge that raises changes nothing, and refused arguments raise. -/
private theorem purgeMetadata_error (host : Host) (db : Database) :
    (∀ e db', purgeMetadata host tenant project retentionSeconds limit db = (.error e, db') →
      db' = db) ∧
    (¬ PurgeAccepted tenant project retentionSeconds limit →
      ∃ e, purgeMetadata host tenant project retentionSeconds limit db = (.error e, db)) := by
  unfold purgeMetadata checked
  cases htenant : identifier tenant with
  | error e => exact ⟨fun _ _ h ↦ (Prod.mk.inj h).2.symm, fun _ ↦ ⟨e, rfl⟩⟩
  | ok _ =>
    cases hproject : identifier project with
    | error e => exact ⟨fun _ _ h ↦ (Prod.mk.inj h).2.symm, fun _ ↦ ⟨e, rfl⟩⟩
    | ok _ =>
      dsimp only
      split
      · next hbounds =>
        refine ⟨fun e db' h ↦ ?_, fun hrefused ↦ absurd ⟨htenant, hproject, hbounds⟩ hrefused⟩
        obtain ⟨_, hc⟩ | ⟨_, _, -, -, hc⟩ := connect_cases host
          (deleteMetadata tenant project (host.clock 0 - retentionSeconds) limit.toNat) db
        · rw [hc] at h
          exact (Prod.mk.inj h).2.symm
        · rw [hc] at h
          cases (Prod.mk.inj h).1
      · exact ⟨fun _ _ h ↦ (Prod.mk.inj h).2.symm, fun _ ↦ ⟨_, rfl⟩⟩

/-- Accepted arguments are purged, unless the host fails. -/
theorem purgeMetadata_of_accepted {host : Host}
    (h : PurgeAccepted tenant project retentionSeconds limit) (hfault : host.fault = none)
    (db : Database) : ∃ report db',
      purgeMetadata host tenant project retentionSeconds limit db = (.ok report, db') ∧
      Purged (isOlder (host.clock 0 - retentionSeconds)) tenant project
        (host.clock 0 - retentionSeconds) limit.toNat report db.usageRecords db'.usageRecords
        db.auditEvents db'.auditEvents ∧ SameTables db db' := by
  obtain ⟨report, db', hbody, hpurged, hsame⟩ :=
    deleteMetadata_eq tenant project (host.clock 0 - retentionSeconds) limit.toNat db
  refine ⟨report, db', ?_, hpurged, hsame⟩
  unfold purgeMetadata checked
  rw [h.tenant, h.project]
  simp only [if_pos h.bounds, connect, hbody, hfault]

/-- Where nothing fails, purges do what they are for exactly when SQLite reads the timestamps of the
project on the right side of the cutoff. -/
private theorem purgesExpired_sqlite_iff {hosts : Nat → Host} {cutoff : ℚ}
    (h : PurgeAccepted tenant project retentionSeconds limit)
    (hhosts : ∀ i, (hosts i).fault = none ∧ (hosts i).clock 0 - retentionSeconds = cutoff)
    (db : Database) :
    PurgesExpired (fun i db ↦ some (purgeMetadata (hosts i) tenant project retentionSeconds limit db))
        Database.usageRecords Database.auditEvents SameTables tenant project cutoff limit.toNat db ↔
      ∀ r ∈ db.usageRecords, Pg.isRecordOf tenant project r = true →
        isOlder cutoff r.metadata = isPast cutoff r.metadata := by
  have hpurges : Purges
      (fun i db ↦ some (purgeMetadata (hosts i) tenant project retentionSeconds limit db))
      Database.usageRecords Database.auditEvents (fun _ ↦ True) SameTables (isOlder cutoff) tenant
      project cutoff limit.toNat := by
    refine ⟨h.toNat_pos, SameTables.trans, fun i db _ ↦ ?_⟩
    obtain ⟨report, db', hpurge, hpurged, hsame⟩ := purgeMetadata_of_accepted h (hhosts i).1 db
    rw [(hhosts i).2] at hpurged
    exact ⟨report, db', congrArg some hpurge, hpurged, trivial, hsame⟩
  exact purgesExpired_iff hpurges trivial

end Sqlite

/-! ### PostgreSQL -/

section Postgres

open Pg

variable {casts : PgCasts} {collation : Collation} {tenant project : Text}
  {retentionSeconds limit : Int}

/-- The timestamp that the server reads is before the cutoff. -/
def isOlderPg (casts : PgCasts) (cutoff : ℚ) (metadata : Json) : Bool :=
  match timestampOf casts metadata with
  | .ok timestamp => isBefore cutoff timestamp
  | .error _ => false

/-- `request_id text PRIMARY KEY`. -/
def HasKeys (db : PgDatabase) : Prop := (db.usageRecords.map UsageRecord.requestId).Nodup

/-- The server can read the timestamps of a project. -/
def CanCast (casts : PgCasts) (tenant project : Text) (records : List UsageRecord) : Prop :=
  ∀ r ∈ records, isRecordOf tenant project r = true →
    ∃ timestamp, timestampOf casts r.metadata = .ok timestamp

/-- Other tables than the two that are purged. -/
def SameTablesPg (db db' : PgDatabase) : Prop :=
  db' = { db with usageRecords := db'.usageRecords, auditEvents := db'.auditEvents }

theorem SameTablesPg.trans {a b c : PgDatabase} (h : SameTablesPg a b) (h' : SameTablesPg b c) :
    SameTablesPg a c := by
  rw [SameTablesPg] at h h' ⊢
  rw [h', h]

/-- The row and its timestamp. -/
private def stamp (casts : PgCasts) (r : UsageRecord) : Except PyError (Text × Option PyFloat) := do
  let timestamp ← timestampOf casts r.metadata
  return (r.requestId, timestamp)

private theorem stamp_eq_ok {r : UsageRecord} {e : Text × Option PyFloat} :
    stamp casts r = .ok e ↔ timestampOf casts r.metadata = .ok e.2 ∧ e.1 = r.requestId := by
  rw [stamp, bind_eq_ok]
  constructor
  · rintro ⟨timestamp, ht, h⟩
    cases h
    exact ⟨ht, rfl⟩
  · rintro ⟨ht, hid⟩
    exact ⟨e.2, ht, by rw [← hid]; rfl⟩

private theorem before_of_stamps {cutoff : ℚ} {rows : List UsageRecord}
    {stamped : List (Text × Option PyFloat)}
    (h : List.Forall₂ (fun r e ↦ stamp casts r = .ok e) rows stamped) :
    (stamped.filter fun e ↦ isBefore cutoff e.2).map Prod.fst =
      (rows.filter fun r ↦ isOlderPg casts cutoff r.metadata).map UsageRecord.requestId := by
  induction h with
  | nil => rfl
  | @cons r e rows stamped hstamp _ ih =>
    obtain ⟨ht, hid⟩ := stamp_eq_ok.mp hstamp
    have hsame : isOlderPg casts cutoff r.metadata = isBefore cutoff e.2 := by rw [isOlderPg, ht]
    rw [List.filter_cons, List.filter_cons, hsame]
    split
    · rw [List.map_cons, List.map_cons, ih, hid]
    · exact ih

private theorem expiredIds_eq_ok {cutoff : ℚ} {rows : List UsageRecord} {ids : List Text} :
    expiredIds casts collation tenant project cutoff rows = .ok ids ↔
      ∃ stamped, List.Forall₂ (fun r e ↦ stamp casts r = .ok e)
        (rows.filter (isRecordOf tenant project)) stamped ∧
        ids = ((stamped.filter fun e ↦ isBefore cutoff e.2).map Prod.fst).insertionSort
          fun a b ↦ collation.le a b = true := by
  rw [expiredIds, bind_eq_ok]
  constructor
  · rintro ⟨stamped, hstamped, h⟩
    exact ⟨stamped, mapM_eq_ok_iff.mp hstamped, (Except.ok.inj h).symm⟩
  · rintro ⟨stamped, hstamped, rfl⟩
    exact ⟨stamped, mapM_eq_ok_iff.mpr hstamped, rfl⟩

private theorem expiredIds_perm {cutoff : ℚ} {rows : List UsageRecord} {ids : List Text}
    (h : expiredIds casts collation tenant project cutoff rows = .ok ids) :
    ids.Perm ((rows.filter (isExpiredRecord (isOlderPg casts cutoff) tenant project)).map
      UsageRecord.requestId) := by
  obtain ⟨stamped, hstamped, rfl⟩ := expiredIds_eq_ok.mp h
  apply (List.perm_insertionSort _ _).trans
  rw [before_of_stamps hstamped, List.filter_filter]
  apply List.Perm.of_eq
  congr 1
  apply List.filter_congr
  intro r _
  rw [isExpiredRecord, isRecordOf, Bool.and_comm]

private theorem exists_expiredIds {rows : List UsageRecord}
    (h : CanCast casts tenant project rows) (collation : Collation) (cutoff : ℚ) :
    ∃ ids, expiredIds casts collation tenant project cutoff rows = .ok ids := by
  obtain ⟨stamped, hstamped⟩ := exists_mapM_ok (f := stamp casts)
    fun r (hr : r ∈ rows.filter (isRecordOf tenant project)) ↦ by
      obtain ⟨timestamp, ht⟩ := h r (List.mem_filter.mp hr).1 (List.mem_filter.mp hr).2
      exact ⟨(r.requestId, timestamp), stamp_eq_ok.mpr ⟨ht, rfl⟩⟩
  exact ⟨_, expiredIds_eq_ok.mpr ⟨stamped, mapM_eq_ok_iff.mp hstamped, rfl⟩⟩

private theorem exists_stamp {r : UsageRecord} {rows : List UsageRecord}
    {stamped : List (Text × Option PyFloat)}
    (h : List.Forall₂ (fun r e ↦ stamp casts r = .ok e) rows stamped) (hr : r ∈ rows) :
    ∃ e, stamp casts r = .ok e := by
  induction h with
  | nil => cases hr
  | @cons _ e _ _ hstamp _ ih =>
    cases hr with
    | head => exact ⟨e, hstamp⟩
    | tail _ hr => exact ih hr

private theorem canCast_of_expiredIds {cutoff : ℚ} {rows : List UsageRecord} {ids : List Text}
    (h : expiredIds casts collation tenant project cutoff rows = .ok ids) :
    CanCast casts tenant project rows := by
  obtain ⟨stamped, hstamped, -⟩ := expiredIds_eq_ok.mp h
  intro r hr hof
  obtain ⟨e, he⟩ := exists_stamp hstamped (List.mem_filter.mpr ⟨hr, hof⟩)
  exact ⟨e.2, (stamp_eq_ok.mp he).1⟩

/-- The statements of `purge_metadata`. -/
private def purgeBody (casts : PgCasts) (collation : Collation) (tenant project : Text) (cutoff : ℚ)
    (limit : Nat) : PgTxn PurgeReport := do
  let usage ← deleteUsage casts collation tenant project cutoff limit
  let audit ← deleteEvents tenant project cutoff limit
  return ⟨usage, audit, cutoff, limit⟩

private theorem purgeBody_eq {cutoff : ℚ} {n : Nat} {db : PgDatabase} :
    purgeBody casts collation tenant project cutoff n db =
      match expiredIds casts collation tenant project cutoff db.usageRecords with
      | .error e => .error e
      | .ok ids =>
        .ok (⟨db.usageRecords.length - (db.usageRecords.filter fun r ↦
              !decide (r.requestId ∈ ids.take n)).length,
            db.auditEvents.length -
              (deleteFirst (isExpiredEvent tenant project cutoff) n db.auditEvents).length,
            cutoff, n⟩,
          { db with
            usageRecords := db.usageRecords.filter fun r ↦ !decide (r.requestId ∈ ids.take n)
            auditEvents := deleteFirst (isExpiredEvent tenant project cutoff) n
              db.auditEvents }) := by
  unfold purgeBody
  cases h : expiredIds casts collation tenant project cutoff db.usageRecords with
  | error e =>
    apply bind_error
    rw [deleteUsage, get_bind, lift_error h]
  | ok ids =>
    have hdelete : deleteUsage casts collation tenant project cutoff n db =
        .ok (db.usageRecords.length - (db.usageRecords.filter fun r ↦
          !decide (r.requestId ∈ ids.take n)).length,
          { db with
            usageRecords := db.usageRecords.filter fun r ↦
              !decide (r.requestId ∈ ids.take n) }) := by
      rw [deleteUsage, get_bind, lift_ok h]
      rfl
    rw [bind_ok hdelete]
    rfl

/-- The statements delete a batch exactly when the server can read the timestamps. -/
private theorem purgeBody_cases (casts : PgCasts) (collation : Collation) (tenant project : Text)
    (cutoff : ℚ) (n : Nat) {db : PgDatabase} (hkeys : HasKeys db) :
    (∃ e, purgeBody casts collation tenant project cutoff n db = .error e ∧
      ¬ CanCast casts tenant project db.usageRecords) ∨
    ∃ report db', purgeBody casts collation tenant project cutoff n db = .ok (report, db') ∧
      CanCast casts tenant project db.usageRecords ∧
      Purged (isOlderPg casts cutoff) tenant project cutoff n report db.usageRecords
        db'.usageRecords db.auditEvents db'.auditEvents ∧ SameTablesPg db db' := by
  rw [purgeBody_eq]
  cases h : expiredIds casts collation tenant project cutoff db.usageRecords with
  | error e =>
    refine .inl ⟨e, rfl, fun hcast ↦ ?_⟩
    obtain ⟨ids, hids⟩ := exists_expiredIds hcast collation cutoff
    rw [h] at hids
    cases hids
  | ok ids =>
    have husage : Batch (isExpiredRecord (isOlderPg casts cutoff) tenant project) n db.usageRecords
        (db.usageRecords.filter fun r ↦ !decide (r.requestId ∈ ids.take n)) :=
      batch_deleteKeys hkeys (expiredIds_perm h) fun r ↦ decide_eq_true_iff
    have haudit := batch_deleteFirst (isExpiredEvent tenant project cutoff) n db.auditEvents
    refine .inr ⟨_, _, rfl, canCast_of_expiredIds h, ⟨husage, haudit, rfl, rfl, ?_, ?_⟩, rfl⟩
    · exact husage.length_sub.trans_le (min_le_left _ _)
    · exact haudit.length_sub.trans_le (min_le_left _ _)

private theorem purgeMetadata_eq (clock : Nat → ℚ) (s : PgStore)
    (h : PurgeAccepted tenant project retentionSeconds limit) :
    Pg.purgeMetadata casts collation clock tenant project retentionSeconds limit s =
      withCursor (purgeBody casts collation tenant project (clock 0 - retentionSeconds)
        limit.toNat) s := by
  unfold Pg.purgeMetadata guarded
  rw [h.tenant, h.project]
  simp only [if_pos h.bounds]
  rfl

/-- Refused arguments leave the store alone. -/
private theorem purgeMetadata_of_refused (casts : PgCasts) (collation : Collation)
    (clock : Nat → ℚ) (s : PgStore) (h : ¬ PurgeAccepted tenant project retentionSeconds limit) : ∃ e,
      Pg.purgeMetadata casts collation clock tenant project retentionSeconds limit s =
        some (.error e, s) := by
  unfold Pg.purgeMetadata guarded
  split
  · exact ⟨_, rfl⟩
  · next htenant =>
    split
    · exact ⟨_, rfl⟩
    · next hproject =>
      split
      · next hbounds => exact absurd ⟨htenant, hproject, hbounds⟩ h
      · exact ⟨_, rfl⟩

@[simp] private theorem db_discard (s : PgStore) : (discard s).db = s.db := rfl

@[simp] private theorem db_release (s : PgStore) : (release s).db = s.db := by
  rw [release]
  split <;> rfl

private theorem db_acquire {s s' : PgStore} (h : acquire s = some s') : s'.db = s.db := by
  unfold acquire at h
  split at h
  · cases h
    rfl
  · split at h
    · cases h
      rfl
    · cases h

/-- A purge that raises changes no table, and refused arguments raise. -/
private theorem purgeMetadata_pg_error (casts : PgCasts) (collation : Collation) (clock : Nat → ℚ)
    {s s' : PgStore} {result : Except PyError PurgeReport}
    (h : Pg.purgeMetadata casts collation clock tenant project retentionSeconds limit s =
      some (result, s')) :
    (∀ e, result = .error e → s'.db = s.db) ∧
    (¬ PurgeAccepted tenant project retentionSeconds limit → ∃ e, result = .error e) := by
  by_cases haccepted : PurgeAccepted tenant project retentionSeconds limit
  · refine ⟨?_, fun hrefused ↦ absurd haccepted hrefused⟩
    rintro e rfl
    rw [purgeMetadata_eq clock s haccepted] at h
    obtain ⟨s₁, hs₁, h⟩ := Option.map_eq_some_iff.mp h
    cases hbody : purgeBody casts collation tenant project (clock 0 - retentionSeconds)
        limit.toNat s₁.db with
    | error e' =>
      rw [hbody] at h
      cases h
      change s₁.db = s.db
      exact db_acquire hs₁
    | ok r =>
      rw [hbody] at h
      cases h
  · obtain ⟨e, he⟩ := purgeMetadata_of_refused casts collation clock s haccepted
    rw [he] at h
    cases h
    exact ⟨fun _ _ ↦ rfl, fun _ ↦ ⟨e, rfl⟩⟩

/-- A store whose next call finds a connection. -/
structure Connects (s : PgStore) : Prop where
  size : 0 < s.size
  connection : (acquire s).isSome = true
  keys : HasKeys s.db

/-- It can also read the timestamps. -/
structure PurgeReady (casts : PgCasts) (tenant project : Text) (s : PgStore) : Prop
    extends Connects s where
  casts : CanCast casts tenant project s.db.usageRecords

private theorem acquire_release {s s' : PgStore} (hsize : 0 < s.size) (h : acquire s = some s')
    (db : PgDatabase) : 0 < (release { s' with db }).size ∧
      (acquire (release { s' with db })).isSome = true := by
  have hs' : s'.size = s.size := by
    unfold acquire at h
    split at h
    · cases h
      rfl
    · split at h
      · cases h
        rfl
      · cases h
  unfold release
  split
  · refine ⟨hs' ▸ hsize, ?_⟩
    rw [acquire, if_pos (Nat.succ_pos _)]
    rfl
  · next hfull =>
    refine ⟨hs' ▸ hsize, ?_⟩
    have hidle : 0 < (discard { s' with db }).idle := by
      change 0 < s'.idle
      change ¬ s'.idle < s'.size at hfull
      omega
    rw [acquire, if_pos hidle]
    rfl

/-- A ready store purges, and is ready again. -/
theorem purgeMetadata_of_ready (casts : PgCasts) (collation : Collation) (clock : Nat → ℚ)
    {s : PgStore} (hs : PurgeReady casts tenant project s)
    (h : PurgeAccepted tenant project retentionSeconds limit) :
    ∃ report s', Pg.purgeMetadata casts collation clock tenant project retentionSeconds limit s =
        some (.ok report, s') ∧
      Purged (isOlderPg casts (clock 0 - retentionSeconds)) tenant project
        (clock 0 - retentionSeconds) limit.toNat report s.db.usageRecords s'.db.usageRecords
        s.db.auditEvents s'.db.auditEvents ∧
      PurgeReady casts tenant project s' ∧ SameTablesPg s.db s'.db := by
  obtain ⟨s₁, hs₁⟩ := Option.isSome_iff_exists.mp hs.connection
  obtain ⟨e, -, hno⟩ | ⟨report, db', hbody, -, hpurged, hsame⟩ :=
    purgeBody_cases casts collation tenant project (clock 0 - retentionSeconds) limit.toNat hs.keys
  · exact absurd hs.casts hno
  · obtain ⟨hsize, hconnection⟩ := acquire_release hs.size hs₁ db'
    refine ⟨report, release { s₁ with db := db' }, ?_, ?_, ⟨⟨hsize, hconnection, ?_⟩, ?_⟩, ?_⟩
    · rw [purgeMetadata_eq clock s h, withCursor, hs₁]
      simp only [Option.map_some, db_acquire hs₁, hbody]
    · rw [db_release]
      exact hpurged
    · rw [db_release]
      exact List.Nodup.sublist (hpurged.usage.sublist.map _) hs.keys
    · rw [db_release]
      exact fun r hr ↦ hs.casts r (hpurged.usage.sublist.subset hr)
    · rw [db_release]
      exact hsame

/-- A purge that returns has read every timestamp of the project. -/
private theorem canCast_of_purge {clock : Nat → ℚ} {s s' : PgStore} {report : PurgeReport}
    (hs : Connects s) (haccepted : PurgeAccepted tenant project retentionSeconds limit)
    (h : Pg.purgeMetadata casts collation clock tenant project retentionSeconds limit s =
      some (.ok report, s')) : CanCast casts tenant project s.db.usageRecords := by
  rw [purgeMetadata_eq clock s haccepted] at h
  obtain ⟨s₁, hs₁, h⟩ := Option.map_eq_some_iff.mp h
  rw [db_acquire hs₁] at h
  obtain ⟨e, hbody, -⟩ | ⟨_, _, -, hcast, -, -⟩ := purgeBody_cases casts collation tenant project
    (clock 0 - retentionSeconds) limit.toNat hs.keys
  · rw [hbody] at h
    cases h
  · exact hcast

/-- On a server that can be reached, purges do what they are for exactly when it can read every
timestamp of the project, on the right side of the cutoff. -/
private theorem purgesExpired_pg_iff {clocks : Nat → Nat → ℚ} {cutoff : ℚ} {s : PgStore}
    (haccepted : PurgeAccepted tenant project retentionSeconds limit)
    (hclocks : ∀ i, clocks i 0 - retentionSeconds = cutoff) (hs : Connects s) :
    PurgesExpired
        (fun i ↦ Pg.purgeMetadata casts collation (clocks i) tenant project retentionSeconds limit)
        (fun s ↦ s.db.usageRecords) (fun s ↦ s.db.auditEvents) (fun s s' ↦ SameTablesPg s.db s'.db)
        tenant project cutoff limit.toNat s ↔
      ∀ r ∈ s.db.usageRecords, isRecordOf tenant project r = true →
        ∃ timestamp, timestampOf casts r.metadata = .ok timestamp ∧
          isBefore cutoff timestamp = isPast cutoff r.metadata := by
  have hpurges : Purges
      (fun i ↦ Pg.purgeMetadata casts collation (clocks i) tenant project retentionSeconds limit)
      (fun s ↦ s.db.usageRecords) (fun s ↦ s.db.auditEvents) (PurgeReady casts tenant project)
      (fun s s' ↦ SameTablesPg s.db s'.db) (isOlderPg casts cutoff) tenant project cutoff
      limit.toNat := by
    refine ⟨haccepted.toNat_pos, SameTablesPg.trans, fun i s hs ↦ ?_⟩
    have hstep := purgeMetadata_of_ready casts collation (clocks i) hs haccepted
    rw [hclocks i] at hstep
    exact hstep
  constructor
  · intro hexpired
    obtain ⟨reports, s', hrun, -⟩ := hexpired.repeated
    obtain ⟨report, s'', hpurge⟩ := exists_purge_of_untilEmpty hrun
    have hcast := canCast_of_purge hs haccepted hpurge
    have hagree := (purgesExpired_iff hpurges ⟨hs, hcast⟩).mp hexpired
    intro r hr hof
    obtain ⟨timestamp, ht⟩ := hcast r hr hof
    have holder := hagree r hr hof
    rw [isOlderPg, ht] at holder
    exact ⟨timestamp, ht, holder⟩
  · intro hread
    have hcast : CanCast casts tenant project s.db.usageRecords := fun r hr hof ↦ by
      obtain ⟨timestamp, ht, -⟩ := hread r hr hof
      exact ⟨timestamp, ht⟩
    refine (purgesExpired_iff hpurges ⟨hs, hcast⟩).mpr fun r hr hof ↦ ?_
    obtain ⟨timestamp, ht, hbefore⟩ := hread r hr hof
    rw [isOlderPg, ht]
    exact hbefore

end Postgres

/-! ### Both stores -/

section Stores

variable [FloatText] [SqliteReal]

/-- A purge of either store that raises changes no table, and refused arguments raise. Accepted ones
delete what they are for, in time and nothing else, exactly when the engine reads the timestamp of
every usage record of the project on the side of the cutoff where it is: SQLite from the text of the
number, PostgreSQL from the whole record as `jsonb`. -/
theorem purges_expired_iff (casts : Pg.PgCasts) (collation : Pg.Collation) (tenant project : Text)
    (retentionSeconds limit : Int) :
    (∀ (host : Host) (db : Database),
      (∀ e db', purgeMetadata host tenant project retentionSeconds limit db = (.error e, db') →
        db' = db) ∧
      (¬ PurgeAccepted tenant project retentionSeconds limit →
        ∃ e, purgeMetadata host tenant project retentionSeconds limit db = (.error e, db))) ∧
    (∀ (hosts : Nat → Host) (cutoff : ℚ) (db : Database),
      PurgeAccepted tenant project retentionSeconds limit →
      (∀ i, (hosts i).fault = none ∧ (hosts i).clock 0 - retentionSeconds = cutoff) →
      (PurgesExpired
          (fun i db ↦ some (purgeMetadata (hosts i) tenant project retentionSeconds limit db))
          Database.usageRecords Database.auditEvents SameTables tenant project cutoff limit.toNat
          db ↔
        ∀ r ∈ db.usageRecords, Pg.isRecordOf tenant project r = true →
          isOlder cutoff r.metadata = isPast cutoff r.metadata)) ∧
    (∀ (clock : Nat → ℚ) (s s' : Pg.PgStore) (result : Except PyError PurgeReport),
      Pg.purgeMetadata casts collation clock tenant project retentionSeconds limit s =
        some (result, s') →
      (∀ e, result = .error e → s'.db = s.db) ∧
      (¬ PurgeAccepted tenant project retentionSeconds limit → ∃ e, result = .error e)) ∧
    (∀ (clocks : Nat → Nat → ℚ) (cutoff : ℚ) (s : Pg.PgStore),
      PurgeAccepted tenant project retentionSeconds limit →
      (∀ i, clocks i 0 - retentionSeconds = cutoff) → Connects s →
      (PurgesExpired
          (fun i ↦ Pg.purgeMetadata casts collation (clocks i) tenant project retentionSeconds limit)
          (fun s ↦ s.db.usageRecords) (fun s ↦ s.db.auditEvents)
          (fun s s' ↦ SameTablesPg s.db s'.db) tenant project cutoff limit.toNat s ↔
        ∀ r ∈ s.db.usageRecords, Pg.isRecordOf tenant project r = true →
          ∃ timestamp, Pg.timestampOf casts r.metadata = .ok timestamp ∧
            Pg.isBefore cutoff timestamp = isPast cutoff r.metadata)) :=
  ⟨purgeMetadata_error, fun _ _ db haccepted hhosts ↦ purgesExpired_sqlite_iff haccepted hhosts db,
    fun clock _ _ _ h ↦ purgeMetadata_pg_error casts collation clock h,
    fun _ _ _ haccepted hclocks hs ↦ purgesExpired_pg_iff haccepted hclocks hs⟩

/-- SQLite is right about a record whose timestamp it reads as it is. -/
theorem isOlder_usageMetadata {now : ℚ} (h : SqliteReal.ofText (FloatText.repr now) = .fin now)
    (cutoff : ℚ) (principal : Principal) (requestId : Text) (usage : Usage) :
    isOlder cutoff (usageMetadata now principal requestId usage) =
      isPast cutoff (usageMetadata now principal requestId usage) := by
  change (SqliteReal.ofText (FloatText.repr now)).lt (.fin cutoff) = _
  rw [h]
  rfl

omit [FloatText] [SqliteReal] in
/-- PostgreSQL is right about a record that it takes as `jsonb`. -/
theorem timestampOf_usageMetadata {casts : Pg.PgCasts} {now : ℚ} {principal : Principal}
    {requestId : Text} {usage : Usage}
    (h : casts.jsonb (usageMetadata now principal requestId usage) = none) :
    Pg.timestampOf casts (usageMetadata now principal requestId usage) =
      .ok (some (.fin now)) := by
  unfold Pg.timestampOf
  rw [h]
  rfl

end Stores

/-! ### Sample purges -/

section Sample

/-- What `record_usage` stores of a request for a model in a project of `t`. -/
def sampleRecord (now : ℚ) (project requestId model : Text) : UsageRecord :=
  ⟨requestId, "t", project, "k", usageMetadata now ⟨"t", project, "k", ∅⟩ requestId
    ⟨"/v1/responses", some model, 200, .fin 1, none, none, none, none, none⟩⟩

/-- Three records of a project and an event that have expired by 940, with another project's and a
later one between them. -/
def agedRecords : List UsageRecord :=
  [sampleRecord 100 "p" "r1" "m", sampleRecord 100 "q" "r2" "m", sampleRecord 200 "p" "r3" "m",
    sampleRecord 990 "p" "r4" "m", sampleRecord 300 "p" "r5" "m"]

/-- An event of each project. -/
def agedEvents : List AuditEvent :=
  [⟨"t", "p", "k", .keyIssued, none, 100⟩, ⟨"t", "q", "k", .keyIssued, none, 100⟩]

/-- `jsonb` takes no escaped NUL in a member. -/
def refusesNul : Pg.PgCasts where
  jsonb
    | .obj members =>
      if members.any fun e ↦ match e.2 with
        | .str t => decide (0 ∈ t)
        | _ => false
      then some (Pg.serverError "unsupported Unicode escape sequence") else none
    | _ => none
  double _ := .error (Pg.serverError "invalid input syntax for type double precision")

private theorem agrees_agedRecords : letI := FloatText.fraction; letI := SqliteReal.fraction
    ∀ r ∈ agedRecords, isOlder 940 r.metadata = isPast 940 r.metadata := by
  let _ := FloatText.fraction
  let _ := SqliteReal.fraction
  intro r hr
  simp only [agedRecords, List.mem_cons, List.not_mem_nil, or_false] at hr
  rcases hr with rfl | rfl | rfl | rfl | rfl
  all_goals exact isOlder_usageMetadata (FloatText.fraction.parse_repr _) ..

private theorem readable_agedRecords : ∀ r ∈ agedRecords, Pg.isRecordOf "t" "p" r = true →
    ∃ timestamp, Pg.timestampOf refusesNul r.metadata = .ok timestamp ∧
      Pg.isBefore 940 timestamp = isPast 940 r.metadata := by
  intro r hr _
  simp only [agedRecords, List.mem_cons, List.not_mem_nil, or_false] at hr
  rcases hr with rfl | rfl | rfl | rfl | rfl
  all_goals exact ⟨_, timestampOf_usageMetadata (by decide +kernel), rfl⟩

/-- Batches of two, of each store: the rows of the other project and the later one are left. -/
theorem purges_expired_iff_aged :
    (∃ reports db', purgeUntilEmpty (fun _ db ↦ some (@purgeMetadata FloatText.fraction
        SqliteReal.fraction ⟨fun _ ↦ 1000, none⟩ "t" "p" 60 2 db)) 3 0
        { Database.empty with usageRecords := agedRecords, auditEvents := agedEvents } =
          some (reports, db') ∧
      db'.usageRecords = [sampleRecord 100 "q" "r2" "m", sampleRecord 990 "p" "r4" "m"] ∧
      db'.auditEvents = [⟨"t", "q", "k", .keyIssued, none, 100⟩]) ∧
    ∃ reports s', purgeUntilEmpty (fun _ ↦ Pg.purgeMetadata refusesNul ⟨fun _ _ ↦ true⟩
        (fun _ ↦ 1000) "t" "p" 60 2) 3 0
        { Pg.connected 8 with
          db := { Pg.PgDatabase.empty with usageRecords := agedRecords, auditEvents := agedEvents } } =
          some (reports, s') ∧
      s'.db.usageRecords = [sampleRecord 100 "q" "r2" "m", sampleRecord 990 "p" "r4" "m"] ∧
      s'.db.auditEvents = [⟨"t", "q", "k", .keyIssued, none, 100⟩] := by
  have haccepted : PurgeAccepted "t" "p" 60 2 := ⟨rfl, rfl, by decide⟩
  have hcount : purgesNeeded (max (agedRecords.countP (isExpiredRecord (isPast 940) "t" "p"))
      (agedEvents.countP (isExpiredEvent "t" "p" 940))) 2 = 3 := by decide +kernel
  have hrecords : (agedRecords.filter fun r ↦ !isExpiredRecord (isPast 940) "t" "p" r) =
      [sampleRecord 100 "q" "r2" "m", sampleRecord 990 "p" "r4" "m"] := by
    rfl
  have hevents : (agedEvents.filter fun e ↦ !isExpiredEvent "t" "p" 940 e) =
      [⟨"t", "q", "k", .keyIssued, none, 100⟩] := by
    rfl
  constructor
  · let _ := FloatText.fraction
    let _ := SqliteReal.fraction
    obtain ⟨reports, db', hrun, husage, haudit, -⟩ :=
      (((purges_expired_iff refusesNul ⟨fun _ _ ↦ true⟩ "t" "p" 60 2).2.1
        (fun _ ↦ ⟨fun _ ↦ 1000, none⟩) 940
        { Database.empty with usageRecords := agedRecords, auditEvents := agedEvents } haccepted
        fun _ ↦ ⟨rfl, by norm_num⟩).mpr fun r hr _ ↦ agrees_agedRecords r hr).repeated
    exact ⟨reports, db', hcount ▸ hrun, husage.trans hrecords, haudit.trans hevents⟩
  · let _ := FloatText.fraction
    let _ := SqliteReal.fraction
    obtain ⟨reports, s', hrun, husage, haudit, -⟩ :=
      (((purges_expired_iff refusesNul ⟨fun _ _ ↦ true⟩ "t" "p" 60 2).2.2.2
        (fun _ _ ↦ 1000) 940
        { Pg.connected 8 with
          db := { Pg.PgDatabase.empty with usageRecords := agedRecords, auditEvents := agedEvents } }
        haccepted (fun _ ↦ by norm_num)
        ⟨by decide, rfl, (by decide +kernel : (agedRecords.map UsageRecord.requestId).Nodup)⟩).mpr
          readable_agedRecords).repeated
    exact ⟨reports, s', hcount ▸ hrun, husage.trans hrecords, haudit.trans hevents⟩

/-- SQLite 3.46 reads `1895596921.095734` as `1895596921.0957341`, the `float` after it. -/
@[reducible] def SqliteReal.misread : SqliteReal where
  ofText t :=
    if FloatText.fraction.parse t = .fin (7950709748539521 / 4194304) then
      .fin (7950709748539522 / 4194304)
    else FloatText.fraction.parse t

private theorem ofText_misread :
    SqliteReal.misread.ofText (FloatText.fraction.repr (7950709748539521 / 4194304)) =
      .fin (7950709748539522 / 4194304) :=
  if_pos (FloatText.fraction.parse_repr _)

/-- SQLite keeps an old record whose timestamp it reads as the cutoff, and a NUL in a record keeps
PostgreSQL from every purge of its project. -/
theorem not_purgesExpired_misread :
    (¬ PurgesExpired (fun _ db ↦ some (@purgeMetadata FloatText.fraction SqliteReal.misread
        ⟨fun _ ↦ 7950709748539522 / 4194304 + 60, none⟩ "t" "p" 60 1 db))
      Database.usageRecords Database.auditEvents SameTables "t" "p" (7950709748539522 / 4194304) 1
      { Database.empty with
        usageRecords := [sampleRecord (7950709748539521 / 4194304) "p" "r1" "m"] }) ∧
    ¬ PurgesExpired (fun _ ↦ Pg.purgeMetadata refusesNul ⟨fun _ _ ↦ true⟩ (fun _ ↦ 1000) "t" "p" 60 1)
      (fun s ↦ s.db.usageRecords) (fun s ↦ s.db.auditEvents) (fun s s' ↦ SameTablesPg s.db s'.db)
      "t" "p" 940 1
      { Pg.connected 8 with
        db := { Pg.PgDatabase.empty with usageRecords := [sampleRecord 100 "p" "r1" [0]] } } := by
  have haccepted : PurgeAccepted "t" "p" 60 1 := ⟨rfl, rfl, by decide⟩
  constructor
  · intro h
    let _ := FloatText.fraction
    let _ := SqliteReal.misread
    have hagree := (purgesExpired_sqlite_iff haccepted (fun _ ↦ ⟨rfl, by norm_num⟩) _).mp h
      _ (List.mem_singleton_self _) rfl
    have hread : isOlder (7950709748539522 / 4194304)
        (sampleRecord (7950709748539521 / 4194304) "p" "r1" "m").metadata = false := by
      change (SqliteReal.misread.ofText (FloatText.fraction.repr _)).lt _ = false
      rw [ofText_misread]
      decide +kernel
    rw [hread] at hagree
    exact absurd hagree (by decide +kernel)
  · intro h
    obtain ⟨_, ht, -⟩ := (purgesExpired_pg_iff haccepted (fun _ ↦ by norm_num)
      ⟨by decide, rfl, by exact List.nodup_singleton _⟩).mp h _ (List.mem_singleton_self _) rfl
    have hrefused : Pg.timestampOf refusesNul (sampleRecord 100 "p" "r1" [0]).metadata =
        .error (Pg.serverError "unsupported Unicode escape sequence") := rfl
    rw [hrefused] at ht
    cases ht

end Sample

end C3RSpec.ApiAccess
