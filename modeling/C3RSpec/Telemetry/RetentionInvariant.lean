import C3RSpec.Telemetry.StoreLedger

/-!
# The governed store over whole runs

Any sequence of opening, appending, purging, closing and failing, under any clock readings,
leaves a database that shows a sound ledger. Verification, the order of collection, distinct run
ids, the checkpoint and the exactness of a purge follow.
-/

namespace C3RSpec.Telemetry

open Base

/-- What a call with this result does to the ledger. -/
inductive Ledger.Moves (l : Ledger) : Except PyError StoreResult → Ledger → Prop
  | append (row : Row) (h : row.previousHash = l.headHash) :
      Moves l (.ok (.appended ⟨row.previousHash, row.recordHash, row.canonicalJson⟩))
        (PrunedLog.append l row)
  | prune (n : Nat) (hn : n ≤ l.retained.length) {result : Except PyError StoreResult}
      (h : ∀ record, result ≠ .ok (.appended record)) : Moves l result (PrunedLog.prune l n hn)
  | keep {result : Except PyError StoreResult}
      (h : ∀ record, result ≠ .ok (.appended record)) : Moves l result l

section Runs

variable [Digest] [FloatText]

namespace Store

/-- No file yet and no open store. -/
def initial : Store := ⟨Db.fresh, none⟩

/-- The state after one call, whatever it returned. -/
def next (s : Store) (op : StoreOp) : Option Store := some (s.step op).2

/-- The database shows a sound ledger, and an open store has its metadata row. -/
structure Inv (s : Store) (l : Ledger) : Prop where
  sound : l.Sound
  shows : Shows s.db.created l
  created : s.grants.isSome → s.db.metadata.isSome

end Store

omit [Digest] [FloatText] in
private theorem created_of_isSome {db : Db} (h : db.metadata.isSome) : db.created = db := by
  obtain ⟨md, hmd⟩ := Option.isSome_iff_exists.mp h
  rw [Db.created, hmd, Option.getD_some, ← hmd]

omit [Digest] [FloatText] in
private theorem created_created (db : Db) : db.created.created = db.created :=
  created_of_isSome rfl

/-- Before the first call the ledger is empty. -/
theorem Store.inv_initial : Store.initial.Inv PrunedLog.empty where
  sound := Ledger.sound_empty
  shows := ⟨rfl, rfl, rfl⟩
  created := fun h ↦ (nomatch h)

namespace Store.Inv

variable {s : Store} {l : Ledger} (h : s.Inv l)

include h

/-- An open store shows its ledger. -/
theorem shows_of_open {grants : Grants} (hg : s.grants = some grants) :
    Shows s.db l := by
  have hs := h.shows
  rwa [created_of_isSome (h.created (by rw [hg]; rfl))] at hs

private theorem openStore_inv (grants : List SourceGrant) (fault : Fault) :
    (openStore s grants fault).2.Inv l ∧
      ∀ record, (openStore s grants fault).1 ≠ .ok (.appended record) := by
  have closed : ∀ db : Db, db.created = s.db.created → Inv ⟨db, none⟩ l := fun db hdb ↦
    ⟨h.sound, by rw [hdb]; exact h.shows, fun hn ↦ (nomatch hn)⟩
  unfold openStore
  split
  · exact ⟨h, fun _ ↦ nofun⟩
  · split
    · exact ⟨closed s.db rfl, fun _ ↦ nofun⟩
    · exact ⟨closed _ (created_created s.db), fun _ ↦ nofun⟩
    · split
      · exact ⟨⟨h.sound, by rw [created_created]; exact h.shows, fun _ ↦ rfl⟩, fun _ ↦ nofun⟩
      · exact ⟨closed _ (created_created s.db), fun _ ↦ nofun⟩
      · exact ⟨closed _ (created_created s.db), fun _ ↦ nofun⟩

private theorem appendStore_inv (trace : DecisionTrace) (sourceId taskId : Text)
    (now : DateTime) (fault : Fault) :
    ∃ l', (appendStore s trace sourceId taskId now fault).2.Inv l' ∧
      Ledger.Moves l (appendStore s trace sourceId taskId now fault).1 l' := by
  have same : ∀ e, ∃ l', s.Inv l' ∧ Ledger.Moves l (.error e) l' := fun _ ↦
    ⟨l, h, .keep fun _ ↦ nofun⟩
  unfold appendStore
  split
  · exact same _
  · next grants hg =>
    split
    · exact same _
    · next p hp =>
      have committed : ∃ l', (commitAppend s p).2.Inv l' ∧
          Ledger.Moves l (commitAppend s p).1 l' := by
        unfold commitAppend
        split
        · exact same _
        · next record db ha =>
          obtain ⟨-, -, hp⟩ := bind_eq_ok.mp hp
          obtain ⟨row, hshow, hsound, hprev, -, -, rfl⟩ :=
            (h.shows_of_open hg).append h.sound hp ha
          have hmd : db.metadata.isSome := by
            rw [hshow.metadata]
            rfl
          exact ⟨_, ⟨hsound, by rw [created_of_isSome hmd]; exact hshow, fun _ ↦ hmd⟩,
            .append row hprev⟩
      split
      · exact same _
      · exact committed
      · exact committed

private theorem purgeExpired_inv (now : DateTime) (fault : Fault) :
    ∃ l', (purgeExpired s now fault).2.Inv l' ∧
      Ledger.Moves l (purgeExpired s now fault).1 l' := by
  have same : ∀ e, ∃ l', s.Inv l' ∧ Ledger.Moves l (.error e) l' := fun _ ↦
    ⟨l, h, .keep fun _ ↦ nofun⟩
  unfold purgeExpired
  split
  · exact same _
  · next grants hg =>
    split
    · exact same _
    · next cutoff _ =>
      obtain ⟨n, hn, -, hshow, hsound, -⟩ :=
        (h.shows_of_open hg).purge h.sound now.isoformat cutoff
      have hmd : (purgeTransaction s.db now.isoformat cutoff).2.metadata.isSome := by
        rw [hshow.metadata]
        rfl
      have purged : Inv { s with db := (purgeTransaction s.db now.isoformat cutoff).2 }
          (PrunedLog.prune l n hn) :=
        ⟨hsound, by rw [created_of_isSome hmd]; exact hshow, fun _ ↦ hmd⟩
      dsimp only
      split
      · exact same _
      · refine ⟨_, purged, .prune n hn fun record ↦ ?_⟩
        split <;> exact nofun
      · exact ⟨_, purged, .prune n hn fun _ ↦ nofun⟩

/-- Every call is an operation on the ledger or changes nothing. -/
theorem step (op : StoreOp) :
    ∃ l', (s.step op).2.Inv l' ∧ Ledger.Moves l (s.step op).1 l' := by
  cases op with
  | openStore grants fault =>
    obtain ⟨hinv, hres⟩ := h.openStore_inv grants fault
    exact ⟨l, hinv, .keep hres⟩
  | append trace sourceId taskId now fault => exact h.appendStore_inv trace sourceId taskId now fault
  | purgeExpired now fault => exact h.purgeExpired_inv now fault
  | close => exact ⟨l, ⟨h.sound, h.shows, fun hn ↦ (nomatch hn)⟩, .keep fun _ ↦ nofun⟩

/-- What a store shows once it has a metadata row. -/
theorem shows_of_metadata {md : Metadata} (hmd : s.db.metadata = some md) : Shows s.db l := by
  have hs := h.shows
  rwa [created_of_isSome (by rw [hmd]; rfl)] at hs

end Store.Inv

/-- Every reachable store has a sound ledger. -/
theorem Store.exists_ledger {ops : List StoreOp} {s : Store}
    (hr : runAll Store.next Store.initial ops = some s) : ∃ l, s.Inv l := by
  refine @runAll_invariant _ _ _ (fun s ↦ ∃ l, s.Inv l) ?_ _ _ _ ⟨_, Store.inv_initial⟩ hr
  rintro s op s' ⟨l, h⟩ hstep
  cases hstep
  obtain ⟨l', h', -⟩ := h.step op
  exact ⟨l', h'⟩

/-- The row was collected at least the retention period before `now`. -/
def Row.ExpiredAt (row : Row) (now : DateTime) : Prop :=
  ∃ instant : DateTime, row.collectedAt = instant.isoformat ∧
    instant.micros + retentionDays * DateTime.dayMicros ≤ now.micros

/-- The row was collected less than the retention period before `now`. -/
def Row.YoungAt (row : Row) (now : DateTime) : Prop :=
  ∃ instant : DateTime, row.collectedAt = instant.isoformat ∧
    now.micros < instant.micros + retentionDays * DateTime.dayMicros

/-- A successful purge removes exactly the expired rows, which come first. -/
theorem Store.Inv.purge_exact {s s' : Store} {l : Ledger} (h : s.Inv l) {now : DateTime}
    {fault : Fault} {n : Nat}
    (hp : s.step (.purgeExpired now fault) = (.ok (.purged n), s')) :
    ∃ removed kept, s.db.rows = removed ++ kept ∧ s'.db.rows = kept ∧ removed.length = n ∧
      (∀ row ∈ removed, row.ExpiredAt now) ∧ ∀ row ∈ kept, row.YoungAt now := by
  obtain ⟨grants, hg⟩ : ∃ grants, s.grants = some grants := by
    cases hg : s.grants with
    | some grants => exact ⟨grants, rfl⟩
    | none => simp [Store.step, purgeExpired, hg] at hp
  obtain ⟨cutoff, hcut⟩ : ∃ cutoff, now.minusDays retentionDays = some cutoff := by
    cases hc : now.minusDays retentionDays with
    | some cutoff => exact ⟨cutoff, rfl⟩
    | none => simp [Store.step, purgeExpired, hg, retentionCutoff, hc] at hp
  have hs := h.shows_of_open hg
  obtain ⟨k, hk, hcount, hshow, -, hold, hyoung⟩ :=
    hs.purge h.sound now.isoformat cutoff.isoformat
  have hres : n = k ∧ s'.db = (purgeTransaction s.db now.isoformat cutoff.isoformat).2 := by
    simp only [Store.step, purgeExpired, hg, retentionCutoff, hcut, hcount] at hp
    split at hp
    · cases hp
    · split at hp
      · cases hp
        exact ⟨rfl, rfl⟩
      · cases hp
    · cases hp
      exact ⟨rfl, rfl⟩
  have hmicros := DateTime.micros_minusDays hcut
  refine ⟨l.retained.take k, l.retained.drop k, ?_, ?_, ?_, ?_, ?_⟩
  · rw [List.take_append_drop]
    exact hs.rows
  · rw [hres.2, hshow.rows, PrunedLog.retained_prune]
  · rw [hres.1, List.length_take_of_le hk]
  · intro row hr
    obtain ⟨i, hi⟩ := h.sound.row_of_mem (List.mem_of_mem_take hr)
    obtain ⟨instant, hat⟩ := hi.collected
    have hle := hold row hr
    rw [hat, DateTime.isoformat_le_iff] at hle
    exact ⟨instant, hat, by omega⟩
  · intro row hr
    obtain ⟨i, hi⟩ := h.sound.row_of_mem (List.mem_of_mem_drop hr)
    obtain ⟨instant, hat⟩ := hi.collected
    have hlt := hyoung row hr
    rw [hat, DateTime.isoformat_le_iff] at hlt
    exact ⟨instant, hat, by omega⟩

/-- In every state that any calls, clock readings and failures lead to: the store verifies, rows
are in the order of time, the last row's time is the recorded one, run ids are distinct, the
first row continues from the checkpoint, and a successful purge removes exactly the rows collected
at least thirty days before its reading. -/
theorem governed_store_invariant (ops : List StoreOp) (s : Store)
    (hr : runAll Store.next Store.initial ops = some s) (md : Metadata)
    (hmd : s.db.metadata = some md) :
    s.db.verify = .ok true ∧
    (s.db.rows.Pairwise fun a b ↦ a.sequence < b.sequence ∧ a.collectedAt ≤ b.collectedAt) ∧
    (∀ row, s.db.rows.getLast? = some row → row.collectedAt = md.lastCollectedAt) ∧
    (s.db.rows.map Row.runId).Nodup ∧
    (∀ row, s.db.rows.head? = some row → row.previousHash = md.checkpointHash) ∧
    ∀ now fault n s', s.step (.purgeExpired now fault) = (.ok (.purged n), s') →
      ∃ removed kept, s.db.rows = removed ++ kept ∧ s'.db.rows = kept ∧ removed.length = n ∧
        (∀ row ∈ removed, row.ExpiredAt now) ∧ ∀ row ∈ kept, row.YoungAt now := by
  obtain ⟨l, h⟩ := Store.exists_ledger hr
  have hs := h.shows_of_metadata hmd
  have hmeta : md = ⟨l.checkpoint, l.lastCollectedAt⟩ := by
    rw [hs.metadata] at hmd
    exact (Option.some.inj hmd).symm
  refine ⟨hs.verify h.sound, ?_, ?_, ?_, ?_, fun now fault n s' hp ↦ h.purge_exact hp⟩
  · rw [hs.rows]
    exact h.sound.sequence_lt.and h.sound.collectedAt_le
  · intro row hrow
    rw [hs.rows] at hrow
    rw [hmeta, Ledger.lastCollectedAt, Ledger.getLast?_retained hrow]
    rfl
  · rw [hs.rows]
    exact h.sound.distinct
  · intro row hrow
    have hc := PrunedLog.chained_retained _ _ h.sound.chained
    rw [hs.rows] at hrow
    obtain ⟨rest, hrest⟩ := List.head?_eq_some_iff.mp hrow
    rw [hrest] at hc
    rw [hmeta]
    exact hc.1

end Runs

section Sample

attribute [local instance] Digest.rolling FloatText.fraction

/-- A source with one task. -/
def sampleGrant : SourceGrant where
  sourceId := "c3r_internal_001"
  owner := "owner"
  taskIds := ["task_001"]
  rightsAttested := true
  attested := by decide
  tokens := by decide

/-- A store that was just created and opened. -/
def emptyStore : Store := ⟨Db.fresh.created, some (Grants.ofList [sampleGrant])⟩

/-- A trace that the redaction schema admits. -/
def sampleTrace (runId : Text) : DecisionTrace where
  runId := runId
  stateHash := List.replicate 64 97
  accessLevel := "internal"
  modelProvider := "deterministic"
  candidateIds := []
  probabilities := ∅
  utilityQuantiles := ∅
  selectedActionId := none
  authorityResult := "not_attempted"
  systemCost := ∅
  taskOutcome := ∅
  artifactRefs := []

/-- A reading of the clock. -/
def morning : DateTime := { year := 2026, month := 8, day := 1 }

/-- A later reading. -/
def noon : DateTime := { year := 2026, month := 8, day := 1, hour := 12 }

/-- Open a store, append one trace and fail to append another. -/
def sampleOps : List StoreOp :=
  [.openStore [sampleGrant] .none,
   .append (sampleTrace "run_001") "c3r_internal_001" "task_001"
     { year := 2026, month := 8, day := 1 } .none,
   .append (sampleTrace "run_002") "c3r_internal_001" "task_001"
     { year := 2026, month := 8, day := 2 } (.rolledBack ⟨.sqliteError, "disk I/O error"⟩)]

/-- Open a store and append two traces, three weeks apart. -/
def collectedOps : List StoreOp :=
  [.openStore [sampleGrant] .none,
   .append (sampleTrace "run_001") "c3r_internal_001" "task_001"
     { year := 2026, month := 8, day := 1 } .none,
   .append (sampleTrace "run_002") "c3r_internal_001" "task_001"
     { year := 2026, month := 8, day := 22 } .none]

/-- A purge thirty days after the first trace removes it. -/
theorem governed_store_invariant_sample :
    ∃ s s' md, runAll Store.next Store.initial sampleOps = some s ∧ s.db.metadata = some md ∧
      s.step (.purgeExpired { year := 2026, month := 8, day := 31 } .none) =
        (.ok (.purged 1), s') ∧
      s.db.verify = .ok true ∧ ∃ removed, s.db.rows = removed ++ s'.db.rows ∧
        removed.length = 1 := by
  have hrun : (runAll Store.next Store.initial sampleOps).any (fun s ↦ s.db.metadata.isSome &&
      decide ((s.step (.purgeExpired { year := 2026, month := 8, day := 31 } .none)).1.toOption =
        some (.purged 1))) = true := by
    decide +kernel
  obtain ⟨s, hs, hp⟩ := (Option.any_eq_true _ _).mp hrun
  rw [Bool.and_eq_true, decide_eq_true_eq, toOption_eq_some] at hp
  obtain ⟨md, hmd⟩ := Option.isSome_iff_exists.mp hp.1
  have hall := governed_store_invariant sampleOps s hs md hmd
  have hstep : s.step (.purgeExpired { year := 2026, month := 8, day := 31 } .none) =
      (.ok (.purged 1), (s.step (.purgeExpired { year := 2026, month := 8, day := 31 } .none)).2) :=
    Prod.ext hp.2 rfl
  obtain ⟨removed, kept, hrows, hkept, hlen, -, -⟩ := hall.2.2.2.2.2 _ _ _ _ hstep
  refine ⟨s, _, md, hs, hmd, hstep, hall.1, removed, ?_, hlen⟩
  rw [hkept]
  exact hrows

end Sample

end C3RSpec.Telemetry
