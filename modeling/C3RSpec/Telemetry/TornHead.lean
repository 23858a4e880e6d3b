import C3RSpec.Telemetry.PurgeAnchoring

/-!
# Heads read while another connection commits

`c3r/telemetry/governed_store.py:166–216`. Outside a transaction each `SELECT` of
`_verified_head` sees the latest committed state, and another connection may commit between any
two of them: the metadata, the rows and the sequence can come from three states. The call is
right when the first two states have the same checkpoint, the last two the same sequence, and the
rows that were read, if any, end at the collection time that was read.
-/

namespace C3RSpec.Telemetry

open Base

/-- The last assigned sequence and the hash of that record, or the checkpoint. -/
def Db.actualHead (db : Db) : Option (Int × Text) :=
  db.metadata.map fun md ↦ (db.sequence.getD 0, previousHash md db.rows)

section Reads

variable [Digest] [FloatText]

/-- `_verified_head` whose three `SELECT`s see three states of the file. -/
def tornHead (s₁ s₂ s₃ : Store) : Except PyError (Option (Int × Text)) :=
  verifiedHead s₁.db.metadata s₂.db.rows s₃.db.sequence

/-- `verify` on such a read. -/
def tornVerify (s₁ s₂ s₃ : Store) : Except PyError Bool := do
  let head ← tornHead s₁ s₂ s₃
  return head.isSome

/-- `snapshot_head` on such a read. -/
def tornSnapshot (s₁ s₂ s₃ : Store) (policyVersion : Text) (now : DateTime) :
    Except PyError LedgerHead := do
  match ← tornHead s₁ s₂ s₃ with
  | none => .error (valueError "governed trace hash chain is invalid")
  | some head => captureHead head.1 head.2 policyVersion now

/-- The pair was the head in some state between the first and the last of the calls. -/
def HeadDuring (s : Store) (calls : List StoreOp) (pair : Int × Text) : Prop :=
  ∃ done rest u, calls = done ++ rest ∧ runAll Store.next s done = some u ∧
    u.db.actualHead = some pair

/-- The call verifies and captures a head that the store had while it ran. -/
structure HeadConsistent (s₁ s₂ s₃ : Store) (calls : List StoreOp) : Prop where
  verifies : tornVerify s₁ s₂ s₃ = .ok true
  captures : ∃ pair, tornHead s₁ s₂ s₃ = .ok (some pair) ∧ HeadDuring s₁ calls pair ∧
    ∀ policyVersion now, tornSnapshot s₁ s₂ s₃ policyVersion now =
      captureHead pair.1 pair.2 policyVersion now

end Reads

/-- The other connections leave what the call compares: the checkpoint and, unless no row is
left, the collection time up to the read of the rows, and then the sequence. -/
structure Undisturbed (s₁ s₂ s₃ : Store) : Prop where
  checkpoint : s₁.db.metadata.map Metadata.checkpointHash =
    s₂.db.metadata.map Metadata.checkpointHash
  collected : s₂.db.rows = [] ∨ s₁.db.metadata.map Metadata.lastCollectedAt =
    s₂.db.metadata.map Metadata.lastCollectedAt
  sequence : s₂.db.sequence.getD 0 = s₃.db.sequence.getD 0

/-! ### Ledgers along a run -/

/-- A call extends the ledger. -/
theorem Ledger.Moves.extends {l l' : Ledger} {result : Except PyError StoreResult}
    (h : l.Moves result l') : PrunedLog.Extends l l' := by
  cases h with
  | append row _ => exact PrunedLog.extends_append l row
  | prune n hn _ => exact PrunedLog.extends_prune l hn
  | keep _ => exact PrunedLog.Extends.refl l

/-- A call adds to the history what it appended. -/
theorem Ledger.Moves.records {l l' : Ledger} {result : Except PyError StoreResult}
    (h : l.Moves result l') :
    l'.history.map Row.record = l.history.map Row.record ++ appendedRecord result := by
  have none_of : (∀ record, result ≠ .ok (.appended record)) → appendedRecord result = [] := by
    intro hr
    obtain ⟨record, rfl⟩ | ⟨-, hnil⟩ := appendedRecord_cases result
    · exact (hr record rfl).elim
    · exact hnil
  cases h with
  | append row _ => rw [PrunedLog.append, List.map_append]; rfl
  | prune n hn hr => rw [none_of hr, List.append_nil]; rfl
  | keep hr => rw [none_of hr, List.append_nil]

/-- The head of a database is the head of its ledger. -/
theorem Shows.actualHead {db : Db} {l : Ledger} (hs : Shows db l) :
    db.actualHead = some ((l.history.length : Int), l.headHash) := by
  rw [Db.actualHead, hs.metadata, Option.map_some, hs.previousHash hs.metadata, hs.sequence]

section Runs

variable [Digest] [FloatText]

/-- A run extends the ledger by the records it appended. -/
theorem Store.Inv.run {s u : Store} {l : Ledger} (h : s.Inv l) {ops : List StoreOp}
    (hr : runAll Store.next s ops = some u) :
    ∃ l', u.Inv l' ∧ PrunedLog.Extends l l' ∧
      l'.history.map Row.record = l.history.map Row.record ++ appendedRecords s ops := by
  induction ops generalizing s l with
  | nil =>
    cases hr
    exact ⟨l, h, PrunedLog.Extends.refl l, (List.append_nil _).symm⟩
  | cons op ops ih =>
    obtain ⟨l₁, h₁, hm⟩ := h.step op
    obtain ⟨l', h', hext, hrec⟩ := ih h₁ hr
    refine ⟨l', h', hm.extends.trans hext, ?_⟩
    rw [hrec, hm.records, appendedRecords, List.append_assoc]

section ThreeReads

variable {s₁ s₂ s₃ : Store} {l₁ l₂ l₃ : Ledger} (hs₁ : Shows s₁.db l₁) (hs₂ : Shows s₂.db l₂)
  (hs₃ : Shows s₃.db l₃)

include hs₁ hs₂ hs₃

omit [Digest] [FloatText] in
private theorem undisturbed_iff : Undisturbed s₁ s₂ s₃ ↔
    l₁.checkpoint = l₂.checkpoint ∧
    (l₂.retained = [] ∨ l₁.lastCollectedAt = l₂.lastCollectedAt) ∧
    l₂.history.length = l₃.history.length := by
  have hc : s₁.db.metadata.map Metadata.checkpointHash =
      s₂.db.metadata.map Metadata.checkpointHash ↔ l₁.checkpoint = l₂.checkpoint := by
    rw [hs₁.metadata, hs₂.metadata, Option.map_some, Option.map_some, Option.some.injEq]
  have ht : s₁.db.metadata.map Metadata.lastCollectedAt =
      s₂.db.metadata.map Metadata.lastCollectedAt ↔
      l₁.lastCollectedAt = l₂.lastCollectedAt := by
    rw [hs₁.metadata, hs₂.metadata, Option.map_some, Option.map_some, Option.some.injEq]
  rw [← hc, ← ht, ← hs₂.rows, ← Int.natCast_inj, ← hs₂.sequence, ← hs₃.sequence]
  exact ⟨fun h ↦ ⟨h.checkpoint, h.collected, h.sequence⟩, fun h ↦ ⟨h.1, h.2.1, h.2.2⟩⟩

/-- Where no row was read, nothing is compared: the sequence and the checkpoint are reported. -/
theorem tornHead_of_nil (h : l₂.retained = []) :
    tornHead s₁ s₂ s₃ = .ok (some (l₃.history.length, l₁.checkpoint)) := by
  simp only [tornHead, verifiedHead, hs₁.metadata, hs₂.rows, h, hs₃.sequence]
  rfl

/-- Where rows were read, the call reports the head of the state it read them from, if the other
two reads agree with that state. -/
theorem tornHead_of_ne_nil (hsound : l₂.Sound) (h : l₂.retained ≠ []) :
    tornHead s₁ s₂ s₃ = .ok (if l₁.lastCollectedAt = l₂.lastCollectedAt ∧
      l₂.history.length = l₃.history.length ∧ l₁.checkpoint = l₂.checkpoint
      then some (l₂.history.length, l₂.headHash) else none) := by
  obtain ⟨last, hlast⟩ : ∃ last, l₂.retained.getLast? = some last :=
    ⟨_, List.getLast?_eq_some_getLast h⟩
  have hhist := Ledger.getLast?_retained hlast
  have hat : last.collectedAt = l₂.lastCollectedAt := by
    rw [Ledger.lastCollectedAt, hhist]
    rfl
  have hseq := hsound.sequence_last hhist
  by_cases ht : l₁.lastCollectedAt = l₂.lastCollectedAt
  · by_cases hn : l₂.history.length = l₃.history.length
    · by_cases hc : l₁.checkpoint = l₂.checkpoint
      · -- all three reads agree with the state of the rows
        rw [if_pos ⟨ht, hn, hc⟩, ← hs₂.verifiedHead hsound]
        simp only [Db.verifiedHead, tornHead, verifiedHead, hs₁.metadata, hs₂.metadata,
          hs₃.sequence, hs₂.sequence, hc, ht, hn]
      · -- the first row names the checkpoint of its own state
        have hchain := PrunedLog.chained_retained _ _ hsound.chained
        obtain ⟨row, rest, hrows⟩ := List.exists_cons_of_ne_nil h
        rw [hrows] at hchain
        have hprev : row.previousHash ≠ l₁.checkpoint := fun he ↦ hc (he.symm.trans hchain.1)
        have hverify : verifyRows l₁.checkpoint l₂.retained = .ok none := by
          rw [hrows, verifyRows, if_pos hprev]
        rw [if_neg fun hall ↦ hc hall.2.2]
        simp only [tornHead, verifiedHead, hs₁.metadata, hs₂.rows, hs₃.sequence, hlast,
          Option.any_some, hat, ht, hseq, hn, ne_eq, not_true_eq_false, decide_false,
          Bool.false_eq_true, if_false, hverify]
        rfl
    · rw [if_neg fun hall ↦ hn hall.2.1]
      simp only [tornHead, verifiedHead, hs₁.metadata, hs₂.rows, hs₃.sequence, hlast,
        Option.any_some, hat, ht, hseq, Int.natCast_inj, hn, ne_eq, not_true_eq_false, not_false_eq_true,
        decide_false, decide_true, Bool.false_eq_true, if_false, if_true]
  · rw [if_neg fun hall ↦ ht hall.1]
    simp only [tornHead, verifiedHead, hs₁.metadata, hs₂.rows, hlast, Option.any_some, hat,
      Ne.symm ht, ne_eq, not_false_eq_true, decide_true, if_true]

/-- An undisturbed call reports the head of the state it read the rows from. -/
theorem tornHead_of_undisturbed (hsound : l₂.Sound) (h : Undisturbed s₁ s₂ s₃) :
    tornHead s₁ s₂ s₃ = .ok (some (l₂.history.length, l₂.headHash)) := by
  obtain ⟨hc, ht, hn⟩ := (undisturbed_iff hs₁ hs₂ hs₃).mp h
  by_cases hnil : l₂.retained = []
  · have hhead : l₂.headHash = l₂.checkpoint := by
      rw [Ledger.headHash, ← PrunedLog.linkAfter_checkpoint, hnil]
      rfl
    rw [tornHead_of_nil hs₁ hs₂ hs₃ hnil, hc, hn, hhead]
  · rw [tornHead_of_ne_nil hs₁ hs₂ hs₃ hsound hnil, if_pos ⟨ht.resolve_left hnil, hn, hc⟩]

end ThreeReads

private theorem shows_of_isSome {s : Store} {l : Ledger} (h : s.Inv l)
    (hmd : s.db.metadata.isSome) : Shows s.db l := by
  obtain ⟨md, hmd⟩ := Option.isSome_iff_exists.mp hmd
  exact h.shows_of_metadata hmd

private theorem metadata_run {s u : Store} {ops : List StoreOp}
    (hr : runAll Store.next s ops = some u) (hmd : s.db.metadata.isSome) :
    u.db.metadata.isSome := by
  refine @runAll_invariant _ _ _ (fun s ↦ s.db.metadata.isSome) ?_ _ _ _ hmd hr
  intro t op t' ht hstep
  cases hstep
  exact Store.metadata_step ht op

private theorem tornVerify_of_some {s₁ s₂ s₃ : Store} {pair : Int × Text}
    (h : tornHead s₁ s₂ s₃ = .ok (some pair)) : tornVerify s₁ s₂ s₃ = .ok true := by
  rw [tornVerify, h]
  rfl

-- a state from which on nothing was appended has the last head
private theorem headHash_of_length {s u : Store} {l lu : Ledger} (hs : Shows s.db l)
    (hu : u.Inv lu) {rest : List StoreOp} (hr : runAll Store.next u rest = some s)
    (hlen : lu.history.length = l.history.length) : lu.headHash = l.headHash := by
  obtain ⟨l', hl', hext, -⟩ := hu.run hr
  have hs' := hl'.shows_of_metadata hs.metadata
  have hlen' : l'.history.length = l.history.length := by
    rw [← Int.natCast_inj, ← hs'.sequence, hs.sequence]
  have heq : lu.history = l'.history := hext.isPrefix.eq_of_length (hlen.trans hlen'.symm)
  calc lu.headHash = l'.headHash := by rw [Ledger.headHash, Ledger.headHash, PrunedLog.head, heq]; rfl
    _ = l.headHash := by rw [← hs'.previousHash hs.metadata, hs.previousHash hs.metadata]

private theorem appendedRecords_append {s u : Store} {as : List StoreOp}
    (hr : runAll Store.next s as = some u) (bs : List StoreOp) :
    appendedRecords s (as ++ bs) = appendedRecords s as ++ appendedRecords u bs := by
  induction as generalizing s with
  | nil =>
    cases hr
    rfl
  | cons op as ih => rw [List.cons_append, appendedRecords, ih hr, appendedRecords, List.append_assoc]

omit [Digest] [FloatText] in
-- links that do not repeat tell how much of the history was dropped
private theorem dropped_of_checkpoint_eq_headHash {l₁ l₃ : Ledger}
    (hext : PrunedLog.Extends l₁ l₃) (hd : (genesis :: l₃.history.map Row.recordHash).Nodup)
    (h : l₁.checkpoint = l₃.headHash) : l₁.dropped = l₃.history.length := by
  have hle := Nat.le_trans l₁.dropped_le hext.isPrefix.length_le
  have htake : l₁.history.take l₁.dropped = l₃.history.take l₁.dropped := by
    obtain ⟨tail, htail⟩ := hext.isPrefix
    rw [← htail, List.take_append_of_le_length l₁.dropped_le]
  refine PrunedLog.length_eq_of_linkAfter_eq Row.recordHash hd hle (Nat.le_refl _) ?_
  rw [← htake, List.take_length]
  exact h

/-- For every honest history and every interleaving of three reads with the calls of other
connections: the call verifies and captures a head of the store when the other connections leave
what it compares, and, unless two records have the same hash, only then. -/
theorem torn_head_iff (before afterMetadata afterRows : List StoreOp) (s₁ s₂ s₃ : Store)
    (h₁ : runAll Store.next Store.initial before = some s₁)
    (hmd : s₁.db.metadata.isSome)
    (h₂ : runAll Store.next s₁ afterMetadata = some s₂)
    (h₃ : runAll Store.next s₂ afterRows = some s₃) :
    (Undisturbed s₁ s₂ s₃ → HeadConsistent s₁ s₂ s₃ (afterMetadata ++ afterRows)) ∧
    ((genesis :: (appendedRecords Store.initial (before ++ (afterMetadata ++ afterRows))).map
        LedgerRecord.recordHash).Nodup →
      HeadConsistent s₁ s₂ s₃ (afterMetadata ++ afterRows) → Undisturbed s₁ s₂ s₃) := by
  obtain ⟨l₁, hi₁, -, hrec₁⟩ := Store.inv_initial.run h₁
  obtain ⟨l₂, hi₂, hext₂, hrec₂⟩ := hi₁.run h₂
  obtain ⟨l₃, hi₃, hext₃, hrec₃⟩ := hi₂.run h₃
  have hs₁ := shows_of_isSome hi₁ hmd
  have hs₂ := shows_of_isSome hi₂ (metadata_run h₂ hmd)
  have hs₃ := shows_of_isSome hi₃ (metadata_run h₃ (metadata_run h₂ hmd))
  constructor
  · intro hund
    have hhead := tornHead_of_undisturbed hs₁ hs₂ hs₃ hi₂.sound hund
    refine ⟨tornVerify_of_some hhead, _, hhead, ⟨afterMetadata, afterRows, s₂, rfl, h₂,
      hs₂.actualHead⟩, fun policyVersion now ↦ ?_⟩
    rw [tornSnapshot, hhead]
    rfl
  · rintro hdistinct ⟨-, pair, hhead, ⟨done, rest, u, hsplit, hu, hpair⟩, -⟩
    rw [undisturbed_iff hs₁ hs₂ hs₃]
    by_cases hnil : l₂.retained = []
    · -- the pair is the sequence of the third state with the checkpoint of the first
      rw [tornHead_of_nil hs₁ hs₂ hs₃ hnil] at hhead
      cases hhead
      have hrest : runAll Store.next u rest = some s₃ := by
        have hall : runAll Store.next s₁ (afterMetadata ++ afterRows) = some s₃ := by
          rw [runAll_append, h₂]
          exact h₃
        rwa [hsplit, runAll_append, hu] at hall
      obtain ⟨lu, hiu, -, -⟩ := hi₁.run hu
      rw [(shows_of_isSome hiu (metadata_run hu hmd)).actualHead, Option.some.injEq,
        Prod.mk.injEq, Int.natCast_inj] at hpair
      have hhash := headHash_of_length hs₃ hiu hrest hpair.1
      have hlinks : (genesis :: l₃.history.map Row.recordHash).Nodup := by
        have hmap : l₃.history.map Row.recordHash =
            (l₃.history.map Row.record).map LedgerRecord.recordHash := by
          rw [List.map_map]
          rfl
        rw [appendedRecords_append h₁, appendedRecords_append h₂] at hdistinct
        rw [hmap, hrec₃, hrec₂, hrec₁, PrunedLog.empty, List.map_nil, List.nil_append,
          List.append_assoc]
        exact hdistinct
      have hdrop := dropped_of_checkpoint_eq_headHash (hext₂.trans hext₃) hlinks
        (hpair.2.symm.trans hhash)
      -- everything was dropped already, so nothing was appended and no checkpoint moved
      have hlen₁ := hext₂.isPrefix.length_le
      have hlen₂ := hext₃.isPrefix.length_le
      have hd₁ := l₁.dropped_le
      have hd₂ := l₂.dropped_le
      have hd₁₂ := hext₂.dropped_le
      have heq : l₁.history = l₂.history := hext₂.isPrefix.eq_of_length (by omega)
      refine ⟨?_, .inl hnil, by omega⟩
      rw [Ledger.checkpoint, Ledger.checkpoint, PrunedLog.checkpoint, PrunedLog.checkpoint, heq,
        show l₁.dropped = l₂.dropped by omega]
    · rw [tornHead_of_ne_nil hs₁ hs₂ hs₃ hi₂.sound hnil] at hhead
      split at hhead
      · next hall => exact ⟨hall.2.2, .inr hall.1, hall.2.1⟩
      · cases hhead

end Runs

section Sample

attribute [local instance] Digest.rolling FloatText.fraction

/-- A purge by another connection after the rows were read does no harm. -/
theorem torn_head_iff_purge :
    ∃ s₁ s₃, runAll Store.next Store.initial sampleOps = some s₁ ∧
      runAll Store.next s₁ [.purgeExpired { year := 2026, month := 8, day := 31 } .none] =
        some s₃ ∧
      s₁.db.rows.length = 1 ∧ s₃.db.rows.length = 0 ∧
      HeadConsistent s₁ s₁ s₃
        ([] ++ [.purgeExpired { year := 2026, month := 8, day := 31 } .none]) := by
  have hrun : (runAll Store.next Store.initial sampleOps).any (fun s₁ ↦
      s₁.db.metadata.isSome && decide (s₁.db.rows.length = 1) &&
      (runAll Store.next s₁
        [.purgeExpired { year := 2026, month := 8, day := 31 } .none]).any fun s₃ ↦
        decide (s₃.db.rows.length = 0) &&
        decide (s₁.db.sequence.getD 0 = s₃.db.sequence.getD 0)) = true := by
    decide +kernel
  obtain ⟨s₁, h₁, hp⟩ := (Option.any_eq_true _ _).mp hrun
  rw [Bool.and_eq_true, Bool.and_eq_true, decide_eq_true_eq] at hp
  obtain ⟨s₃, h₃, hq⟩ := (Option.any_eq_true _ _).mp hp.2
  rw [Bool.and_eq_true, decide_eq_true_eq, decide_eq_true_eq] at hq
  exact ⟨s₁, s₃, h₁, h₃, hp.1.2, hq.1,
    (torn_head_iff sampleOps [] _ s₁ s₁ s₃ h₁ hp.1.1 rfl h₃).1 ⟨rfl, .inr rfl, hq.2⟩⟩

/-- Another connection appends to a new store. Between the metadata and the rows this makes
`verify` fail; between the rows and the sequence a head is captured that the store never had. -/
theorem torn_head_append :
    ∃ s₂ call, runAll Store.next Store.initial [.openStore [sampleGrant] .none] =
        some emptyStore ∧
      runAll Store.next emptyStore [call] = some s₂ ∧
      tornVerify emptyStore s₂ s₂ = .ok false ∧
      tornVerify emptyStore emptyStore s₂ = .ok true ∧
      tornHead emptyStore emptyStore s₂ = .ok (some (1, genesis)) ∧
      ¬ HeadDuring emptyStore [call] (1, genesis) := by
  have hrun : (runAll Store.next emptyStore [.append (sampleTrace "run_001") "c3r_internal_001"
      "task_001" { year := 2026, month := 8, day := 1 } .none]).any (fun s₂ ↦
        decide (tornVerify emptyStore s₂ s₂ = .ok false) &&
        decide (tornHead emptyStore emptyStore s₂ = .ok (some (1, genesis))) &&
        decide (s₂.db.actualHead ≠ some (1, genesis))) = true := by
    decide +kernel
  obtain ⟨s₂, h₂, hp⟩ := (Option.any_eq_true _ _).mp hrun
  simp only [Bool.and_eq_true, decide_eq_true_eq] at hp
  obtain ⟨⟨hverify, hhead⟩, hactual⟩ := hp
  refine ⟨s₂, _, rfl, h₂, hverify, tornVerify_of_some hhead, hhead, ?_⟩
  rintro ⟨done, rest, u, hsplit, hu, hpair⟩
  cases done with
  | nil =>
    cases hu
    cases hpair
  | cons op done =>
    obtain ⟨rfl, hnil⟩ := List.cons.inj hsplit
    obtain ⟨rfl, rfl⟩ := List.append_eq_nil_iff.mp hnil.symm
    rw [h₂] at hu
    cases hu
    exact hactual hpair

end Sample

end C3RSpec.Telemetry
