import C3RSpec.Base.Loop
import C3RSpec.Base.PrunedLog
import C3RSpec.Base.Transition
import C3RSpec.Telemetry.GovernedStore

/-!
# The ledger behind the governed store

What the store is for: a hash-linked history of records, numbered from one, collected in the
order of time, of which an expired leading part is dropped. The database shows the retained part,
the link after the dropped part, the length of the history and the time of its last record.
Every operation of the store is an operation on such a ledger, or changes nothing.
-/

namespace C3RSpec.Telemetry

open Base

/-- The whole history of a store, with how much of it was purged. -/
abbrev Ledger : Type := PrunedLog Row

namespace Ledger

/-- The time of the last record; empty before the first. -/
def lastCollectedAt (l : Ledger) : Text := (l.history.getLast?.map Row.collectedAt).getD []

/-- The checkpoint of a ledger. -/
def checkpoint (l : Ledger) : Text := PrunedLog.checkpoint Row.recordHash genesis l

/-- The head hash of a ledger. -/
def headHash (l : Ledger) : Text := PrunedLog.head Row.recordHash genesis l

variable [Digest] [FloatText]

/-- A row as `append` writes it, at its place in the history. -/
structure RowSound (i : Nat) (row : Row) : Prop where
  sequence : row.sequence = i + 1
  verified : rowVerified row = .ok true
  collected : ∃ instant : DateTime, row.collectedAt = instant.isoformat

/-- A history as the store builds it. -/
structure Sound (l : Ledger) : Prop where
  chained : PrunedLog.Chained Row.recordHash Row.previousHash genesis l.history
  rows : ∀ (i : Nat) (row : Row), l.history[i]? = some row → RowSound i row
  ordered : l.history.Pairwise fun a b ↦ a.collectedAt ≤ b.collectedAt
  distinct : (l.retained.map Row.runId).Nodup

end Ledger

/-- The database shows this ledger. -/
structure Shows (db : Db) (l : Ledger) : Prop where
  metadata : db.metadata = some ⟨l.checkpoint, l.lastCollectedAt⟩
  rows : db.rows = l.retained
  sequence : db.sequence.getD 0 = l.history.length

/-- The last retained row is the last row of the history. -/
theorem Ledger.getLast?_retained {l : Ledger} {row : Row} (h : l.retained.getLast? = some row) :
    l.history.getLast? = some row := by
  rw [← l.take_append_retained, List.getLast?_append, h]
  rfl

/-- The hash that a new row names is the head of the ledger. -/
theorem Shows.previousHash {db : Db} {l : Ledger} (hs : Shows db l) {md : Metadata}
    (hmd : db.metadata = some md) : previousHash md db.rows = l.headHash := by
  have hc : md.checkpointHash = l.checkpoint := by
    rw [hs.metadata] at hmd
    cases hmd
    rfl
  rw [Telemetry.previousHash, hs.rows, hc, Ledger.headHash, Ledger.checkpoint,
    ← PrunedLog.linkAfter_checkpoint]
  rfl

private theorem payloadJson_wf (collectedAt sourceId taskId : Text) (trace : DecisionTrace) :
    (payloadJson collectedAt sourceId taskId trace).WF := by
  refine ⟨?_, trivial, trivial, trivial, trace.asdict_wf, trivial⟩
  simp only [List.map_cons, List.map_nil]
  decide

private theorem payloadJson_allShort (collectedAt sourceId taskId : Text) (trace : DecisionTrace) :
    (payloadJson collectedAt sourceId taskId trace).allShort = true := by
  simp only [payloadJson, Json.allShort, membersShort, trace.asdict_allShort, Bool.and_true]

private theorem payloadNames_payloadJson (collectedAt sourceId taskId : Text)
    (trace : DecisionTrace) :
    payloadNames (payloadJson collectedAt sourceId taskId trace).sortKeys trace.runId
      collectedAt = true := by
  have hkeys := (payloadJson_wf collectedAt sourceId taskId trace).1
  have htrace := trace.asdict_wf.1
  rw [payloadNames, payloadJson, Json.get?_sortKeys hkeys, Json.get?_sortKeys hkeys]
  have h1 : (Json.obj [("collected_at", .str collectedAt), ("source_id", .str sourceId),
      ("task_id", .str taskId), ("trace", trace.asdict)]).get? "trace" = some trace.asdict := by
    rfl
  have h2 : (Json.obj [("collected_at", .str collectedAt), ("source_id", .str sourceId),
      ("task_id", .str taskId), ("trace", trace.asdict)]).get? "collected_at" =
      some (.str collectedAt) := by
    rfl
  have h3 : trace.asdict.sortKeys.get? "run_id" = some (.str trace.runId) := by
    rw [DecisionTrace.asdict, Json.get?_sortKeys htrace]
    rfl
  rw [h1, h2, Option.map_some, Option.map_some, Option.bind_some, h3]
  simp [Json.sortKeys]

/-- Exactly the approved pairs and admitted traces pass the checks. -/
theorem admitTrace_eq_ok {grants : Grants} {trace : DecisionTrace} {sourceId taskId : Text} :
    admitTrace grants trace sourceId taskId = .ok () ↔
      ∃ grant, grants.bySource.get? sourceId = some grant ∧ taskId ∈ grant.taskIds ∧
        Admitted trace := by
  unfold admitTrace
  cases hg : grants.bySource.get? sourceId with
  | none => simp
  | some grant =>
    by_cases ht : taskId ∈ grant.taskIds
    · simp [ht, validateTrace_eq_ok]
    · simp [ht]

/-- Everything a serialized trace says. -/
theorem serialize_eq_ok [FloatText] {trace : DecisionTrace} {sourceId taskId : Text}
    {now : DateTime} {p : Prepared} (h : serialize trace sourceId taskId now = .ok p) :
    ∃ cutoff payload, now.minusDays retentionDays = some cutoff ∧
      dumps false false (payloadJson now.isoformat sourceId taskId trace) = .ok payload ∧
      p = ⟨trace.runId, now.isoformat, cutoff.isoformat, payload⟩ := by
  unfold serialize at h
  obtain ⟨text, hc, h⟩ := bind_eq_ok.mp h
  obtain ⟨payload, hp, h⟩ := bind_eq_ok.mp h
  unfold retentionCutoff at hc
  split at hc
  · cases hc
  · next cutoff hcut =>
    cases hc
    exact ⟨cutoff, payload, hcut, hp, (Except.ok.inj h).symm⟩

/-- Everything a committed append says. -/
theorem appendTransaction_eq_ok [Digest] {db db' : Db} {p : Prepared} {record : LedgerRecord}
    (h : appendTransaction db p = .ok (record, db')) :
    ∃ md digest, db.metadata = some md ∧ ¬ p.collectedAt < md.lastCollectedAt ∧
      (∀ row ∈ db.rows, ¬ row.collectedAt ≤ p.retentionCutoff) ∧
      recordHash (previousHash md db.rows) p.payload = .ok digest ∧
      (∀ row ∈ db.rows, row.runId ≠ p.runId) ∧
      record = ⟨previousHash md db.rows, digest, p.payload⟩ ∧
      db' = { db with
        metadata := some { md with lastCollectedAt := p.collectedAt }
        rows := db.rows ++ [⟨db.nextSequence, p.runId, p.collectedAt, previousHash md db.rows,
          digest, p.payload⟩]
        sequence := some db.nextSequence } := by
  unfold appendTransaction at h
  split at h
  · cases h
  · next md hmd =>
    split at h
    · cases h
    · next hback =>
      split at h
      · cases h
      · next hover =>
        obtain ⟨digest, hd, h⟩ := bind_eq_ok.mp h
        split at h
        · cases h
        · next huniq =>
          cases h
          refine ⟨md, digest, hmd, hback, ?_, hd, ?_, rfl, rfl⟩
          · simpa using hover
          · simpa using huniq

/-- A purge without an expired row changes nothing. -/
theorem purgeTransaction_nil {db : Db} (purgedAt : Text) {cutoff : Text}
    (h : db.rows.filter (fun row ↦ decide (row.collectedAt ≤ cutoff)) = []) :
    purgeTransaction db purgedAt cutoff = (0, db) := by
  simp only [purgeTransaction, h, List.getLast?_nil]

/-- A purge with a last expired row. -/
theorem purgeTransaction_concat {db : Db} (purgedAt : Text) {cutoff : Text} {front : List Row}
    {last : Row}
    (h : db.rows.filter (fun row ↦ decide (row.collectedAt ≤ cutoff)) = front ++ [last]) :
    purgeTransaction db purgedAt cutoff = ((front ++ [last]).length,
      { db with
        metadata := db.metadata.map fun md ↦ { md with checkpointHash := last.recordHash }
        rows := db.rows.filter fun row ↦ !decide (row.sequence ≤ last.sequence)
        purgeAudit := db.purgeAudit ++
          [⟨purgedAt, (front ++ [last]).length, last.recordHash⟩] }) := by
  simp only [purgeTransaction, h, List.getLast?_concat]

section Sound

variable [Digest] [FloatText]

/-- The empty ledger is sound. -/
theorem Ledger.sound_empty : Ledger.Sound PrunedLog.empty where
  chained := trivial
  rows := fun i row h ↦ by simp [PrunedLog.empty] at h
  ordered := List.Pairwise.nil
  distinct := List.nodup_nil

namespace Ledger.Sound

variable {l : Ledger} (h : l.Sound)

include h

/-- A retained row is a row of the history. -/
theorem row_of_mem {row : Row} (hm : row ∈ l.retained) : ∃ i, RowSound i row := by
  obtain ⟨i, hi⟩ := List.mem_iff_getElem?.mp (List.mem_of_mem_drop hm)
  exact ⟨i, h.rows i row hi⟩

/-- The numbers of the retained rows increase. -/
theorem sequence_lt : l.retained.Pairwise fun a b ↦ a.sequence < b.sequence := by
  have hall : l.history.Pairwise fun a b ↦ a.sequence < b.sequence := by
    rw [List.pairwise_iff_getElem]
    intro i j hi hj hij
    have hi' := (h.rows i _ (List.getElem?_eq_getElem hi)).sequence
    have hj' := (h.rows j _ (List.getElem?_eq_getElem hj)).sequence
    omega
  exact hall.drop

/-- The retained rows are in the order of time. -/
theorem collectedAt_le : l.retained.Pairwise fun a b ↦ a.collectedAt ≤ b.collectedAt :=
  h.ordered.drop

/-- No row is collected after the last one. -/
theorem le_lastCollectedAt {row : Row} (hm : row ∈ l.history) :
    row.collectedAt ≤ l.lastCollectedAt := by
  cases hl : l.history.getLast? with
  | none =>
    rw [List.getLast?_eq_none_iff] at hl
    rw [hl] at hm
    cases hm
  | some last =>
    obtain ⟨front, hf⟩ := List.getLast?_eq_some_iff.mp hl
    have ho := h.ordered
    rw [Ledger.lastCollectedAt, hl, Option.map_some, Option.getD_some]
    rw [hf, List.pairwise_append] at ho
    rw [hf] at hm
    rcases List.mem_append.mp hm with hm | hm
    · exact ho.2.2 row hm last (List.mem_singleton_self last)
    · rw [List.mem_singleton.mp hm]

/-- No row is numbered above the length of the history. -/
theorem sequence_le {row : Row} (hm : row ∈ l.history) : row.sequence ≤ l.history.length := by
  obtain ⟨i, hi⟩ := List.mem_iff_getElem?.mp hm
  have hlt := (List.getElem?_eq_some_iff.mp hi).1
  rw [(h.rows i row hi).sequence]
  omega

/-- The last row has the number of the history's length. -/
theorem sequence_last {row : Row} (hl : l.history.getLast? = some row) :
    row.sequence = l.history.length := by
  rw [List.getLast?_eq_getElem?] at hl
  have hlt := (List.getElem?_eq_some_iff.mp hl).1
  rw [(h.rows _ row hl).sequence]
  omega

end Ledger.Sound

private theorem verifyRows_of_sound {start : Text} {rows : List Row}
    (hc : PrunedLog.Chained Row.recordHash Row.previousHash start rows)
    (hv : ∀ row ∈ rows, rowVerified row = .ok true) :
    verifyRows start rows = .ok (some (PrunedLog.linkAfter Row.recordHash start rows)) := by
  induction rows generalizing start with
  | nil => rfl
  | cons row rows ih =>
    have hl : PrunedLog.linkAfter Row.recordHash start (row :: rows) =
        PrunedLog.linkAfter Row.recordHash row.recordHash rows :=
      PrunedLog.linkAfter_append Row.recordHash start [row] rows
    rw [verifyRows, if_neg (not_not.mpr hc.1), hv row List.mem_cons_self, hl,
      ← ih hc.2 fun r hr ↦ hv r (List.mem_cons_of_mem row hr)]
    rfl

/-- A database that shows a sound ledger verifies, with the ledger's head. -/
theorem Shows.verifiedHead {db : Db} {l : Ledger} (hs : Shows db l) (h : l.Sound) :
    db.verifiedHead = .ok (some (l.history.length, l.headHash)) := by
  have hlast : ∀ row, db.rows.getLast? = some row →
      row.collectedAt = l.lastCollectedAt ∧ row.sequence = l.history.length := by
    intro row hr
    rw [hs.rows] at hr
    have hh := Ledger.getLast?_retained hr
    refine ⟨?_, h.sequence_last hh⟩
    rw [Ledger.lastCollectedAt, hh]
    rfl
  have hrows : verifyRows l.checkpoint db.rows = .ok (some l.headHash) := by
    have hv : ∀ row ∈ l.retained, rowVerified row = .ok true := by
      intro row hr
      obtain ⟨i, hi⟩ := h.row_of_mem hr
      exact hi.verified
    rw [hs.rows, Ledger.checkpoint, Ledger.headHash,
      verifyRows_of_sound (PrunedLog.chained_retained _ _ h.chained) hv,
      PrunedLog.linkAfter_checkpoint]
  have hat : (db.rows.getLast?.any fun row ↦ decide (row.collectedAt ≠ l.lastCollectedAt)) =
      false := by
    cases hr : db.rows.getLast? with
    | none => rfl
    | some row => simp [(hlast row hr).1]
  have hseq : (db.rows.getLast?.any fun row ↦ decide (row.sequence ≠ (l.history.length : Int))) =
      false := by
    cases hr : db.rows.getLast? with
    | none => rfl
    | some row => simp [(hlast row hr).2]
  simp only [Db.verifiedHead, Telemetry.verifiedHead, hs.metadata, hs.sequence, hat, hseq, hrows,
    Bool.false_eq_true, if_false]
  rfl

/-- A database that shows a sound ledger verifies. -/
theorem Shows.verify {db : Db} {l : Ledger} (hs : Shows db l) (h : l.Sound) :
    db.verify = .ok true := by
  rw [Db.verify, hs.verifiedHead h]
  rfl

/-! ### Append -/

/-- A row built from a payload as `append` serializes it is verified. -/
theorem rowVerified_payload {collectedAt sourceId taskId payload previous digest : Text}
    {trace : DecisionTrace} (sequence : Int)
    (hp : dumps false false (payloadJson collectedAt sourceId taskId trace) = .ok payload)
    (hd : recordHash previous payload = .ok digest) :
    rowVerified ⟨sequence, trace.runId, collectedAt, previous, digest, payload⟩ = .ok true := by
  obtain ⟨hl, hdump⟩ := dumps_loads_dumps (payloadJson_wf collectedAt sourceId taskId trace)
    (payloadJson_allShort collectedAt sourceId taskId trace) hp
  simp only [rowVerified, hl, hdump, payloadNames_payloadJson, Bool.not_true, Bool.false_eq_true,
    if_false, ne_eq, not_true_eq_false, hd]
  exact congrArg Except.ok (decide_eq_true rfl)

/-- The next key is the next position of the history. -/
theorem Shows.nextSequence {db : Db} {l : Ledger} (hs : Shows db l) (h : l.Sound) :
    db.nextSequence = l.history.length + 1 := by
  rw [Db.nextSequence, hs.sequence, hs.rows, foldl_max_eq]
  intro n hn
  obtain ⟨row, hr, rfl⟩ := List.mem_map.mp hn
  exact h.sequence_le (List.mem_of_mem_drop hr)

/-- A committed append appends one sound row to the ledger. -/
theorem Shows.append {db db' : Db} {l : Ledger} (hs : Shows db l) (h : l.Sound)
    {trace : DecisionTrace} {sourceId taskId : Text}
    {now : DateTime} {p : Prepared} (hp : serialize trace sourceId taskId now = .ok p)
    {record : LedgerRecord} (ha : appendTransaction db p = .ok (record, db')) :
    ∃ row, Shows db' (PrunedLog.append l row) ∧ Ledger.Sound (PrunedLog.append l row) ∧
      row.previousHash = l.headHash ∧ row.runId = trace.runId ∧
      row.collectedAt = now.isoformat ∧
      record = ⟨row.previousHash, row.recordHash, row.canonicalJson⟩ := by
  obtain ⟨cutoff, payload, -, hdump, rfl⟩ := serialize_eq_ok hp
  obtain ⟨md, digest, hmd, hback, -, hd, huniq, rfl, rfl⟩ := appendTransaction_eq_ok ha
  have hprev := hs.previousHash hmd
  have hseq := hs.nextSequence h
  have hlast : md.lastCollectedAt = l.lastCollectedAt := by
    rw [hs.metadata] at hmd
    cases hmd
    rfl
  have hcheck : md.checkpointHash = l.checkpoint := by
    rw [hs.metadata] at hmd
    cases hmd
    rfl
  refine ⟨⟨db.nextSequence, trace.runId, now.isoformat, Telemetry.previousHash md db.rows, digest,
    payload⟩,
    ⟨?_, ?_, ?_⟩, ⟨?_, ?_, ?_, ?_⟩, hprev, rfl, rfl, rfl⟩
  · rw [hcheck, Ledger.checkpoint, Ledger.checkpoint, PrunedLog.checkpoint_append,
      Ledger.lastCollectedAt]
    simp [PrunedLog.append]
  · rw [hs.rows, PrunedLog.retained_append]
  · simp [PrunedLog.append, hseq]
  · exact (PrunedLog.chained_concat _ _).mpr ⟨h.chained, hprev⟩
  · intro i row hr
    rw [PrunedLog.append, List.getElem?_append] at hr
    split at hr
    · exact h.rows i row hr
    · next hi =>
      rw [List.getElem?_singleton] at hr
      split at hr
      · cases hr
        exact ⟨by simp only; omega, rowVerified_payload _ hdump hd, now, rfl⟩
      · cases hr
  · rw [PrunedLog.append, List.pairwise_append]
    refine ⟨h.ordered, List.pairwise_singleton _ _, ?_⟩
    intro a ham b hb
    rw [List.mem_singleton] at hb
    subst hb
    rw [hlast, not_lt] at hback
    exact (h.le_lastCollectedAt ham).trans hback
  · rw [PrunedLog.retained_append, List.map_append, List.nodup_append]
    refine ⟨h.distinct, List.nodup_singleton _, ?_⟩
    intro a ham b hb
    rw [List.map_singleton, List.mem_singleton] at hb
    obtain ⟨row, hr, rfl⟩ := List.mem_map.mp ham
    rw [← hs.rows] at hr
    rw [hb]
    exact huniq row hr

/-! ### Purge -/

-- dropping expired rows keeps a ledger sound
private theorem sound_prune {l : Ledger} (h : l.Sound) {n : Nat} (hn : n ≤ l.retained.length) :
    Ledger.Sound (PrunedLog.prune l n hn) where
  chained := h.chained
  rows := h.rows
  ordered := h.ordered
  distinct := by
    rw [PrunedLog.retained_prune]
    exact h.distinct.sublist ((List.drop_sublist n l.retained).map _)

/-- A purge drops exactly the expired leading rows of the ledger. -/
theorem Shows.purge {db : Db} {l : Ledger} (hs : Shows db l) (h : l.Sound)
    (purgedAt cutoff : Text) :
    ∃ n, ∃ hn : n ≤ l.retained.length, (purgeTransaction db purgedAt cutoff).1 = n ∧
      Shows (purgeTransaction db purgedAt cutoff).2 (PrunedLog.prune l n hn) ∧
      Ledger.Sound (PrunedLog.prune l n hn) ∧
      (∀ row ∈ l.retained.take n, row.collectedAt ≤ cutoff) ∧
      ∀ row ∈ l.retained.drop n, ¬ row.collectedAt ≤ cutoff := by
  -- rows are in the order of time, so the expired ones come first
  have down : l.retained.Pairwise fun a b ↦ decide (b.collectedAt ≤ cutoff) = true →
      decide (a.collectedAt ≤ cutoff) = true := by
    refine h.collectedAt_le.imp fun hab hb ↦ ?_
    rw [decide_eq_true_eq] at hb ⊢
    exact hab.trans hb
  obtain ⟨expired, kept, hsplit, hexp, hkept⟩ := exists_prefix down
  have hfilter : db.rows.filter (fun row ↦ decide (row.collectedAt ≤ cutoff)) = expired := by
    rw [hs.rows, hsplit]
    exact filter_prefix hexp hkept
  have hlen : expired.length ≤ l.retained.length := by
    rw [hsplit, List.length_append]
    exact Nat.le_add_right _ _
  have htake : l.retained.take expired.length = expired := by
    rw [hsplit, List.take_left]
  have hdrop : l.retained.drop expired.length = kept := by
    rw [hsplit, List.drop_left]
  have hold : ∀ row ∈ l.retained.take expired.length, row.collectedAt ≤ cutoff := by
    rw [htake]
    exact fun row hr ↦ of_decide_eq_true (hexp row hr)
  have hyoung : ∀ row ∈ l.retained.drop expired.length, ¬ row.collectedAt ≤ cutoff := by
    rw [hdrop]
    exact fun row hr ↦ of_decide_eq_false (hkept row hr)
  have hsound := sound_prune h hlen
  rcases expired.eq_nil_or_concat' with rfl | ⟨front, last, rfl⟩
  · rw [purgeTransaction_nil purgedAt hfilter]
    exact ⟨0, Nat.zero_le _, rfl, hs, hsound, hold, hyoung⟩
  · rw [purgeTransaction_concat purgedAt hfilter]
    refine ⟨_, hlen, rfl, ⟨?_, ?_, hs.sequence⟩, hsound, hold, hyoung⟩
    · have hcheck : Ledger.checkpoint (PrunedLog.prune l _ hlen) = last.recordHash := by
        rw [Ledger.checkpoint, PrunedLog.checkpoint_prune, htake, PrunedLog.linkAfter_concat]
      rw [hs.metadata, hcheck]
      rfl
    · -- the last expired key separates the expired rows from the others
      have hseq := h.sequence_lt
      rw [hsplit, List.pairwise_append, List.pairwise_append] at hseq
      rw [hs.rows, PrunedLog.retained_prune, hdrop, hsplit, List.filter_append,
        List.filter_eq_nil_iff.mpr, List.filter_eq_self.mpr, List.nil_append]
      · intro row hr
        have := hseq.2.2 last (List.mem_append_right _ (List.mem_singleton_self last)) row hr
        simpa using this
      · intro row hr
        have hle : row.sequence ≤ last.sequence := by
          rcases List.mem_append.mp hr with hr | hr
          · have := hseq.1.2.2 row hr last (List.mem_singleton_self last)
            omega
          · rw [List.mem_singleton.mp hr]
        simpa using hle

end Sound

end C3RSpec.Telemetry
