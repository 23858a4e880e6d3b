import C3RSpec.Base.JsonLine
import C3RSpec.Base.PrunedLog
import C3RSpec.Telemetry.Trace

/-!
# Trace ledgers

`c3r/telemetry/trace_ledger.py:33–109` and `c3r/telemetry/sqlite_ledger.py:15–76`. One ledger
keeps its records in a list, the other in a table; both link a record to the one before it by its
hash, and the second verifies the chain when it is opened. File modes and PRAGMAs are not
modelled.
-/

namespace C3RSpec.Telemetry

open Base

section Ledger

variable [Digest] [FloatText]

/-- `canonical_trace_json`. -/
def canonicalTraceJson (trace : DecisionTrace) : Except PyError Text :=
  dumps false false trace.asdict

/-- The body of the loop of `TraceLedger.verify`. -/
def recordVerified (previous : Text) (record : LedgerRecord) : Except PyError Bool :=
  if record.previousHash ≠ previous then .ok false
  else
    match loads record.canonicalJson with
    | none => .ok false
    | some decoded =>
      match dumps false false decoded with
      | .error _ => .ok false
      | .ok canonical =>
        if canonical ≠ record.canonicalJson then .ok false
        else do
          let digest ← recordHash previous canonical
          return decide (digest = record.recordHash)

/-- The loop of `TraceLedger.verify`. -/
def verifyRecords : Text → List LedgerRecord → Except PyError Bool
  | _, [] => .ok true
  | previous, record :: rest => do
    if ← recordVerified previous record then verifyRecords record.recordHash rest else .ok false

/-- `TraceLedger.verify`. -/
def verifyLedger (records : List LedgerRecord) : Except PyError Bool :=
  verifyRecords genesis records

/-- The hash that the next record names. -/
def lastHash (records : List LedgerRecord) : Text :=
  PrunedLog.linkAfter LedgerRecord.recordHash genesis records

/-! ### The ledger in memory -/

/-- `TraceLedger.append`: the outcome and the records afterwards. -/
def TraceLedger.append (records : List LedgerRecord) (trace : DecisionTrace) :
    Except PyError LedgerRecord × List LedgerRecord :=
  match canonicalTraceJson trace with
  | .error e => (.error e, records)
  | .ok canonical =>
    match recordHash (lastHash records) canonical with
    | .error e => (.error e, records)
    | .ok digest =>
      (.ok ⟨lastHash records, digest, canonical⟩, records ++ [⟨lastHash records, digest, canonical⟩])

/-! ### The ledger in a table -/

/-- A row of the table; `sequence` is its key. -/
structure LedgerRow where
  sequence : Nat
  record : LedgerRecord

/-- The table, and the counter of `AUTOINCREMENT`. -/
structure LedgerTable where
  rows : List LedgerRow
  sequence : Nat

/-- A new file. -/
def LedgerTable.empty : LedgerTable := ⟨[], 0⟩

/-- `SELECT … ORDER BY sequence`. -/
def LedgerTable.records (table : LedgerTable) : List LedgerRecord :=
  (table.rows.insertionSort fun a b ↦ a.sequence ≤ b.sequence).map LedgerRow.record

/-- `INSERT INTO records`; a text with a surrogate cannot be bound. -/
def LedgerTable.insert (table : LedgerTable) (record : LedgerRecord) :
    Except PyError LedgerTable := do
  let _ ← record.previousHash.encodeUtf8
  let _ ← record.recordHash.encodeUtf8
  let _ ← record.canonicalJson.encodeUtf8
  let sequence := (table.rows.map LedgerRow.sequence).foldl max table.sequence + 1
  return ⟨table.rows ++ [⟨sequence, record⟩], sequence⟩

/-- `SELECT record_hash … ORDER BY sequence DESC LIMIT 1`, or the genesis hash. -/
def LedgerTable.previousHash (table : LedgerTable) : Text :=
  (table.records.getLast?.map LedgerRecord.recordHash).getD genesis

/-- The transaction of `SqliteTraceLedger.append`. -/
def LedgerTable.appendTransaction (table : LedgerTable) (canonical : Text) :
    Except PyError (LedgerRecord × LedgerTable) := do
  let digest ← recordHash table.previousHash canonical
  let table' ← table.insert ⟨table.previousHash, digest, canonical⟩
  return (⟨table.previousHash, digest, canonical⟩, table')

/-- `SqliteTraceLedger.append`: an exception rolls the transaction back. -/
def SqliteTraceLedger.append (table : LedgerTable) (trace : DecisionTrace) :
    Except PyError LedgerRecord × LedgerTable :=
  match canonicalTraceJson trace with
  | .error e => (.error e, table)
  | .ok canonical =>
    match table.appendTransaction canonical with
    | .error e => (.error e, table)
    | .ok (record, table') => (.ok record, table')

/-- The constructor of `SqliteTraceLedger` on an existing file. -/
def SqliteTraceLedger.reopen (table : LedgerTable) : Except PyError Unit := do
  if ← verifyLedger table.records then return
  else throw (valueError "persisted trace ledger hash chain is invalid")

/-! ### The state hash inside the text -/

omit [Digest] [FloatText] in
private theorem quote_of_hex {t : Text} (h : t.all isHexChar = true) :
    quote false t = 34 :: (t ++ [34]) := by
  have hescape : ∀ c ∈ t, escapeChar false c = [c] := by
    intro c hc
    have hhex := List.all_eq_true.mp h c hc
    have hne : ∀ d : CodePoint, isHexChar d = false → c ≠ d := by
      rintro d hd rfl
      rw [hd] at hhex
      cases hhex
    simp only [isHexChar, Bool.or_eq_true, Bool.and_eq_true, decide_eq_true_eq] at hhex
    unfold escapeChar
    rw [if_neg (hne 34 (by decide)), if_neg (hne 92 (by decide)), if_neg (hne 10 (by decide)),
      if_neg (hne 13 (by decide)), if_neg (hne 9 (by decide)), if_neg (hne 12 (by decide)),
      if_neg (hne 8 (by decide)), if_neg (by omega)]
    rfl
  rw [quote, List.flatMap_congr hescape, List.flatMap_singleton']

omit [Digest] [FloatText] in
-- The keys of a trace in their order, with the state hash between the two parts.
private theorem sortKeys_asdict (t : DecisionTrace) :
    ∃ before after : List (Text × Json), ∀ x : Text,
      (DecisionTrace.asdict { t with stateHash := x }).sortKeys =
        .obj (before ++ (Text.ofString "state_hash", Json.str x) :: after) := by
  refine ⟨[("access_level", .str t.accessLevel),
    ("artifact_refs", (textsJson t.artifactRefs).sortKeys),
    ("authority_result", .str t.authorityResult),
    ("candidate_ids", (textsJson t.candidateIds).sortKeys),
    ("model_provider", .str t.modelProvider),
    ("probabilities", (dictJson (fun ps ↦ .arr (ps.map .float)) t.probabilities).sortKeys),
    ("run_id", .str t.runId),
    ("selected_action_id", (t.selectedActionId.elim Json.null Json.str).sortKeys)],
    [("system_cost", (dictJson .float t.systemCost).sortKeys),
    ("task_outcome", (dictJson Scalar.toJson t.taskOutcome).sortKeys),
    ("utility_quantiles", (dictJson .float t.utilityQuantiles).sortKeys)], fun x ↦ ?_⟩
  rfl

omit [Digest] in
/-- Writing a trace fails whatever its state hash is, or the hash stands between two texts that
do not depend on it. -/
theorem canonicalTraceJson_around (t : DecisionTrace) :
    (∃ e, ∀ x : Text, canonicalTraceJson { t with stateHash := x } = .error e) ∨
    ∃ before after : Text, ∀ x : Text, x.all isHexChar = true →
      canonicalTraceJson { t with stateHash := x } = .ok (before ++ x ++ after) := by
  have hfinite : ∀ x : Text, (DecisionTrace.asdict { t with stateHash := x }).allFinite =
      t.asdict.allFinite := fun _ ↦ rfl
  cases hf : t.asdict.allFinite with
  | false =>
    refine .inl ⟨valueError "Out of range float values are not JSON compliant", fun x ↦ ?_⟩
    rw [canonicalTraceJson, dumps, hfinite, hf]
    rfl
  | true =>
    obtain ⟨members, members', hsort⟩ := sortKeys_asdict t
    obtain ⟨before, after, hrender⟩ := exists_renderMembers false members members' "state_hash"
    refine .inr ⟨123 :: (before ++ [34]), 34 :: (after ++ [125]), fun x hx ↦ ?_⟩
    have htext : Json.render false (.str x) = 34 :: (x ++ [34]) := quote_of_hex hx
    rw [canonicalTraceJson, dumps, hfinite, hf, hsort, Json.render, hrender, htext]
    simp

/-! ### Verified records -/

/-- The hash covers the link and the text, and the text is on one line. -/
structure Sealed (previous digest canonical : Text) : Prop where
  oneLine : 10 ∉ canonical
  hash : recordHash previous canonical = .ok digest

omit [FloatText] in
/-- Without collisions a hash seals one link and one text. -/
theorem Sealed.inj (hinj : Function.Injective Digest.sha256Hex)
    {previous previous' digest canonical canonical' : Text} (h : Sealed previous digest canonical)
    (h' : Sealed previous' digest canonical') : previous = previous' ∧ canonical = canonical' := by
  obtain ⟨bytes, hb, hd⟩ := bind_eq_ok.mp h.hash
  obtain ⟨bytes', hb', hd'⟩ := bind_eq_ok.mp h'.hash
  have hbytes : bytes = bytes' := hinj ((Except.ok.inj hd).trans (Except.ok.inj hd').symm)
  exact newline_append_inj h.oneLine h'.oneLine (Text.encodeUtf8_inj hb (hbytes ▸ hb'))

omit [FloatText] in
/-- A sealing hash is a digest. -/
theorem Sealed.exists_digest {previous digest canonical : Text}
    (h : Sealed previous digest canonical) : ∃ bytes, Digest.sha256Hex bytes = digest := by
  obtain ⟨bytes, -, hd⟩ := bind_eq_ok.mp h.hash
  exact ⟨bytes, Except.ok.inj hd⟩

/-- A verified record follows the link and is sealed. -/
theorem recordVerified_eq_true {previous : Text} {record : LedgerRecord}
    (h : recordVerified previous record = .ok true) :
    record.previousHash = previous ∧
      Sealed record.previousHash record.recordHash record.canonicalJson := by
  unfold recordVerified at h
  split at h
  · cases h
  · next hprev =>
    rw [not_not] at hprev
    split at h
    · cases h
    · split at h
      · cases h
      · next canonical hcanonical =>
        split at h
        · cases h
        · next hsame =>
          rw [not_not] at hsame
          obtain ⟨digest, hdigest, hd⟩ := bind_eq_ok.mp h
          refine ⟨hprev, ⟨?_, ?_⟩⟩
          · rw [← hsame]
            exact (oneLine_dumps hcanonical).notMem_newline
          · rw [hprev, ← hsame, hdigest, of_decide_eq_true (Except.ok.inj hd)]

/-- A record of a written object verifies after the hash it was sealed with. -/
theorem recordVerified_of_dumps {j : Json} {previous digest canonical : Text} (hw : j.WF)
    (hi : j.allShort = true) (hcanonical : dumps false false j = .ok canonical)
    (hhash : recordHash previous canonical = .ok digest) :
    recordVerified previous ⟨previous, digest, canonical⟩ = .ok true := by
  obtain ⟨hloads, hdumps⟩ := dumps_loads_dumps hw hi hcanonical
  unfold recordVerified
  rw [if_neg (not_not.mpr rfl)]
  simp only [hloads, hdumps, hhash, ne_eq, not_true_eq_false, if_false]
  exact congrArg Except.ok (decide_eq_true rfl)

/-- Verified records are a chain of sealed ones. -/
theorem verifyRecords_eq_true {previous : Text} {records : List LedgerRecord}
    (h : verifyRecords previous records = .ok true) :
    PrunedLog.Chained LedgerRecord.recordHash LedgerRecord.previousHash previous records ∧
      ∀ record ∈ records, Sealed record.previousHash record.recordHash record.canonicalJson := by
  induction records generalizing previous with
  | nil => exact ⟨trivial, fun _ hr ↦ by cases hr⟩
  | cons record rest ih =>
    obtain ⟨verified, hv, hrest⟩ := bind_eq_ok.mp h
    cases verified with
    | false => cases hrest
    | true =>
      obtain ⟨hprev, hsealed⟩ := recordVerified_eq_true hv
      obtain ⟨hchain, hall⟩ := ih hrest
      refine ⟨⟨hprev, hchain⟩, fun r hr ↦ ?_⟩
      obtain rfl | hr := List.mem_cons.mp hr
      · exact hsealed
      · exact hall r hr

/-- A record that verifies after the last one extends verified records. -/
theorem verifyRecords_concat {start : Text} {records : List LedgerRecord}
    {record : LedgerRecord} (h : verifyRecords start records = .ok true)
    (hrecord : recordVerified (PrunedLog.linkAfter LedgerRecord.recordHash start records) record =
      .ok true) :
    verifyRecords start (records ++ [record]) = .ok true := by
  induction records generalizing start with
  | nil =>
    rw [List.nil_append, verifyRecords]
    rw [PrunedLog.linkAfter_nil] at hrecord
    rw [hrecord]
    rfl
  | cons first rest ih =>
    obtain ⟨verified, hv, hrest⟩ := bind_eq_ok.mp h
    cases verified with
    | false => cases hrest
    | true =>
      have hlink := PrunedLog.linkAfter_append LedgerRecord.recordHash start [first] rest
      rw [List.singleton_append] at hlink
      rw [hlink] at hrecord
      rw [List.cons_append, verifyRecords, hv]
      exact ih hrest hrecord

end Ledger

end C3RSpec.Telemetry
