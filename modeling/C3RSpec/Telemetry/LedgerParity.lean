import C3RSpec.Base.Loop
import C3RSpec.Telemetry.TraceLedger

/-!
# The list and the table hold the same ledger

`c3r/telemetry/sqlite_ledger.py:22–76` beside `c3r/telemetry/trace_ledger.py:33–61`. Both ledgers
are fed the same traces, and the file is closed and opened again anywhere between them. Every
text that the table binds has been hashed before, so an append fails in both ledgers or in none.
-/

namespace C3RSpec.Telemetry

open Base

/-- What happens to the two ledgers between two looks at them. -/
inductive LedgerCall where
  | append (trace : DecisionTrace)
  | reopen

section Parity

variable [Digest] [FloatText]

/-- The list is not touched when the file is opened again. -/
def TraceLedger.call (records : List LedgerRecord) : LedgerCall → List LedgerRecord
  | .append trace => (TraceLedger.append records trace).2
  | .reopen => records

/-- A rejected file has no ledger. -/
def SqliteTraceLedger.call (table : LedgerTable) : LedgerCall → Except PyError LedgerTable
  | .append trace => .ok (SqliteTraceLedger.append table trace).2
  | .reopen => do
    SqliteTraceLedger.reopen table
    return table

/-- A list ledger after some calls. -/
def TraceLedger.run (calls : List LedgerCall) : List LedgerRecord :=
  calls.foldl TraceLedger.call []

/-- A file after the same calls. -/
def SqliteTraceLedger.run (calls : List LedgerCall) : Except PyError LedgerTable :=
  calls.foldlM SqliteTraceLedger.call .empty

/-- The rows are in the order of their keys and hold verified records. -/
structure Mirrors (table : LedgerTable) (records : List LedgerRecord) : Prop where
  ordered : (table.rows.map LedgerRow.sequence).Pairwise (· < ·)
  counted : ∀ row ∈ table.rows, row.sequence ≤ table.sequence
  records_eq : table.rows.map LedgerRow.record = records
  verified : verifyLedger records = .ok true

namespace Mirrors

variable {table : LedgerTable} {records : List LedgerRecord}

private theorem records_table (h : Mirrors table records) : table.records = records := by
  have hsorted : table.rows.Pairwise fun a b ↦ a.sequence ≤ b.sequence := by
    refine (List.pairwise_map.mp h.ordered).imp ?_
    intro a b hab
    exact Nat.le_of_lt hab
  rw [LedgerTable.records, hsorted.insertionSort_eq, h.records_eq]

private theorem previousHash_table (h : Mirrors table records) :
    table.previousHash = lastHash records := by
  rw [LedgerTable.previousHash, h.records_table, lastHash, PrunedLog.linkAfter]

-- A link is a digest or the genesis hash, so it can be bound.
private theorem isAscii_lastHash (h : Mirrors table records) :
    (lastHash records).isAscii = true := by
  obtain ⟨-, hsealed⟩ := verifyRecords_eq_true h.verified
  cases hlast : records.getLast? with
  | none =>
    rw [lastHash, PrunedLog.linkAfter, hlast]
    decide
  | some record =>
    obtain ⟨bytes, hbytes⟩ := (hsealed record (List.mem_of_getLast? hlast)).exists_digest
    rw [lastHash, PrunedLog.linkAfter, hlast, Option.map_some, Option.getD_some, ← hbytes]
    exact isAscii_of_hex (Digest.isHex_sha256Hex bytes)

private theorem insert_eq (h : Mirrors table records) {record : LedgerRecord}
    (hprev : record.previousHash.IsScalar) (hhash : record.recordHash.IsScalar)
    (hjson : record.canonicalJson.IsScalar) :
    table.insert record = .ok ⟨table.rows ++ [⟨table.sequence + 1, record⟩], table.sequence + 1⟩ := by
  obtain ⟨a, ha⟩ := Text.exists_encodeUtf8_iff.mpr hprev
  obtain ⟨b, hb⟩ := Text.exists_encodeUtf8_iff.mpr hhash
  obtain ⟨c, hc⟩ := Text.exists_encodeUtf8_iff.mpr hjson
  have hmax : (table.rows.map LedgerRow.sequence).foldl max table.sequence = table.sequence := by
    apply foldl_max_eq
    intro n hn
    obtain ⟨row, hrow, rfl⟩ := List.mem_map.mp hn
    exact h.counted row hrow
  rw [LedgerTable.insert, ha, hb, hc, hmax]
  rfl

private theorem concat (h : Mirrors table records) {record : LedgerRecord}
    (hrecord : recordVerified (lastHash records) record = .ok true) :
    Mirrors ⟨table.rows ++ [⟨table.sequence + 1, record⟩], table.sequence + 1⟩
      (records ++ [record]) where
  ordered := by
    rw [List.map_append, List.pairwise_append]
    refine ⟨h.ordered, List.pairwise_singleton _ _, ?_⟩
    intro a ha b hb
    obtain ⟨row, hrow, rfl⟩ := List.mem_map.mp ha
    rw [List.map_singleton, List.mem_singleton] at hb
    rw [hb]
    exact Nat.lt_succ_of_le (h.counted row hrow)
  counted := by
    intro row hrow
    obtain hrow | hrow := List.mem_append.mp hrow
    · exact Nat.le_succ_of_le (h.counted row hrow)
    · rw [List.mem_singleton.mp hrow]
  records_eq := by
    rw [List.map_append, h.records_eq]
    rfl
  verified := verifyRecords_concat h.verified hrecord

private theorem appendTransaction_eq (h : Mirrors table records) {canonical digest : Text}
    (hhash : recordHash (lastHash records) canonical = .ok digest) :
    table.appendTransaction canonical = .ok (⟨lastHash records, digest, canonical⟩,
      ⟨table.rows ++ [⟨table.sequence + 1, ⟨lastHash records, digest, canonical⟩⟩],
        table.sequence + 1⟩) := by
  obtain ⟨bytes, hbytes, hdigest⟩ := bind_eq_ok.mp hhash
  have hscalar : (lastHash records ++ 10 :: canonical).IsScalar :=
    Text.exists_encodeUtf8_iff.mp ⟨bytes, hbytes⟩
  have hjson : canonical.IsScalar := fun c hc ↦ hscalar c (by simp [hc])
  have hhex : digest.IsScalar := by
    rw [← Except.ok.inj hdigest]
    exact Text.isScalar_of_isAscii (isAscii_of_hex (Digest.isHex_sha256Hex bytes))
  rw [LedgerTable.appendTransaction, h.previousHash_table, hhash]
  change (table.insert ⟨lastHash records, digest, canonical⟩ >>= _) = _
  rw [h.insert_eq (Text.isScalar_of_isAscii h.isAscii_lastHash) hhex hjson]
  rfl

/-- An append adds one record to both ledgers, or fails and changes neither. -/
theorem append_cases (h : Mirrors table records) (trace : DecisionTrace) :
    (∃ e, TraceLedger.append records trace = (.error e, records) ∧
      SqliteTraceLedger.append table trace = (.error e, table)) ∨
    ∃ record table', TraceLedger.append records trace = (.ok record, records ++ [record]) ∧
      SqliteTraceLedger.append table trace = (.ok record, table') ∧
      Mirrors table' (records ++ [record]) := by
  unfold TraceLedger.append SqliteTraceLedger.append
  cases hcanonical : canonicalTraceJson trace with
  | error e => exact .inl ⟨e, rfl, rfl⟩
  | ok canonical =>
    cases hhash : recordHash (lastHash records) canonical with
    | error e =>
      refine .inl ⟨e, ?_, ?_⟩
      · simp only [hhash]
      · have htransaction : table.appendTransaction canonical = .error e := by
          rw [LedgerTable.appendTransaction, h.previousHash_table, hhash]
          rfl
        simp only [htransaction]
    | ok digest =>
      refine .inr ⟨⟨lastHash records, digest, canonical⟩, _, ?_, ?_,
        h.concat (recordVerified_of_dumps trace.asdict_wf trace.asdict_allShort hcanonical
          hhash)⟩
      · simp only [hhash]
      · simp only [h.appendTransaction_eq hhash]

end Mirrors

/-- A reopened file is accepted, and any other call keeps the ledgers the same. -/
theorem Mirrors.call {table : LedgerTable} {records : List LedgerRecord}
    (h : Mirrors table records) (call : LedgerCall) :
    ∃ table', SqliteTraceLedger.call table call = .ok table' ∧
      Mirrors table' (TraceLedger.call records call) := by
  cases call with
  | append trace =>
    obtain ⟨e, hlist, htable⟩ | ⟨record, table', hlist, htable, hm⟩ := h.append_cases trace
    · refine ⟨table, ?_, ?_⟩
      · rw [SqliteTraceLedger.call, htable]
      · rw [TraceLedger.call, hlist]
        exact h
    · refine ⟨table', ?_, ?_⟩
      · rw [SqliteTraceLedger.call, htable]
      · rw [TraceLedger.call, hlist]
        exact hm
  | reopen =>
    refine ⟨table, ?_, h⟩
    rw [SqliteTraceLedger.call, SqliteTraceLedger.reopen, h.records_table, h.verified]
    rfl

/-- Every call keeps the ledgers the same, so every run does. -/
theorem Mirrors.foldl {table : LedgerTable} {records : List LedgerRecord}
    (h : Mirrors table records) (calls : List LedgerCall) :
    ∃ table', calls.foldlM SqliteTraceLedger.call table = .ok table' ∧
      Mirrors table' (calls.foldl TraceLedger.call records) := by
  induction calls generalizing table records with
  | nil => exact ⟨table, rfl, h⟩
  | cons call calls ih =>
    obtain ⟨table', hcall, hm⟩ := h.call call
    obtain ⟨table'', hcalls, hm'⟩ := ih hm
    refine ⟨table'', ?_, hm'⟩
    rw [List.foldlM_cons, hcall]
    exact hcalls

/-- After any appends and reopenings the file has been accepted each time and holds the records
of the list, which verify. The next append answers the same in both, and a failed one changes
neither. -/
theorem ledgers_agree (calls : List LedgerCall) :
    ∃ table, SqliteTraceLedger.run calls = .ok table ∧ table.records = TraceLedger.run calls ∧
      verifyLedger (TraceLedger.run calls) = .ok true ∧
      SqliteTraceLedger.reopen table = .ok () ∧
      ∀ trace, (SqliteTraceLedger.append table trace).1 =
          (TraceLedger.append (TraceLedger.run calls) trace).1 ∧
        ∀ e, (TraceLedger.append (TraceLedger.run calls) trace).1 = .error e →
          (TraceLedger.append (TraceLedger.run calls) trace).2 = TraceLedger.run calls ∧
          (SqliteTraceLedger.append table trace).2 = table := by
  have hempty : Mirrors .empty [] := ⟨List.Pairwise.nil, fun _ hr ↦ (by cases hr), rfl, rfl⟩
  obtain ⟨table, hrun, hm⟩ := hempty.foldl calls
  refine ⟨table, hrun, hm.records_table, hm.verified, ?_, fun trace ↦ ?_⟩
  · rw [SqliteTraceLedger.reopen, hm.records_table, hm.verified]
    rfl
  · obtain ⟨e, hlist, htable⟩ | ⟨record, table', hlist, htable, -⟩ := hm.append_cases trace
    · rw [TraceLedger.run, hlist, htable]
      exact ⟨rfl, fun _ _ ↦ ⟨rfl, rfl⟩⟩
    · rw [TraceLedger.run, hlist, htable]
      exact ⟨rfl, fun _ h ↦ (by cases h)⟩

end Parity

end C3RSpec.Telemetry
