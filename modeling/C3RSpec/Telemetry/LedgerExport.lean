import C3RSpec.Base.Lines
import C3RSpec.Base.Loop
import C3RSpec.Base.Repr
import C3RSpec.Telemetry.TraceLedger

/-!
# A ledger written out and read back

`c3r/telemetry/trace_ledger.py:28–85`. A ledger is written with one record on a line. A record's
payload is JSON text itself and is quoted once more, so every character at which `splitlines`
would cut it is escaped. Reading takes any text: each line that is not blank has to be a record,
and the records have to verify.
-/

namespace C3RSpec.Telemetry

open Base

/-- `asdict` of a record. -/
def LedgerRecord.asdict (record : LedgerRecord) : Json :=
  .obj [
    ("previous_hash", .str record.previousHash),
    ("record_hash", .str record.recordHash),
    ("canonical_json", .str record.canonicalJson)]

section Export

variable [Digest] [FloatText] [UnicodeData]

omit [Digest] [UnicodeData] in
/-- `TraceLedger.to_jsonl`. -/
def TraceLedger.toJsonl (records : List LedgerRecord) : Except PyError Text := do
  let lines ← records.mapM fun record ↦ dumps true true record.asdict
  return Text.join 10 lines

/-- What `TraceLedger.from_jsonl` tries on a line; a `JSONDecodeError` is a `ValueError`. -/
def LedgerRecord.ofLine (line : Text) : Except PyError LedgerRecord := do
  let value ←
    match loads line with
    | some value => .ok value
    | none => .error (valueError "invalid JSON")
  let previousHash ← value.member "previous_hash"
  let recordHash ← value.member "record_hash"
  let canonicalJson ← value.member "canonical_json"
  return ⟨previousHash.toStr, recordHash.toStr, canonicalJson.toStr⟩

/-- The loop of `TraceLedger.from_jsonl`, from a line number on. -/
def TraceLedger.readLines : Nat → List Text → Except PyError (List LedgerRecord)
  | _, [] => .ok []
  | lineNumber, line :: rest =>
    if isBlankText line then TraceLedger.readLines (lineNumber + 1) rest
    else
      match LedgerRecord.ofLine line with
      | .ok record => do
        let records ← TraceLedger.readLines (lineNumber + 1) rest
        return record :: records
      | .error e =>
        if e.kind = .valueError ∨ e.kind = .keyError ∨ e.kind = .typeError then
          .error (valueError s!"invalid trace ledger record on line {lineNumber}")
        else .error e

/-- The constructor of `TraceLedger`. -/
def TraceLedger.new (records : List LedgerRecord) : Except PyError (List LedgerRecord) :=
  if records = [] then .ok []
  else do
    if ← verifyLedger records then return records
    else throw (valueError "trace ledger hash chain is invalid")

/-- `TraceLedger.from_jsonl`. -/
def TraceLedger.fromJsonl (payload : Text) : Except PyError (List LedgerRecord) := do
  let records ← TraceLedger.readLines 1 payload.splitLines
  TraceLedger.new records

/-- The records of a ledger to which the traces were appended in turn; a trace that cannot be
appended leaves them as they are. -/
def TraceLedger.appendAll (traces : List DecisionTrace) : List LedgerRecord :=
  traces.foldl (fun records trace ↦ (TraceLedger.append records trace).2) []

/-! ### Reading any text -/

omit [Digest] in
private theorem kind_of_ofLine {line : Text} {e : PyError}
    (h : LedgerRecord.ofLine line = .error e) :
    e.kind = .valueError ∨ e.kind = .keyError ∨ e.kind = .typeError := by
  have hmember : ∀ {value : Json} {k : Text}, value.member k = .error e →
      e.kind = .valueError ∨ e.kind = .keyError ∨ e.kind = .typeError := by
    intro value k hv
    cases value with
    | obj es =>
      simp only [Json.member] at hv
      cases hget : (Json.obj es).get? k with
      | some v =>
        rw [hget] at hv
        cases hv
      | none =>
        rw [hget] at hv
        cases hv
        exact .inr (.inl rfl)
    | null | bool b | int n | float x | str t | arr xs =>
      cases hv
      exact .inr (.inr rfl)
  unfold LedgerRecord.ofLine at h
  cases hloads : loads line with
  | none =>
    rw [hloads] at h
    cases h
    exact .inl rfl
  | some value =>
    rw [hloads] at h
    obtain h | ⟨_, -, h⟩ := bind_eq_error.mp h
    · cases h
    obtain h | ⟨previousHash, -, h⟩ := bind_eq_error.mp h
    · exact hmember h
    obtain h | ⟨recordHash, -, h⟩ := bind_eq_error.mp h
    · exact hmember h
    obtain h | ⟨canonicalJson, -, h⟩ := bind_eq_error.mp h
    · exact hmember h
    · cases h

omit [Digest] in
private theorem kind_of_readLines {lines : List Text} {n : Nat} {e : PyError}
    (h : TraceLedger.readLines n lines = .error e) : e.kind = .valueError := by
  induction lines generalizing n with
  | nil => cases h
  | cons line rest ih =>
    rw [TraceLedger.readLines] at h
    by_cases hblank : isBlankText line = true
    · rw [if_pos hblank] at h
      exact ih h
    · rw [if_neg hblank] at h
      cases hline : LedgerRecord.ofLine line with
      | error e' =>
        rw [hline] at h
        dsimp only at h
        rw [if_pos (kind_of_ofLine hline)] at h
        cases h
        rfl
      | ok record =>
        rw [hline] at h
        obtain h | ⟨records, -, h⟩ := bind_eq_error.mp h
        · exact ih h
        · cases h

omit [Digest] in
/-- Reading gives one record for each line that is not blank, in their order. -/
theorem TraceLedger.readLines_eq_ok_iff {lines : List Text} {n : Nat}
    {records : List LedgerRecord} :
    TraceLedger.readLines n lines = .ok records ↔
      List.Forall₂ (fun line record ↦ LedgerRecord.ofLine line = .ok record)
        (lines.filter fun line ↦ !isBlankText line) records := by
  induction lines generalizing n records with
  | nil =>
    rw [TraceLedger.readLines, List.filter_nil, List.forall₂_nil_left_iff]
    constructor
    · exact fun h ↦ (Except.ok.inj h).symm
    · exact fun h ↦ congrArg Except.ok h.symm
  | cons line rest ih =>
    rw [TraceLedger.readLines]
    by_cases hblank : isBlankText line = true
    · rw [if_pos hblank, List.filter_cons_of_neg (by simp [hblank])]
      exact ih
    · rw [if_neg hblank, List.filter_cons_of_pos (by simp [hblank]), List.forall₂_cons_left_iff]
      cases hline : LedgerRecord.ofLine line with
      | error e =>
        dsimp only
        constructor
        · intro h
          split at h <;> cases h
        · rintro ⟨record, records', hr, -, -⟩
          cases hr
      | ok record =>
        dsimp only
        rw [bind_eq_ok]
        constructor
        · rintro ⟨records', hrest, h⟩
          exact ⟨record, records', rfl, ih.mp hrest, (Except.ok.inj h).symm⟩
        · rintro ⟨record', records', hr, hrest, rfl⟩
          cases hr
          exact ⟨records', ih.mpr hrest, rfl⟩

omit [FloatText] [UnicodeData] in
private theorem kind_of_recordHash {previous canonical : Text} {e : PyError}
    (h : recordHash previous canonical = .error e) : e.kind = .unicodeEncodeError := by
  obtain h | ⟨bytes, -, h⟩ := bind_eq_error.mp h
  · unfold Text.encodeUtf8 at h
    split at h
    · cases h
    · cases h
      rfl
  · cases h

omit [UnicodeData] in
private theorem kind_of_recordVerified {previous : Text} {record : LedgerRecord} {e : PyError}
    (h : recordVerified previous record = .error e) : e.kind = .unicodeEncodeError := by
  unfold recordVerified at h
  split at h
  · cases h
  · split at h
    · cases h
    · split at h
      · cases h
      · split at h
        · cases h
        · obtain h | ⟨digest, -, h⟩ := bind_eq_error.mp h
          · exact kind_of_recordHash h
          · cases h

omit [UnicodeData] in
private theorem kind_of_verifyRecords {previous : Text} {records : List LedgerRecord} {e : PyError}
    (h : verifyRecords previous records = .error e) : e.kind = .unicodeEncodeError := by
  induction records generalizing previous with
  | nil => cases h
  | cons record rest ih =>
    obtain h | ⟨verified, -, h⟩ := bind_eq_error.mp h
    · exact kind_of_recordVerified h
    · cases verified with
      | false => cases h
      | true => exact ih h

omit [UnicodeData] in
/-- The constructor keeps records that verify, and refuses others with a `ValueError`. -/
theorem TraceLedger.new_cases (records : List LedgerRecord) :
    (verifyLedger records = .ok true ∧ TraceLedger.new records = .ok records) ∨
    ∃ e, TraceLedger.new records = .error e ∧
      (e.kind = .valueError ∨ e.kind = .unicodeEncodeError) := by
  unfold TraceLedger.new
  by_cases hempty : records = []
  · rw [if_pos hempty, hempty]
    exact .inl ⟨rfl, rfl⟩
  · rw [if_neg hempty]
    cases hv : verifyLedger records with
    | error e => exact .inr ⟨e, rfl, .inr (kind_of_verifyRecords hv)⟩
    | ok verified =>
      cases verified with
      | true => exact .inl ⟨rfl, rfl⟩
      | false => exact .inr ⟨_, rfl, .inl rfl⟩

/-! ### A written ledger -/

omit [Digest] [FloatText] [UnicodeData] in
private theorem asdict_sortKeys (record : LedgerRecord) : record.asdict.sortKeys =
    .obj [("canonical_json", .str record.canonicalJson),
      ("previous_hash", .str record.previousHash), ("record_hash", .str record.recordHash)] :=
  rfl

omit [Digest] [UnicodeData] in
private theorem dumps_asdict (record : LedgerRecord) :
    dumps true true record.asdict = .ok (record.asdict.sortKeys.render true) :=
  rfl

omit [FloatText] [UnicodeData] in
-- The hash was taken of the link and the payload, so both were encoded.
private theorem Sealed.isScalar {record : LedgerRecord}
    (h : Sealed record.previousHash record.recordHash record.canonicalJson) :
    record.previousHash.IsScalar ∧ record.recordHash.IsScalar ∧ record.canonicalJson.IsScalar := by
  obtain ⟨bytes, hbytes, hdigest⟩ := bind_eq_ok.mp h.hash
  have hscalar := Text.exists_encodeUtf8_iff.mp ⟨bytes, hbytes⟩
  refine ⟨fun c hc ↦ hscalar c (by simp [hc]), ?_, fun c hc ↦ hscalar c (by simp [hc])⟩
  rw [← Except.ok.inj hdigest]
  exact Text.isScalar_of_isAscii (isAscii_of_hex (Digest.isHex_sha256Hex bytes))

/-- A sealed record is read back from the line that holds it. -/
theorem LedgerRecord.ofLine_render {record : LedgerRecord}
    (h : Sealed record.previousHash record.recordHash record.canonicalJson) :
    LedgerRecord.ofLine (record.asdict.sortKeys.render true) = .ok record := by
  obtain ⟨hprevious, hhash, hcanonical⟩ := h.isScalar
  have hkey (s : String) (hs : (Text.ofString s).isAscii = true) : (Text.ofString s).IsScalar :=
    Text.isScalar_of_isAscii hs
  have hloads : loads (record.asdict.sortKeys.render true) = some record.asdict.sortKeys := by
    apply loads_render_escaped
    · rw [asdict_sortKeys]
      refine ⟨?_, trivial, trivial, trivial, trivial⟩
      simp only [List.map_cons, List.map_nil]
      decide
    · rfl
    · rw [asdict_sortKeys]
      rfl
    · intro _
      rw [asdict_sortKeys]
      exact ⟨hkey _ (by decide), hcanonical, hkey _ (by decide), hprevious, hkey _ (by decide),
        hhash, trivial⟩
  rw [LedgerRecord.ofLine, hloads, asdict_sortKeys]
  rfl

omit [Digest] [UnicodeData] in
private theorem not_isBlankText_render (record : LedgerRecord) :
    isBlankText (record.asdict.sortKeys.render true) = false :=
  rfl

/-- Records that verify are read back from the text that holds them. -/
theorem TraceLedger.fromJsonl_toJsonl {records : List LedgerRecord}
    (h : verifyLedger records = .ok true) :
    (TraceLedger.toJsonl records >>= TraceLedger.fromJsonl) = .ok records := by
  obtain ⟨-, hsealed⟩ := verifyRecords_eq_true h
  set lines := records.map fun record ↦ record.asdict.sortKeys.render true with hlines
  have hwritten : TraceLedger.toJsonl records = .ok (Text.join 10 lines) := by
    have hmap : records.mapM (fun record ↦ dumps true true record.asdict) = .ok lines := by
      rw [mapM_eq_ok_iff, hlines, List.forall₂_map_right_iff, List.forall₂_same]
      exact fun record _ ↦ dumps_asdict record
    rw [TraceLedger.toJsonl, hmap]
    rfl
  have hsplit : Text.splitLines (Text.join 10 lines) = lines := by
    apply Text.splitLines_join
    intro line hline
    obtain ⟨record, -, rfl⟩ := List.mem_map.mp hline
    refine ⟨?_, fun c hc ↦ (Json.oneLine_render _).isLineBreak_eq_false hc⟩
    rw [asdict_sortKeys, Json.render]
    exact List.cons_ne_nil _ _
  have hfilter : (lines.filter fun line ↦ !isBlankText line) = lines := by
    rw [List.filter_eq_self]
    intro line hline
    obtain ⟨record, -, rfl⟩ := List.mem_map.mp hline
    rw [not_isBlankText_render]
    rfl
  have hread : TraceLedger.readLines 1 lines = .ok records := by
    rw [TraceLedger.readLines_eq_ok_iff, hfilter, hlines, List.forall₂_map_left_iff,
      List.forall₂_same]
    exact fun record hr ↦ LedgerRecord.ofLine_render (hsealed record hr)
  have hnew : TraceLedger.new records = .ok records := by
    obtain ⟨-, hnew⟩ | ⟨e, hnew, -⟩ := TraceLedger.new_cases records
    · exact hnew
    · rw [TraceLedger.new, h] at hnew
      split at hnew <;> cases hnew
  rw [hwritten]
  change TraceLedger.fromJsonl (Text.join 10 lines) = _
  rw [TraceLedger.fromJsonl, hsplit, hread]
  exact hnew

/-! ### Ledgers that were appended to -/

omit [UnicodeData] in
/-- An append keeps the records verified. -/
theorem TraceLedger.append_verified {records : List LedgerRecord}
    (h : verifyLedger records = .ok true) (trace : DecisionTrace) :
    verifyLedger (TraceLedger.append records trace).2 = .ok true := by
  unfold TraceLedger.append
  cases hcanonical : canonicalTraceJson trace with
  | error e => exact h
  | ok canonical =>
    cases hhash : recordHash (lastHash records) canonical with
    | error e =>
      simp only [hhash]
      exact h
    | ok digest =>
      simp only [hhash]
      exact verifyRecords_concat h (recordVerified_of_dumps trace.asdict_wf trace.asdict_allShort
        hcanonical hhash)

omit [UnicodeData] in
/-- Every ledger that was appended to verifies. -/
theorem TraceLedger.appendAll_verified (traces : List DecisionTrace) :
    verifyLedger (TraceLedger.appendAll traces) = .ok true := by
  have hrun : ∀ records, verifyLedger records = .ok true → verifyLedger (traces.foldl
      (fun records trace ↦ (TraceLedger.append records trace).2) records) = .ok true := by
    induction traces with
    | nil => exact fun _ h ↦ h
    | cons trace traces ih => exact fun _ h ↦ ih _ (TraceLedger.append_verified h trace)
  exact hrun [] rfl

/-- A ledger to which any traces were appended is read back from its export. Any text is refused
with a `ValueError` or read as records that verify, one for each line that is not blank. -/
theorem TraceLedger.export_round_trip :
    (∀ traces : List DecisionTrace,
      (TraceLedger.toJsonl (TraceLedger.appendAll traces) >>= TraceLedger.fromJsonl) =
        .ok (TraceLedger.appendAll traces)) ∧
    ∀ payload : Text,
      (∃ e, TraceLedger.fromJsonl payload = .error e ∧
        (e.kind = .valueError ∨ e.kind = .unicodeEncodeError)) ∨
      ∃ records, TraceLedger.fromJsonl payload = .ok records ∧
        verifyLedger records = .ok true ∧
        List.Forall₂ (fun line record ↦ LedgerRecord.ofLine line = .ok record)
          (payload.splitLines.filter fun line ↦ !isBlankText line) records := by
  refine ⟨fun traces ↦ TraceLedger.fromJsonl_toJsonl (TraceLedger.appendAll_verified traces),
    fun payload ↦ ?_⟩
  unfold TraceLedger.fromJsonl
  cases hread : TraceLedger.readLines 1 payload.splitLines with
  | error e => exact .inl ⟨e, rfl, .inl (kind_of_readLines hread)⟩
  | ok records =>
    obtain ⟨hverified, hnew⟩ | ⟨e, hnew, hkind⟩ := TraceLedger.new_cases records
    · exact .inr ⟨records, hnew, hverified, TraceLedger.readLines_eq_ok_iff.mp hread⟩
    · exact .inl ⟨e, hnew, hkind⟩

end Export

end C3RSpec.Telemetry
