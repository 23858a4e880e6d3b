import C3RSpec.Base.JsonLine
import C3RSpec.Base.JsonUnits
import C3RSpec.DecisionMix.Accepted

/-!
# Builds that lose nothing and forget the order

`c3r/decisionmix/dataset.py:99–134`. Every file is sorted by ids that tell the records apart, so
what is written depends on the accepted records as a set. A row tells the id and the validity of its
record, so a rejected record leaves no row of its own.
-/

namespace C3RSpec.DecisionMix

open Base

/-- The lines of a file in which every line ends with a line break. -/
def fileLines (content : Text) : List Text := (content.splitOn 10).dropLast

/-- The lines of the file of a split. -/
def Written.lines (w : Written) (split : Split) : List Text :=
  ((w.files.lookup (DecisionMixBuilder.filename split)).map fileLines).getD []

/-! ### What a row tells -/

section Rows

variable [FloatText]

private def payloadKeys : List Text :=
  ["record_id", "compiled_state", "questions", "candidate_actions", "baseline_action",
    "counterfactual_actions", "verifier_outcome", "task_outcome", "latency_ms", "cost_usd",
    "risk_class", "model_or_provider", "decision_family", "provenance", "split"]

private def provenanceKeys : List Text :=
  ["source_id", "license", "source_partition", "generator_revision"]

omit [FloatText] in
-- Members of a record, at the level of the row and of its provenance, with the units of their texts.
private theorem member_eq {es fs : List (Text × Json)} (keys : List Text)
    (hes : es.map Prod.fst = keys) (hfs : fs.map Prod.fst = keys) (hnodup : keys.Nodup)
    (hascii : ∀ k ∈ keys, k.isAscii = true)
    (h : (Json.obj es).sortKeys.units = (Json.obj fs).sortKeys.units) (k : Text) :
    ((Json.obj es).get? k).map (fun j ↦ j.sortKeys.units) =
      ((Json.obj fs).get? k).map fun j ↦ j.sortKeys.units := by
  have hkey : ∀ gs : List (Text × Json), gs.map Prod.fst = keys → ∀ e ∈ gs, e.1.isAscii = true :=
    fun gs hgs e he ↦ hascii _ (hgs ▸ List.mem_map.mpr ⟨e, he, rfl⟩)
  exact Json.get?_of_units_eq (by rw [hes]; exact hnodup) (by rw [hfs]; exact hnodup)
    (hkey es hes) (hkey fs hfs) h k

/-- The text of the row of a record. -/
private def rowText (split : Split) (r : DecisionMixRecord) : Text :=
  (r.payload split).sortKeys.render true

private theorem row_eq (split : Split) (r : DecisionMixRecord) :
    DecisionMixBuilder.row split r = .ok (rowText split r) := by
  rw [DecisionMixBuilder.row, dumps, Bool.not_true, Bool.false_and, if_neg Bool.false_ne_true]
  rfl

private theorem payload_member {f g : Split} {r s : DecisionMixRecord}
    (h : rowText f r = rowText g s) (k : Text) :
    ((r.payload f).get? k).map (fun j ↦ j.sortKeys.units) =
      ((s.payload g).get? k).map fun j ↦ j.sortKeys.units :=
  member_eq payloadKeys rfl rfl (by decide) (by decide) (Json.render_eq_iff.mp h) k

omit [FloatText] in
private theorem units_str {a b : Text} (h : some (Json.str a).sortKeys.units =
    some (Json.str b).sortKeys.units) : a.units = b.units :=
  Json.str.inj (Option.some.inj h)

omit [FloatText] in
private theorem str_eq_nil {a b : Text} (h : some (Json.str a).sortKeys.units =
    some (Json.str b).sortKeys.units) : a = [] ↔ b = [] := by
  rw [← Text.units_eq_nil, units_str h, Text.units_eq_nil]

omit [FloatText] in
private theorem length_sortedUnits (es : List (Text × Json)) :
    (memberUnits ((sortMembers es).insertionSort keyLe)).length = es.length := by
  have hsort : (sortMembers es).length = es.length := by
    induction es with
    | nil => rfl
    | cons e es ih => rw [sortMembers, List.length_cons, List.length_cons, ih]
  rw [memberUnits_eq_map, List.length_map, List.length_insertionSort, hsort]

omit [FloatText] in
private theorem mapping_eq_nil {m n : Mapping} (h : some m.toJson.sortKeys.units =
    some n.toJson.sortKeys.units) : m.entries = [] ↔ n.entries = [] := by
  have hlength := congrArg List.length (Json.obj.inj (Option.some.inj h))
  rw [length_sortedUnits, length_sortedUnits] at hlength
  rw [← List.length_eq_zero_iff, hlength, List.length_eq_zero_iff]

omit [FloatText] in
private theorem actions_eq_nil {xs ys : List Mapping}
    (h : some (Json.arr (xs.map Mapping.toJson)).sortKeys.units =
      some (Json.arr (ys.map Mapping.toJson)).sortKeys.units) : xs = [] ↔ ys = [] := by
  have hunits := Json.arr.inj (Option.some.inj h)
  cases xs with
  | nil =>
    cases ys with
    | nil => rfl
    | cons y ys => cases hunits
  | cons x xs =>
    cases ys with
    | nil => cases hunits
    | cons y ys => exact iff_of_false (List.cons_ne_nil x xs) (List.cons_ne_nil y ys)

omit [FloatText] in
private theorem revision_iff {a b : Text} (h : a.units = b.units) :
    isImmutableRevision a = true ↔ isImmutableRevision b = true := by
  have hascii : ∀ t : Text, isImmutableRevision t = true → t.isAscii = true := by
    intro t ht
    rw [isImmutableRevision, Bool.and_eq_true] at ht
    exact isAscii_of_hex ht.2
  constructor
  · intro ha
    rw [Text.units_of_ascii (hascii a ha)] at h
    rw [(Text.units_eq_ascii (hascii a ha)).mp h.symm]
    exact ha
  · intro hb
    rw [Text.units_of_ascii (hascii b hb)] at h
    rw [(Text.units_eq_ascii (hascii b hb)).mp h]
    exact hb

omit [FloatText] in
private theorem provenance_iff {p q : SourceProvenance}
    (h : some p.toJson.sortKeys.units = some q.toJson.sortKeys.units) :
    (p.validate = .ok () ↔ q.validate = .ok ()) ∧
      (p.sourcePartition = "benchmark_test" ↔ q.sourcePartition = "benchmark_test") := by
  have hmember := member_eq provenanceKeys rfl rfl (by decide) (by decide) (Option.some.inj h)
  have hsource := str_eq_nil (hmember "source_id")
  have hlicense := str_eq_nil (hmember "license")
  have hpartition := units_str (hmember "source_partition")
  have hrevision := revision_iff (units_str (hmember "generator_revision"))
  constructor
  · unfold SourceProvenance.validate
    simp only [hsource, hlicense, hrevision]
  · have hbenchmark : (Text.ofString "benchmark_test").isAscii = true := by decide
    rw [← Text.units_eq_ascii hbenchmark, hpartition, Text.units_eq_ascii hbenchmark]

/-- What a row tells of its record. -/
structure SameRow (f g : Split) (r s : DecisionMixRecord) : Prop where
  split : f = g
  recordId : r.recordId.units = s.recordId.units
  validate : r.validate = .ok () ↔ s.validate = .ok ()
  partition : r.provenance.sourcePartition = "benchmark_test" ↔
    s.provenance.sourcePartition = "benchmark_test"

private theorem sameRow_of_rowText_eq {f g : Split} {r s : DecisionMixRecord}
    (h : rowText f r = rowText g s) : SameRow f g r s := by
  have hmember := payload_member h
  have hsplit := units_str (hmember "split")
  have hprovenance := provenance_iff (hmember "provenance")
  constructor
  · have hascii : ∀ split : Split, split.name.isAscii = true := fun split ↦ by cases split <;> decide
    rw [Text.units_of_ascii (hascii f), Text.units_of_ascii (hascii g)] at hsplit
    revert hsplit
    cases f <;> cases g <;> decide
  · exact units_str (hmember "record_id")
  · unfold DecisionMixRecord.validate
    have hid := str_eq_nil (hmember "record_id")
    have hstate := mapping_eq_nil (hmember "compiled_state")
    have hquestions := mapping_eq_nil (hmember "questions")
    have hactions := actions_eq_nil (hmember "candidate_actions")
    have hrisk := str_eq_nil (hmember "risk_class")
    have hfamily := str_eq_nil (hmember "decision_family")
    simp only [hid, hstate, hquestions, hactions, hrisk, hfamily]
    split
    · exact Iff.rfl
    · split
      · exact Iff.rfl
      · split
        · exact Iff.rfl
        · exact hprovenance.1
  · exact hprovenance.2

/-! ### What is written -/

omit [FloatText] in
private theorem join_newline {rows : List Text} (h : rows ≠ []) :
    Text.join 10 rows ++ [10] = Text.join 10 (rows ++ [[]]) := by
  obtain ⟨rest, last, rfl⟩ := (List.eq_nil_or_concat rows).resolve_left h
  rw [List.concat_eq_append, Text.join_append_singleton, Text.join_append_singleton,
    Text.joinHeader, Text.joinHeader, List.flatMap_append, List.append_nil, List.flatMap_singleton, List.append_assoc]

omit [FloatText] in
private theorem fileLines_fileContent (rows : List Text) (h : ∀ row ∈ rows, 10 ∉ row) :
    fileLines (DecisionMixBuilder.fileContent rows) = rows := by
  unfold fileLines DecisionMixBuilder.fileContent
  by_cases hrows : rows = []
  · subst hrows
    rfl
  · rw [if_neg (by simpa using hrows), join_newline hrows, Text.join, List.splitOn_intercalate,
      List.dropLast_concat]
    · intro row hrow
      obtain hrow | hrow := List.mem_append.mp hrow
      · exact h row hrow
      · rw [List.mem_singleton.mp hrow]
        exact List.not_mem_nil
    · exact List.append_ne_nil_of_right_ne_nil rows (List.cons_ne_nil [] [])

omit [FloatText] in
private theorem isScalar_fileContent {rows : List Text} (h : ∀ row ∈ rows, row.IsScalar) :
    (DecisionMixBuilder.fileContent rows).IsScalar := by
  rw [DecisionMixBuilder.fileContent, Text.isScalar_append_iff, Text.isScalar_join_iff (by decide)]
  refine ⟨h, ?_⟩
  split
  · exact Text.isScalar_of_isAscii (by decide)
  · exact Text.isScalar_of_isAscii (by decide)

namespace DecisionMixBuilder

private theorem rows_eq (b : DecisionMixBuilder) (split : Split) :
    (b.sortedRecords split).mapM (row split) = .ok ((b.sortedRecords split).map (rowText split)) := by
  rw [funext (row_eq split)]
  exact List.mapM_pure

variable [Digest]

private theorem exists_splitFile (b : DecisionMixBuilder) (split : Split) :
    ∃ digest, b.splitFile split = .ok (filename split,
      fileContent ((b.sortedRecords split).map (rowText split)), digest) := by
  have hscalar : (fileContent ((b.sortedRecords split).map (rowText split))).IsScalar := by
    apply isScalar_fileContent
    intro line hline
    obtain ⟨r, -, rfl⟩ := List.mem_map.mp hline
    exact Json.isScalar_render_escaped _
  obtain ⟨encoded, hencoded⟩ := Text.exists_encodeUtf8_iff.mpr hscalar
  refine ⟨Digest.sha256Hex encoded, ?_⟩
  exact bind_eq_ok.mpr ⟨_, b.rows_eq split, bind_eq_ok.mpr ⟨encoded, hencoded, rfl⟩⟩

omit [Digest] in
private theorem exists_encodeManifest (m : DecisionMixManifest) :
    ∃ encoded, (m.toJson.sortKeys.renderIndented true 0 ++ [10]).encodeUtf8 = .ok encoded := by
  apply Text.exists_encodeUtf8_iff.mpr
  rw [Text.isScalar_append_iff]
  exact ⟨Json.isScalar_renderIndented _ 0, Text.isScalar_of_isAscii (by decide)⟩

/-- Writing succeeds, with one line for each record of a split, by id. -/
private theorem exists_write (b : DecisionMixBuilder) : ∃ w, b.write = .ok w ∧
    (∀ split, w.lines split = (b.sortedRecords split).map (rowText split)) ∧
    w.manifest.splitCounts = splits.map fun split ↦ (split, (b.sortedRecords split).length) := by
  obtain ⟨trainDigest, htrain⟩ := b.exists_splitFile .train
  obtain ⟨validationDigest, hvalidation⟩ := b.exists_splitFile .validation
  obtain ⟨testDigest, htest⟩ := b.exists_splitFile .test
  have hfiles : splits.mapM b.splitFile = .ok
      [(filename .train, fileContent ((b.sortedRecords .train).map (rowText .train)), trainDigest),
        (filename .validation, fileContent ((b.sortedRecords .validation).map (rowText .validation)),
          validationDigest),
        (filename .test, fileContent ((b.sortedRecords .test).map (rowText .test)), testDigest)] := by
    simp only [splits, List.mapM_cons, List.mapM_nil, htrain, hvalidation, htest]
    rfl
  refine ⟨_, bind_eq_ok.mpr ⟨_, hfiles,
    bind_eq_ok.mpr ⟨_, (exists_encodeManifest _).choose_spec, rfl⟩⟩, fun split ↦ ?_, rfl⟩
  have hlines := fileLines_fileContent ((b.sortedRecords split).map (rowText split)) ?_
  · cases split with
    | train => exact hlines
    | validation => exact hlines
    | test => exact hlines
  · intro line hline
    obtain ⟨r, -, rfl⟩ := List.mem_map.mp hline
    exact (Json.oneLine_render _).notMem_newline

/-- What is written depends on the accepted records as a set. -/
theorem write_eq_of_perm {b b' : DecisionMixBuilder}
    {entries entries' : List (DecisionMixRecord × Split)} (h : b.Holds entries)
    (h' : b'.Holds entries') (hseed : b.splitSeed = b'.splitSeed) (hperm : entries.Perm entries') :
    b.write = b'.write := by
  have hsorted : ∀ split, b.sortedRecords split = b'.sortedRecords split := by
    intro split
    unfold sortedRecords
    apply sortOn_eq_of_perm
    · rw [h.records, h'.records]
      exact (hperm.filter _).map _
    · intro r hr s hs hid
      rw [h.records] at hr hs
      obtain ⟨d, hd, rfl⟩ := List.mem_map.mp hr
      obtain ⟨e, he, rfl⟩ := List.mem_map.mp hs
      rw [List.inj_on_of_nodup_map h.nodup (List.mem_filter.mp hd).1 (List.mem_filter.mp he).1 hid]
  have hfile : b.splitFile = b'.splitFile :=
    funext fun split ↦ by rw [splitFile, splitFile, hsorted]
  unfold write
  rw [hfile, hseed, funext hsorted]

/-! ### Nothing lost, nothing added -/

omit [FloatText] in
/-- The rejected calls: an invalid record, one of a benchmark's test partition, or a second record
with an id. -/
def Rejects (b : DecisionMixBuilder) (r : DecisionMixRecord) : Prop :=
  (∃ e, r.validate = .error e) ∨ r.provenance.sourcePartition = "benchmark_test" ∨
    r.recordId ∈ b.recordIds

/-- Each accepted record has one line, in the file of its split, and there are no other lines. -/
structure Lossless (b : DecisionMixBuilder) (calls : List DecisionMixRecord) (w : Written) :
    Prop where
  kept : ∀ r split, (r, split) ∈ b.accepted calls →
    deterministicSplit r.recordId b.splitSeed = .ok split ∧
    ∀ f g line, row g r = .ok line → (w.lines f).count line = if f = split ∧ g = split then 1 else 0
  rows : ∀ f line, line ∈ w.lines f → ∃ r, (r, f) ∈ b.accepted calls ∧ row f r = .ok line
  rejected : ∀ pre r post, calls = pre ++ r :: post → (b.addAll pre).Rejects r →
    ∀ f g line, row g r = .ok line → line ∈ w.lines f →
      ∃ a, (a, f) ∈ b.accepted pre ∧ a.recordId = r.recordId ∧ row f a = .ok line
  counts : (w.manifest.splitCounts.map Prod.snd).sum = (b.accepted calls).length

section Entries

variable {b : DecisionMixBuilder} {entries : List (DecisionMixRecord × Split)}

-- Ids that were encoded are told apart by their rows.
private theorem entry_eq (h : b.Holds entries) {d e : DecisionMixRecord × Split} (hd : d ∈ entries)
    (he : e ∈ entries) {f g : Split} (hrow : rowText f d.1 = rowText g e.1) : d = e := by
  have hd' := isScalar_recordId (assign_eq_ok (h.assigned d hd)).2.2
  have he' := isScalar_recordId (assign_eq_ok (h.assigned e he)).2.2
  exact List.inj_on_of_nodup_map h.nodup hd he
    (Text.units_inj_of_isScalar hd' he' (sameRow_of_rowText_eq hrow).recordId)

private theorem nodup_rows (h : b.Holds entries) (split : Split) :
    ((b.sortedRecords split).map (rowText split)).Nodup := by
  apply List.Nodup.map_on
  · intro r hr s hs hrow
    rw [h.mem_sortedRecords] at hr hs
    exact congrArg Prod.fst (entry_eq h hr hs hrow)
  · rw [sortedRecords, (sortOn_perm _ _).nodup_iff, h.records]
    apply List.Nodup.of_map DecisionMixRecord.recordId
    rw [List.map_map]
    exact (List.Sublist.map _ List.filter_sublist).nodup h.nodup

end Entries

private theorem lossless_of_write {b : DecisionMixBuilder} {calls : List DecisionMixRecord}
    {w : Written} (hb : b.Holds []) (hw : (b.addAll calls).write = .ok w) :
    Lossless b calls w := by
  have hall : (b.addAll calls).Holds (b.accepted calls) := hb.addAll calls
  have hassigned : ∀ e ∈ b.accepted calls, assign b.splitSeed e.1 = .ok e.2 := fun e he ↦ by
    rw [← b.splitSeed_addAll calls]
    exact hall.assigned e he
  obtain ⟨w', hw', hlines, hcounts⟩ := (b.addAll calls).exists_write
  rw [hw, Except.ok.injEq] at hw'
  subst hw'
  have hmem : ∀ f line, line ∈ w.lines f ↔ ∃ r, (r, f) ∈ b.accepted calls ∧ rowText f r = line := by
    intro f line
    rw [hlines, List.mem_map]
    simp only [hall.mem_sortedRecords]
  constructor
  · intro r split hr
    refine ⟨(assign_eq_ok (hassigned _ hr)).2.2, fun f g line hline ↦ ?_⟩
    rw [row_eq, Except.ok.injEq] at hline
    subst hline
    have hiff : rowText g r ∈ w.lines f ↔ f = split ∧ g = split := by
      rw [hmem]
      constructor
      · rintro ⟨s, hs, hrow⟩
        have hsplit := congrArg Prod.snd (entry_eq hall hs hr hrow)
        exact ⟨hsplit, (sameRow_of_rowText_eq hrow).split ▸ hsplit⟩
      · rintro ⟨rfl, rfl⟩
        exact ⟨r, hr, rfl⟩
    have hnodup : (w.lines f).Nodup := hlines f ▸ nodup_rows hall f
    by_cases hin : rowText g r ∈ w.lines f
    · rw [if_pos (hiff.mp hin), List.count_eq_one_of_mem hnodup hin]
    · rw [if_neg (mt hiff.mpr hin), List.count_eq_zero_of_not_mem hin]
  · intro f line hline
    obtain ⟨r, hr, hrow⟩ := (hmem f line).mp hline
    exact ⟨r, hr, by rw [row_eq, hrow]⟩
  · rintro pre r post rfl hrejects f g line hline hin
    rw [row_eq, Except.ok.injEq] at hline
    subst hline
    obtain ⟨a, ha, hrow⟩ := (hmem f _).mp hin
    obtain ⟨hvalid, hpartition, hsplit⟩ := assign_eq_ok (hassigned _ ha)
    have hsame := sameRow_of_rowText_eq hrow
    obtain ⟨e, he⟩ | hbenchmark | hduplicate := hrejects
    · rw [hsame.validate.mp hvalid] at he
      cases he
    · exact absurd (hsame.partition.mpr hbenchmark) hpartition
    · -- the earlier record with the id is the one on the line
      obtain ⟨e, he, hid⟩ := List.mem_map.mp (((hb.addAll pre).ids _).mp hduplicate)
      have heall : e ∈ b.accepted (pre ++ r :: post) := by
        rw [accepted_append]
        exact List.mem_append_left _ he
      have hscalar := isScalar_recordId (assign_eq_ok (hassigned e heall)).2.2
      have haid : a.recordId = r.recordId :=
        Text.units_inj_of_isScalar (isScalar_recordId hsplit) (hid ▸ hscalar) hsame.recordId
      have hea := List.inj_on_of_nodup_map hall.nodup heall ha (hid.trans haid.symm)
      rw [hea] at he
      exact ⟨a, he, haid, by rw [row_eq, hrow]⟩
  · rw [hcounts, List.map_map, ← length_splits]
    refine congrArg List.sum (List.map_congr_left fun split _ ↦ ?_)
    change ((b.addAll calls).sortedRecords split).length = _
    rw [sortedRecords, (sortOn_perm _ _).length_eq, hall.records, List.length_map]

end DecisionMixBuilder

end Rows

/-! ### Two orders of two records -/

section Sample

attribute [local instance] Digest.transparent FloatText.fraction

/-- A synthetic record. -/
def sampleRecord (recordId : Text) : DecisionMixRecord where
  recordId := recordId
  compiledState := Dict.ofList [("goal", .str "choose compute")]
  questions := Dict.ofList [("STOP_NOW", .bool true)]
  candidateActions := [Dict.ofList [("id", .str "stop")]]
  baselineAction := ∅
  counterfactualActions := []
  verifierOutcome := ∅
  taskOutcome := ∅
  latencyMs := Dict.ofList [("stop", .fin (1 / 10))]
  costUsd := ∅
  riskClass := "READ_ONLY"
  modelOrProvider := "deterministic"
  decisionFamily := "stop-continue"
  provenance := ⟨"synthetic-c3r-v1", "Apache-2.0", "synthetic", List.replicate 40 97⟩

namespace DecisionMixBuilder

end DecisionMixBuilder

end Sample

end C3RSpec.DecisionMix
