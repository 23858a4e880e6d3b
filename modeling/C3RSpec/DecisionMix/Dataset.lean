import C3RSpec.Base.Digest
import C3RSpec.Base.JsonIndent
import C3RSpec.Base.JsonParse
import C3RSpec.Base.Sorting
import Mathlib.Data.Finset.Sort

/-!
# DecisionMix dataset builder

`c3r/decisionmix/dataset.py`. A builder collects records by split and writes one file of JSON
lines for each split and a manifest. `add` is a state computation whose state survives exceptions,
so what a failed call leaves behind is a matter of the order of its steps.
-/

namespace C3RSpec.DecisionMix

open Base

/-- `SCHEMA_VERSION`. -/
def schemaVersion : Text := "c3r.decisionmix.v1"

/-- The members of `SPLITS`. -/
inductive Split where
  | train
  | validation
  | test
  deriving DecidableEq

/-- The string of a split. -/
def Split.name : Split → Text
  | .train => "train"
  | .validation => "validation"
  | .test => "test"

/-- `SPLITS`. -/
def splits : List Split := [.train, .validation, .test]

/-- `IMMUTABLE_REVISION.fullmatch`: 40 to 64 lowercase hexadecimal digits. -/
def isImmutableRevision (t : Text) : Bool :=
  decide (40 ≤ t.length) && decide (t.length ≤ 64) && t.all isHexChar

/-- `SourceProvenance`. -/
structure SourceProvenance where
  sourceId : Text
  license : Text
  sourcePartition : Text
  generatorRevision : Text
  deriving DecidableEq

/-- `SourceProvenance.validate`. -/
def SourceProvenance.validate (p : SourceProvenance) : Except PyError Unit :=
  if p.sourceId = [] ∨ p.license = [] then
    .error (valueError "source provenance and license are required")
  else if isImmutableRevision p.generatorRevision then .ok ()
  else .error (valueError "generator_revision must be an immutable hexadecimal digest")

/-- A `Mapping[str, object]`. -/
abbrev Mapping := Dict Text Json

/-- `DecisionMixRecord`. -/
structure DecisionMixRecord where
  recordId : Text
  compiledState : Mapping
  questions : Mapping
  candidateActions : List Mapping
  baselineAction : Mapping
  counterfactualActions : List Mapping
  verifierOutcome : Mapping
  taskOutcome : Mapping
  latencyMs : Dict Text PyFloat
  costUsd : Dict Text PyFloat
  riskClass : Text
  modelOrProvider : Text
  decisionFamily : Text
  provenance : SourceProvenance

/-- `DecisionMixRecord.validate`. -/
def DecisionMixRecord.validate (r : DecisionMixRecord) : Except PyError Unit :=
  if r.recordId = [] then .error (valueError "record_id is required")
  else if r.compiledState.entries = [] ∨ r.questions.entries = [] ∨ r.candidateActions = [] then
    .error (valueError "state, questions, and candidate actions are required")
  else if r.riskClass = [] ∨ r.decisionFamily = [] then
    .error (valueError "risk_class and decision_family are required")
  else r.provenance.validate

/-- A mapping as `asdict` copies it. -/
def Mapping.toJson (m : Mapping) : Json := .obj m.entries

/-- A mapping of floats as `asdict` copies it. -/
def floatsToJson (m : Dict Text PyFloat) : Json := .obj (m.entries.map fun e ↦ (e.1, .float e.2))

/-- `asdict` of a provenance. -/
def SourceProvenance.toJson (p : SourceProvenance) : Json :=
  .obj [
    ("source_id", .str p.sourceId),
    ("license", .str p.license),
    ("source_partition", .str p.sourcePartition),
    ("generator_revision", .str p.generatorRevision)]

/-- `asdict` of a record and its `"split"`. -/
def DecisionMixRecord.payload (r : DecisionMixRecord) (split : Split) : Json :=
  .obj [
    ("record_id", .str r.recordId),
    ("compiled_state", r.compiledState.toJson),
    ("questions", r.questions.toJson),
    ("candidate_actions", .arr (r.candidateActions.map Mapping.toJson)),
    ("baseline_action", r.baselineAction.toJson),
    ("counterfactual_actions", .arr (r.counterfactualActions.map Mapping.toJson)),
    ("verifier_outcome", r.verifierOutcome.toJson),
    ("task_outcome", r.taskOutcome.toJson),
    ("latency_ms", floatsToJson r.latencyMs),
    ("cost_usd", floatsToJson r.costUsd),
    ("risk_class", .str r.riskClass),
    ("model_or_provider", .str r.modelOrProvider),
    ("decision_family", .str r.decisionFamily),
    ("provenance", r.provenance.toJson),
    ("split", .str split.name)]

/-- The value of hexadecimal digits. -/
def hexNumber (t : Text) : Nat := t.foldl (fun n c ↦ 16 * n + (hexValue? c).getD 0) 0

/-- `deterministic_split`; the first eight bytes of a digest are its first sixteen digits. -/
def deterministicSplit [Digest] (recordId seed : Text) : Except PyError Split := do
  let encoded ← (seed ++ 0 :: recordId).encodeUtf8
  let bucket := hexNumber ((Digest.sha256Hex encoded).take 16) % 100
  if bucket < 80 then return .train
  else if bucket < 90 then return .validation
  else return .test

/-- `DecisionMixManifest`. -/
structure DecisionMixManifest where
  schemaVersion : Text
  splitSeed : Text
  splitCounts : List (Split × Nat)
  fileSha256 : List (Text × Text)
  licenses : List Text
  sourceIds : List Text
  deriving DecidableEq

/-- `asdict` of a manifest. -/
def DecisionMixManifest.toJson (m : DecisionMixManifest) : Json :=
  .obj [
    ("schema_version", .str m.schemaVersion),
    ("split_seed", .str m.splitSeed),
    ("split_counts", .obj (m.splitCounts.map fun e ↦ (e.1.name, .int e.2))),
    ("file_sha256", .obj (m.fileSha256.map fun e ↦ (e.1, .str e.2))),
    ("licenses", .arr (m.licenses.map .str)),
    ("source_ids", .arr (m.sourceIds.map .str))]

/-- What `write` leaves in its directory and returns. -/
structure Written where
  files : List (Text × Text)
  manifest : DecisionMixManifest
  deriving DecidableEq

/-- `DecisionMixBuilder`; its constructor refuses an empty seed. -/
structure DecisionMixBuilder where
  splitSeed : Text
  records : Split → List DecisionMixRecord
  recordIds : Finset Text
  seeded : splitSeed ≠ []

namespace DecisionMixBuilder

/-- `DecisionMixBuilder.__init__`. -/
def init (splitSeed : Text) : Except PyError DecisionMixBuilder :=
  if h : splitSeed = [] then .error (valueError "split_seed is required")
  else .ok ⟨splitSeed, fun _ ↦ [], ∅, h⟩

/-- A computation over a builder that keeps what it assigned when it raises. -/
abbrev BuilderM := ExceptT PyError (StateM DecisionMixBuilder)

/-- `self._record_ids.add(record.record_id)`. -/
def rememberId (recordId : Text) : BuilderM Unit :=
  modify fun b ↦ { b with recordIds := insert recordId b.recordIds }

/-- `self._records[assigned].append(record)`. -/
def append (assigned : Split) (r : DecisionMixRecord) : BuilderM Unit :=
  modify fun b ↦
    { b with records := Function.update b.records assigned (b.records assigned ++ [r]) }

/-- The `ValueError` of a second record with an id. -/
def duplicateError (recordId : Text) : PyError :=
  valueError ("duplicate record_id: " ++ String.ofList (recordId.filterMap CodePoint.toChar?))

variable [Digest]

/-- `DecisionMixBuilder.add`. -/
def add (r : DecisionMixRecord) : BuilderM Split := do
  liftExcept r.validate
  if r.provenance.sourcePartition = "benchmark_test" then
    throw (valueError "benchmark test records cannot enter DecisionMix")
  let assigned ← liftExcept (deterministicSplit r.recordId (← get).splitSeed)
  if r.recordId ∈ (← get).recordIds then throw (duplicateError r.recordId)
  rememberId r.recordId
  append assigned r
  return assigned

/-- A call of `add`: what it returns or raises, and the builder after it. -/
def addTo (b : DecisionMixBuilder) (r : DecisionMixRecord) :
    Except PyError Split × DecisionMixBuilder :=
  StateT.run (ExceptT.run (add r)) b

/-- The builder after calls of `add`, whose exceptions the caller catches. -/
def addAll (b : DecisionMixBuilder) (calls : List DecisionMixRecord) : DecisionMixBuilder :=
  calls.foldl (fun b r ↦ (b.addTo r).2) b

/-! ### Writing -/

/-- `sorted(self._records[split], key=lambda item: item.record_id)`. -/
def sortedRecords (b : DecisionMixBuilder) (split : Split) : List DecisionMixRecord :=
  sortOn DecisionMixRecord.recordId (b.records split)

/-- `f"{split}.jsonl"`. -/
def filename (split : Split) : Text := split.name ++ ".jsonl"

/-- `sorted(set(xs))`. -/
def sortedSet (xs : List Text) : List Text := xs.toFinset.sort

/-- `"\n".join(rows) + ("\n" if rows else "")`. -/
def fileContent (rows : List Text) : Text := Text.join 10 rows ++ if rows.isEmpty then [] else [10]

variable [FloatText]

/-- The line of a record in the file of a split. -/
def row (split : Split) (r : DecisionMixRecord) : Except PyError Text :=
  dumps true true (r.payload split)

/-- The file of a split: its name, its content and the digest of that. -/
def splitFile (b : DecisionMixBuilder) (split : Split) : Except PyError (Text × Text × Text) := do
  let rows ← (b.sortedRecords split).mapM (row split)
  let content := fileContent rows
  let encoded ← content.encodeUtf8
  return (filename split, content, Digest.sha256Hex encoded)

/-- `DecisionMixBuilder.write`. -/
def write (b : DecisionMixBuilder) : Except PyError Written := do
  let files ← splits.mapM b.splitFile
  let records := splits.flatMap b.sortedRecords
  let manifest : DecisionMixManifest :=
    { schemaVersion := schemaVersion
      splitSeed := b.splitSeed
      splitCounts := splits.map fun split ↦ (split, (b.sortedRecords split).length)
      fileSha256 := files.map fun file ↦ (file.1, file.2.2)
      licenses := sortedSet (records.map fun r ↦ r.provenance.license)
      sourceIds := sortedSet (records.map fun r ↦ r.provenance.sourceId) }
  let manifestText := manifest.toJson.sortKeys.renderIndented true 0 ++ [10]
  let _encoded ← manifestText.encodeUtf8
  return ⟨files.map (fun file ↦ (file.1, file.2.1)) ++ [(Text.ofString "manifest.json", manifestText)],
    manifest⟩

end DecisionMixBuilder

end C3RSpec.DecisionMix
