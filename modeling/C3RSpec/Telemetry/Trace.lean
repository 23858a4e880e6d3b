import C3RSpec.Base.Digest
import C3RSpec.StateSchema

/-!
# Decision traces and record hashes

`c3r/telemetry/trace.py:9–22` and `c3r/telemetry/trace_ledger.py:12–26`. A record's hash covers
the previous hash and the canonical text of its payload.
-/

namespace C3RSpec.Telemetry

open Base

/-- `DecisionTrace`. -/
structure DecisionTrace where
  runId : Text
  stateHash : Text
  accessLevel : Text
  modelProvider : Text
  candidateIds : List Text
  probabilities : Dict Text (List PyFloat)
  utilityQuantiles : Dict Text PyFloat
  selectedActionId : Option Text
  authorityResult : Text
  systemCost : Dict Text PyFloat
  taskOutcome : Dict Text Scalar
  artifactRefs : List Text

/-- `asdict` of a trace. -/
def DecisionTrace.asdict (t : DecisionTrace) : Json :=
  .obj [
    ("run_id", .str t.runId),
    ("state_hash", .str t.stateHash),
    ("access_level", .str t.accessLevel),
    ("model_provider", .str t.modelProvider),
    ("candidate_ids", textsJson t.candidateIds),
    ("probabilities", dictJson (fun ps ↦ .arr (ps.map .float)) t.probabilities),
    ("utility_quantiles", dictJson .float t.utilityQuantiles),
    ("selected_action_id", t.selectedActionId.elim .null .str),
    ("authority_result", .str t.authorityResult),
    ("system_cost", dictJson .float t.systemCost),
    ("task_outcome", dictJson Scalar.toJson t.taskOutcome),
    ("artifact_refs", textsJson t.artifactRefs)]

/-- The keys of a trace are distinct at every depth. -/
theorem DecisionTrace.asdict_wf (t : DecisionTrace) : t.asdict.WF := by
  have numbers : ∀ ps : List PyFloat, (Json.arr (ps.map .float)).WF := fun ps ↦ by
    refine (elementsWF_iff _).mpr fun x hx ↦ ?_
    obtain ⟨p, -, rfl⟩ := List.mem_map.mp hx
    exact trivial
  have scalar : ∀ s : Scalar, s.toJson.WF := fun s ↦ by cases s <;> exact trivial
  have selected : (t.selectedActionId.elim Json.null .str).WF := by
    cases t.selectedActionId <;> exact trivial
  have float : ∀ x : PyFloat, (Json.float x).WF := fun _ ↦ trivial
  refine ⟨?_, trivial, trivial, trivial, trivial, textsJson_wf _, dictJson_wf numbers _,
    dictJson_wf float _, selected, trivial, dictJson_wf float _, dictJson_wf scalar _,
    textsJson_wf _, trivial⟩
  simp only [List.map_cons, List.map_nil]
  decide

/-- A trace holds no int. -/
theorem DecisionTrace.asdict_allShort (t : DecisionTrace) : t.asdict.allShort = true := by
  have numbers : ∀ ps : List PyFloat, (Json.arr (ps.map .float)).allShort = true := fun ps ↦ by
    refine (elementsShort_iff _).mpr fun x hx ↦ ?_
    obtain ⟨p, -, rfl⟩ := List.mem_map.mp hx
    rfl
  have scalar : ∀ s : Scalar, s.toJson.allShort = true := fun s ↦ by cases s <;> rfl
  have selected : (t.selectedActionId.elim Json.null .str).allShort = true := by
    cases t.selectedActionId <;> rfl
  have float : ∀ x : PyFloat, (Json.float x).allShort = true := fun _ ↦ rfl
  have text : ∀ x : Text, (Json.str x).allShort = true := fun _ ↦ rfl
  simp only [DecisionTrace.asdict, Json.allShort, membersShort, textsJson_allShort,
    dictJson_allShort numbers, dictJson_allShort float, dictJson_allShort scalar, selected,
    Bool.and_true]

/-- `LedgerRecord`. -/
structure LedgerRecord where
  previousHash : Text
  recordHash : Text
  canonicalJson : Text
  deriving DecidableEq

/-- `_GENESIS_HASH`. -/
def genesis : Text := List.replicate 64 48

/-- `record_hash`. -/
def recordHash [Digest] (previousHash canonicalJson : Text) : Except PyError Text := do
  let bytes ← (previousHash ++ 10 :: canonicalJson).encodeUtf8
  return Digest.sha256Hex bytes

end C3RSpec.Telemetry
