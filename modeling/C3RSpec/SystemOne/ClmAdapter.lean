import C3RSpec.Base.JsonAccess
import C3RSpec.Base.JsonSpaced
import C3RSpec.SystemOne.FastPath

/-!
# CLM adapter

`c3r/system_one/clm_adapter.py:73–153` and `c3r/system_one/advisory.py:10–27`. The server returns
any JSON object; the adapter checks it item by item. The logarithm is a function of the host, and
so are the time that is left at a call and what the server answers. The endpoint and the bounds of
the constructor play no part.
-/

namespace C3RSpec.SystemOne

open Base C3RSpec.Runtime

/-- `asdict` of a compiled state. -/
def compiledAsdict (s : CompiledState) : Json :=
  .obj [
    ("goal", .str s.goal),
    ("current_subgoal", .str s.currentSubgoal),
    ("verified_facts", textsJson s.verifiedFacts),
    ("open_questions", textsJson s.openQuestions),
    ("recent_failures", textsJson s.recentFailures),
    ("available_action_families", textsJson (s.availableActionFamilies.map ActionFamily.value)),
    ("tool_summary", textsJson s.toolSummary),
    ("model_inventory", textsJson s.modelInventory),
    ("budget", dictJson .float s.budget),
    ("runtime_summary", dictJson Scalar.toJson s.runtimeSummary),
    ("risk", dictJson Scalar.toJson s.risk),
    ("reversibility", .str s.reversibility),
    ("approval_required", .bool s.approvalRequired),
    ("data_boundary", .str s.dataBoundary),
    ("rollback_state", s.rollbackState.elim .null .str),
    ("ambiguity", .float s.ambiguity),
    ("state_compilation_confidence", .float s.stateCompilationConfidence),
    ("provenance", dictJson Provenance.asdict s.provenance),
    ("schema_version", .str s.schemaVersion)]

/-- The body of a rank request. -/
structure RankPayload where
  context : Text
  question : Text
  answers : List Text
  model : Text

/-- `ClmAdapter`, with what its host decides: the seconds left at a call, the object that the
server answers and `math.log`. -/
structure ClmAdapter where
  revision : Text
  modelId : Text := "Contrastive-LM/CLM"
  servedModel : Text := "clm-latest"
  remaining : RankPayload → PyFloat
  transport : RankPayload → Dict Text Json
  log : PyFloat → PyFloat

namespace ClmAdapter

/-- `_MAX_CONTEXT_BYTES`. -/
def maxContextBytes : Nat := 32768

/-- `_MAX_OPTIONS`. -/
def maxOptions : Nat := 64

/-- The error of a ranking that holds something else. -/
def invalidProbability : PyError :=
  valueError "CLM ranking contains an unknown or invalid probability"

/-- `0 <= probability <= 1`, and the entry that follows. -/
def addProbability (probabilities : Dict Text PyFloat) (candidate : Text) (p : PyFloat) :
    Except PyError (Dict Text PyFloat) :=
  if PyFloat.le (.fin 0) p && PyFloat.le p (.fin 1) then .ok (probabilities.insert candidate p)
  else .error invalidProbability

/-- The body of the loop over the ranking. -/
def addItem (options : List Text) (probabilities : Dict Text PyFloat) (item : Json) :
    Except PyError (Dict Text PyFloat) :=
  match item with
  | .obj es =>
    match (Json.obj es).get? "candidate" with
    | some (.str candidate) =>
      if candidate ∉ options || (probabilities.get? candidate).isSome then .error invalidProbability
      else
        match (Json.obj es).get? "prob" with
        -- an integer is compared as it is, and 0 and 1 are floats
        | some (.int n) => do
          isFiniteInt n
          addProbability probabilities candidate (.fin n)
        | some (.float x) =>
          if x.isFinite then addProbability probabilities candidate x else .error invalidProbability
        | _ => .error invalidProbability
    | _ => .error invalidProbability
  | _ => .error (valueError "CLM returned an invalid ranking item")

/-- `probabilities[option] / total`. -/
def share (probabilities : Dict Text PyFloat) (total : PyFloat) (option : Text) :
    Except PyError PyFloat :=
  match probabilities.get? option with
  | some p => .ok (PyFloat.div p total)
  | none => .error ⟨.keyError, "missing option"⟩

/-- `sum(probabilities.values())`. -/
def total (probabilities : Dict Text PyFloat) : PyFloat :=
  probabilities.values.foldl PyFloat.add (.fin 0)

/-- `0.98 <= total <= 1.02`, with the nearest binary fractions. -/
def sumsToOne (total : PyFloat) : Bool :=
  PyFloat.le (.fin (2206763817411543 / 2251799813685248)) total &&
    PyFloat.le total (.fin (2296835809958953 / 2251799813685248))

/-- The checks of a ranking with as many items as options. -/
def checkRanking (options : List Text) (ranked : List Json) : Except PyError (List PyFloat) := do
  let probabilities ← ranked.foldlM (addItem options) ∅
  if sumsToOne (total probabilities) then options.mapM (share probabilities (total probabilities))
  else throw (valueError "CLM ranking probabilities do not sum to one")

/-- The checks of `_rank` before it calls the server. -/
def checkOptions (options : List Text) : Except PyError Unit :=
  if options = [] ∨ maxOptions < options.length ∨ ¬ options.Nodup then
    .error (valueError "CLM options must be unique and bounded")
  else if options.any fun option ↦ decide (option = []) || decide (1024 < option.length) then
    .error (valueError "CLM option is empty or oversized")
  else .ok ()

/-- The checks of `_rank` on the object that the server answers. -/
def checkResponse (servedModel : Text) (options : List Text) (response : Dict Text Json) :
    Except PyError (List PyFloat) :=
  match response.get? "model" with
  | some (.str model) =>
    if model ≠ servedModel then
      .error (valueError "CLM served model does not match the requested model")
    else
      match response.get? "ranked" with
      | some (.arr ranked) =>
        if ranked.length ≠ options.length then
          .error (valueError "CLM returned an incomplete ranking")
        else checkRanking options ranked
      | _ => .error (valueError "CLM returned an incomplete ranking")
  | _ => .error (valueError "CLM served model does not match the requested model")

variable (adapter : ClmAdapter)

/-- `_rank`. -/
def rank (context question : Text) (options : List Text) : Except PyError (List PyFloat) := do
  checkOptions options
  let payload : RankPayload := ⟨context, question, options, adapter.servedModel⟩
  if PyFloat.le (adapter.remaining payload) (.fin 0) then
    throw ⟨.osError, "CLM decision deadline exceeded"⟩
  else checkResponse adapter.servedModel options (adapter.transport payload)

variable [FloatText]

/-- `_context`. -/
def context (state : CompiledState) : Except PyError Text := do
  if !(compiledAsdict state).allFinite then
    throw (valueError "Out of range float values are not JSON compliant")
  else
    let text := (compiledAsdict state).sortKeys.renderSpaced false
    let bytes ← text.encodeUtf8
    if maxContextBytes < bytes.size then
      throw (valueError "compiled state exceeds the bounded CLM context")
    else return text

/-- `tuple(math.log(max(value, 1e-12)) …)`. -/
def logits (probabilities : List PyFloat) : List PyFloat :=
  probabilities.map fun value ↦
    adapter.log (firstMax PyFloat.lt value
      [.fin (4951760157141521 / 4951760157141521099596496896)])

/-- One question of `predict`. -/
def predictQuestion (context : Text) (output : Dict Text (List PyFloat))
    (question : TypedQuestion) : Except PyError (Dict Text (List PyFloat)) := do
  let probabilities ← adapter.rank context question.id question.options
  return output.insert question.id (adapter.logits probabilities)

/-- `predict`. -/
def predict (state : CompiledState) (questions : List TypedQuestion) :
    Except PyError (Dict Text (List PyFloat)) := do
  let context ← context state
  questions.foldlM (adapter.predictQuestion context) ∅

/-- `rank_actions`. -/
def rankActions (state : CompiledState) (candidateIds : List Text) :
    Except PyError (List PyFloat) := do
  let context ← context state
  adapter.rank context "NEXT_ACTION" candidateIds

/-- The adapter as the fast path sees it. -/
def toTyped : TypedInferenceAdapter where
  modelId := adapter.modelId
  revision := adapter.revision
  provider := "clm"
  predict := adapter.predict
  rankActions := adapter.rankActions

end ClmAdapter

/-- `AdvisoryFastPath.decide`. -/
def AdvisoryFastPath.decide [FloatText] (adapter : ClmAdapter) (state : CompiledState)
    (candidateOptions : List Text) : Except PyError FastPathDecision := do
  let scores ←
    (if candidateOptions = [] then .ok [] else adapter.rankActions state candidateOptions)
  return { answers := ∅
           probabilities := ∅
           abstained := false
           reasons := ["UNCALIBRATED_ADVISORY_ONLY"]
           modelId := adapter.modelId
           modelRevision := adapter.revision
           candidateProbabilities := scores }

end C3RSpec.SystemOne
