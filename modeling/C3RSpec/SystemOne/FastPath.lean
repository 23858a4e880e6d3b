import C3RSpec.Runtime.Controller

/-!
# Calibrated fast path

`c3r/system_one/fast_path.py:33–147`, `c3r/system_one/abstention.py:6–15` and
`c3r/system_one/calibration.py:9–39`. A question is answered when its logits are valid, its slice
is calibrated and its probabilities are far enough apart; the other questions leave a reason. The
exponential is not modelled, so a calibrator applies any function that keeps the length; the
deadline only limits the adapter.
-/

namespace C3RSpec.SystemOne

open Base C3RSpec.Runtime

/-! ### Abstention -/

/-- `sorted(values, reverse=True)`. It keeps the elements; what order NaN leaves is not known. -/
class FloatSort where
  descending : List PyFloat → List PyFloat
  perm : ∀ xs, (descending xs).Perm xs
  pairwise : ∀ xs, PyFloat.nan ∉ xs → (descending xs).Pairwise fun a b ↦ PyFloat.le b a = true

/-- `should_abstain`. -/
def shouldAbstain [FloatSort] (probabilities : List PyFloat) (minimumTopProbability : PyFloat)
    (minimumMargin : PyFloat) : Bool :=
  if probabilities.length < 2 then true
  else
    match FloatSort.descending probabilities with
    | first :: second :: _ =>
      PyFloat.lt first minimumTopProbability || PyFloat.lt (PyFloat.sub first second) minimumMargin
    | _ => true

/-! ### Calibration -/

/-- `CalibrationKey`. -/
structure CalibrationKey where
  questionType : Text
  actionFamily : Text
  optionCountBucket : Text
  language : Text := "en"
  consequenceClass : Text := "default"
  deriving DecidableEq

/-- `TemperatureCalibrator`. -/
structure TemperatureCalibrator where
  temperatures : Dict CalibrationKey PyFloat
  apply : List PyFloat → CalibrationKey → List PyFloat
  length_apply : ∀ logits key, (apply logits key).length = logits.length

/-- `supports`. -/
def TemperatureCalibrator.supports (c : TemperatureCalibrator) (key : CalibrationKey) : Bool :=
  match c.temperatures.get? key with
  | none => false
  | some temperature => PyFloat.lt (.fin 0) temperature

/-! ### The fast path -/

/-- `TypedInferenceAdapter`: what it returns or raises. -/
structure TypedInferenceAdapter where
  modelId : Text
  revision : Text
  provider : Text
  predict : CompiledState → List TypedQuestion → Except PyError (Dict Text (List PyFloat))
  rankActions : CompiledState → List Text → Except PyError (List PyFloat)

/-- `0.0 <= x <= 1.0`. -/
def inUnit (x : PyFloat) : Bool := PyFloat.le (.fin 0) x && PyFloat.le x (.fin 1)

/-- `CalibratedFastPath`; its constructor refuses thresholds outside zero and one. -/
structure CalibratedFastPath where
  adapter : TypedInferenceAdapter
  calibrator : TemperatureCalibrator
  minimumTopProbability : PyFloat
  minimumMargin : PyFloat
  topInUnit : inUnit minimumTopProbability = true
  marginInUnit : inUnit minimumMargin = true

/-- `option_count_bucket`. -/
def optionCountBucket (optionCount : Nat) : Text :=
  if optionCount ≤ 2 then decimal optionCount
  else if optionCount ≤ 5 then "3-5"
  else if optionCount ≤ 10 then "6-10"
  else if optionCount ≤ 20 then "11-20"
  else "21+"

/-- `str` of a scalar. -/
def scalarStr [FloatText] : Scalar → Text
  | .text t => t
  | .bool true => "True"
  | .bool false => "False"
  | .float .nan => "nan"
  | .float .posInf => "inf"
  | .float .negInf => "-inf"
  | .float (.fin q) => FloatText.repr q

/-- `str(state.risk.get("consequence", "default"))`. -/
def consequence [FloatText] (state : CompiledState) : Text :=
  ((state.risk.get? "consequence").map scalarStr).getD "default"

/-- `max(range(len(values)), key=values.__getitem__)`, for at least one value. -/
def bestIndex (values : List PyFloat) : Nat :=
  firstMax (fun i j ↦ PyFloat.lt (values.getD i .nan) (values.getD j .nan)) 0
    (List.range' 1 (values.length - 1))

/-- The accumulators of the loop over the questions. -/
structure Tally where
  answers : Dict Text Text := ∅
  probabilities : Dict Text (List PyFloat) := ∅
  reasons : List Text := []

/-- `reasons.append(…)`. -/
def Tally.reject (t : Tally) (reason : Text) (question : TypedQuestion) : Tally :=
  { t with reasons := t.reasons ++ [reason ++ question.id] }

namespace CalibratedFastPath

variable [FloatSort] [FloatText] (path : CalibratedFastPath) (state : CompiledState)
  (actionFamily language : Text)

/-- The calibration slice of a question. -/
def key (question : TypedQuestion) : CalibrationKey where
  questionType := question.id
  actionFamily := actionFamily
  optionCountBucket := optionCountBucket question.options.length
  language := language
  consequenceClass := consequence state

/-- Logits that `decide` does not refuse. -/
def validLogits (question : TypedQuestion) (logits : List PyFloat) : Bool :=
  decide (logits.length = question.options.length) && logits.all PyFloat.isFinite

/-- The body of the loop over the questions. The index is that of an option: there are as many
options as probabilities. -/
def ask (predicted : Dict Text (List PyFloat)) (t : Tally) (question : TypedQuestion) : Tally :=
  match predicted.get? question.id with
  | none => t.reject "invalid prediction for " question
  | some logits =>
    if !validLogits question logits then t.reject "invalid prediction for " question
    else if !path.calibrator.supports (key state actionFamily language question) then
      t.reject "missing calibration for " question
    else
      let calibrated := path.calibrator.apply logits (key state actionFamily language question)
      let t := { t with probabilities := t.probabilities.insert question.id calibrated }
      if shouldAbstain calibrated path.minimumTopProbability path.minimumMargin then
        t.reject "low decision margin for " question
      else
        { t with answers := t.answers.insert question.id
                   (question.options.getD (bestIndex calibrated) []) }

/-- `candidate_probabilities`: without options nothing is ranked. -/
def candidateProbabilities (candidateOptions : List Text) : Except PyError (List PyFloat) :=
  if candidateOptions = [] then .ok [] else path.adapter.rankActions state candidateOptions

/-- `CalibratedFastPath.decide`. -/
def decide (questions : List TypedQuestion) (candidateOptions : List Text) :
    Except PyError FastPathDecision := do
  let candidateProbabilities ← path.candidateProbabilities state candidateOptions
  let predicted ← path.adapter.predict state questions
  let t := questions.foldl (path.ask state actionFamily language predicted) {}
  return { answers := t.answers
           probabilities := t.probabilities
           abstained := !t.reasons.isEmpty
           reasons := t.reasons
           modelId := path.adapter.modelId
           modelRevision := path.adapter.revision
           candidateProbabilities }

end CalibratedFastPath

end C3RSpec.SystemOne
