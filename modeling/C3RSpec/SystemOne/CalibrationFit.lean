import C3RSpec.Base.Sorting
import C3RSpec.SystemOne.FastPath
import Mathlib.Algebra.Order.Floor.Ring
import Mathlib.Analysis.SpecialFunctions.Log.Basic

/-!
# Fitting calibration temperatures

`c3r/system_one/calibration_fit.py:13–180`, over the real numbers. The examples of a slice are
scored at every temperature of a logarithmic grid and the first temperature with the smallest mean
log loss is kept; the report compares it with temperature one.
-/

namespace C3RSpec.SystemOne

open Base

/-- `CalibrationExample`. -/
structure CalibrationExample where
  key : CalibrationKey
  logits : List ℝ
  labelIndex : Int

/-- `RiskCoveragePoint`. -/
structure RiskCoveragePoint where
  coverage : ℝ
  selectiveRisk : ℝ
  accepted : Nat

/-- `CalibrationMetrics`. -/
structure CalibrationMetrics where
  accuracy : ℝ
  brier : ℝ
  ece : ℝ
  maximumCalibrationError : ℝ
  nll : ℝ
  riskCoverage : List RiskCoveragePoint

/-- `CalibrationSliceReport`. -/
structure CalibrationSliceReport where
  sampleSize : Nat
  temperature : ℝ
  before : CalibrationMetrics
  after : CalibrationMetrics

/-- `CalibrationFitResult`; of the calibrator, its temperatures. -/
structure CalibrationFitResult where
  temperatures : Dict CalibrationKey ℝ
  reports : Dict CalibrationKey CalibrationSliceReport
  skippedSlices : Dict CalibrationKey Text

noncomputable section

/-- `max(values)` of a list that is not empty. -/
def maximum (values : List ℝ) : ℝ := values.tail.foldl max (values.headD 0)

/-- `_softmax`. -/
def softmax (logits : List ℝ) (temperature : ℝ) : Except PyError (List ℝ) :=
  if logits = [] then throw (valueError "max() iterable argument is empty")
  else if temperature = 0 then throw ⟨.other, "float division by zero"⟩
  else
    let scaled := logits.map fun value ↦ value / temperature
    let peak := maximum scaled
    let values := scaled.map fun value ↦ Real.exp (value - peak)
    let total := values.sum
    return values.map fun value ↦ value / total

/-! ### `calibration_metrics` -/

/-- What the loop of `calibration_metrics` learns from one example. -/
structure ExampleScore where
  isCorrect : Bool
  squaredError : ℝ
  logLoss : ℝ
  confidence : ℝ

/-- `is_correct` as a number. -/
def ExampleScore.outcome (s : ExampleScore) : ℝ := if s.isCorrect then 1 else 0

/-- `max(range(len(probabilities)), key=probabilities.__getitem__)`. -/
def predictedIndex (probabilities : List ℝ) : Nat :=
  firstMax (fun i j ↦ decide (probabilities.getD i 0 < probabilities.getD j 0)) 0
    (List.range probabilities.length).tail

/-- The body of the loop over the examples. -/
def scoreExample (temperature : ℝ) (bins : Nat) (example_ : CalibrationExample) :
    Except PyError ExampleScore := do
  let probabilities ← softmax example_.logits temperature
  if !decide (0 ≤ example_.labelIndex ∧ example_.labelIndex < probabilities.length) then
    throw (valueError "label index is outside the probability vector")
  -- without bins the index of the bucket is outside the list of buckets
  if bins = 0 then throw ⟨.indexError, "list index out of range"⟩
  return {
    isCorrect := decide ((predictedIndex probabilities : Int) = example_.labelIndex)
    squaredError := (probabilities.zipIdx.map fun (probability, index) ↦
      (probability - if (index : Int) = example_.labelIndex then 1 else 0) ^ 2).sum
    logLoss := -Real.log (max (probabilities.getD example_.labelIndex.toNat 0) (1 / 10 ^ 12))
    confidence := maximum probabilities }

/-- The bucket of a confidence. -/
def bucketOf (bins : Nat) (s : ExampleScore) : Nat := min ⌊s.confidence * bins⌋₊ (bins - 1)

/-- `calibration_errors`: for each bucket in use, its size and its error. -/
def calibrationErrors (bins : Nat) (scores : List ExampleScore) : List (Nat × ℝ) :=
  (List.range bins).filterMap fun bucket ↦
    let values := scores.filter fun s ↦ decide (bucketOf bins s = bucket)
    if values.isEmpty then none
    else
      let averageConfidence := (values.map ExampleScore.confidence).sum / values.length
      let averageAccuracy := (values.map ExampleScore.outcome).sum / values.length
      some (values.length, |averageConfidence - averageAccuracy|)

/-- `accepted_counts`. -/
def acceptedCounts (count : Nat) : List Nat :=
  sortOn id (([1 / 4, 1 / 2, 3 / 4, 1] : List ℚ).map fun (requestedCoverage : ℚ) ↦
    max 1 ⌈(count : ℚ) * requestedCoverage⌉₊).dedup

/-- `risk_coverage`. -/
def riskCoverage (scores : List ExampleScore) : List RiskCoveragePoint :=
  let ordered := scores.insertionSort fun a b ↦ b.confidence ≤ a.confidence
  (acceptedCounts scores.length).map fun (accepted : Nat) ↦
    { coverage := (accepted : ℝ) / scores.length
      selectiveRisk := 1 - ((ordered.take accepted).map ExampleScore.outcome).sum / accepted
      accepted := accepted }

/-- `calibration_metrics`. -/
def calibrationMetrics (examples : List CalibrationExample) (temperature : ℝ) (bins : Nat := 10) :
    Except PyError CalibrationMetrics := do
  if examples.isEmpty then throw (valueError "at least one calibration example is required")
  let scores ← examples.mapM (scoreExample temperature bins)
  let count : ℝ := examples.length
  let errors := calibrationErrors bins scores
  return {
    accuracy := (scores.countP ExampleScore.isCorrect) / count
    brier := (scores.map ExampleScore.squaredError).sum / count
    ece := (errors.map fun (size, error) ↦ size * error).sum / count
    maximumCalibrationError := maximum (errors.map Prod.snd)
    nll := (scores.map ExampleScore.logLoss).sum / count
    riskCoverage := riskCoverage scores }

/-! ### `fit_calibration` -/

/-- The keyword arguments of `fit_calibration`. -/
structure FitSettings where
  minimumSliceSize : Int := 25
  lowerTemperature : ℝ := 1 / 4
  upperTemperature : ℝ := 8
  searchSteps : Int := 160

/-- The settings `fit_calibration` accepts. -/
def FitSettings.accepted (s : FitSettings) : Prop :=
  1 ≤ s.minimumSliceSize ∧ 2 ≤ s.searchSteps ∧ 0 < s.lowerTemperature ∧
    s.lowerTemperature < s.upperTemperature

/-- `candidates`: the temperatures that are tried. -/
def FitSettings.candidates (s : FitSettings) : List ℝ :=
  (List.range s.searchSteps.toNat).map fun (step : Nat) ↦
    Real.exp (Real.log s.lowerTemperature +
      (Real.log s.upperTemperature - Real.log s.lowerTemperature) * (step : ℝ) /
        (s.searchSteps - 1))

/-- The body of the loop over the slices. -/
def fitSlice (s : FitSettings) (result : CalibrationFitResult)
    (entry : CalibrationKey × List CalibrationExample) : Except PyError CalibrationFitResult := do
  let (key, sliceExamples) := entry
  if (sliceExamples.length : Int) < s.minimumSliceSize then
    return { result with
      skippedSlices := result.skippedSlices.insert key
        ("insufficient support: " ++ decimal sliceExamples.length ++ " < " ++
          decimal s.minimumSliceSize.toNat) }
  let scored ← s.candidates.mapM fun value ↦ do
    let metrics ← calibrationMetrics sliceExamples value
    return (metrics.nll, value)
  match scored with
  | [] => throw (valueError "min() iterable argument is empty")
  | item :: rest =>
    let bestTemperature := (firstMin (fun a b ↦ decide (a.1 < b.1)) item rest).2
    let before ← calibrationMetrics sliceExamples 1
    let after ← calibrationMetrics sliceExamples bestTemperature
    return { result with
      temperatures := result.temperatures.insert key bestTemperature
      reports := result.reports.insert key ⟨sliceExamples.length, bestTemperature, before, after⟩ }

open Classical in
/-- `fit_calibration`. -/
def fitCalibration (examples : List CalibrationExample) (s : FitSettings := {}) :
    Except PyError CalibrationFitResult :=
  if s.minimumSliceSize < 1 ∨ s.searchSteps < 2 ∨ s.lowerTemperature ≤ 0 ∨
      s.upperTemperature ≤ s.lowerTemperature then
    throw (valueError "invalid calibration fit configuration")
  else
    (Dict.groupBy CalibrationExample.key examples).entries.foldlM (fitSlice s) ⟨∅, ∅, ∅⟩

end

end C3RSpec.SystemOne
