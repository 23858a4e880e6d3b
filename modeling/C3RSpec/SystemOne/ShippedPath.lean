import C3RSpec.SystemOne.Alignment
import C3RSpec.SystemOne.ResponseFallback
import C3RSpec.Telemetry.Redaction

/-!
# Shipped fast paths

`c3r/system_one/laya_adapter.py:14–51` and `c3r/system_one/advisory.py:10–27`. Either adapter can
stand behind either fast path. The backend of the Laya adapter is host code, and the adapter ranks
no actions; the format of its revision plays no part.
-/

namespace C3RSpec.SystemOne

open Base C3RSpec.Runtime Telemetry

/-- The approved checkpoints of `LayaAdapter`. -/
def layaCheckpoints : List Text :=
  ["convaiinnovations/laya", "convaiinnovations/laya-multilingual",
   "ColomboAI/C3R-Decision-Laya-421M-v0.1"]

/-- `LayaAdapter`; its constructor refuses another checkpoint. -/
structure LayaAdapter where
  modelId : Text
  revision : Text
  backend : CompiledState → List TypedQuestion → Except PyError (Dict Text (List PyFloat))
  approved : modelId ∈ layaCheckpoints

/-- The adapter as the fast path sees it. -/
def LayaAdapter.toTyped (adapter : LayaAdapter) : TypedInferenceAdapter where
  modelId := adapter.modelId
  revision := adapter.revision
  provider := "laya"
  predict := adapter.backend
  rankActions _ _ := .ok []

/-- An adapter of the package. -/
inductive ShippedAdapter where
  | clm (adapter : ClmAdapter)
  | laya (adapter : LayaAdapter)

/-- The adapter as the fast path sees it. -/
def ShippedAdapter.toTyped [FloatText] : ShippedAdapter → TypedInferenceAdapter
  | .clm adapter => adapter.toTyped
  | .laya adapter => adapter.toTyped

/-- `model_id`. -/
def ShippedAdapter.modelId : ShippedAdapter → Text
  | .clm adapter => adapter.modelId
  | .laya adapter => adapter.modelId

/-- No checkpoint of the Laya adapter is a bounded token. -/
theorem LayaAdapter.isToken_modelId (adapter : LayaAdapter) : isToken adapter.modelId = false := by
  have hall : ∀ id ∈ layaCheckpoints, isToken id = false := by decide
  exact hall _ adapter.approved

namespace ClmPath

variable [FloatSort] [FloatText] (path : ClmPath)

/-- `decide` of the fast path, over any adapter. -/
def decideWith (adapter : TypedInferenceAdapter) (state : CompiledState)
    (questions : List TypedQuestion) (actionFamily language : Text) (options : List Text) :
    Except PyError FastPathDecision :=
  match path with
  | .calibrated calibrator top margin topInUnit marginInUnit =>
    CalibratedFastPath.decide ⟨adapter, calibrator, top, margin, topInUnit, marginInUnit⟩
      state actionFamily language questions options
  | .advisory => do
    let scores ← (if options = [] then .ok [] else adapter.rankActions state options)
    return { answers := ∅
             probabilities := ∅
             abstained := false
             reasons := ["UNCALIBRATED_ADVISORY_ONLY"]
             modelId := adapter.modelId
             modelRevision := adapter.revision
             candidateProbabilities := scores }

/-- Over the CLM adapter it is the fast path of that adapter. -/
theorem decideWith_clm (adapter : ClmAdapter) :
    path.decideWith adapter.toTyped = path.decide adapter := by
  cases path with
  | calibrated calibrator top margin topInUnit marginInUnit => rfl
  | advisory => rfl

end ClmPath

/-! ### Decisions -/

section Decided

variable [FloatSort] [FloatText]

/-- Each list of probabilities belongs to a question and has one entry for each option. -/
def Fits (questions : List TypedQuestion) (probabilities : Dict Text (List PyFloat)) : Prop :=
  ∀ e ∈ probabilities.entries, ∃ q ∈ questions, e.1 = q.id ∧ e.2.length = q.options.length

private theorem fits_ask (path : CalibratedFastPath) (state : CompiledState)
    (actionFamily language : Text) (predicted : Dict Text (List PyFloat)) {t : Tally}
    {questions : List TypedQuestion} {question : TypedQuestion} (hq : question ∈ questions)
    (h : Fits questions t.probabilities) :
    Fits questions (path.ask state actionFamily language predicted t question).probabilities := by
  unfold CalibratedFastPath.ask
  split
  · exact h
  · next logits _ =>
    split
    · exact h
    · next hvalid =>
      split
      · exact h
      · rw [Bool.not_eq_true', Bool.not_eq_false, CalibratedFastPath.validLogits, Bool.and_eq_true,
          decide_eq_true_eq] at hvalid
        have hinsert : Fits questions (t.probabilities.insert question.id
            (path.calibrator.apply logits
              (CalibratedFastPath.key state actionFamily language question))) := by
          rintro ⟨k, ps⟩ he
          have hget := (Dict.get?_eq_some_iff _ _ _).mpr he
          rw [Dict.get?_insert] at hget
          split at hget
          · next hk =>
            cases hget
            exact ⟨question, hq, hk.symm, by rw [path.calibrator.length_apply, hvalid.1]⟩
          · exact h (k, ps) ((Dict.get?_eq_some_iff _ _ _).mp hget)
        dsimp only
        split
        · exact hinsert
        · exact hinsert

private theorem fits_foldl (path : CalibratedFastPath) (state : CompiledState)
    (actionFamily language : Text) (predicted : Dict Text (List PyFloat))
    {questions : List TypedQuestion} (asked : List TypedQuestion) (hasked : asked ⊆ questions)
    (t : Tally) (h : Fits questions t.probabilities) :
    Fits questions (asked.foldl (path.ask state actionFamily language predicted) t).probabilities := by
  induction asked generalizing t with
  | nil => exact h
  | cons question asked ih =>
    exact ih (List.subset_of_cons_subset hasked) _
      (fits_ask path state actionFamily language predicted (hasked List.mem_cons_self) h)

omit [FloatSort] in
private theorem isProbability_of_rankActions {adapter : ClmAdapter} {state : CompiledState}
    {options : List Text} {scores : List PyFloat} (h : adapter.rankActions state options = .ok scores) :
    ∀ p ∈ scores, isProbability p = true := by
  obtain ⟨context, -, h⟩ := bind_eq_ok.mp h
  obtain ⟨-, -, h⟩ := bind_eq_ok.mp h
  dsimp only at h
  split at h
  · cases h
  · obtain ⟨p, hp⟩ := ClmAdapter.aligned_of_checkResponse h
    obtain ⟨ranked, -, -, hgives⟩ := hp.gives
    intro score hscore
    rw [hp.scores_eq] at hscore
    obtain ⟨option, hoption, rfl⟩ := List.mem_map.mp hscore
    simp [isProbability, PyFloat.isFinite, hgives.parts.1 option hoption,
      hgives.part_le_one hoption]

/-- What every decision of a shipped fast path satisfies: it names the model of its adapter, its
ranking holds probabilities, and its other lists belong to the questions. -/
structure Decided (adapter : ShippedAdapter) (questions : List TypedQuestion)
    (decision : FastPathDecision) : Prop where
  modelId : decision.modelId = adapter.modelId
  ranking : ∀ p ∈ decision.candidateProbabilities, isProbability p = true
  fits : Fits questions decision.probabilities

/-- Every decision of a shipped fast path. -/
theorem decided_of_decideWith {path : ClmPath} {adapter : ShippedAdapter} {state : CompiledState}
    {questions : List TypedQuestion} {actionFamily language : Text} {options : List Text}
    {decision : FastPathDecision}
    (h : path.decideWith adapter.toTyped state questions actionFamily language options = .ok decision) :
    Decided adapter questions decision := by
  have hranked : ∀ scores, (if options = [] then .ok []
      else adapter.toTyped.rankActions state options) = .ok scores →
      ∀ p ∈ scores, isProbability p = true := by
    intro scores hscores
    split at hscores
    · cases hscores
      exact fun p hp ↦ absurd hp List.not_mem_nil
    · cases adapter with
      | clm adapter => exact isProbability_of_rankActions hscores
      | laya adapter =>
        cases hscores
        exact fun p hp ↦ absurd hp List.not_mem_nil
  have hmodel : adapter.toTyped.modelId = adapter.modelId := by cases adapter <;> rfl
  have hempty : Fits questions (∅ : Dict Text (List PyFloat)) :=
    fun e he ↦ absurd he List.not_mem_nil
  cases path with
  | calibrated calibrator top margin topInUnit marginInUnit =>
    obtain ⟨scores, hscores, h⟩ := bind_eq_ok.mp h
    obtain ⟨predicted, -, h⟩ := bind_eq_ok.mp h
    cases h
    exact ⟨hmodel, hranked scores hscores,
      fits_foldl _ _ _ _ _ questions (List.Subset.refl _) {} hempty⟩
  | advisory =>
    obtain ⟨scores, hscores, h⟩ := bind_eq_ok.mp h
    cases h
    exact ⟨hmodel, hranked scores hscores, hempty⟩

end Decided

end C3RSpec.SystemOne
