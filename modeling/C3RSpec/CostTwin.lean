import C3RSpec.Base.Dict
import C3RSpec.Base.Text
import Mathlib.Algebra.Order.AbsoluteValue.Basic
import Mathlib.Algebra.Order.Ring.Rat
import Mathlib.Data.Finset.Insert
import Mathlib.Tactic.Linarith

/-!
# The cost twin

`c3r/cost_twin.py`, over exact rational numbers. A forecast is a prior corrected by a residual that
follows the observed costs. The residual is computed from the forecast with its clamp, and still
the forecast never leaves the range of what the action was seen to cost.
-/

namespace C3RSpec

open Base

/-- `CostForecast`. -/
structure CostForecast where
  expected : ℚ
  p95 : ℚ
  stale : Bool
  deriving DecidableEq

/-- `AdaptiveCostTwin`. -/
structure AdaptiveCostTwin where
  priors : Dict Text CostForecast
  residualAlpha : ℚ := 1 / 5
  staleErrorThreshold : ℚ := 1 / 2
  residuals : Dict Text ℚ := ∅
  staleActions : Finset Text := ∅

namespace AdaptiveCostTwin

variable (t : AdaptiveCostTwin)

/-- `self._residuals.get(action_id, 0.0)`. -/
def residual (actionId : Text) : ℚ := (t.residuals.get? actionId).getD 0

/-- `forecast`. -/
def forecast (actionId : Text) : Except PyError CostForecast :=
  match t.priors.get? actionId with
  | none => .error ⟨.keyError, "unknown action"⟩
  | some prior =>
    .ok {
      expected := max 0 (prior.expected + t.residual actionId)
      p95 := max 0 (prior.p95 + |t.residual actionId|)
      stale := decide (actionId ∈ t.staleActions) || prior.stale }

/-- `observe`. -/
def observe (actionId : Text) (observedCost : ℚ) : Except PyError AdaptiveCostTwin := do
  let forecast ← t.forecast actionId
  let error := observedCost - forecast.expected
  let previous := t.residual actionId
  let relativeError := |error| / max forecast.expected (1 / 10 ^ 9)
  return { t with
    residuals := t.residuals.insert actionId (previous + t.residualAlpha * error)
    staleActions :=
      if t.staleErrorThreshold < relativeError then insert actionId t.staleActions
      else t.staleActions }

/-- An action and what it cost. -/
abbrev Observation := Text × ℚ

/-- The twin after observations in order; one that raises changes nothing. -/
def after (observations : List Observation) : AdaptiveCostTwin :=
  observations.foldl (fun t x ↦ (t.observe x.1 x.2).toOption.getD t) t

/-- What an action was observed to cost. -/
def costsOf (actionId : Text) (observations : List Observation) : List ℚ :=
  (observations.filter fun x ↦ decide (x.1 = actionId)).map Prod.snd

/-- Between the least and the greatest of some costs. -/
def Within (seen : List ℚ) (cost : ℚ) : Prop := (∃ low ∈ seen, low ≤ cost) ∧ ∃ high ∈ seen, cost ≤ high

/-! ### One observation -/

variable {t}

/-- What an observation does. -/
theorem observe_eq_ok {actionId : Text} {cost : ℚ} {t' : AdaptiveCostTwin}
    (h : t.observe actionId cost = .ok t') :
    ∃ forecast, t.forecast actionId = .ok forecast ∧ t'.priors = t.priors ∧
      t'.residualAlpha = t.residualAlpha ∧
      t'.residual actionId = t.residual actionId + t.residualAlpha * (cost - forecast.expected) ∧
      (∀ other, other ≠ actionId → t'.residual other = t.residual other) ∧
      t.staleActions ⊆ t'.staleActions ∧
      ∀ other, other ≠ actionId → (other ∈ t'.staleActions ↔ other ∈ t.staleActions) := by
  obtain ⟨forecast, hforecast, h⟩ := bind_eq_ok.mp h
  cases h
  refine ⟨forecast, hforecast, rfl, rfl, ?_, fun other hother ↦ ?_, ?_, fun other hother ↦ ?_⟩
  · rw [residual, Dict.get?_insert, if_pos rfl]
    rfl
  · rw [residual, Dict.get?_insert, if_neg (Ne.symm hother)]
    rfl
  · dsimp only
    split
    · exact Finset.subset_insert _ _
    · exact Finset.Subset.refl _
  · dsimp only
    split
    · rw [Finset.mem_insert]
      exact or_iff_right hother
    · exact Iff.rfl

/-- Other forecasts stay as they are. -/
theorem forecast_of_ne {actionId other : Text} {cost : ℚ} {t' : AdaptiveCostTwin}
    (h : t.observe actionId cost = .ok t') (hne : other ≠ actionId) :
    t'.forecast other = t.forecast other := by
  obtain ⟨-, -, hpriors, -, -, hresidual, -, hstale⟩ := observe_eq_ok h
  unfold forecast
  rw [hpriors, hresidual other hne]
  simp only [hstale other hne]

/-- A stale forecast stays stale. -/
theorem stale_of_observe {actionId other : Text} {cost : ℚ} {t' : AdaptiveCostTwin}
    (h : t.observe actionId cost = .ok t') {f : CostForecast} (hf : t.forecast other = .ok f) :
    ∃ g, t'.forecast other = .ok g ∧ (f.stale = true → g.stale = true) := by
  obtain ⟨-, -, hpriors, -, -, -, hsubset, -⟩ := observe_eq_ok h
  unfold forecast at hf ⊢
  rw [hpriors]
  cases hprior : t.priors.get? other with
  | none =>
    rw [hprior] at hf
    cases hf
  | some prior =>
    rw [hprior] at hf
    cases hf
    refine ⟨_, rfl, fun hstale ↦ ?_⟩
    rw [Bool.or_eq_true, decide_eq_true_eq] at hstale ⊢
    exact hstale.imp_left fun hmem ↦ hsubset hmem

/-! ### The range of a forecast -/

/-- A weighted mean lies between its two parts. -/
private theorem mean_between {alpha x y : ℚ} (h0 : 0 ≤ alpha) (h1 : alpha ≤ 1) :
    min x y ≤ x + alpha * (y - x) ∧ x + alpha * (y - x) ≤ max x y := by
  obtain hxy | hyx := le_total x y
  · rw [min_eq_left hxy, max_eq_right hxy]
    have hpart := mul_nonneg h0 (sub_nonneg.mpr hxy)
    have hrest := mul_le_of_le_one_left (sub_nonneg.mpr hxy) h1
    constructor <;> linarith
  · rw [min_eq_right hyx, max_eq_left hyx]
    have hpart := mul_nonneg h0 (sub_nonneg.mpr hyx)
    have hrest := mul_le_of_le_one_left (sub_nonneg.mpr hyx) h1
    constructor <;> linarith

/-- A mean of a cost in the range and another cost that was seen. -/
private theorem Within.mean {seen : List ℚ} {x y alpha : ℚ} (h : Within seen x) (h0 : 0 ≤ alpha)
    (h1 : alpha ≤ 1) : Within (seen ++ [y]) (x + alpha * (y - x)) := by
  obtain ⟨⟨low, hlow, hle⟩, high, hhigh, hge⟩ := h
  obtain ⟨hmin, hmax⟩ := @mean_between alpha x y h0 h1
  have hy : y ∈ seen ++ [y] := List.mem_append_right seen (List.mem_singleton_self y)
  constructor
  · obtain hx | hy' := min_le_iff.mp hmin
    · exact ⟨low, List.mem_append_left _ hlow, hle.trans hx⟩
    · exact ⟨y, hy, hy'⟩
  · obtain hx | hy' := le_max_iff.mp hmax
    · exact ⟨high, List.mem_append_left _ hhigh, hx.trans hge⟩
    · exact ⟨y, hy, hy'⟩

/-- What observations of an action keep: the corrected prior is in the range of the prior and the
costs seen so far. -/
structure Tracks (t : AdaptiveCostTwin) (actionId : Text) (prior : CostForecast) (seen : List ℚ) :
    Prop where
  prior_eq : t.priors.get? actionId = some prior
  within : Within (prior.expected :: seen) (prior.expected + t.residual actionId)

/-- In the range of costs that are not negative the clamp plays no part. -/
private theorem Tracks.nonneg {actionId : Text} {prior : CostForecast} {seen : List ℚ}
    (h : Tracks t actionId prior seen) (hprior : 0 ≤ prior.expected) (hseen : ∀ x ∈ seen, 0 ≤ x) :
    0 ≤ prior.expected + t.residual actionId := by
  obtain ⟨low, hlow, hle⟩ := h.within.1
  obtain rfl | hlow := List.mem_cons.mp hlow
  · exact hprior.trans hle
  · exact (hseen low hlow).trans hle

private theorem Tracks.forecast_eq {actionId : Text} {prior : CostForecast} {seen : List ℚ}
    (h : Tracks t actionId prior seen) (hprior : 0 ≤ prior.expected)
    (hp95 : prior.expected ≤ prior.p95) (hseen : ∀ x ∈ seen, 0 ≤ x) :
    t.forecast actionId = .ok ⟨prior.expected + t.residual actionId,
      prior.p95 + |t.residual actionId|, decide (actionId ∈ t.staleActions) || prior.stale⟩ := by
  have hp95' : 0 ≤ prior.p95 + |t.residual actionId| :=
    add_nonneg (hprior.trans hp95) (abs_nonneg _)
  unfold forecast
  rw [h.prior_eq]
  dsimp only
  rw [max_eq_right (h.nonneg hprior hseen), max_eq_right hp95']

/-- An observation of the action, and one of another. -/
private theorem Tracks.observe {actionId : Text} {prior : CostForecast} {seen : List ℚ}
    (h : Tracks t actionId prior seen) (hprior : 0 ≤ prior.expected)
    (hp95 : prior.expected ≤ prior.p95) (hseen : ∀ x ∈ seen, 0 ≤ x) (h0 : 0 ≤ t.residualAlpha)
    (h1 : t.residualAlpha ≤ 1) {x : Observation} {t' : AdaptiveCostTwin}
    (hobserve : t.observe x.1 x.2 = .ok t') :
    Tracks t' actionId prior (seen ++ costsOf actionId [x]) := by
  obtain ⟨forecast, hforecast, hpriors, -, hresidual, hother, -, -⟩ := observe_eq_ok hobserve
  refine ⟨by rw [hpriors, h.prior_eq], ?_⟩
  by_cases hx : x.1 = actionId
  · have hcosts : costsOf actionId [x] = [x.2] := by simp [costsOf, hx]
    subst hx
    rw [h.forecast_eq hprior hp95 hseen] at hforecast
    cases hforecast
    rw [hcosts, hresidual, ← List.cons_append, ← add_assoc]
    exact h.within.mean h0 h1
  · have hcosts : costsOf actionId [x] = [] := by simp [costsOf, hx]
    rw [hcosts, List.append_nil, hother actionId (Ne.symm hx)]
    exact h.within

/-- An observation, or an attempt that raised. -/
private theorem Tracks.step {actionId : Text} {prior : CostForecast} {seen : List ℚ}
    (h : Tracks t actionId prior seen) (hprior : 0 ≤ prior.expected)
    (hp95 : prior.expected ≤ prior.p95) (hseen : ∀ x ∈ seen, 0 ≤ x) (h0 : 0 ≤ t.residualAlpha)
    (h1 : t.residualAlpha ≤ 1) (x : Observation) :
    Tracks (t.after [x]) actionId prior (seen ++ costsOf actionId [x]) ∧
      (t.after [x]).residualAlpha = t.residualAlpha := by
  change Tracks ((t.observe x.1 x.2).toOption.getD t) _ _ _ ∧
    ((t.observe x.1 x.2).toOption.getD t).residualAlpha = _
  cases hobserve : t.observe x.1 x.2 with
  | ok t' =>
    obtain ⟨-, -, -, halpha, -⟩ := observe_eq_ok hobserve
    exact ⟨h.observe hprior hp95 hseen h0 h1 hobserve, halpha⟩
  | error e =>
    -- only an action without a prior raises
    have hne : x.1 ≠ actionId := by
      rintro rfl
      rw [AdaptiveCostTwin.observe, h.forecast_eq hprior hp95 hseen] at hobserve
      cases hobserve
    have hcosts : costsOf actionId [x] = [] := by simp [costsOf, hne]
    rw [hcosts, List.append_nil]
    exact ⟨h, rfl⟩

/-- Observations in any order, of any actions. -/
private theorem Tracks.after {actionId : Text} {prior : CostForecast} {seen : List ℚ}
    (h : Tracks t actionId prior seen) (hprior : 0 ≤ prior.expected)
    (hp95 : prior.expected ≤ prior.p95) (hseen : ∀ x ∈ seen, 0 ≤ x) (h0 : 0 ≤ t.residualAlpha)
    (h1 : t.residualAlpha ≤ 1) {observations : List Observation}
    (hcosts : ∀ x ∈ costsOf actionId observations, 0 ≤ x) :
    Tracks (t.after observations) actionId prior (seen ++ costsOf actionId observations) := by
  induction observations generalizing t seen with
  | nil =>
    change Tracks t actionId prior (seen ++ [])
    rw [List.append_nil]
    exact h
  | cons x rest ih =>
    obtain ⟨hstep, halpha⟩ := h.step hprior hp95 hseen h0 h1 x
    have hsplit : costsOf actionId (x :: rest) = costsOf actionId [x] ++ costsOf actionId rest := by
      rw [costsOf, costsOf, costsOf, ← List.map_append, ← List.filter_append]
      rfl
    rw [hsplit, List.forall_mem_append] at hcosts
    rw [hsplit, ← List.append_assoc]
    refine ih hstep ?_ (halpha.symm ▸ h0) (halpha.symm ▸ h1) hcosts.2
    exact List.forall_mem_append.mpr ⟨hseen, hcosts.1⟩

/-! ### Every run -/

/-- A twin before any observation. -/
def fresh (priors : Dict Text CostForecast) (residualAlpha staleErrorThreshold : ℚ) :
    AdaptiveCostTwin :=
  { priors, residualAlpha, staleErrorThreshold }

/-- After any observations, of an action at costs that are not negative and of others at any cost:
the forecast is between the least and the greatest of the prior and the costs seen, its upper end
is not below it, and neither clamp changes anything. The next observation keeps a stale forecast
stale, and when it is of another action it keeps the forecast as it is. -/
theorem forecast_within {priors : Dict Text CostForecast} {residualAlpha : ℚ}
    (h0 : 0 ≤ residualAlpha) (h1 : residualAlpha ≤ 1) (staleErrorThreshold : ℚ) {actionId : Text}
    {prior : CostForecast} (hprior : priors.get? actionId = some prior)
    (hexpected : 0 ≤ prior.expected) (hp95 : prior.expected ≤ prior.p95)
    {observations : List Observation} (hcosts : ∀ x ∈ costsOf actionId observations, 0 ≤ x) :
    let twin := (fresh priors residualAlpha staleErrorThreshold).after observations
    ∃ f, twin.forecast actionId = .ok f ∧
      Within (prior.expected :: costsOf actionId observations) f.expected ∧ f.expected ≤ f.p95 ∧
      f.expected = prior.expected + twin.residual actionId ∧
      f.p95 = prior.p95 + |twin.residual actionId| ∧
      ∀ other cost twin', twin.observe other cost = .ok twin' →
        (∃ g, twin'.forecast actionId = .ok g ∧ (f.stale = true → g.stale = true)) ∧
        (actionId ≠ other → twin'.forecast actionId = .ok f) := by
  intro twin
  have hstart : Tracks (fresh priors residualAlpha staleErrorThreshold) actionId prior [] := by
    refine ⟨hprior, ?_⟩
    change Within [prior.expected] (prior.expected + 0)
    rw [add_zero]
    have hmem := List.mem_singleton_self prior.expected
    exact ⟨⟨_, hmem, le_refl _⟩, _, hmem, le_refl _⟩
  have hrun := hstart.after hexpected hp95 (List.forall_mem_nil _) h0 h1 hcosts
  rw [List.nil_append] at hrun
  have hforecast := hrun.forecast_eq hexpected hp95 hcosts
  refine ⟨_, hforecast, hrun.within, ?_, rfl, rfl, fun other cost twin' hobserve ↦ ⟨?_, fun hne ↦ ?_⟩⟩
  · exact add_le_add hp95 (le_abs_self _)
  · exact stale_of_observe hobserve hforecast
  · rw [forecast_of_ne hobserve hne]
    exact hforecast

/-- Two actions, observed in turns; the last action has no prior. -/
theorem forecast_within_turns :
    let priors := Dict.ofList [(Text.ofString "a", ⟨2, 3, false⟩), (Text.ofString "b", ⟨1, 1, true⟩)]
    ∃ f, ((fresh priors (1 / 5) (1 / 2)).after
        [("a", 4), ("b", -1), ("a", 0), ("c", 1)]).forecast "a" = .ok f ∧
      Within [2, 4, 0] f.expected ∧ f.expected ≤ f.p95 := by
  intro priors
  have hcosts : costsOf "a" [("a", 4), ("b", -1), ("a", 0), ("c", 1)] = [4, 0] := by decide +kernel
  have hnonneg : ∀ x ∈ costsOf "a" [("a", 4), ("b", -1), ("a", 0), ("c", 1)], 0 ≤ x := by
    rw [hcosts]
    decide +kernel
  have hprior : priors.get? "a" = some ⟨2, 3, false⟩ := rfl
  obtain ⟨f, hf, hwithin, hle, -⟩ := forecast_within (by norm_num : (0 : ℚ) ≤ 1 / 5) (by norm_num)
    (1 / 2) hprior (by norm_num) (by norm_num) hnonneg
  rw [hcosts] at hwithin
  exact ⟨f, hf, hwithin, hle⟩

end AdaptiveCostTwin

end C3RSpec
