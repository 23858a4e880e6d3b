import C3RSpec.Base.Loop
import C3RSpec.StateSchema

/-!
# Conservative value of computation

`c3r/cvoc.py:11–51`. A candidate is worth its expected gain less its cost, its risk penalty and
a multiple of its uncertainty; an estimate that is not finite or has a negative part is worth
nothing. The constructor refuses a negative multiplier, not an infinite one. Differences and
products are those of the machine's arithmetic, which is a parameter.
-/

namespace C3RSpec.Runtime

open Base

/-- `RobustCvocController`; `1.96` is the nearest binary fraction. -/
structure RobustCvocController where
  uncertaintyMultiplier : PyFloat := .fin (2206763817411543 / 1125899906842624)
  notNegative : PyFloat.lt uncertaintyMultiplier (.fin 0) = false := by decide +kernel

namespace RobustCvocController

variable [FloatRound]

/-- `lower_bound`. -/
def lowerBound (c : RobustCvocController) (e : ValueEstimate) : PyFloat :=
  if !([e.expectedGain, e.totalCost, e.riskPenalty, e.uncertainty].all PyFloat.isFinite) then .negInf
  else if PyFloat.lt (firstMin PyFloat.lt e.totalCost [e.riskPenalty, e.uncertainty]) (.fin 0) then
    .negInf
  else
    PyFloat.subRounded
      (PyFloat.subRounded (PyFloat.subRounded e.expectedGain e.totalCost) e.riskPenalty)
      (PyFloat.mulRounded c.uncertaintyMultiplier e.uncertainty)

omit [FloatRound] in
/-- `(a, i) < (b, j)` on pairs of a float and an id. -/
def keyLt (a b : PyFloat × Text) : Bool :=
  if PyFloat.beq a.1 b.1 then decide (a.2 < b.2) else PyFloat.lt a.1 b.1

/-- The candidates that have an estimate, with their lower bounds. -/
def scored (c : RobustCvocController) (candidates : List ActionCandidate)
    (estimates : Dict Text ValueEstimate) : List (PyFloat × ActionCandidate) :=
  candidates.filterMap fun candidate ↦
    (estimates.get? candidate.id).map fun e ↦ (c.lowerBound e, candidate)

/-- `select`. -/
def select (c : RobustCvocController) (candidates : List ActionCandidate)
    (estimates : Dict Text ValueEstimate) : CvocDecision :=
  match c.scored candidates estimates with
  | [] => ⟨none, .negInf, some .stop⟩
  | item :: rest =>
    let best := firstMax (fun a b ↦ keyLt (a.1, a.2.id) (b.1, b.2.id)) item rest
    if PyFloat.le best.1 (.fin 0) then ⟨none, best.1, some .stop⟩ else ⟨some best.2, best.1, none⟩

omit [FloatRound] in
theorem firstMin_fin (p q r : ℚ) :
    firstMin PyFloat.lt (.fin p) [.fin q, .fin r] = .fin (min (min p q) r) := by
  simp only [firstMin, List.foldl_cons, List.foldl_nil, PyFloat.lt_fin, decide_eq_true_eq]
  split
  · next h =>
    rw [PyFloat.lt_fin, min_eq_right h.le]
    split
    · next h' => rw [min_eq_right (of_decide_eq_true h').le]
    · next h' => rw [min_eq_left (not_lt.mp fun hlt ↦ h' (decide_eq_true hlt))]
  · next h =>
    rw [PyFloat.lt_fin, min_eq_left (not_lt.mp h)]
    split
    · next h' => rw [min_eq_right (of_decide_eq_true h').le]
    · next h' => rw [min_eq_left (not_lt.mp fun hlt ↦ h' (decide_eq_true hlt))]

omit [FloatRound] in
private theorem firstMin_nonneg {x y z : PyFloat}
    (hfinite : x.isFinite = true ∧ y.isFinite = true ∧ z.isFinite = true)
    (hmin : PyFloat.lt (firstMin PyFloat.lt x [y, z]) (.fin 0) = false) :
    (∃ q, x = .fin q ∧ 0 ≤ q) ∧ (∃ q, y = .fin q ∧ 0 ≤ q) ∧ ∃ q, z = .fin q ∧ 0 ≤ q := by
  obtain ⟨p, rfl⟩ := PyFloat.exists_of_isFinite hfinite.1
  obtain ⟨q, rfl⟩ := PyFloat.exists_of_isFinite hfinite.2.1
  obtain ⟨r, rfl⟩ := PyFloat.exists_of_isFinite hfinite.2.2
  rw [firstMin_fin, PyFloat.lt_fin, decide_eq_false_iff_not, not_lt, le_min_iff, le_min_iff] at hmin
  exact ⟨⟨p, rfl, hmin.1.1⟩, ⟨q, rfl, hmin.1.2⟩, ⟨r, rfl, hmin.2⟩⟩

omit [FloatRound] in
theorem multiplier_nonneg {c : RobustCvocController} {m : ℚ}
    (hm : c.uncertaintyMultiplier = .fin m) : 0 ≤ m := by
  have h := c.notNegative
  rw [hm, PyFloat.lt_fin, decide_eq_false_iff_not, not_lt] at h
  exact h

/-- With a finite multiplier the lower bound is finite, or the estimate is worth nothing. -/
theorem lowerBound_cases {c : RobustCvocController}
    (hm : c.uncertaintyMultiplier.isFinite = true) (e : ValueEstimate) :
    c.lowerBound e = .negInf ∨ ∃ q, c.lowerBound e = .fin q := by
  unfold lowerBound
  split
  · exact .inl rfl
  · next h =>
    split
    · exact .inl rfl
    · next hmin =>
      simp only [List.all_cons, List.all_nil, Bool.and_true, Bool.not_eq_true', Bool.not_eq_false,
        Bool.and_eq_true] at h
      obtain ⟨htotal, hrisk, u, hu, hnonneg⟩ := firstMin_nonneg h.2 (Bool.eq_false_iff.mpr hmin)
      obtain ⟨m, hm⟩ := PyFloat.exists_of_isFinite hm
      rw [hu, hm]
      exact PyFloat.subRounded_cases
        (PyFloat.subRounded_cases
          (PyFloat.subRounded_cases (.inr (PyFloat.exists_of_isFinite h.1)) (.inr htotal))
          (.inr hrisk))
        (FloatRound.mul_of_nonneg m u (multiplier_nonneg hm) hnonneg)

/-- With a finite multiplier the lower bound is never NaN. -/
theorem lowerBound_ne_nan {c : RobustCvocController}
    (hm : c.uncertaintyMultiplier.isFinite = true) (e : ValueEstimate) : c.lowerBound e ≠ .nan := by
  obtain h | ⟨q, h⟩ := lowerBound_cases hm e
  · rw [h]
    exact PyFloat.noConfusion
  · rw [h]
    exact PyFloat.noConfusion

/-- A selected candidate has an estimate whose lower bound is the decision's, and it passed the
test against zero. -/
theorem select_eq_some {c : RobustCvocController} {candidates : List ActionCandidate}
    {estimates : Dict Text ValueEstimate} {candidate : ActionCandidate}
    (h : (c.select candidates estimates).selected = some candidate) :
    candidate ∈ candidates ∧ ∃ e, estimates.get? candidate.id = some e ∧
      (c.select candidates estimates).lowerBound = c.lowerBound e ∧
      PyFloat.le (c.lowerBound e) (.fin 0) = false := by
  unfold select at h ⊢
  split at h
  · cases h
  · next item rest hs =>
    have hm : firstMax (fun a b ↦ keyLt (a.1, a.2.id) (b.1, b.2.id)) item rest ∈
        c.scored candidates estimates := by
      rw [hs]
      exact firstMax_mem _ item rest
    simp only at h ⊢
    split at h
    · cases h
    · next hle =>
      rw [if_neg hle]
      cases h
      simp only [scored, List.mem_filterMap, Option.map_eq_some_iff] at hm
      obtain ⟨a, ha, e, he, hb⟩ := hm
      rw [← hb] at hle ⊢
      exact ⟨ha, e, he, rfl, Bool.not_eq_true _ ▸ hle⟩

end RobustCvocController

end C3RSpec.Runtime
