import C3RSpec.Base.FirstMax
import C3RSpec.Runtime.Cvoc
import Mathlib.Data.Prod.Lex

/-!
# What the value controller selects

`c3r/cvoc.py:30–51`, with a finite multiplier. Lower bounds are then never NaN, so the pairs of a
bound and an id are linearly ordered and `select` returns the first candidate with the greatest
pair, unless its bound is not positive. The laws that compare two selections follow from that
description. Arithmetic is exact here.
-/

namespace C3RSpec.Runtime

open Base

attribute [local instance] FloatRound.exact

/-- An estimate the controller uses: finite, with nothing negative but the gain. -/
def IsValidEstimate (e : ValueEstimate) : Prop :=
  ∃ gain cost penalty uncertainty : ℚ, e = ⟨.fin gain, .fin cost, .fin penalty, .fin uncertainty⟩ ∧
    0 ≤ cost ∧ 0 ≤ penalty ∧ 0 ≤ uncertainty

/-- `e'` expects the same gain at no lower cost, penalty and uncertainty. -/
structure IsRaised (e e' : ValueEstimate) : Prop where
  gain : e'.expectedGain = e.expectedGain
  cost : PyFloat.le e.totalCost e'.totalCost = true
  penalty : PyFloat.le e.riskPenalty e'.riskPenalty = true
  uncertainty : PyFloat.le e.uncertainty e'.uncertainty = true

namespace RobustCvocController

section LowerBound

variable {c : RobustCvocController}

/-- A valid estimate is worth its gain less all that speaks against it. -/
theorem lowerBound_of_nonneg {m gain cost penalty uncertainty : ℚ}
    (hm : c.uncertaintyMultiplier = .fin m) (hcost : 0 ≤ cost) (hpenalty : 0 ≤ penalty)
    (huncertainty : 0 ≤ uncertainty) :
    c.lowerBound ⟨.fin gain, .fin cost, .fin penalty, .fin uncertainty⟩ =
      .fin (gain - cost - penalty - m * uncertainty) := by
  have hall : [PyFloat.fin gain, .fin cost, .fin penalty, .fin uncertainty].all
      PyFloat.isFinite = true := rfl
  have hmin : ¬ min (min cost penalty) uncertainty < 0 :=
    not_lt.mpr (le_min (le_min hcost hpenalty) huncertainty)
  rw [lowerBound, if_neg (by simp [hall]), firstMin_fin, PyFloat.lt_fin, if_neg (by simpa using hmin),
    hm]
  rfl

/-- Any other estimate is worth nothing. -/
theorem lowerBound_of_not_valid {e : ValueEstimate} (h : ¬ IsValidEstimate e) :
    c.lowerBound e = .negInf := by
  unfold lowerBound
  split
  · rfl
  · next hfinite =>
    split
    · rfl
    · next hmin =>
      obtain ⟨gain, cost, penalty, uncertainty⟩ := e
      simp only [List.all_cons, List.all_nil, Bool.and_true, Bool.not_eq_true', Bool.not_eq_false,
        Bool.and_eq_true] at hfinite
      obtain ⟨g, rfl⟩ := PyFloat.exists_of_isFinite hfinite.1
      obtain ⟨t, rfl⟩ := PyFloat.exists_of_isFinite hfinite.2.1
      obtain ⟨r, rfl⟩ := PyFloat.exists_of_isFinite hfinite.2.2.1
      obtain ⟨u, rfl⟩ := PyFloat.exists_of_isFinite hfinite.2.2.2
      rw [firstMin_fin, PyFloat.lt_fin, decide_eq_true_eq, not_lt, le_min_iff, le_min_iff] at hmin
      exact absurd ⟨g, t, r, u, rfl, hmin.1.1, hmin.1.2, hmin.2⟩ h

/-- Raising the cost, the penalty or the uncertainty of a valid estimate does not raise its lower
bound. -/
theorem lowerBound_le_of_raised (hm : c.uncertaintyMultiplier.isFinite = true)
    {e e' : ValueEstimate} (he : IsValidEstimate e) (h : IsRaised e e') :
    PyFloat.le (c.lowerBound e') (c.lowerBound e) = true := by
  obtain ⟨m, hm⟩ := PyFloat.exists_of_isFinite hm
  obtain ⟨g, t, r, u, rfl, ht, hr, hu⟩ := he
  rw [lowerBound_of_nonneg hm ht hr hu]
  by_cases hvalid : IsValidEstimate e'
  · obtain ⟨g', t', r', u', rfl, ht', hr', hu'⟩ := hvalid
    obtain ⟨hg, hcost, hpenalty, huncertainty⟩ := h
    cases hg
    simp only [PyFloat.le_fin, decide_eq_true_eq] at hcost hpenalty huncertainty
    rw [lowerBound_of_nonneg hm ht' hr' hu', PyFloat.le_fin, decide_eq_true_eq]
    have hmul : m * u ≤ m * u' := mul_le_mul_of_nonneg_left huncertainty (multiplier_nonneg hm)
    linarith
  · rw [lowerBound_of_not_valid hvalid]
    rfl

end LowerBound

section Select

variable {c : RobustCvocController} {estimates : Dict Text ValueEstimate}
  {candidates : List ActionCandidate}

/-- The candidates that have an estimate. -/
def estimated (estimates : Dict Text ValueEstimate) (candidates : List ActionCandidate) :
    List ActionCandidate :=
  candidates.filter fun candidate ↦ (estimates.get? candidate.id).isSome

/-- The lower bound of a candidate; one without an estimate has none. -/
def boundOf (c : RobustCvocController) (estimates : Dict Text ValueEstimate)
    (candidate : ActionCandidate) : PyFloat :=
  ((estimates.get? candidate.id).map c.lowerBound).getD .negInf

/-- `(item[0], item[1].id)` in the order of Python. -/
def boundKey (c : RobustCvocController) (estimates : Dict Text ValueEstimate)
    (candidate : ActionCandidate) : WithBot (WithTop ℚ) ×ₗ Text :=
  toLex ((c.boundOf estimates candidate).rank, candidate.id)

private theorem boundOf_of_get? {candidate : ActionCandidate} {e : ValueEstimate}
    (h : estimates.get? candidate.id = some e) : c.boundOf estimates candidate = c.lowerBound e := by
  rw [boundOf, h]
  rfl

private theorem boundOf_ne_nan (hm : c.uncertaintyMultiplier.isFinite = true)
    (candidate : ActionCandidate) : c.boundOf estimates candidate ≠ .nan := by
  rw [boundOf]
  cases estimates.get? candidate.id with
  | none => exact PyFloat.noConfusion
  | some e => exact lowerBound_ne_nan hm e

private theorem scored_eq : c.scored candidates estimates =
    (estimated estimates candidates).map fun candidate ↦
      (c.boundOf estimates candidate, candidate) := by
  rw [scored, estimated]
  induction candidates with
  | nil => rfl
  | cons x xs ih =>
    cases h : estimates.get? x.id with
    | none => rw [List.filterMap_cons_none (by simp [h]), List.filter_cons_of_neg (by simp [h]), ih]
    | some e =>
      rw [List.filterMap_cons_some (b := (c.lowerBound e, x)) (by simp [h]),
        List.filter_cons_of_pos (by simp [h]), List.map_cons, ih, boundOf_of_get? h]

private theorem keyLt_eq (hm : c.uncertaintyMultiplier.isFinite = true) (x y : ActionCandidate) :
    keyLt (c.boundOf estimates x, x.id) (c.boundOf estimates y, y.id) =
      decide (c.boundKey estimates x < c.boundKey estimates y) := by
  have hx : c.boundOf estimates x ≠ .nan := boundOf_ne_nan hm x
  have hy : c.boundOf estimates y ≠ .nan := boundOf_ne_nan hm y
  rw [keyLt, PyFloat.beq_eq_decide_rank hx hy, PyFloat.lt_eq_decide_rank hx hy]
  simp only [boundKey, Prod.Lex.toLex_lt_toLex]
  by_cases h : (c.boundOf estimates x).rank = (c.boundOf estimates y).rank
  · simp [h]
  · simp [h]

/-- Without an estimate nothing is selected. -/
theorem select_of_nil (h : estimated estimates candidates = []) :
    c.select candidates estimates = ⟨none, .negInf, some .stop⟩ := by
  rw [select, scored_eq, h]
  rfl

/-- Otherwise the first candidate with the greatest pair, if its bound is positive. -/
theorem select_of_isFirstMax (hm : c.uncertaintyMultiplier.isFinite = true) {a : ActionCandidate}
    (h : IsFirstMax (c.boundKey estimates) (estimated estimates candidates) a) :
    c.select candidates estimates =
      if PyFloat.le (c.boundOf estimates a) (.fin 0) then
        ⟨none, c.boundOf estimates a, some .stop⟩
      else ⟨some a, c.boundOf estimates a, none⟩ := by
  rw [select, scored_eq]
  cases hl : estimated estimates candidates with
  | nil =>
    rw [hl] at h
    exact absurd h.mem (List.not_mem_nil)
  | cons x xs =>
    rw [hl] at h
    have hscan : firstMax (fun a b : PyFloat × ActionCandidate ↦ keyLt (a.1, a.2.id) (b.1, b.2.id))
        (c.boundOf estimates x, x) (xs.map fun y ↦ (c.boundOf estimates y, y)) =
          (c.boundOf estimates a, a) := by
      apply @IsFirstMax.unique _ _ _ (fun p ↦ c.boundKey estimates p.2)
        ((x :: xs).map fun y ↦ (c.boundOf estimates y, y))
      · apply isFirstMax_firstMax
        rw [← List.map_cons (f := fun y ↦ (c.boundOf estimates y, y))]
        intro p hp q hq
        obtain ⟨y, -, rfl⟩ := List.mem_map.mp hp
        obtain ⟨z, -, rfl⟩ := List.mem_map.mp hq
        exact keyLt_eq hm y z
      · exact IsFirstMax.map (f := fun y ↦ (c.boundOf estimates y, y)) h
    simp only [List.map_cons, hscan]

/-- A candidate that a decision with the lower bound `b` need not look at. -/
def dominated (c : RobustCvocController) (estimates : Dict Text ValueEstimate) (b : PyFloat)
    (candidate : ActionCandidate) : Bool :=
  match estimates.get? candidate.id with
  | none => true
  | some e => PyFloat.lt (c.lowerBound e) b

/-- What is selected is the first candidate with the greatest pair, and its bound is positive. -/
theorem selected_eq_some_iff (hm : c.uncertaintyMultiplier.isFinite = true) {a : ActionCandidate} :
    (c.select candidates estimates).selected = some a ↔
      IsFirstMax (c.boundKey estimates) (estimated estimates candidates) a ∧
        PyFloat.le (c.boundOf estimates a) (.fin 0) = false := by
  by_cases hnil : estimated estimates candidates = []
  · rw [select_of_nil hnil, hnil]
    constructor
    · exact fun h ↦ nomatch h
    · exact fun h ↦ absurd h.1.mem List.not_mem_nil
  · obtain ⟨b, hb⟩ := exists_isFirstMax (c.boundKey estimates) hnil
    rw [select_of_isFirstMax hm hb]
    split
    · next hle =>
      constructor
      · exact fun h ↦ nomatch h
      · rintro ⟨ha, hpos⟩
        rw [ha.unique hb, hle] at hpos
        cases hpos
    · next hle =>
      constructor
      · intro h
        cases h
        exact ⟨hb, Bool.eq_false_of_not_eq_true hle⟩
      · rintro ⟨ha, -⟩
        rw [ha.unique hb]

private theorem select_eq_of_selected (hm : c.uncertaintyMultiplier.isFinite = true)
    {a : ActionCandidate} (h : (c.select candidates estimates).selected = some a) :
    c.select candidates estimates = ⟨some a, c.boundOf estimates a, none⟩ := by
  obtain ⟨ha, hpos⟩ := (selected_eq_some_iff hm).mp h
  rw [select_of_isFirstMax hm ha, hpos]
  rfl

private theorem mem_estimated {a : ActionCandidate} {e : ValueEstimate} (ha : a ∈ candidates)
    (he : estimates.get? a.id = some e) : a ∈ estimated estimates candidates :=
  List.mem_filter.mpr ⟨ha, by rw [he]; rfl⟩

private theorem le_bound_of_isFirstMax (hm : c.uncertaintyMultiplier.isFinite = true)
    {a b : ActionCandidate} (h : IsFirstMax (c.boundKey estimates) (estimated estimates candidates) a)
    (hb : b ∈ estimated estimates candidates) :
    PyFloat.le (c.boundOf estimates b) (c.boundOf estimates a) = true := by
  rw [PyFloat.le_iff_rank (boundOf_ne_nan hm b) (boundOf_ne_nan hm a)]
  have hle := h.key_le hb
  rw [boundKey, boundKey, Prod.Lex.toLex_le_toLex] at hle
  obtain hlt | heq := hle
  · exact hlt.le
  · exact heq.1.le

/-- Something is selected exactly when some estimate is worth something. -/
theorem isSome_selected_iff (hm : c.uncertaintyMultiplier.isFinite = true) :
    (c.select candidates estimates).selected.isSome = true ↔ ∃ a ∈ candidates, ∃ e,
      estimates.get? a.id = some e ∧ PyFloat.lt (.fin 0) (c.lowerBound e) = true := by
  constructor
  · intro h
    obtain ⟨a, ha⟩ := Option.isSome_iff_exists.mp h
    obtain ⟨hmem, e, he, -, hpos⟩ := select_eq_some ha
    exact ⟨a, hmem, e, he,
      PyFloat.lt_of_not_le (lowerBound_ne_nan hm e) PyFloat.noConfusion hpos⟩
  · rintro ⟨a, ha, e, he, hpos⟩
    have hmem := mem_estimated ha he
    obtain ⟨b, hb⟩ := exists_isFirstMax (c.boundKey estimates) (List.ne_nil_of_mem hmem)
    have hle := le_bound_of_isFirstMax hm hb hmem
    rw [boundOf_of_get? he] at hle
    have hnot : PyFloat.le (c.boundOf estimates b) (.fin 0) = false := by
      apply Bool.eq_false_of_not_eq_true
      intro hzero
      have hzero := PyFloat.le_trans hle hzero
      rw [PyFloat.le_iff_rank (lowerBound_ne_nan hm e) PyFloat.noConfusion] at hzero
      rw [PyFloat.lt_eq_decide_rank PyFloat.noConfusion (lowerBound_ne_nan hm e),
        decide_eq_true_eq] at hpos
      exact absurd hzero (not_le_of_gt hpos)
    rw [(selected_eq_some_iff hm).mpr ⟨hb, hnot⟩]
    rfl

/-- The order of candidates with distinct ids does not matter. -/
theorem select_eq_of_perm (hm : c.uncertaintyMultiplier.isFinite = true)
    {candidates' : List ActionCandidate} (hperm : candidates.Perm candidates')
    (hids : (candidates.map ActionCandidate.id).Nodup) :
    c.select candidates' estimates = c.select candidates estimates := by
  have hestimated : (estimated estimates candidates).Perm (estimated estimates candidates') :=
    hperm.filter _
  by_cases hnil : estimated estimates candidates = []
  · rw [hnil] at hestimated
    rw [select_of_nil hnil, select_of_nil hestimated.nil_eq.symm]
  · obtain ⟨a, ha⟩ := exists_isFirstMax (c.boundKey estimates) hnil
    have hinj : ∀ x ∈ estimated estimates candidates, ∀ y ∈ estimated estimates candidates,
        c.boundKey estimates x = c.boundKey estimates y → x = y := by
      intro x hx y hy hkey
      have hid : x.id = y.id := congrArg (fun k ↦ (ofLex k).2) hkey
      exact List.inj_on_of_nodup_map hids (List.mem_of_mem_filter hx) (List.mem_of_mem_filter hy) hid
    have hnodup : (estimated estimates candidates').Nodup :=
      hestimated.nodup_iff.mp ((List.Nodup.of_map _ hids).filter _)
    rw [select_of_isFirstMax hm ha, select_of_isFirstMax hm (ha.perm hestimated hinj hnodup)]

/-- Candidates below the selected one are not looked at, wherever they stand. -/
theorem select_eq_of_dominated (hm : c.uncertaintyMultiplier.isFinite = true)
    {candidates' : List ActionCandidate} {a : ActionCandidate}
    (h : (c.select candidates estimates).selected = some a)
    (hsame : (candidates'.filter fun b ↦
        !c.dominated estimates (c.select candidates estimates).lowerBound b) =
      candidates.filter fun b ↦
        !c.dominated estimates (c.select candidates estimates).lowerBound b) :
    c.select candidates' estimates = c.select candidates estimates := by
  rw [select_eq_of_selected hm h] at hsame
  simp only at hsame
  obtain ⟨ha, hpos⟩ := (selected_eq_some_iff hm).mp h
  have hkept : ∀ l : List ActionCandidate,
      (l.filter fun b ↦ !c.dominated estimates (c.boundOf estimates a) b) =
        (estimated estimates l).filter fun b ↦ !c.dominated estimates (c.boundOf estimates a) b := by
    intro l
    rw [estimated, List.filter_filter]
    apply List.filter_congr
    intro b _
    rw [dominated]
    cases estimates.get? b.id <;> simp
  have hself : (!c.dominated estimates (c.boundOf estimates a) a) = true := by
    obtain ⟨e, he⟩ := Option.isSome_iff_exists.mp (List.mem_filter.mp ha.mem).2
    rw [dominated, he, boundOf_of_get? he]
    simp [PyFloat.lt_eq_decide_rank (lowerBound_ne_nan hm e) (lowerBound_ne_nan hm e)]
  have hbelow : ∀ b ∈ estimated estimates candidates',
      (!c.dominated estimates (c.boundOf estimates a) b) = false →
        c.boundKey estimates b < c.boundKey estimates a := by
    intro b hb hdrop
    obtain ⟨e, he⟩ := Option.isSome_iff_exists.mp (List.mem_filter.mp hb).2
    rw [dominated, he] at hdrop
    simp only [Bool.not_eq_false', ← boundOf_of_get? (c := c) he,
      PyFloat.lt_eq_decide_rank (boundOf_ne_nan hm b) (boundOf_ne_nan hm a),
      decide_eq_true_eq] at hdrop
    rw [boundKey, boundKey, Prod.Lex.toLex_lt_toLex]
    exact .inl hdrop
  rw [hkept candidates', hkept candidates] at hsame
  have hfiltered := ha.filter
    (p := fun b ↦ !c.dominated estimates (c.boundOf estimates a) b) hself
  rw [← hsame] at hfiltered
  rw [select_eq_of_selected hm h,
    select_eq_of_selected hm ((selected_eq_some_iff hm).mpr ⟨hfiltered.of_filter hbelow, hpos⟩)]

/-- A candidate selected on a raised estimate was selected before. -/
theorem selected_of_raised (hm : c.uncertaintyMultiplier.isFinite = true) {a : ActionCandidate}
    {e e' : ValueEstimate} (he : estimates.get? a.id = some e) (hvalid : IsValidEstimate e)
    (hraised : IsRaised e e')
    (h : (c.select candidates (estimates.insert a.id e')).selected = some a) :
    (c.select candidates estimates).selected = some a := by
  obtain ⟨ha, hpos⟩ := (selected_eq_some_iff hm).mp h
  have hget : (estimates.insert a.id e').get? a.id = some e' := by
    rw [Dict.get?_insert, if_pos rfl]
  have hother : ∀ b : ActionCandidate, b.id ≠ a.id →
      c.boundKey (estimates.insert a.id e') b = c.boundKey estimates b := by
    intro b hb
    rw [boundKey, boundKey, boundOf, boundOf, Dict.get?_insert, if_neg hb.symm]
  have hsame : estimated (estimates.insert a.id e') candidates = estimated estimates candidates := by
    apply List.filter_congr
    intro b _
    by_cases hb : b.id = a.id
    · rw [hb, hget, he]
      rfl
    · rw [Dict.get?_insert, if_neg (Ne.symm hb)]
  have hbound : PyFloat.le (c.boundOf (estimates.insert a.id e') a) (c.boundOf estimates a) = true := by
    rw [boundOf_of_get? hget, boundOf_of_get? he]
    exact lowerBound_le_of_raised hm hvalid hraised
  have hkey : c.boundKey (estimates.insert a.id e') a ≤ c.boundKey estimates a := by
    rw [boundKey, boundKey, Prod.Lex.toLex_le_toLex]
    rw [PyFloat.le_iff_rank (boundOf_ne_nan hm a) (boundOf_ne_nan hm a)] at hbound
    obtain hlt | heq := hbound.lt_or_eq
    · exact .inl hlt
    · exact .inr ⟨heq, le_refl a.id⟩
  have hid : ∀ b : ActionCandidate, b.id = a.id → ∀ d : Dict Text ValueEstimate,
      c.boundKey d b = c.boundKey d a := by
    intro b hb d
    rw [boundKey, boundKey, boundOf, boundOf, hb]
  rw [hsame] at ha
  apply (selected_eq_some_iff hm).mpr ⟨?_, ?_⟩
  · apply ha.mono
    · intro b _ hlt
      have hne : b.id ≠ a.id := by
        intro hb
        rw [hid b hb] at hlt
        exact absurd hlt (lt_irrefl _)
      rw [← hother b hne]
      exact hlt.trans_le hkey
    · intro b _ heq
      -- the key holds the id, so only the candidate's own namesakes are beside it
      exact (hid b (congrArg (fun k ↦ (ofLex k).2) heq) estimates).le
  · apply Bool.eq_false_of_not_eq_true
    intro hzero
    rw [PyFloat.le_trans hbound hzero] at hpos
    cases hpos

end Select

end RobustCvocController

/-- With a finite multiplier, the controller ranks invalid estimates below everything and a valid
one at its gain less what speaks against it. It selects a candidate exactly when some candidate
has an estimate with a positive lower bound; what it selects has the greatest; the order of
candidates with distinct ids does not matter; adding or removing candidates with a smaller lower
bound, or without one, changes nothing; and no candidate becomes selected by raising the cost, the
penalty or the uncertainty of its estimate. -/
theorem conservative_selection (c : RobustCvocController)
    (hm : c.uncertaintyMultiplier.isFinite = true) (candidates : List ActionCandidate)
    (estimates : Dict Text ValueEstimate) :
    (∀ e, ¬ IsValidEstimate e → c.lowerBound e = .negInf) ∧
    (∀ m gain cost penalty uncertainty : ℚ, c.uncertaintyMultiplier = .fin m →
      0 ≤ cost → 0 ≤ penalty → 0 ≤ uncertainty →
      c.lowerBound ⟨.fin gain, .fin cost, .fin penalty, .fin uncertainty⟩ =
        .fin (gain - cost - penalty - m * uncertainty)) ∧
    ((c.select candidates estimates).selected.isSome = true ↔ ∃ a ∈ candidates, ∃ e,
      estimates.get? a.id = some e ∧ PyFloat.lt (.fin 0) (c.lowerBound e) = true) ∧
    (∀ a, (c.select candidates estimates).selected = some a →
      a ∈ candidates ∧ ∃ e, estimates.get? a.id = some e ∧
        (c.select candidates estimates).lowerBound = c.lowerBound e ∧
        ∀ b ∈ candidates, ∀ e', estimates.get? b.id = some e' →
          PyFloat.le (c.lowerBound e') (c.lowerBound e) = true) ∧
    (∀ candidates', candidates.Perm candidates' → (candidates.map ActionCandidate.id).Nodup →
      c.select candidates' estimates = c.select candidates estimates) ∧
    (∀ candidates', (c.select candidates estimates).selected.isSome = true →
      (candidates'.filter fun b ↦
          !c.dominated estimates (c.select candidates estimates).lowerBound b) =
        (candidates.filter fun b ↦
          !c.dominated estimates (c.select candidates estimates).lowerBound b) →
      c.select candidates' estimates = c.select candidates estimates) ∧
    (∀ (a : ActionCandidate) (e e' : ValueEstimate), estimates.get? a.id = some e →
      IsValidEstimate e → IsRaised e e' →
      (c.select candidates (estimates.insert a.id e')).selected = some a →
      (c.select candidates estimates).selected = some a) := by
  refine ⟨fun e he ↦ RobustCvocController.lowerBound_of_not_valid he,
    fun m g t r u hmul ht hr hu ↦ RobustCvocController.lowerBound_of_nonneg hmul ht hr hu,
    RobustCvocController.isSome_selected_iff hm, ?_,
    fun candidates' hperm hids ↦ RobustCvocController.select_eq_of_perm hm hperm hids, ?_,
    fun a e e' he hvalid hraised h ↦
      RobustCvocController.selected_of_raised hm he hvalid hraised h⟩
  · intro a ha
    obtain ⟨hmem, e, he, hbound, -⟩ := RobustCvocController.select_eq_some ha
    refine ⟨hmem, e, he, hbound, fun b hb e' he' ↦ ?_⟩
    have hmax := ((RobustCvocController.selected_eq_some_iff hm).mp ha).1
    have hle := RobustCvocController.le_bound_of_isFirstMax hm hmax
      (RobustCvocController.mem_estimated hb he')
    rw [RobustCvocController.boundOf_of_get? he, RobustCvocController.boundOf_of_get? he'] at hle
    exact hle
  · intro candidates' hsome hsame
    obtain ⟨a, ha⟩ := Option.isSome_iff_exists.mp hsome
    exact RobustCvocController.select_eq_of_dominated hm ha hsame

/-- A local model and a frontier model, in both orders. -/
theorem conservative_selection_two :
    let estimates : Dict Text ValueEstimate :=
      .ofList [(Text.ofString "local", ⟨.fin (7 / 10), .fin (1 / 5), .fin 0, .fin (1 / 10)⟩),
        (Text.ofString "frontier", ⟨.fin (11 / 10), .fin (2 / 5), .fin (1 / 10), .fin (1 / 20)⟩)]
    let near : ActionCandidate :=
      ⟨Text.ofString "local", .localModel, .readOnly, .fin 0, none, []⟩
    let far : ActionCandidate :=
      ⟨Text.ofString "frontier", .frontierModel, .readOnly, .fin 0, none, []⟩
    RobustCvocController.select ⟨.fin 2, by decide⟩ [far, near] estimates =
        RobustCvocController.select ⟨.fin 2, by decide⟩ [near, far] estimates ∧
      (RobustCvocController.select ⟨.fin 2, by decide⟩ [near, far] estimates).selected = some far := by
  intro estimates near far
  have h := conservative_selection ⟨.fin 2, by decide⟩ rfl [near, far] estimates
  exact ⟨h.2.2.2.2.1 [far, near] (List.Perm.swap far near []) (by decide), by decide +kernel⟩

end C3RSpec.Runtime
