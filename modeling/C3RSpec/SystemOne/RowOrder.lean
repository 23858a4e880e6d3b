import C3RSpec.Base.Truncation
import C3RSpec.SystemOne.FittedSlices

/-!
# Metrics and the order of the rows

`c3r/system_one/calibration_fit.py:59–124`. Every metric but the selective risk is a sum over the
examples. The selective risk cuts off a stable sort by confidence alone: where the cut goes through
examples of one confidence, it counts those that came first.
-/

namespace C3RSpec.SystemOne

open Base

noncomputable section

/-- The probabilities of an example. -/
def probabilitiesOf (temperature : ℝ) (e : CalibrationExample) : List ℝ :=
  (softmax e.logits temperature).toOption.getD []

/-- The confidence of an example. -/
def confidenceOf (temperature : ℝ) (e : CalibrationExample) : ℝ :=
  maximum (probabilitiesOf temperature e)

/-- Whether the prediction for an example is right. -/
def correctOf (temperature : ℝ) (e : CalibrationExample) : Bool :=
  decide ((predictedIndex (probabilitiesOf temperature e) : Int) = e.labelIndex)

/-- Some number of accepted examples cuts through examples of one confidence, of which one is right
and one is wrong. -/
def CutsMixedTie (temperature : ℝ) (examples : List CalibrationExample) : Prop :=
  ∃ accepted ∈ acceptedCounts examples.length,
    CutsTie (confidenceOf temperature) (correctOf temperature) accepted examples

/-! ### Scores -/

variable {temperature : ℝ} {bins : Nat} {examples : List CalibrationExample}

/-- The score of an example. -/
def scoreOf (temperature : ℝ) (bins : Nat) (e : CalibrationExample) : ExampleScore :=
  (scoreExample temperature bins e).toOption.getD ⟨false, 0, 0, 0⟩

private theorem scoreExample_eq_ok {e : CalibrationExample} (he : e.HasLabel)
    (ht : temperature ≠ 0) (hbins : bins ≠ 0) :
    scoreExample temperature bins e = .ok (scoreOf temperature bins e) ∧
      (scoreOf temperature bins e).confidence = confidenceOf temperature e ∧
      (scoreOf temperature bins e).isCorrect = correctOf temperature e := by
  obtain ⟨probabilities, hsoftmax, hlength⟩ := softmax_of_ne he.logits_ne_nil ht
  have hprobabilities : probabilitiesOf temperature e = probabilities := by
    rw [probabilitiesOf, hsoftmax]
    rfl
  have hlabel : decide (0 ≤ e.labelIndex ∧ e.labelIndex < probabilities.length) = true := by
    rw [hlength]
    exact decide_eq_true he
  unfold scoreOf confidenceOf correctOf scoreExample
  rw [hprobabilities, hsoftmax]
  simp only [bind, Except.bind, hlabel, Bool.not_true, Bool.false_eq_true, if_false, hbins]
  exact ⟨rfl, rfl, rfl⟩

private theorem mapM_scoreExample (hvalid : ∀ e ∈ examples, e.HasLabel) (ht : temperature ≠ 0)
    (hbins : bins ≠ 0) :
    examples.mapM (scoreExample temperature bins) = .ok (examples.map (scoreOf temperature bins)) := by
  induction examples with
  | nil => rfl
  | cons e examples ih =>
    rw [List.forall_mem_cons] at hvalid
    rw [List.mapM_cons, (scoreExample_eq_ok hvalid.1 ht hbins).1, ih hvalid.2]
    rfl

/-- The metrics of a list of scores. -/
def metricsOf (bins : Nat) (scores : List ExampleScore) : CalibrationMetrics where
  accuracy := (scores.countP ExampleScore.isCorrect : ℝ) / scores.length
  brier := (scores.map ExampleScore.squaredError).sum / scores.length
  ece := ((calibrationErrors bins scores).map fun (size, error) ↦ size * error).sum / scores.length
  maximumCalibrationError := maximum ((calibrationErrors bins scores).map Prod.snd)
  nll := (scores.map ExampleScore.logLoss).sum / scores.length
  riskCoverage := riskCoverage scores

/-- The metrics of valid examples are those of their scores. -/
theorem calibrationMetrics_eq_ok (hne : examples ≠ []) (hvalid : ∀ e ∈ examples, e.HasLabel)
    (ht : temperature ≠ 0) (hbins : bins ≠ 0) :
    calibrationMetrics examples temperature bins =
      .ok (metricsOf bins (examples.map (scoreOf temperature bins))) := by
  unfold calibrationMetrics
  rw [mapM_scoreExample hvalid ht hbins, if_neg (by simpa using hne)]
  simp only [metricsOf, List.length_map]
  rfl

/-! ### Sums over the examples -/

private theorem calibrationErrors_of_perm {scores scores' : List ExampleScore}
    (h : scores.Perm scores') : calibrationErrors bins scores = calibrationErrors bins scores' := by
  refine List.filterMap_congr fun bucket _ ↦ ?_
  have hvalues := h.filter fun s ↦ decide (bucketOf bins s = bucket)
  dsimp only
  rw [hvalues.isEmpty_eq, hvalues.length_eq, (hvalues.map ExampleScore.confidence).sum_eq,
    (hvalues.map ExampleScore.outcome).sum_eq]

/-- Of the metrics, the order of the scores touches at most the selective risk. -/
theorem metricsOf_of_perm {scores scores' : List ExampleScore} (h : scores.Perm scores') :
    metricsOf bins scores = { metricsOf bins scores' with riskCoverage := riskCoverage scores } := by
  unfold metricsOf
  rw [calibrationErrors_of_perm h, h.length_eq, h.countP_eq,
    (h.map ExampleScore.squaredError).sum_eq, (h.map ExampleScore.logLoss).sum_eq]

/-! ### The selective risk -/

/-- What the accepted scores sum to. -/
private def acceptedSum (accepted : Nat) (scores : List ExampleScore) : ℝ :=
  (((scores.insertionSort fun a b ↦ b.confidence ≤ a.confidence).take accepted).map
    ExampleScore.outcome).sum

private theorem pos_of_mem_acceptedCounts {count accepted : Nat}
    (h : accepted ∈ acceptedCounts count) : 0 < accepted := by
  have hmem := List.mem_dedup.mp ((sortOn_perm id _).mem_iff.mp h)
  obtain ⟨coverage, -, rfl⟩ := List.mem_map.mp hmem
  exact Nat.lt_of_lt_of_le Nat.zero_lt_one (Nat.le_max_left _ _)

/-- The points of two lists agree when the accepted scores sum to the same everywhere. -/
private theorem riskCoverage_eq_iff {scores scores' : List ExampleScore}
    (hlength : scores.length = scores'.length) : riskCoverage scores = riskCoverage scores' ↔
      ∀ accepted ∈ acceptedCounts scores.length,
        acceptedSum accepted scores = acceptedSum accepted scores' := by
  unfold riskCoverage acceptedSum
  rw [← hlength, List.map_inj_left]
  refine forall₂_congr fun accepted hmem ↦ ?_
  have hpos : (accepted : ℝ) ≠ 0 := Nat.cast_ne_zero.mpr (pos_of_mem_acceptedCounts hmem).ne'
  rw [RiskCoveragePoint.mk.injEq, sub_right_inj, div_left_inj' hpos]
  exact ⟨fun h ↦ h.2.1, fun h ↦ ⟨rfl, h, rfl⟩⟩

/-- The examples, sorted as their scores are. -/
private def byConfidence (temperature : ℝ) (examples : List CalibrationExample) :
    List CalibrationExample :=
  examples.insertionSort fun a b ↦ confidenceOf temperature b ≤ confidenceOf temperature a

private theorem byConfidence_perm : (byConfidence temperature examples).Perm examples :=
  List.perm_insertionSort _ _

private theorem falling_byConfidence :
    Falling (confidenceOf temperature) (byConfidence temperature examples) :=
  pairwise_sortOn (fun e ↦ OrderDual.toDual (confidenceOf temperature e)) examples

private theorem byConfidence_of_falling (h : Falling (confidenceOf temperature) examples) :
    byConfidence temperature examples = examples :=
  List.Pairwise.insertionSort_eq h

/-- The outcome of an example. -/
private def outcomeOf (temperature : ℝ) (e : CalibrationExample) : ℝ :=
  if correctOf temperature e then 1 else 0

private theorem outcomeOf_ne_iff {e f : CalibrationExample} :
    outcomeOf temperature e ≠ outcomeOf temperature f ↔
      correctOf temperature e ≠ correctOf temperature f := by
  unfold outcomeOf
  cases correctOf temperature e <;> cases correctOf temperature f <;> simp

private theorem cutsTie_outcomeOf_iff {accepted : Nat} :
    CutsTie (confidenceOf temperature) (outcomeOf temperature) accepted examples ↔
      CutsTie (confidenceOf temperature) (correctOf temperature) accepted examples := by
  unfold CutsTie
  simp only [outcomeOf_ne_iff]

private theorem acceptedSum_eq (hvalid : ∀ e ∈ examples, e.HasLabel) (ht : temperature ≠ 0)
    (hbins : bins ≠ 0) (accepted : Nat) :
    acceptedSum accepted (examples.map (scoreOf temperature bins)) =
      (((byConfidence temperature examples).take accepted).map (outcomeOf temperature)).sum := by
  have hsorted : (examples.map (scoreOf temperature bins)).insertionSort
      (fun a b ↦ b.confidence ≤ a.confidence) =
        (byConfidence temperature examples).map (scoreOf temperature bins) := by
    refine (List.map_insertionSort _ _ _ _ fun a ha b hb ↦ ?_).symm
    rw [(scoreExample_eq_ok (hvalid a ha) ht hbins).2.1,
      (scoreExample_eq_ok (hvalid b hb) ht hbins).2.1]
  rw [acceptedSum, hsorted, ← List.map_take, List.map_map]
  refine congrArg List.sum (List.map_congr_left fun e he ↦ ?_)
  have hmem := byConfidence_perm.mem_iff.mp (List.mem_of_mem_take he)
  change (scoreOf temperature bins e).outcome = _
  rw [ExampleScore.outcome, (scoreExample_eq_ok (hvalid e hmem) ht hbins).2.2]
  rfl

/-! ### Every order -/

private theorem with_riskCoverage_eq_iff {m : CalibrationMetrics} {points : List RiskCoveragePoint} :
    ({ m with riskCoverage := points } : CalibrationMetrics) = m ↔ points = m.riskCoverage := by
  cases m
  simp

/-- Two orders have the same metrics when the accepted outcomes sum to the same everywhere. -/
private theorem metrics_eq_iff_of_perm (hne : examples ≠ []) (hvalid : ∀ e ∈ examples, e.HasLabel)
    (ht : temperature ≠ 0) (hbins : bins ≠ 0) {examples' : List CalibrationExample}
    (hperm : examples.Perm examples') :
    calibrationMetrics examples' temperature bins = calibrationMetrics examples temperature bins ↔
      ∀ accepted ∈ acceptedCounts examples.length,
        (((byConfidence temperature examples').take accepted).map (outcomeOf temperature)).sum =
          (((byConfidence temperature examples).take accepted).map (outcomeOf temperature)).sum := by
  have hvalid' : ∀ e ∈ examples', e.HasLabel := fun e he ↦ hvalid e (hperm.mem_iff.mpr he)
  have hne' : examples' ≠ [] := fun h ↦ hne (List.Perm.eq_nil (h ▸ hperm))
  have hscores := (hperm.map (scoreOf temperature bins)).symm
  have hlength : (examples'.map (scoreOf temperature bins)).length = examples.length := by
    rw [List.length_map, hperm.length_eq]
  rw [calibrationMetrics_eq_ok hne hvalid ht hbins, calibrationMetrics_eq_ok hne' hvalid' ht hbins,
    metricsOf_of_perm hscores, Except.ok.injEq, with_riskCoverage_eq_iff]
  change riskCoverage _ = riskCoverage _ ↔ _
  rw [riskCoverage_eq_iff (hscores.length_eq), hlength]
  refine forall₂_congr fun accepted _ ↦ ?_
  rw [acceptedSum_eq hvalid ht hbins, acceptedSum_eq hvalid' ht hbins]

/-- For every list of examples with valid labels, at every positive temperature and number of
bins: the metrics are the same in every order of the examples, unless a number of accepted examples
cuts through examples of one confidence that are partly right and partly wrong. -/
theorem metrics_row_order_iff (hne : examples ≠ []) (hvalid : ∀ e ∈ examples, e.HasLabel)
    (ht : 0 < temperature) (hbins : 1 ≤ bins) :
    (∀ examples', examples.Perm examples' → calibrationMetrics examples' temperature bins =
      calibrationMetrics examples temperature bins) ↔ ¬ CutsMixedTie temperature examples := by
  have ht := ht.ne'
  have hbins : bins ≠ 0 := Nat.ne_of_gt hbins
  constructor
  · rintro hall ⟨accepted, haccepted, hcut⟩
    obtain ⟨ys, zs, hys, hzs, hfys, hfzs, hsums⟩ :=
      exists_sum_take_ne (cutsTie_outcomeOf_iff.mpr hcut)
    have hy := (metrics_eq_iff_of_perm hne hvalid ht hbins hys.symm).mp (hall ys hys.symm) accepted
      haccepted
    have hz := (metrics_eq_iff_of_perm hne hvalid ht hbins hzs.symm).mp (hall zs hzs.symm) accepted
      haccepted
    rw [byConfidence_of_falling hfys] at hy
    rw [byConfidence_of_falling hfzs] at hz
    exact hsums (hy.trans hz.symm)
  · intro hcut examples' hperm
    refine (metrics_eq_iff_of_perm hne hvalid ht hbins hperm).mpr fun accepted haccepted ↦ ?_
    apply sum_take_eq_of_not_cutsTie ?_ falling_byConfidence falling_byConfidence
    · intro htie
      exact hcut ⟨accepted, haccepted, cutsTie_outcomeOf_iff.mp (htie.perm byConfidence_perm)⟩
    · exact byConfidence_perm.trans (hperm.symm.trans byConfidence_perm.symm)

/-- An example that cannot be told from its opposite by its logits. -/
def evenExample (label : Int) : CalibrationExample :=
  ⟨⟨"STOP_NOW", "GLOBAL", "2", "en", "low"⟩, [0, 0], label⟩

private theorem hasLabel_evenExample {label : Int} (h : 0 ≤ label ∧ label < 2) :
    (evenExample label).HasLabel := h

private theorem probabilitiesOf_level {e : CalibrationExample} {logit : ℝ}
    (h : e.logits = [logit, logit]) : probabilitiesOf 1 e = [1 / 2, 1 / 2] := by
  have hpeak : maximum [logit, logit] = logit := by
    change max logit logit = logit
    exact max_self logit
  unfold probabilitiesOf softmax
  rw [h, if_neg (List.cons_ne_nil _ _), if_neg one_ne_zero]
  simp only [List.map_cons, List.map_nil, div_one, hpeak, sub_self, Real.exp_zero, List.sum_cons,
    List.sum_nil, add_zero]
  norm_num
  rfl

private theorem correctOf_level {e : CalibrationExample} {logit : ℝ}
    (h : e.logits = [logit, logit]) : correctOf 1 e = decide (0 = e.labelIndex) := by
  have hindex : predictedIndex [1 / 2, 1 / 2] = 0 := by
    change (if decide ((1 : ℝ) / 2 < 1 / 2) = true then 1 else 0) = 0
    rw [decide_eq_false (lt_irrefl _), if_neg Bool.false_ne_true]
  rw [correctOf, probabilitiesOf_level h, hindex]
  rfl

private theorem correctOf_evenExample (label : Int) :
    correctOf 1 (evenExample label) = decide (0 = label) :=
  correctOf_level rfl

/-- Two examples of one confidence, the right one first and the wrong one first: the selective risk
at the first accepted example is zero and one. -/
theorem metrics_depend_on_row_order :
    (∀ e ∈ [evenExample 0, evenExample 1], e.HasLabel) ∧
      [evenExample 0, evenExample 1].Perm [evenExample 1, evenExample 0] ∧
      calibrationMetrics [evenExample 1, evenExample 0] 1 ≠
        calibrationMetrics [evenExample 0, evenExample 1] 1 := by
  have hvalid : ∀ e ∈ [evenExample 0, evenExample 1], e.HasLabel :=
    List.forall_mem_cons.mpr ⟨hasLabel_evenExample (by decide),
      List.forall_mem_singleton.mpr (hasLabel_evenExample (by decide))⟩
  have hperm : [evenExample 0, evenExample 1].Perm [evenExample 1, evenExample 0] :=
    List.Perm.swap _ _ _
  refine ⟨hvalid, hperm, fun h ↦ ?_⟩
  have hfalling : ∀ i j, Falling (confidenceOf 1) [evenExample i, evenExample j] :=
    fun i j ↦ List.pairwise_pair.mpr (le_refl _)
  have hsums := (metrics_eq_iff_of_perm (List.cons_ne_nil _ _) hvalid one_ne_zero (by decide)
    hperm).mp h 1 (by decide +kernel)
  rw [byConfidence_of_falling (hfalling 0 1), byConfidence_of_falling (hfalling 1 0)] at hsums
  simp [outcomeOf, correctOf_evenExample] at hsums

/-- An example of another question that cannot be told from its opposite either. -/
def levelExample : CalibrationExample :=
  ⟨⟨"DELIBERATION_REQUIRED", "GLOBAL", "2", "en", "low"⟩, [1, 1], 0⟩

/-- Two examples of one confidence that are both right: the metrics are the same in either order. -/
theorem metrics_row_order_iff_level :
    evenExample 0 ≠ levelExample ∧ confidenceOf 1 (evenExample 0) = confidenceOf 1 levelExample ∧
      ¬ CutsMixedTie 1 [evenExample 0, levelExample] ∧
      calibrationMetrics [levelExample, evenExample 0] 1 =
        calibrationMetrics [evenExample 0, levelExample] 1 := by
  have hlabel : levelExample.HasLabel := ⟨le_refl 0, Nat.cast_pos.mpr Nat.two_pos⟩
  have hvalid : ∀ e ∈ [evenExample 0, levelExample], e.HasLabel :=
    List.forall_mem_cons.mpr ⟨hasLabel_evenExample (by decide),
      List.forall_mem_singleton.mpr hlabel⟩
  have hdiffer : evenExample 0 ≠ levelExample := by
    intro h
    have htype := congrArg (fun e ↦ e.key.questionType) h
    exact absurd htype (by decide)
  have hconfidence : confidenceOf 1 (evenExample 0) = confidenceOf 1 levelExample := by
    rw [confidenceOf, confidenceOf, probabilitiesOf_level rfl, probabilitiesOf_level rfl]
  have hcorrect : ∀ e ∈ [evenExample 0, levelExample], correctOf 1 e = true :=
    List.forall_mem_cons.mpr ⟨correctOf_level rfl,
      List.forall_mem_singleton.mpr (correctOf_level rfl)⟩
  have hcut : ¬ CutsMixedTie 1 [evenExample 0, levelExample] := by
    rintro ⟨accepted, -, a, ha, b, hb, -, hne, -⟩
    exact hne ((hcorrect a ha).trans (hcorrect b hb).symm)
  have hall : ∀ examples', [evenExample 0, levelExample].Perm examples' →
      calibrationMetrics examples' 1 = calibrationMetrics [evenExample 0, levelExample] 1 :=
    (metrics_row_order_iff (List.cons_ne_nil _ _) hvalid one_pos (by decide)).mpr hcut
  exact ⟨hdiffer, hconfidence, hcut, hall _ (List.Perm.swap _ _ _)⟩

end

end C3RSpec.SystemOne
