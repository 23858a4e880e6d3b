import C3RSpec.Base.FirstMax
import C3RSpec.SystemOne.CalibrationFit
import Mathlib.Tactic.Positivity

/-!
# What a fitted temperature is worth

`c3r/system_one/calibration_fit.py:127–180`. Every slice with enough examples gets the best of the
temperatures that are tried, and no other slice gets one. Temperature one, which the report
compares with, is not among them unless the grid happens to contain it; where it does not, three
examples whose log loss is smallest at one come out worse than uncalibrated.
-/

namespace C3RSpec.SystemOne

open Base

/-- The label of an example is the index of one of its logits. -/
def CalibrationExample.HasLabel (e : CalibrationExample) : Prop :=
  0 ≤ e.labelIndex ∧ e.labelIndex < e.logits.length

/-- The examples of a slice. -/
def sliceOf (key : CalibrationKey) (examples : List CalibrationExample) : List CalibrationExample :=
  examples.filter fun e ↦ decide (e.key = key)

/-! ### Scores of valid examples -/

section Metrics

variable {examples : List CalibrationExample} {temperature : ℝ} {bins : Nat}

/-- Logits have as many probabilities. -/
theorem softmax_of_ne {logits : List ℝ} (hlogits : logits ≠ []) (ht : temperature ≠ 0) :
    ∃ probabilities, softmax logits temperature = .ok probabilities ∧
      probabilities.length = logits.length := by
  refine ⟨_, by rw [softmax, if_neg hlogits, if_neg ht]; rfl, ?_⟩
  simp only [List.length_map]

/-- An example with a label has logits. -/
theorem CalibrationExample.HasLabel.logits_ne_nil {e : CalibrationExample} (he : e.HasLabel) :
    e.logits ≠ [] := by
  intro hnil
  have hlt := he.2
  rw [hnil] at hlt
  exact absurd (he.1.trans_lt hlt) (lt_irrefl _)

private theorem scoreExample_of_hasLabel (e : CalibrationExample) (he : e.HasLabel)
    (ht : temperature ≠ 0) (hbins : bins ≠ 0) :
    ∃ probabilities s, softmax e.logits temperature = .ok probabilities ∧
      scoreExample temperature bins e = .ok s ∧
      s.logLoss = -Real.log (max (probabilities.getD e.labelIndex.toNat 0) (1 / 10 ^ 12)) := by
  obtain ⟨probabilities, hsoftmax, hlength⟩ := softmax_of_ne he.logits_ne_nil ht
  have hlabel : decide (0 ≤ e.labelIndex ∧ e.labelIndex < probabilities.length) = true := by
    rw [hlength]
    exact decide_eq_true he
  have hscore : ∃ s, scoreExample temperature bins e = .ok s ∧
      s.logLoss = -Real.log (max (probabilities.getD e.labelIndex.toNat 0) (1 / 10 ^ 12)) := by
    unfold scoreExample
    rw [hsoftmax]
    simp only [bind, Except.bind, hlabel, Bool.not_true, Bool.false_eq_true, if_false, hbins]
    exact ⟨_, rfl, rfl⟩
  obtain ⟨s, hs, hloss⟩ := hscore
  exact ⟨probabilities, s, hsoftmax, hs, hloss⟩

/-- The mean log loss of valid examples. -/
theorem nll_of_mapM (hne : examples ≠ []) {scores : List ExampleScore}
    (h : examples.mapM (scoreExample temperature bins) = .ok scores) :
    ∃ m, calibrationMetrics examples temperature bins = .ok m ∧
      m.nll = (scores.map ExampleScore.logLoss).sum / examples.length := by
  unfold calibrationMetrics
  rw [h, if_neg (by simpa using hne)]
  exact ⟨_, rfl, rfl⟩

/-- Valid examples have metrics at every temperature but zero. -/
theorem exists_metrics (hne : examples ≠ []) (hvalid : ∀ e ∈ examples, e.HasLabel)
    (ht : temperature ≠ 0) : ∃ m, calibrationMetrics examples temperature = .ok m := by
  obtain ⟨scores, hscores⟩ := exists_mapM_ok (f := scoreExample temperature 10)
    fun e he ↦ by
      obtain ⟨-, s, -, hs, -⟩ := scoreExample_of_hasLabel e (hvalid e he) ht (by decide : 10 ≠ 0)
      exact ⟨s, hs⟩
  obtain ⟨m, hm, -⟩ := nll_of_mapM hne hscores
  exact ⟨m, hm⟩

end Metrics

/-! ### One slice -/

section Slices

variable {s : FitSettings}

/-- The first temperature of a slice does no worse than the second. -/
def FitsNoWorse (slice : List CalibrationExample) (t u : ℝ) : Prop :=
  ∃ m n, calibrationMetrics slice t = .ok m ∧ calibrationMetrics slice u = .ok n ∧ m.nll ≤ n.nll

theorem candidate_pos {t : ℝ} (h : t ∈ s.candidates) : 0 < t := by
  obtain ⟨step, -, rfl⟩ := List.mem_map.mp h
  exact Real.exp_pos _

theorem candidates_ne_nil (hs : s.accepted) : s.candidates ≠ [] := by
  have hsteps := hs.2.1
  rw [FitSettings.candidates, Ne, List.map_eq_nil_iff, List.range_eq_nil]
  omega

/-- The report on the best temperature for a slice. -/
structure IsReport (s : FitSettings) (slice : List CalibrationExample)
    (report : CalibrationSliceReport) : Prop where
  size : report.sampleSize = slice.length
  mem : report.temperature ∈ s.candidates
  best : ∀ t ∈ s.candidates, FitsNoWorse slice report.temperature t
  before : calibrationMetrics slice 1 = .ok report.before
  after : calibrationMetrics slice report.temperature = .ok report.after

/-- What the loop makes of a slice: a temperature with its report, or a note. -/
inductive SliceOutcome (s : FitSettings) (slice : List CalibrationExample) :
    Option ℝ → Option CalibrationSliceReport → Option Text → Prop where
  | skipped (hlength : (slice.length : Int) < s.minimumSliceSize) :
      SliceOutcome s slice none none (some ("insufficient support: " ++ decimal slice.length ++
        " < " ++ decimal s.minimumSliceSize.toNat))
  | fitted {report : CalibrationSliceReport} (hlength : s.minimumSliceSize ≤ slice.length)
      (hreport : IsReport s slice report) :
      SliceOutcome s slice (some report.temperature) (some report) none

theorem SliceOutcome.of_short {slice : List CalibrationExample} {t : Option ℝ}
    {r : Option CalibrationSliceReport} {note : Option Text} (h : SliceOutcome s slice t r note)
    (hlength : (slice.length : Int) < s.minimumSliceSize) : t = none ∧ r = none := by
  cases h with
  | skipped => exact ⟨rfl, rfl⟩
  | fitted hlong => omega

theorem SliceOutcome.of_long {slice : List CalibrationExample} {t : Option ℝ}
    {r : Option CalibrationSliceReport} {note : Option Text} (h : SliceOutcome s slice t r note)
    (hlength : s.minimumSliceSize ≤ slice.length) :
    ∃ report, t = some report.temperature ∧ r = some report ∧ IsReport s slice report := by
  cases h with
  | skipped hshort => omega
  | fitted _ hreport => exact ⟨_, rfl, rfl, hreport⟩

/-- A report is of no harm exactly when some temperature of the grid is. -/
theorem IsReport.nll_le_iff {slice : List CalibrationExample} {report : CalibrationSliceReport}
    (h : IsReport s slice report) :
    report.after.nll ≤ report.before.nll ↔ ∃ t ∈ s.candidates, FitsNoWorse slice t 1 := by
  constructor
  · exact fun hle ↦ ⟨report.temperature, h.mem, report.after, report.before, h.after, h.before, hle⟩
  · rintro ⟨t, ht, m, before, hm, hbefore, hle⟩
    obtain ⟨after, m', hafter, hm', hbest⟩ := h.best t ht
    rw [h.before] at hbefore
    rw [h.after] at hafter
    rw [hm] at hm'
    cases hbefore
    cases hafter
    cases hm'
    exact hbest.trans hle

/-- The first of the best is one of them, and none is better. -/
private theorem firstMin_best (item : ℝ × ℝ) (rest : List (ℝ × ℝ)) :
    firstMin (fun a b ↦ decide (a.1 < b.1)) item rest ∈ item :: rest ∧
      ∀ p ∈ item :: rest, (firstMin (fun a b ↦ decide (a.1 < b.1)) item rest).1 ≤ p.1 := by
  have hflip : firstMin (fun a b : ℝ × ℝ ↦ decide (a.1 < b.1)) item rest =
      firstMax (fun a b : ℝ × ℝ ↦ decide (OrderDual.toDual a.1 < OrderDual.toDual b.1)) item rest := by
    rw [firstMin, firstMax]
    rfl
  have hmax : IsFirstMax (fun p : ℝ × ℝ ↦ OrderDual.toDual p.1) (item :: rest)
      (firstMax (fun a b ↦ decide (OrderDual.toDual a.1 < OrderDual.toDual b.1)) item rest) :=
    isFirstMax_firstMax fun _ _ _ _ ↦ rfl
  rw [hflip]
  exact ⟨hmax.mem, fun p hp ↦ OrderDual.toDual_le_toDual.mp (hmax.key_le hp)⟩

/-- The step of the loop over the slices. -/
theorem fitSlice_eq (hs : s.accepted) (key : CalibrationKey) {slice : List CalibrationExample}
    (hne : slice ≠ []) (hvalid : ∀ e ∈ slice, e.HasLabel) (result : CalibrationFitResult) :
    ((slice.length : Int) < s.minimumSliceSize ∧ fitSlice s result (key, slice) = .ok
      { result with
        skippedSlices := result.skippedSlices.insert key ("insufficient support: " ++
          decimal slice.length ++ " < " ++ decimal s.minimumSliceSize.toNat) }) ∨
    ∃ report, s.minimumSliceSize ≤ slice.length ∧ IsReport s slice report ∧
      fitSlice s result (key, slice) = .ok
        { result with
          temperatures := result.temperatures.insert key report.temperature
          reports := result.reports.insert key report } := by
  by_cases hlength : (slice.length : Int) < s.minimumSliceSize
  · left
    refine ⟨hlength, ?_⟩
    unfold fitSlice
    simp only [if_pos hlength]
    rfl
  · right
    obtain ⟨scored, hscored⟩ := exists_mapM_ok
      (f := fun value ↦ do
        let metrics ← calibrationMetrics slice value
        return (metrics.nll, value)) fun t (ht : t ∈ s.candidates) ↦ by
          obtain ⟨m, hm⟩ := exists_metrics hne hvalid (candidate_pos ht).ne'
          exact ⟨(m.nll, t), by rw [hm]; rfl⟩
    have hpairs := mapM_eq_ok_iff.mp hscored
    have hof : ∀ p ∈ scored, p.2 ∈ s.candidates ∧
        ∃ m, calibrationMetrics slice p.2 = .ok m ∧ m.nll = p.1 := by
      intro p hp
      obtain ⟨t, ht, h⟩ := exists_partner hpairs.flip hp
      obtain ⟨m, hm, h⟩ := bind_eq_ok.mp h
      cases h
      exact ⟨ht, m, hm, rfl⟩
    have hto : ∀ t ∈ s.candidates, ∃ m, calibrationMetrics slice t = .ok m ∧
        (m.nll, t) ∈ scored := by
      intro t ht
      obtain ⟨p, hp, h⟩ := exists_partner hpairs ht
      obtain ⟨m, hm, h⟩ := bind_eq_ok.mp h
      cases h
      exact ⟨m, hm, hp⟩
    cases hscan : scored with
    | nil =>
      obtain ⟨t, ht⟩ := List.exists_mem_of_ne_nil _ (candidates_ne_nil hs)
      obtain ⟨m, -, hm⟩ := hto t ht
      rw [hscan] at hm
      cases hm
    | cons item rest =>
      obtain ⟨hmem, hbest⟩ := firstMin_best item rest
      rw [← hscan] at hmem hbest
      obtain ⟨hcandidate, after, hafter, hnll⟩ := hof _ hmem
      obtain ⟨before, hbefore⟩ := exists_metrics hne hvalid one_ne_zero
      refine ⟨⟨slice.length, _, before, after⟩, not_lt.mp hlength,
        ⟨rfl, hcandidate, ?_, hbefore, hafter⟩, ?_⟩
      · intro t ht
        obtain ⟨m, hm, hpair⟩ := hto t ht
        exact ⟨after, m, hafter, hm, hnll.trans_le (hbest _ hpair)⟩
      · unfold fitSlice
        simp only [if_neg hlength]
        rw [hscored, hscan]
        simp only [bind, Except.bind, hbefore, hafter]
        rfl

/-- What the loop holds once it has seen the slices in `entries`. -/
structure Fitted (s : FitSettings) (entries : List (CalibrationKey × List CalibrationExample))
    (result : CalibrationFitResult) : Prop where
  outcome : ∀ key slice, (key, slice) ∈ entries → SliceOutcome s slice
    (result.temperatures.get? key) (result.reports.get? key) (result.skippedSlices.get? key)
  other : ∀ key, key ∉ entries.map Prod.fst → result.temperatures.get? key = none ∧
    result.reports.get? key = none ∧ result.skippedSlices.get? key = none

private theorem Fitted.append {entries : List (CalibrationKey × List CalibrationExample)}
    {result next : CalibrationFitResult} {key : CalibrationKey} {slice : List CalibrationExample}
    (h : Fitted s entries result) (hkey : key ∉ entries.map Prod.fst)
    (houtcome : SliceOutcome s slice (next.temperatures.get? key) (next.reports.get? key)
      (next.skippedSlices.get? key))
    (hother : ∀ k, k ≠ key → next.temperatures.get? k = result.temperatures.get? k ∧
      next.reports.get? k = result.reports.get? k ∧
      next.skippedSlices.get? k = result.skippedSlices.get? k) :
    Fitted s (entries ++ [(key, slice)]) next where
  outcome k members hk := by
    obtain hold | hnew := List.mem_append.mp hk
    · have hne : k ≠ key := by
        rintro rfl
        exact hkey (List.mem_map.mpr ⟨(k, members), hold, rfl⟩)
      obtain ⟨ht, hr, hn⟩ := hother k hne
      rw [ht, hr, hn]
      exact h.outcome k members hold
    · obtain ⟨rfl, rfl⟩ := Prod.mk.inj (List.mem_singleton.mp hnew)
      exact houtcome
  other k hk := by
    rw [List.map_append, List.mem_append, not_or] at hk
    obtain ⟨ht, hr, hn⟩ := hother k fun heq ↦ hk.2 (by simp [heq])
    rw [ht, hr, hn]
    exact h.other k hk.1

/-- The loop over slices with distinct keys and valid examples. -/
theorem exists_fitted (hs : s.accepted) {entries : List (CalibrationKey × List CalibrationExample)}
    (hkeys : (entries.map Prod.fst).Nodup)
    (hentries : ∀ entry ∈ entries, entry.2 ≠ [] ∧ ∀ e ∈ entry.2, e.HasLabel) :
    ∃ result, entries.foldlM (fitSlice s) ⟨∅, ∅, ∅⟩ = .ok result ∧ Fitted s entries result := by
  induction entries using List.reverseRecOn with
  | nil =>
    refine ⟨⟨∅, ∅, ∅⟩, rfl, ⟨fun key slice h ↦ ?_, fun _ _ ↦ ⟨rfl, rfl, rfl⟩⟩⟩
    cases h
  | append_singleton entries entry ih =>
    obtain ⟨key, slice⟩ := entry
    rw [List.map_append, List.nodup_append] at hkeys
    have hkey : key ∉ entries.map Prod.fst := fun hmem ↦
      hkeys.2.2 key hmem key (by simp) rfl
    obtain ⟨result, hresult, hfitted⟩ := ih hkeys.1 fun e he ↦ hentries e (List.mem_append_left _ he)
    obtain ⟨hne, hvalid⟩ := hentries (key, slice) (by simp)
    obtain ⟨ht, hr, hn⟩ := hfitted.other key hkey
    have hrun : ∀ next, fitSlice s result (key, slice) = .ok next →
        (entries ++ [(key, slice)]).foldlM (fitSlice s) ⟨∅, ∅, ∅⟩ = .ok next := by
      intro next hnext
      rw [List.foldlM_append, hresult]
      exact List.foldlM_cons.trans (congrArg (· >>= _) hnext)
    obtain ⟨hlength, hstep⟩ | ⟨report, hlength, hreport, hstep⟩ := fitSlice_eq hs key hne hvalid result
    · refine ⟨_, hrun _ hstep, hfitted.append hkey ?_ ?_⟩
      · simp only [ht, hr, Dict.get?_insert, if_pos]
        exact .skipped hlength
      · intro k hk
        simp only [Dict.get?_insert, if_neg hk.symm, and_self]
    · refine ⟨_, hrun _ hstep, hfitted.append hkey ?_ ?_⟩
      · simp only [hn, Dict.get?_insert, if_pos]
        exact .fitted hlength hreport
      · intro k hk
        simp only [Dict.get?_insert, if_neg hk.symm, and_self]

/-- What `fit_calibration` returns for valid examples. -/
theorem exists_fitCalibration (hs : s.accepted) (examples : List CalibrationExample)
    (hvalid : ∀ e ∈ examples, e.HasLabel) :
    ∃ result, fitCalibration examples s = .ok result ∧
      Fitted s (Dict.groupBy CalibrationExample.key examples).entries result := by
  obtain ⟨hminimum, hsteps, hlower, hupper⟩ := hs
  have hentries : ∀ entry ∈ (Dict.groupBy CalibrationExample.key examples).entries,
      entry.2 ≠ [] ∧ ∀ e ∈ entry.2, e.HasLabel := by
    rintro ⟨key, slice⟩ hentry
    obtain ⟨rfl, hne⟩ := Dict.mem_entries_groupBy hentry
    exact ⟨hne, fun e he ↦ hvalid e (List.mem_of_mem_filter he)⟩
  obtain ⟨result, hresult, hfitted⟩ := exists_fitted ⟨hminimum, hsteps, hlower, hupper⟩
    (Dict.groupBy CalibrationExample.key examples).nodup hentries
  refine ⟨result, ?_, hfitted⟩
  rw [fitCalibration, if_neg]
  · exact hresult
  · rintro (h | h | h | h)
    · omega
    · omega
    · exact absurd h (not_le_of_gt hlower)
    · exact absurd h (not_le_of_gt hupper)

/-- The outcome of a slice that has examples. -/
private theorem Fitted.slice {examples : List CalibrationExample} {result : CalibrationFitResult}
    (h : Fitted s (Dict.groupBy CalibrationExample.key examples).entries result)
    {key : CalibrationKey} (hne : sliceOf key examples ≠ []) :
    SliceOutcome s (sliceOf key examples) (result.temperatures.get? key)
      (result.reports.get? key) (result.skippedSlices.get? key) := by
  apply h.outcome
  rw [← Dict.get?_eq_some_iff, Dict.get?_groupBy]
  exact if_neg hne

/-- A slice with too few examples, or none, has no temperature and no report. -/
theorem Fitted.of_short {examples : List CalibrationExample} {result : CalibrationFitResult}
    (h : Fitted s (Dict.groupBy CalibrationExample.key examples).entries result)
    {key : CalibrationKey} (hlength : ((sliceOf key examples).length : Int) < s.minimumSliceSize) :
    result.temperatures.get? key = none ∧ result.reports.get? key = none := by
  by_cases hnil : sliceOf key examples = []
  · have hkey : key ∉ (Dict.groupBy CalibrationExample.key examples).keys := by
      rw [← Dict.get?_isSome_iff, Dict.get?_groupBy]
      rw [sliceOf] at hnil
      simp [hnil]
    exact ⟨(h.other key hkey).1, (h.other key hkey).2.1⟩
  · exact (h.slice hnil).of_short hlength

/-- A slice with enough examples has both. -/
theorem Fitted.of_long {examples : List CalibrationExample} {result : CalibrationFitResult}
    (hs : s.accepted) (h : Fitted s (Dict.groupBy CalibrationExample.key examples).entries result)
    (key : CalibrationKey) (hlength : s.minimumSliceSize ≤ (sliceOf key examples).length) :
    ∃ report, result.temperatures.get? key = some report.temperature ∧
      result.reports.get? key = some report ∧ IsReport s (sliceOf key examples) report := by
  have hmin := hs.1
  have hne : sliceOf key examples ≠ [] := by
    intro hnil
    rw [hnil, List.length_nil] at hlength
    omega
  exact (h.slice hne).of_long hlength

/-- What is reported is the report on a slice with enough examples. -/
theorem Fitted.of_report {examples : List CalibrationExample} {result : CalibrationFitResult}
    (hs : s.accepted) (h : Fitted s (Dict.groupBy CalibrationExample.key examples).entries result)
    {key : CalibrationKey} {report : CalibrationSliceReport}
    (hreport : result.reports.get? key = some report) :
    s.minimumSliceSize ≤ (sliceOf key examples).length ∧
      IsReport s (sliceOf key examples) report := by
  by_cases hlength : s.minimumSliceSize ≤ (sliceOf key examples).length
  · obtain ⟨report', -, hsome, his⟩ := h.of_long hs key hlength
    rw [hreport] at hsome
    cases hsome
    exact ⟨hlength, his⟩
  · rw [(h.of_short (not_le.mp hlength)).2] at hreport
    cases hreport

end Slices

/-! ### Two options -/

section TwoOptions

variable {a t : ℝ}

/-- Two options whose logits differ by `a`. -/
theorem softmax_two (ha : 0 ≤ a) (ht : 0 < t) : softmax [a, 0] t =
    .ok [1 / (1 + Real.exp (-(a / t))), Real.exp (-(a / t)) / (1 + Real.exp (-(a / t)))] := by
  have hpeak : maximum [a / t, 0] = a / t := by
    rw [maximum]
    exact max_eq_left (div_nonneg ha ht.le)
  rw [softmax, if_neg (by simp), if_neg ht.ne']
  simp only [List.map_cons, List.map_nil, hpeak, sub_self, Real.exp_zero, zero_div, zero_sub,
    List.sum_cons, List.sum_nil, add_zero]
  rfl

private theorem exp_le_one (ha : 0 ≤ a) (ht : 0 < t) : Real.exp (-(a / t)) ≤ 1 :=
  Real.exp_le_one_iff.mpr (neg_nonpos.mpr (div_nonneg ha ht.le))

/-- The log loss where the favoured option is the right one. -/
theorem logLoss_favoured (ha : 0 ≤ a) (ht : 0 < t) {key : CalibrationKey} {s : ExampleScore}
    (h : scoreExample t 10 ⟨key, [a, 0], 0⟩ = .ok s) :
    s.logLoss = Real.log (1 + Real.exp (-(a / t))) := by
  obtain ⟨probabilities, s', hsoftmax, hscore, hloss⟩ := scoreExample_of_hasLabel
    ⟨key, [a, 0], 0⟩ ⟨le_refl 0, by simp⟩ ht.ne' (by decide : 10 ≠ 0)
  rw [h] at hscore
  cases hscore
  rw [softmax_two ha ht] at hsoftmax
  cases hsoftmax
  have hle := exp_le_one ha ht
  have hpos := Real.exp_pos (-(a / t))
  have hmax : (1 / 10 ^ 12 : ℝ) ≤ 1 / (1 + Real.exp (-(a / t))) := by
    apply one_div_le_one_div_of_le (by linarith)
    calc 1 + Real.exp (-(a / t)) ≤ 2 := by linarith
      _ ≤ 10 ^ 12 := by norm_num
  rw [hloss]
  simp only [Int.toNat_zero, List.getD_cons_zero]
  rw [max_eq_left hmax, one_div, Real.log_inv, neg_neg]

/-- The log loss where it is not. -/
theorem logLoss_other (ha : 0 ≤ a) (ht : 0 < t) {key : CalibrationKey} {s : ExampleScore}
    (h : scoreExample t 10 ⟨key, [a, 0], 1⟩ = .ok s) :
    s.logLoss = -Real.log (max (Real.exp (-(a / t)) / (1 + Real.exp (-(a / t)))) (1 / 10 ^ 12)) := by
  obtain ⟨probabilities, s', hsoftmax, hscore, hloss⟩ := scoreExample_of_hasLabel
    ⟨key, [a, 0], 1⟩ ⟨zero_le_one, by simp⟩ ht.ne' (by decide : 10 ≠ 0)
  rw [h] at hscore
  cases hscore
  rw [softmax_two ha ht] at hsoftmax
  cases hsoftmax
  exact hloss

/-- The mean log loss, from the loss of each example. -/
theorem nll_eq {examples : List CalibrationExample} {m : CalibrationMetrics}
    (loss : CalibrationExample → ℝ) (hne : examples ≠ [])
    (h : calibrationMetrics examples t = .ok m)
    (hloss : ∀ e ∈ examples, ∀ s, scoreExample t 10 e = .ok s → s.logLoss = loss e) :
    m.nll = (examples.map loss).sum / examples.length := by
  cases hscores : examples.mapM (scoreExample t 10) with
  | error e =>
    unfold calibrationMetrics at h
    rw [hscores, if_neg (by simpa using hne)] at h
    cases h
  | ok scores =>
    obtain ⟨m', hm', hnll⟩ := nll_of_mapM hne hscores
    rw [hm'] at h
    cases h
    have hmap : scores.map ExampleScore.logLoss = examples.map loss := by
      have hpairs := mapM_eq_ok_iff.mp hscores
      clear hscores hm' hnll hne
      induction hpairs with
      | nil => rfl
      | cons hs _ ih =>
        rw [List.map_cons, List.map_cons, hloss _ List.mem_cons_self _ hs,
          ih fun e he ↦ hloss e (List.mem_cons_of_mem _ he)]
    rw [hnll, hmap]

end TwoOptions

/-! ### Examples that are calibrated at temperature one -/

/-- Two options at odds of two to one, of which the likelier is right twice out of three times. -/
noncomputable def twoToOne (key : CalibrationKey) (n : Nat) : List CalibrationExample :=
  (List.replicate n ([⟨key, [Real.log 2, 0], 0⟩, ⟨key, [Real.log 2, 0], 0⟩,
    ⟨key, [Real.log 2, 0], 1⟩] : List CalibrationExample)).flatten

section TwoToOne

variable {key : CalibrationKey} {n : Nat} {t : ℝ}

private theorem mem_twoToOne {e : CalibrationExample} (h : e ∈ twoToOne key n) :
    e = ⟨key, [Real.log 2, 0], 0⟩ ∨ e = ⟨key, [Real.log 2, 0], 1⟩ := by
  obtain ⟨group, hgroup, he⟩ := List.mem_flatten.mp h
  rw [List.eq_of_mem_replicate hgroup] at he
  simpa using he

private theorem length_twoToOne (key : CalibrationKey) (n : Nat) :
    (twoToOne key n).length = n * 3 := by
  rw [twoToOne, List.length_flatten, List.map_replicate, List.sum_replicate]
  rfl

private theorem hasLabel_twoToOne {e : CalibrationExample} (h : e ∈ twoToOne key n) :
    e.HasLabel := by
  obtain rfl | rfl := mem_twoToOne h
  · exact ⟨le_refl 0, by simp⟩
  · exact ⟨zero_le_one, by simp⟩

private theorem sliceOf_twoToOne : sliceOf key (twoToOne key n) = twoToOne key n := by
  apply List.filter_eq_self.mpr
  intro e he
  obtain rfl | rfl := mem_twoToOne he <;> exact decide_eq_true rfl

/-- The log loss of three of the examples, where the odds are `x`. -/
noncomputable def lossAtOdds (floor x : ℝ) : ℝ :=
  2 * Real.log (1 + x) + -Real.log (max (x / (1 + x)) floor)

private theorem nll_twoToOne (hn : 0 < n) (ht : 0 < t) {m : CalibrationMetrics}
    (h : calibrationMetrics (twoToOne key n) t = .ok m) :
    m.nll = n * lossAtOdds (1 / 10 ^ 12) (Real.exp (-(Real.log 2 / t))) / (n * 3 : Nat) := by
  have hlog : 0 ≤ Real.log 2 := Real.log_nonneg one_le_two
  have hne : twoToOne key n ≠ [] := by
    intro hnil
    have hlength := length_twoToOne key n
    rw [hnil, List.length_nil] at hlength
    omega
  rw [nll_eq (fun e ↦ if e.labelIndex = 0 then Real.log (1 + Real.exp (-(Real.log 2 / t)))
    else -Real.log (max (Real.exp (-(Real.log 2 / t)) / (1 + Real.exp (-(Real.log 2 / t))))
      (1 / 10 ^ 12))) hne h ?_, length_twoToOne]
  · congr 1
    rw [twoToOne, List.map_flatten, List.sum_flatten, List.map_replicate, List.map_replicate,
      List.sum_replicate, nsmul_eq_mul]
    simp only [List.map_cons, List.map_nil, List.sum_cons, List.sum_nil, add_zero, if_true,
      one_ne_zero, if_false]
    rw [lossAtOdds]
    ring
  · intro e he s hs
    obtain rfl | rfl := mem_twoToOne he
    · rw [if_pos rfl]
      exact logLoss_favoured hlog ht hs
    · rw [if_neg one_ne_zero]
      exact logLoss_other hlog ht hs

private theorem lossAtOdds_eq {x : ℝ} (hpos : 0 < x) :
    lossAtOdds (1 / 10 ^ 12) x = Real.log ((1 + x) ^ 2 / max (x / (1 + x)) (1 / 10 ^ 12)) := by
  have hmax : 0 < max (x / (1 + x)) (1 / 10 ^ 12) := lt_max_of_lt_right (by positivity)
  rw [lossAtOdds, Real.log_div (by positivity) hmax.ne', Real.log_pow]
  norm_num
  ring

/-- At any other odds the loss is greater than at one half. -/
theorem lossAtOdds_lt {x : ℝ} (hpos : 0 < x) (hne : x ≠ 1 / 2) :
    lossAtOdds (1 / 10 ^ 12) (1 / 2) < lossAtOdds (1 / 10 ^ 12) x := by
  have hone : 0 < 1 + x := by linarith
  have hmax : 0 < max (x / (1 + x)) (1 / 10 ^ 12) := lt_max_of_lt_right (by positivity)
  have hbound : 27 * max (x / (1 + x)) (1 / 10 ^ 12) < 4 * (1 + x) ^ 2 := by
    rw [mul_max_of_nonneg _ _ (by norm_num : (0 : ℝ) ≤ 27), max_lt_iff]
    constructor
    · have hsq : 0 < (2 * x - 1) ^ 2 := by
        apply sq_pos_of_ne_zero
        intro hzero
        exact hne (by linarith)
      have hcubic : 27 * x < 4 * (1 + x) ^ 2 * (1 + x) := by
        have hprod := mul_pos hsq (show (0 : ℝ) < x + 4 by linarith)
        linarith [show (2 * x - 1) ^ 2 * (x + 4) = 4 * (1 + x) ^ 2 * (1 + x) - 27 * x by ring]
      rw [← mul_div_assoc, div_lt_iff₀ hone]
      exact hcubic
    · have hsmall : (27 : ℝ) * (1 / 10 ^ 12) < 4 := by norm_num
      have hsquare : 1 ≤ (1 + x) ^ 2 := by nlinarith
      linarith
  have hat : lossAtOdds (1 / 10 ^ 12) (1 / 2) = Real.log (27 / 4) := by
    have hhalf : max ((1 / 2 : ℝ) / (1 + 1 / 2)) (1 / 10 ^ 12) = 1 / 3 := by
      rw [max_eq_left] <;> norm_num
    rw [lossAtOdds_eq one_half_pos, hhalf]
    norm_num
  rw [hat, lossAtOdds_eq hpos]
  apply Real.log_lt_log (by norm_num)
  rw [lt_div_iff₀ hmax]
  linarith

private theorem exp_odds_ne (ht : t ≠ 1) (hpos : 0 < t) :
    Real.exp (-(Real.log 2 / t)) ≠ 1 / 2 := by
  intro h
  have hlog : Real.log 2 ≠ 0 := (Real.log_pos one_lt_two).ne'
  have hlogs := congrArg Real.log h
  rw [Real.log_exp, one_div, Real.log_inv, neg_inj, div_eq_iff hpos.ne'] at hlogs
  exact ht (mul_left_cancel₀ hlog (by linarith)).symm

/-- Away from temperature one these examples are fitted worse. -/
theorem not_fitsNoWorse_twoToOne (hn : 0 < n) (hpos : 0 < t) (ht : t ≠ 1) :
    ¬ FitsNoWorse (twoToOne key n) t 1 := by
  rintro ⟨m, m', hm, hm', hle⟩
  have hone : Real.exp (-(Real.log 2 / 1)) = 1 / 2 := by
    rw [div_one, Real.exp_neg, Real.exp_log two_pos, one_div]
  rw [nll_twoToOne hn hpos hm, nll_twoToOne hn one_pos hm', hone] at hle
  have hlt := lossAtOdds_lt (Real.exp_pos (-(Real.log 2 / t))) (exp_odds_ne ht hpos)
  have hcount : (0 : ℝ) < n := by exact_mod_cast hn
  have hthree : (0 : ℝ) < (n * 3 : Nat) := by exact_mod_cast (by omega : 0 < n * 3)
  have hstrict := div_lt_div_of_pos_right (mul_lt_mul_of_pos_left hlt hcount) hthree
  exact absurd hle (not_le_of_gt hstrict)

end TwoToOne

/-- A fit with valid settings and labels succeeds; a slice with too few examples gets no
temperature and every other slice gets exactly one. No slice of the given examples comes out worse
exactly when each has a temperature on the grid that does no worse than one; and no slice of any
examples does exactly when one is on the grid. -/
theorem fitted_nll_le_iff (s : FitSettings) (hs : s.accepted) :
    (∀ examples : List CalibrationExample, (∀ e ∈ examples, e.HasLabel) →
      ∃ result, fitCalibration examples s = .ok result ∧
        (∀ key, ((sliceOf key examples).length : Int) < s.minimumSliceSize →
          result.temperatures.get? key = none) ∧
        (∀ key, s.minimumSliceSize ≤ (sliceOf key examples).length →
          ∃ report, result.temperatures.get? key = some report.temperature ∧
            result.reports.get? key = some report) ∧
        ((∀ key report, result.reports.get? key = some report →
            report.after.nll ≤ report.before.nll) ↔
          ∀ key, s.minimumSliceSize ≤ (sliceOf key examples).length →
            ∃ t ∈ s.candidates, FitsNoWorse (sliceOf key examples) t 1)) ∧
    ((∀ examples : List CalibrationExample, (∀ e ∈ examples, e.HasLabel) →
        ∀ result, fitCalibration examples s = .ok result →
          ∀ key report, result.reports.get? key = some report →
            report.after.nll ≤ report.before.nll) ↔
      1 ∈ s.candidates) := by
  constructor
  · intro examples hvalid
    obtain ⟨result, hresult, hfitted⟩ := exists_fitCalibration hs examples hvalid
    refine ⟨result, hresult, fun key hshort ↦ (hfitted.of_short hshort).1, fun key hlength ↦ ?_, ?_⟩
    · obtain ⟨report, ht, hr, -⟩ := hfitted.of_long hs key hlength
      exact ⟨report, ht, hr⟩
    · constructor
      · intro h key hlength
        obtain ⟨report, -, hr, his⟩ := hfitted.of_long hs key hlength
        exact his.nll_le_iff.mp (h key report hr)
      · intro h key report hr
        obtain ⟨hlength, his⟩ := hfitted.of_report hs hr
        exact his.nll_le_iff.mpr (h key hlength)
  · constructor
    · intro h
      -- examples that nothing but temperature one fits
      have key : CalibrationKey := ⟨[], [], [], [], []⟩
      have hmin := hs.1
      have hn : 0 < s.minimumSliceSize.toNat := by omega
      obtain ⟨result, hresult, hfitted⟩ := exists_fitCalibration hs
        (twoToOne key s.minimumSliceSize.toNat) fun e he ↦ hasLabel_twoToOne he
      obtain ⟨report, -, hr, his⟩ := hfitted.of_long hs key (by
        rw [sliceOf_twoToOne, length_twoToOne]
        omega)
      have hle := h _ (fun e he ↦ hasLabel_twoToOne he) result hresult key report hr
      obtain ⟨t, ht, hno⟩ := his.nll_le_iff.mp hle
      rw [sliceOf_twoToOne] at hno
      by_cases hone : t = 1
      · exact hone ▸ ht
      · exact absurd hno (not_fitsNoWorse_twoToOne hn (candidate_pos ht) hone)
    · intro hone examples hvalid result hresult key report hr
      obtain ⟨result', hresult', hfitted⟩ := exists_fitCalibration hs examples hvalid
      rw [hresult] at hresult'
      cases hresult'
      obtain ⟨hlength, his⟩ := hfitted.of_report hs hr
      obtain ⟨m, m', hm, hm', hle⟩ := his.best 1 hone
      rw [his.after] at hm
      rw [his.before] at hm'
      cases hm
      cases hm'
      exact hle

private theorem one_notMem_default : 1 ∉ (FitSettings.mk 25 (1 / 4) 8 160).candidates := by
  intro h
  obtain ⟨step, -, hstep⟩ := List.mem_map.mp h
  have hlog : Real.log 2 ≠ 0 := (Real.log_pos one_lt_two).ne'
  have hquarter : Real.log (1 / 4) = -(2 * Real.log 2) := by
    rw [one_div, Real.log_inv, show (4 : ℝ) = 2 ^ 2 by norm_num, Real.log_pow]
    norm_num
  have height : Real.log 8 = 3 * Real.log 2 := by
    rw [show (8 : ℝ) = 2 ^ 3 by norm_num, Real.log_pow]
    norm_num
  rw [Real.exp_eq_one_iff, hquarter, height] at hstep
  norm_num at hstep
  have hlinear : Real.log 2 * (5 * step - 318) = 0 := by linarith
  have hzero : (5 * step - 318 : ℝ) = 0 := (mul_eq_zero.mp hlinear).resolve_left hlog
  have hnat : 5 * step = 318 := by exact_mod_cast sub_eq_zero.mp hzero
  omega

/-- The default settings have no temperature one on their grid. -/
theorem fitted_nll_le_iff_default :
    ¬ ∀ examples : List CalibrationExample, (∀ e ∈ examples, e.HasLabel) →
      ∀ result, fitCalibration examples ⟨25, 1 / 4, 8, 160⟩ = .ok result →
        ∀ key report, result.reports.get? key = some report →
          report.after.nll ≤ report.before.nll :=
  fun h ↦ one_notMem_default
    ((fitted_nll_le_iff ⟨25, 1 / 4, 8, 160⟩ ⟨by decide, by decide, by norm_num, by norm_num⟩).2.mp h)

private theorem two_le_of_mem {t : ℝ} (h : t ∈ (FitSettings.mk 1 2 4 2).candidates) : 2 ≤ t := by
  obtain ⟨step, -, rfl⟩ := List.mem_map.mp h
  have hspan : 0 ≤ Real.log 4 - Real.log 2 :=
    sub_nonneg.mpr (Real.log_le_log two_pos (by norm_num))
  have hstep : 0 ≤ (Real.log 4 - Real.log 2) * (step : ℝ) / ((2 : Int) - 1) := by
    apply div_nonneg (mul_nonneg hspan (Nat.cast_nonneg step))
    norm_num
  calc (2 : ℝ) = Real.exp (Real.log 2) := (Real.exp_log two_pos).symm
    _ ≤ Real.exp (Real.log 2 + (Real.log 4 - Real.log 2) * (step : ℝ) / ((2 : Int) - 1)) :=
        Real.exp_le_exp.mpr (by linarith)

/-- Temperatures two and four on one example that temperature one fits better. -/
theorem fit_worsens :
    ∃ result report, fitCalibration [⟨⟨"STOP_NOW", "GLOBAL", "2", "en", "low"⟩, [1, 0], 0⟩]
        ⟨1, 2, 4, 2⟩ = .ok result ∧
      result.reports.get? ⟨"STOP_NOW", "GLOBAL", "2", "en", "low"⟩ = some report ∧
      report.before.nll < report.after.nll := by
  generalize (⟨"STOP_NOW", "GLOBAL", "2", "en", "low"⟩ : CalibrationKey) = key
  have hs : (FitSettings.mk 1 2 4 2).accepted :=
    ⟨by decide, by decide, by norm_num, by norm_num⟩
  obtain ⟨result, hresult, hfitted⟩ := exists_fitCalibration hs [⟨key, [1, 0], 0⟩] (by
    intro e he
    rw [List.mem_singleton.mp he]
    exact ⟨le_refl 0, by simp⟩)
  have hslice : sliceOf key [⟨key, [1, 0], 0⟩] = [⟨key, [1, 0], 0⟩] := by simp [sliceOf]
  obtain ⟨report, -, hr, his⟩ := hfitted.of_long hs key (by rw [hslice]; exact le_refl 1)
  rw [hslice] at his
  have hnll : ∀ {t : ℝ} {m : CalibrationMetrics}, 0 < t →
      calibrationMetrics [⟨key, [1, 0], 0⟩] t = .ok m →
      m.nll = Real.log (1 + Real.exp (-(1 / t))) := by
    intro t m ht hm
    rw [nll_eq (fun _ ↦ Real.log (1 + Real.exp (-(1 / t)))) (List.cons_ne_nil _ _) hm]
    · simp
    · intro e he score hscore
      rw [List.mem_singleton.mp he] at hscore
      exact logLoss_favoured zero_le_one ht hscore
  have htwo := two_le_of_mem his.mem
  have hpos : 0 < report.temperature := by linarith
  refine ⟨result, report, hresult, hr, ?_⟩
  rw [hnll one_pos his.before, hnll hpos his.after]
  apply Real.log_lt_log (by positivity)
  have hexp : Real.exp (-(1 / 1)) < Real.exp (-(1 / report.temperature)) := by
    apply Real.exp_lt_exp.mpr
    rw [neg_lt_neg_iff, one_div_lt_one_div hpos one_pos]
    linarith
  linarith

end C3RSpec.SystemOne
