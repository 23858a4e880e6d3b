import C3RSpec.Runtime.NonInterference
import C3RSpec.SystemOne.FastPath

/-!
# What an answered question shows

`c3r/system_one/fast_path.py:87–147` and `c3r/runtime.py:219–254`. `should_abstain` asks whether
the top probability is below a threshold, so a probability that compares with nothing passes: NaN,
and the difference of two infinities. Apart from these an answer is a most probable option, as far
above the others as the thresholds ask.
-/

namespace C3RSpec.SystemOne

open Base C3RSpec.Runtime

/-! ### Best index -/

/-- The value at index `i` is at least the threshold, at least every value, and the margin above
every other one. -/
structure Decisive (values : List PyFloat) (top margin : PyFloat) (i : Nat) (p : PyFloat) :
    Prop where
  at_index : values[i]? = some p
  runnerUp : 2 ≤ values.length
  top_le : PyFloat.le top p = true
  maximal : ∀ (j : Nat) q, values[j]? = some q → PyFloat.le q p = true
  margin_le : ∀ (j : Nat) q, j ≠ i → values[j]? = some q →
    PyFloat.le margin (PyFloat.sub p q) = true

/-- Every value compares with every other, and so do their differences from the greatest. -/
def Comparable (values : List PyFloat) : Prop :=
  PyFloat.nan ∉ values ∧ values.count .posInf ≤ 1

private theorem bestIndex_lt {values : List PyFloat} (h : values ≠ []) :
    bestIndex values < values.length := by
  have hpos := List.length_pos_iff.mpr h
  have hm := firstMax_mem (fun i j ↦ PyFloat.lt (values.getD i .nan) (values.getD j .nan)) 0
    (List.range' 1 (values.length - 1))
  rw [← bestIndex, List.mem_cons, List.mem_range'_1] at hm
  omega

private theorem le_bestIndex {values : List PyFloat} (hn : PyFloat.nan ∉ values) {j : Nat}
    {q : PyFloat} (hq : values[j]? = some q) :
    PyFloat.le q (values.getD (bestIndex values) .nan) = true := by
  have hj : j < values.length := (List.getElem?_eq_some_iff.mp hq).1
  have hvalue : ∀ i < values.length, values.getD i .nan ≠ .nan := by
    intro i hi hnan
    rw [List.getD_eq_getElem?_getD, List.getElem?_eq_getElem hi, Option.getD_some] at hnan
    exact hn (hnan ▸ List.getElem_mem hi)
  have hindices : ∀ i, i ∈ 0 :: List.range' 1 (values.length - 1) ↔ i < values.length := by
    intro i
    rw [List.mem_cons, List.mem_range'_1]
    omega
  have hmax := le_firstMax (fun i k ↦ PyFloat.lt (values.getD i .nan) (values.getD k .nan))
    (fun i k ↦ PyFloat.le (values.getD i .nan) (values.getD k .nan) = true)
    (fun i ↦ i < values.length) PyFloat.le_trans (fun i hi ↦ PyFloat.le_self (hvalue i hi))
    PyFloat.le_of_lt (fun hi hk h ↦ PyFloat.le_of_not_lt (hvalue _ hi) (hvalue _ hk) h)
    (fun i hi ↦ (hindices i).mp hi) j ((hindices j).mpr hj)
  rw [List.getD_eq_getElem?_getD, hq] at hmax
  exact hmax

section Margin

variable [FloatSort] {values : List PyFloat} {top margin : PyFloat}

-- The two greatest values, with what is left of the list without the best index.
private theorem descending_eq {i : Nat} {p : PyFloat} (hi : values[i]? = some p)
    (hn : PyFloat.nan ∉ values) (hmax : ∀ (j : Nat) q, values[j]? = some q → PyFloat.le q p = true) :
    ∃ rest, FloatSort.descending values = p :: rest ∧ rest.Perm (values.eraseIdx i) := by
  have hlt : i < values.length := (List.getElem?_eq_some_iff.mp hi).1
  have hp : values[i] = p := (List.getElem?_eq_some_iff.mp hi).2
  have hperm : (FloatSort.descending values).Perm (p :: values.eraseIdx i) := by
    refine (FloatSort.perm values).trans ?_
    rw [← hp]
    exact (List.getElem_cons_eraseIdx_perm hlt).symm
  cases hd : FloatSort.descending values with
  | nil =>
    rw [hd] at hperm
    exact absurd hperm.length_eq (by simp)
  | cons first rest =>
    have hsorted := FloatSort.pairwise values hn
    rw [hd] at hperm hsorted
    have hfirst : first = p := by
      refine PyFloat.le_antisymm ?_ ?_
      · have hmem : first ∈ values :=
          (FloatSort.perm values).mem_iff.mp (hd ▸ List.mem_cons_self)
        obtain ⟨j, hj⟩ := List.mem_iff_getElem?.mp hmem
        exact hmax j first hj
      · obtain rfl | hmem := List.mem_cons.mp (hperm.mem_iff.mpr List.mem_cons_self)
        · exact PyFloat.le_self fun hnan ↦ hn (hnan ▸ List.mem_of_getElem? hi)
        · exact List.rel_of_pairwise_cons hsorted hmem
    subst hfirst
    exact ⟨rest, rfl, hperm.cons_inv⟩

omit [FloatSort] in
private theorem count_eraseIdx {i : Nat} {p : PyFloat} (hi : values[i]? = some p) (x : PyFloat) :
    values.count x = (p :: values.eraseIdx i).count x := by
  have hlt : i < values.length := (List.getElem?_eq_some_iff.mp hi).1
  have hp : values[i] = p := (List.getElem?_eq_some_iff.mp hi).2
  rw [← hp]
  exact ((List.getElem_cons_eraseIdx_perm hlt).count_eq x).symm

omit [FloatSort] in
private theorem ne_nan_of_inUnit {x : PyFloat} (h : inUnit x = true) : x ≠ .nan := by
  rintro rfl
  cases h

/-- Comparable values that are not abstained from are decisive at the best index. -/
theorem decisive_bestIndex (htop : inUnit top = true) (hmargin : inUnit margin = true)
    (hc : Comparable values) (h : shouldAbstain values top margin = false) :
    ∃ p, Decisive values top margin (bestIndex values) p := by
  unfold shouldAbstain at h
  split at h
  · cases h
  · next hlen =>
    have hlt : bestIndex values < values.length := bestIndex_lt (by
      rintro rfl
      exact hlen (by decide))
    have hi := List.getElem?_eq_getElem hlt
    have hmax : ∀ (j : Nat) q, values[j]? = some q →
        PyFloat.le q values[bestIndex values] = true := by
      intro j q hq
      have hbest := le_bestIndex hc.1 hq
      rwa [List.getD_eq_getElem?_getD, hi, Option.getD_some] at hbest
    generalize hp : values[bestIndex values] = p at hi hmax
    have hpnan : p ≠ .nan := fun hnan ↦ hc.1 (hnan ▸ List.mem_of_getElem? hi)
    obtain ⟨rest, hd, hrest⟩ := descending_eq hi hc.1 hmax
    have hsorted := FloatSort.pairwise values hc.1
    rw [hd] at h hsorted
    cases rest with
    | nil =>
      have hl := hrest.length_eq
      rw [List.length_eraseIdx_of_lt hlt, List.length_nil] at hl
      omega
    | cons second rest =>
      simp only [Bool.or_eq_false_iff] at h
      have htop_le : PyFloat.le top p = true :=
        PyFloat.le_of_not_lt hpnan (ne_nan_of_inUnit htop) h.1
      have hpneg : p ≠ .negInf := by
        rintro rfl
        have hzero := PyFloat.le_trans (Bool.and_eq_true _ _ ▸ htop).1 htop_le
        cases hzero
      have hsecond : second ∈ values.eraseIdx (bestIndex values) :=
        hrest.mem_iff.mp List.mem_cons_self
      have hsnan : second ≠ .nan := fun hnan ↦ hc.1 (hnan ▸ List.mem_of_mem_eraseIdx hsecond)
      have hdiff : PyFloat.sub p second ≠ .nan := by
        intro hnan
        have hboth : p = .posInf ∧ second = .posInf := by
          cases p <;> cases second <;> simp_all [PyFloat.sub]
        obtain ⟨rfl, rfl⟩ := hboth
        have hcount := hc.2
        rw [count_eraseIdx hi, List.count_cons_self] at hcount
        have := List.count_pos_iff.mpr hsecond
        omega
      refine ⟨p, hi, by omega, htop_le, hmax, fun j q hj hq ↦ ?_⟩
      have hmem : q ∈ second :: rest :=
        hrest.mem_iff.mpr (List.mem_eraseIdx_iff_getElem?.mpr ⟨j, hj, hq⟩)
      have hle : PyFloat.le q second = true := by
        obtain rfl | hmem := List.mem_cons.mp hmem
        · exact PyFloat.le_self hsnan
        · exact List.rel_of_pairwise_cons hsorted.of_cons hmem
      exact PyFloat.le_trans (PyFloat.le_of_not_lt hdiff (ne_nan_of_inUnit hmargin) h.2)
        (PyFloat.sub_le_sub hle hpneg hdiff)

omit [FloatSort] in
/-- Decisive values are comparable. -/
theorem Decisive.comparable {i : Nat} {p : PyFloat} (h : Decisive values top margin i p) :
    Comparable values := by
  constructor
  · intro hnan
    obtain ⟨j, hj⟩ := List.mem_iff_getElem?.mp hnan
    exact PyFloat.ne_nan_of_le_left (h.maximal j _ hj) rfl
  · by_contra hcount
    rw [count_eraseIdx h.at_index] at hcount
    have hmem : PyFloat.posInf ∈ values.eraseIdx i := by
      rw [← List.count_pos_iff]
      have := List.count_cons (a := PyFloat.posInf) (b := p) (l := values.eraseIdx i)
      split at this <;> omega
    obtain ⟨j, hj, hq⟩ := List.mem_eraseIdx_iff_getElem?.mp hmem
    have hp : p = .posInf := by
      have hle := h.maximal j _ hq
      cases p <;> simp_all [PyFloat.le, PyFloat.lt, PyFloat.beq]
    have hm := h.margin_le j _ hj hq
    rw [hp] at hm
    exact PyFloat.ne_nan_of_le hm rfl

end Margin

/-! ### The loop over the questions -/

namespace CalibratedFastPath

variable [FloatSort] [FloatText] (path : CalibratedFastPath) (state : CompiledState)
  (actionFamily language : Text) (predicted : Dict Text (List PyFloat))

/-- The calibrated probabilities of a question with valid logits and a calibrated slice. -/
def calibrated? (question : TypedQuestion) : Option (List PyFloat) :=
  match predicted.get? question.id with
  | none => none
  | some logits =>
    if validLogits question logits &&
        path.calibrator.supports (key state actionFamily language question)
    then some (path.calibrator.apply logits (key state actionFamily language question))
    else none

/-- The option that a question is answered with. -/
def answer? (question : TypedQuestion) : Option Text :=
  match path.calibrated? state actionFamily language predicted question with
  | none => none
  | some calibrated =>
    if shouldAbstain calibrated path.minimumTopProbability path.minimumMargin then none
    else some (question.options.getD (bestIndex calibrated) [])

private theorem ask_cases (t : Tally) (question : TypedQuestion) :
    (∃ a, path.answer? state actionFamily language predicted question = some a ∧
      (path.ask state actionFamily language predicted t question).answers =
        t.answers.insert question.id a ∧
      (path.ask state actionFamily language predicted t question).reasons = t.reasons) ∨
    (path.answer? state actionFamily language predicted question = none ∧
      (path.ask state actionFamily language predicted t question).answers = t.answers ∧
      ∃ reason, (path.ask state actionFamily language predicted t question).reasons =
        t.reasons ++ [reason]) := by
  unfold ask answer? calibrated?
  cases predicted.get? question.id with
  | none => exact .inr ⟨rfl, rfl, _, rfl⟩
  | some logits =>
    dsimp only
    cases validLogits question logits with
    | false => exact .inr ⟨rfl, rfl, _, rfl⟩
    | true =>
      cases path.calibrator.supports (key state actionFamily language question) with
      | false => exact .inr ⟨rfl, rfl, _, rfl⟩
      | true =>
        simp only [Bool.and_true, Bool.not_true, Bool.false_eq_true, if_true, if_false]
        split
        · exact .inr ⟨rfl, rfl, _, rfl⟩
        · exact .inl ⟨_, rfl, rfl, rfl⟩

private theorem reasons_foldl (questions : List TypedQuestion) (t : Tally) :
    (questions.foldl (path.ask state actionFamily language predicted) t).reasons = [] ↔
      t.reasons = [] ∧ ∀ question ∈ questions,
        ∃ a, path.answer? state actionFamily language predicted question = some a := by
  induction questions generalizing t with
  | nil => simp
  | cons question questions ih =>
    rw [List.foldl_cons, ih, List.forall_mem_cons]
    obtain ⟨a, ha, -, hr⟩ | ⟨ha, -, reason, hr⟩ :=
      path.ask_cases state actionFamily language predicted t question
    · rw [hr]
      simp [ha]
    · rw [hr]
      simp [ha]

private theorem answers_foldl_other {questions : List TypedQuestion} {t : Tally} {id : Text}
    (h : id ∉ questions.map TypedQuestion.id) :
    (questions.foldl (path.ask state actionFamily language predicted) t).answers.get? id =
      t.answers.get? id := by
  induction questions generalizing t with
  | nil => rfl
  | cons question questions ih =>
    rw [List.map_cons, List.mem_cons, not_or] at h
    rw [List.foldl_cons, ih h.2]
    obtain ⟨a, -, hans, -⟩ | ⟨-, hans, -⟩ :=
      path.ask_cases state actionFamily language predicted t question
    · rw [hans, Dict.get?_insert, if_neg (Ne.symm h.1)]
    · rw [hans]

private theorem answers_foldl {questions : List TypedQuestion} {t : Tally}
    (hn : (questions.map TypedQuestion.id).Nodup)
    (ht : ∀ question ∈ questions, t.answers.get? question.id = none) :
    ∀ question ∈ questions,
      (questions.foldl (path.ask state actionFamily language predicted) t).answers.get?
        question.id = path.answer? state actionFamily language predicted question := by
  induction questions generalizing t with
  | nil => intro question hq; cases hq
  | cons first questions ih =>
    rw [List.map_cons, List.nodup_cons] at hn
    intro question hq
    rw [List.foldl_cons]
    obtain rfl | hq := List.mem_cons.mp hq
    · rw [path.answers_foldl_other state actionFamily language predicted hn.1]
      obtain ⟨a, ha, hans, -⟩ | ⟨ha, hans, -⟩ :=
        path.ask_cases state actionFamily language predicted t question
      · rw [hans, ha, Dict.get?_insert, if_pos rfl]
      · rw [hans, ha, ht question List.mem_cons_self]
    · refine ih hn.2 (fun q hqs ↦ ?_) question hq
      have hne : q.id ≠ first.id := fun he ↦ hn.1 (he ▸ List.mem_map_of_mem hqs)
      obtain ⟨a, -, hans, -⟩ | ⟨-, hans, -⟩ :=
        path.ask_cases state actionFamily language predicted t first
      · rw [hans, Dict.get?_insert, if_neg hne.symm]
        exact ht q (List.mem_cons_of_mem first hqs)
      · rw [hans]
        exact ht q (List.mem_cons_of_mem first hqs)

/-- An answer that a calibrated slice of valid logits stands behind. -/
structure Calibrated (question : TypedQuestion) (answer : Text) (logits : List PyFloat) (i : Nat)
    (p : PyFloat) : Prop where
  predicted_eq : predicted.get? question.id = some logits
  valid : validLogits question logits = true
  temperature : ∃ temperature, path.calibrator.temperatures.get?
    (key state actionFamily language question) = some temperature ∧
    PyFloat.lt (.fin 0) temperature = true
  decisive : Decisive (path.calibrator.apply logits (key state actionFamily language question))
    path.minimumTopProbability path.minimumMargin i p
  option_eq : question.options[i]? = some answer

/-- The probabilities of a question that is not abstained from are comparable. -/
def Separates (question : TypedQuestion) : Prop :=
  ∀ calibrated, path.calibrated? state actionFamily language predicted question = some calibrated →
    shouldAbstain calibrated path.minimumTopProbability path.minimumMargin = false →
    Comparable calibrated

omit [FloatSort] in
private theorem calibrated?_eq_some {question : TypedQuestion} {calibrated : List PyFloat}
    (h : path.calibrated? state actionFamily language predicted question = some calibrated) :
    ∃ logits, predicted.get? question.id = some logits ∧ validLogits question logits = true ∧
      path.calibrator.supports (key state actionFamily language question) = true ∧
      calibrated = path.calibrator.apply logits (key state actionFamily language question) := by
  unfold calibrated? at h
  split at h
  · cases h
  · next logits hlogits =>
    split at h
    · next hvalid =>
      rw [Bool.and_eq_true] at hvalid
      exact ⟨logits, hlogits, hvalid.1, hvalid.2, (Option.some.inj h).symm⟩
    · cases h

private theorem answer?_eq_some {question : TypedQuestion} {a : Text}
    (h : path.answer? state actionFamily language predicted question = some a) :
    ∃ calibrated, path.calibrated? state actionFamily language predicted question =
        some calibrated ∧
      shouldAbstain calibrated path.minimumTopProbability path.minimumMargin = false ∧
      a = question.options.getD (bestIndex calibrated) [] := by
  unfold answer? at h
  split at h
  · cases h
  · next calibrated hcalibrated =>
    split at h
    · cases h
    · next habstain =>
      rw [Bool.not_eq_true] at habstain
      exact ⟨calibrated, hcalibrated, habstain, (Option.some.inj h).symm⟩

omit [FloatSort] [FloatText] in
private theorem supports_iff {c : TemperatureCalibrator} {k : CalibrationKey} :
    c.supports k = true ↔ ∃ temperature, c.temperatures.get? k = some temperature ∧
      PyFloat.lt (.fin 0) temperature = true := by
  unfold TemperatureCalibrator.supports
  cases c.temperatures.get? k with
  | none => simp
  | some temperature => simp

/-- An answered question is calibrated when its probabilities are comparable, and only then. -/
theorem calibrated_iff {question : TypedQuestion} {a : Text}
    (h : path.answer? state actionFamily language predicted question = some a) :
    (∃ logits i p, path.Calibrated state actionFamily language predicted question a logits i p) ↔
      path.Separates state actionFamily language predicted question := by
  obtain ⟨calibrated, hcalibrated, habstain, rfl⟩ :=
    path.answer?_eq_some state actionFamily language predicted h
  obtain ⟨logits, hlogits, hvalid, hsupports, rfl⟩ :=
    path.calibrated?_eq_some state actionFamily language predicted hcalibrated
  constructor
  · rintro ⟨logits', i, p, hc⟩ calibrated' hcalibrated' -
    rw [hcalibrated] at hcalibrated'
    cases hcalibrated'
    obtain rfl : logits = logits' := by
      have hsame := hc.predicted_eq
      rw [hlogits] at hsame
      exact Option.some.inj hsame
    exact hc.decisive.comparable
  · intro hseparates
    obtain ⟨p, hdecisive⟩ := decisive_bestIndex path.topInUnit path.marginInUnit
      (hseparates _ hcalibrated habstain) habstain
    refine ⟨logits, _, p, hlogits, hvalid, supports_iff.mp hsupports, hdecisive, ?_⟩
    have hlt := (List.getElem?_eq_some_iff.mp hdecisive.at_index).1
    rw [path.calibrator.length_apply] at hlt
    rw [validLogits, Bool.and_eq_true, decide_eq_true_eq] at hvalid
    rw [hvalid.1] at hlt
    rw [List.getD_eq_getElem?_getD, List.getElem?_eq_getElem hlt, Option.getD_some]

/-- Every decision: it abstains exactly when a question is left unanswered, and its answers are
calibrated exactly when the probabilities it does not abstain from are comparable. -/
theorem decide_spec {questions : List TypedQuestion} {options : List Text} {d : FastPathDecision}
    (hn : (questions.map TypedQuestion.id).Nodup)
    (hp : path.adapter.predict state questions = .ok predicted)
    (hd : path.decide state actionFamily language questions options = .ok d) :
    (d.abstained = false ↔ ∀ question ∈ questions, ∃ a, d.answers.get? question.id = some a) ∧
    ((∀ question ∈ questions, ∀ a, d.answers.get? question.id = some a →
        ∃ logits i p, path.Calibrated state actionFamily language predicted question a logits i p) ↔
      ∀ question ∈ questions, path.Separates state actionFamily language predicted question) := by
  obtain ⟨candidateProbabilities, -, hd⟩ := bind_eq_ok.mp hd
  obtain ⟨predicted', hp', hd⟩ := bind_eq_ok.mp hd
  rw [hp] at hp'
  cases hp'
  cases hd
  have hanswers := path.answers_foldl state actionFamily language predicted (t := {}) hn
    fun _ _ ↦ Dict.get?_empty _
  have hreasons := path.reasons_foldl state actionFamily language predicted questions {}
  constructor
  · simp only [Bool.not_eq_false', List.isEmpty_iff, hreasons, true_and]
    refine forall₂_congr fun question hq ↦ ?_
    rw [hanswers question hq]
  · refine forall₂_congr fun question hq ↦ ?_
    simp only [hanswers question hq]
    cases ha : path.answer? state actionFamily language predicted question with
    | some a =>
      simp only [Option.some.injEq, forall_eq']
      exact path.calibrated_iff state actionFamily language predicted ha
    | none =>
      refine ⟨fun _ calibrated hcalibrated habstain ↦ ?_, fun _ a h ↦ (by cases h)⟩
      rw [answer?, hcalibrated] at ha
      dsimp only at ha
      rw [habstain] at ha
      cases ha

/-- The fast path of a controller. -/
def toFastPath : StandaloneController.FastPath where
  requested := true
  provider := some path.adapter.provider
  decide state questions actionFamily language options :=
    path.decide state actionFamily language questions options

end CalibratedFastPath

/-! ### Runs -/

section Runs

variable {D : Type} {c : StandaloneController} {host : Host D} {state : CompiledState}
  {closing : StandaloneController.Closing D}

open StandaloneController

/-- A closing on the deliberative or the deterministic route. -/
def Plain (closing : Closing D) : Prop :=
  (closing.route = "deliberative" ∨ closing.route = "deterministic") ∧
    closing.reason ≠ "STOP_NOW"

private theorem caught_eq_some {o : HostOp} {a : o.Answer D}
    (h : caught (Prog.value host (Runtime.ask o)) = .ok (some a)) : host o = .ok a := by
  rw [value_ask] at h
  cases hanswer : host o with
  | ok b =>
    rw [hanswer] at h
    cases h
    rfl
  | error e =>
    rw [hanswer] at h
    unfold caught at h
    split at h
    · next heq => cases heq
    · split at h
      · cases h
      · cases h

private theorem plain_deliberateOrStop {ids : List Text} {reason : Text}
    {fast : Option FastPathDecision} {deliberator : Option Deliberator}
    (hr : reason ∈ deliberationReasons)
    (h : Prog.value host (c.deliberateOrStop state ids reason fast deliberator) = .ok closing) :
    Plain closing := by
  have hreason : ∀ r ∈ deliberationReasons, r ≠ Text.ofString "STOP_NOW" ∧
      r ++ Text.ofString "_NO_PROVIDER" ≠ Text.ofString "STOP_NOW" := by
    decide
  obtain ⟨hr, hstop⟩ := hreason reason hr
  unfold deliberateOrStop at h
  split at h
  · cases h
    exact ⟨.inr rfl, hstop⟩
  · rw [Prog.value_bind] at h
    obtain ⟨answer, -, h⟩ := bind_eq_ok.mp h
    split at h
    · cases h
      exact ⟨.inr rfl, by dsimp only; decide⟩
    · split at h
      · cases h
        exact ⟨.inr rfl, by dsimp only; decide⟩
      · cases h
        exact ⟨.inl rfl, hr⟩
    · cases h
      exact ⟨.inl rfl, hr⟩

variable [Digest] [FloatText] [FloatRound] {request : RuntimeRequest} {requested : Bool}
  {candidates : List ActionCandidate}

private theorem plain_selectAction {fast : Option FastPathDecision}
    (h : Prog.value host (c.selectAction request requested state candidates fast) = .ok closing) :
    Plain closing ∨ closing.route = "recommendation" := by
  unfold selectAction at h
  split at h
  · refine .inl ?_
    unfold withoutSelection at h
    split at h
    · unfold textFallback at h
      rw [Prog.value_bind] at h
      obtain ⟨verification, -, h⟩ := bind_eq_ok.mp h
      split at h
      · cases h
        exact ⟨.inr rfl, by dsimp only; decide⟩
      · split at h
        · exact plain_deliberateOrStop (by decide) h
        · cases h
          exact ⟨.inr rfl, by dsimp only; decide⟩
    · cases h
      exact ⟨.inr rfl, by dsimp only; decide⟩
  · unfold withSelection at h
    rw [Prog.value_bind] at h
    obtain ⟨verification, -, h⟩ := bind_eq_ok.mp h
    split at h
    · cases h
      exact .inl ⟨.inr rfl, by dsimp only; decide⟩
    · split at h
      · cases h
        exact .inl ⟨.inr rfl, by dsimp only; decide⟩
      · split at h
        · exact .inl (plain_deliberateOrStop (by decide) h)
        · split at h
          · cases h
            exact .inl ⟨.inr rfl, by dsimp only; decide⟩
          · cases h
            exact .inr rfl

private theorem plain_systemOne (hflag : c.flags.systemOneEnabled = true)
    (htext : request.requestedTextGeneration = false)
    (h : Prog.value host (c.systemOne request requested state candidates) = .ok closing) :
    Plain closing ∨ ((closing.route = "recommendation" ∨ closing.reason = "STOP_NOW") ∧
      ∃ fast, host (.decide state controlQuestions "CONTROL" request.language
        (candidates.map candidateOption)) = .ok fast ∧ fast.abstained = false) := by
  unfold systemOne at h
  rw [hflag, Bool.not_true, if_neg Bool.false_ne_true] at h
  split at h
  · cases h
    exact .inl ⟨.inr rfl, by dsimp only; decide⟩
  · split at h
    · cases h
      exact .inl ⟨.inr rfl, by dsimp only; decide⟩
    · rw [Prog.value_bind] at h
      obtain ⟨answer, hanswer, h⟩ := bind_eq_ok.mp h
      cases answer with
      | none =>
        dsimp only at h
        rw [htext, if_neg Bool.false_ne_true] at h
        exact .inl (plain_deliberateOrStop (by decide) h)
      | some fast =>
        have hdecide : host (.decide state controlQuestions "CONTROL" request.language
            (candidates.map candidateOption)) = .ok fast := by
          rw [value_attempt] at hanswer
          exact caught_eq_some hanswer
        dsimp only at h
        unfold afterFastPath at h
        split at h
        · exact .inl (plain_deliberateOrStop (by decide) h)
        · next habstained =>
          rw [Bool.not_eq_true] at habstained
          split at h
          · cases h
            exact .inr ⟨.inr rfl, fast, hdecide, habstained⟩
          · split at h
            · exact .inl (plain_deliberateOrStop (by decide) h)
            · obtain hplain | hroute := plain_selectAction h
              · exact .inl hplain
              · exact .inr ⟨.inl hroute, fast, hdecide, habstained⟩

private theorem plain_chooseClosing {f : FastPath} (others : Host D) (hf : f.requested = true)
    (htext : request.requestedTextGeneration = false)
    (h : Prog.value (f.host others) ((c.withFastPath f).chooseClosing request requested) =
      .ok closing) :
    Plain closing ∨ ((closing.route = "recommendation" ∨ closing.reason = "STOP_NOW") ∧
      ∃ state options fast, (c.compiler.compile request.rawState).state = some state ∧
        f.decide state controlQuestions "CONTROL" request.language options = .ok fast ∧
        fast.abstained = false) := by
  unfold chooseClosing at h
  split at h
  · cases h
    exact .inl ⟨.inr rfl, by dsimp only; decide⟩
  · next henabled =>
    split at h
    · cases h
      refine .inl ⟨.inr rfl, ?_⟩
      dsimp only
      cases ((c.withFastPath f).compiler.compile request.rawState).status <;> decide
    · next state hstate =>
      unfold compileActions at h
      split at h
      · cases h
        exact .inl ⟨.inr rfl, by dsimp only; decide⟩
      · rw [Prog.value_bind, Prog.value_ofExcept] at h
        obtain ⟨compiled, -, h⟩ := bind_eq_ok.mp h
        split at h
        · cases h
          exact .inl ⟨.inr rfl, by dsimp only; decide⟩
        · have hflag : (c.withFastPath f).flags.systemOneEnabled = true := by
            rw [Bool.not_eq_true, Bool.not_eq_false'] at henabled
            rw [FeatureFlags.systemOneEnabled, henabled, Bool.true_and]
            exact hf
          obtain hplain | ⟨hroute, fast, hdecide, habstained⟩ := plain_systemOne hflag htext h
          · exact .inl hplain
          · exact .inr ⟨hroute, state, _, fast, hstate, hdecide, habstained⟩

variable [FloatSort]

end Runs

/-! ### A probability that is no number -/

section Sample

/-- The order in which NaN comes last. -/
def afterNan (a b : PyFloat) : Prop := b = .nan ∨ PyFloat.le b a = true

instance : DecidableRel afterNan := fun a b ↦
  inferInstanceAs (Decidable (b = .nan ∨ PyFloat.le b a = true))

instance : Std.Total afterNan where
  total a b := by
    by_cases ha : a = .nan
    · exact .inr (.inl ha)
    · by_cases hb : b = .nan
      · exact .inl (.inl hb)
      · cases hle : PyFloat.le b a with
        | true => exact .inl (.inr hle)
        | false => exact .inr (.inr (PyFloat.le_of_lt (PyFloat.lt_of_not_le hb ha hle)))

instance : IsTrans PyFloat afterNan where
  trans a b c hab hbc := by
    obtain rfl | hbc := hbc
    · exact .inl rfl
    · obtain rfl | hab := hab
      · exact absurd rfl (PyFloat.ne_nan_of_le hbc)
      · exact .inr (PyFloat.le_trans hbc hab)

/-- Insertion sort, NaN last. -/
@[reducible] def FloatSort.insertion : FloatSort where
  descending xs := xs.insertionSort afterNan
  perm xs := List.perm_insertionSort afterNan xs
  pairwise xs hn := by
    refine (List.pairwise_insertionSort afterNan xs).imp_of_mem ?_
    intro a b _ hb hab
    obtain rfl | hab := hab
    · exact absurd ((List.perm_insertionSort afterNan xs).mem_iff.mp hb) hn
    · exact hab

attribute [local instance] FloatSort.insertion FloatText.fraction FloatRound.exact Digest.transparent

/-- A calibrator of the control slices with a given function. -/
def controlCalibrator (f : PyFloat → PyFloat) : TemperatureCalibrator where
  temperatures := Dict.ofList
    [({ questionType := "STOP_NOW", actionFamily := "CONTROL", optionCountBucket := "2"
        consequenceClass := "low" }, .fin 1),
     ({ questionType := "DELIBERATION_REQUIRED", actionFamily := "CONTROL"
        optionCountBucket := "2", consequenceClass := "low" }, .fin 1)]
  apply logits _ := logits.map f
  length_apply _ _ := List.length_map _

/-- A fast path whose adapter prefers the first option of both control questions. -/
def controlPath (f : PyFloat → PyFloat) : CalibratedFastPath where
  adapter :=
    { modelId := "model", revision := "1", provider := "clm"
      predict := fun _ _ ↦ .ok (Dict.ofList
        [("STOP_NOW", [.fin 1, .fin 0]), ("DELIBERATION_REQUIRED", [.fin 1, .fin 0])])
      rankActions := fun _ _ ↦ .ok [] }
  calibrator := controlCalibrator f
  minimumTopProbability := .fin (13 / 20)
  minimumMargin := .fin (1 / 10)
  topInUnit := by decide +kernel
  marginInUnit := by decide +kernel

/-- A state of low consequence. -/
def quietState : CompiledState := StateCompiler.compiledState { goal := [], currentSubgoal := [] }

/-- Nine tenths for the preferred option. -/
def sharpen (x : PyFloat) : PyFloat := if x = .fin 1 then .fin (9 / 10) else .fin (1 / 10)

end Sample

end C3RSpec.SystemOne
