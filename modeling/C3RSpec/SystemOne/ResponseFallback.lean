import C3RSpec.Runtime.NonInterference
import C3RSpec.SystemOne.ClmAdapter
import C3RSpec.SystemOne.DecisionMargin

/-!
# Which CLM responses stop a run

`c3r/system_one/clm_adapter.py:105–153` under `c3r/runtime.py:219–254`. Every check of a response
raises a `ValueError`, which the controller catches, with one exception: `math.isfinite` converts
an `int`, and one beyond the floats raises an `OverflowError`. It is reached when every item
before it is valid.
-/

namespace C3RSpec.SystemOne

open Base C3RSpec.Runtime

namespace ClmAdapter

/-! ### Rankings -/

/-- An integer probability beyond the floats stands after valid items only, for a candidate that
is an option and was not ranked before. -/
def hugeAt (options : List Text) : List Text → List Json → Bool
  | _, [] => false
  | seen, .obj es :: rest =>
    match (Json.obj es).get? "candidate" with
    | some (.str candidate) =>
      if candidate ∉ options || candidate ∈ seen then false
      else
        match (Json.obj es).get? "prob" with
        | some (.int n) =>
          if 2 ^ 1024 - 2 ^ 970 ≤ n.natAbs then true
          else if 0 ≤ n ∧ n ≤ 1 then hugeAt options (candidate :: seen) rest else false
        | some (.float x) =>
          if PyFloat.le (.fin 0) x && PyFloat.le x (.fin 1) then
            hugeAt options (candidate :: seen) rest
          else false
        | _ => false
    | _ => false
  | _, _ :: _ => false

/-- The candidates ranked so far. -/
def Seen (probabilities : Dict Text PyFloat) (seen : List Text) : Prop :=
  ∀ candidate, candidate ∈ seen ↔ (probabilities.get? candidate).isSome = true

private theorem Seen.insert {probabilities : Dict Text PyFloat} {seen : List Text}
    (h : Seen probabilities seen) (candidate : Text) (p : PyFloat) :
    Seen (probabilities.insert candidate p) (candidate :: seen) := by
  intro c
  rw [List.mem_cons, Dict.get?_insert, h c]
  by_cases hc : candidate = c
  · simp [hc]
  · simp [hc, Ne.symm hc]

private theorem isFinite_of_inRange {x : PyFloat}
    (h : (PyFloat.le (.fin 0) x && PyFloat.le x (.fin 1)) = true) : x.isFinite = true := by
  cases x <;> simp_all [PyFloat.le, PyFloat.lt, PyFloat.beq, PyFloat.isFinite]

-- One item is added to the probabilities, or it ends the checks.
private theorem addItem_cases (options : List Text) {probabilities : Dict Text PyFloat}
    {seen : List Text} (hs : Seen probabilities seen) (item : Json) (rest : List Json) :
    (∃ candidate p, candidate ∈ options ∧ probabilities.get? candidate = none ∧
      addItem options probabilities item = .ok (probabilities.insert candidate p) ∧
      hugeAt options seen (item :: rest) = hugeAt options (candidate :: seen) rest) ∨
    ∃ e, addItem options probabilities item = .error e ∧
      hugeAt options seen (item :: rest) = !e.isHostFailure := by
  cases item with
  | null | bool | int | float | str | arr => exact .inr ⟨_, rfl, rfl⟩
  | obj es =>
    simp only [addItem, hugeAt]
    cases (Json.obj es).get? "candidate" with
    | none => exact .inr ⟨_, rfl, rfl⟩
    | some value =>
      cases value with
      | null | bool | int | float | arr | obj => exact .inr ⟨_, rfl, rfl⟩
      | str candidate =>
        have hseen : decide (candidate ∈ seen) = (probabilities.get? candidate).isSome := by
          rw [Bool.eq_iff_iff, decide_eq_true_eq]
          exact hs candidate
        simp only [hseen]
        split
        · exact .inr ⟨_, rfl, rfl⟩
        · next hskip =>
          rw [Bool.not_eq_true, Bool.or_eq_false_iff, decide_eq_false_iff_not, not_not] at hskip
          have hnone : probabilities.get? candidate = none := by
            rw [← Option.not_isSome_iff_eq_none, hskip.2]
            exact Bool.false_ne_true
          cases (Json.obj es).get? "prob" with
          | none => exact .inr ⟨_, rfl, rfl⟩
          | some prob =>
            cases prob with
            | null | bool | str | arr | obj => exact .inr ⟨_, rfl, rfl⟩
            | int n =>
              have hrange : (PyFloat.le (.fin 0) (.fin n) && PyFloat.le (.fin n) (.fin 1)) = true ↔
                  0 ≤ n ∧ n ≤ 1 := by
                rw [PyFloat.le_fin, PyFloat.le_fin, Bool.and_eq_true, decide_eq_true_eq,
                  decide_eq_true_eq]
                norm_cast
              dsimp only [isFiniteInt]
              by_cases hhuge : n.natAbs < 2 ^ 1024 - 2 ^ 970
              · rw [if_pos hhuge, if_neg (Nat.not_le.mpr hhuge)]
                change (∃ _ _, _ ∧ _ ∧ addProbability probabilities candidate (.fin n) = _ ∧ _) ∨
                  ∃ _, addProbability probabilities candidate (.fin n) = _ ∧ _
                unfold addProbability
                by_cases hin : 0 ≤ n ∧ n ≤ 1
                · rw [if_pos (hrange.mpr hin), if_pos hin]
                  exact .inl ⟨candidate, .fin n, hskip.1, hnone, rfl, rfl⟩
                · rw [if_neg fun h ↦ hin (hrange.mp h), if_neg hin]
                  exact .inr ⟨_, rfl, rfl⟩
              · rw [if_neg hhuge, if_pos (Nat.not_lt.mp hhuge)]
                exact .inr ⟨_, rfl, rfl⟩
            | float x =>
              dsimp only [addProbability]
              by_cases hin : (PyFloat.le (.fin 0) x && PyFloat.le x (.fin 1)) = true
              · rw [if_pos (isFinite_of_inRange hin), if_pos hin, if_pos hin]
                exact .inl ⟨candidate, x, hskip.1, hnone, rfl, rfl⟩
              · rw [if_neg hin, if_neg hin]
                refine .inr ⟨invalidProbability, ?_, rfl⟩
                split <;> rfl

private theorem escapes_foldlM {options : List Text} {probabilities : Dict Text PyFloat}
    {seen : List Text} (hs : Seen probabilities seen) (ranked : List Json) :
    Escapes (ranked.foldlM (addItem options) probabilities) ↔
      hugeAt options seen ranked = true := by
  induction ranked generalizing probabilities seen with
  | nil => exact ⟨fun h ↦ absurd h (not_escapes_ok _), fun h ↦ (by cases h)⟩
  | cons item rest ih =>
    rw [List.foldlM_cons]
    obtain ⟨candidate, p, -, -, hadd, hhuge⟩ | ⟨e, hadd, hhuge⟩ :=
      addItem_cases options hs item rest
    · rw [hadd, hhuge]
      exact ih (hs.insert candidate p)
    · rw [hadd, hhuge]
      change Escapes (.error e : Except PyError (Dict Text PyFloat)) ↔ _
      rw [escapes_error, Bool.not_eq_true']

private theorem size_insert_of_none {probabilities : Dict Text PyFloat} {candidate : Text}
    (h : probabilities.get? candidate = none) (p : PyFloat) :
    (probabilities.insert candidate p).keys.Perm (candidate :: probabilities.keys) := by
  have hnew : candidate ∉ probabilities.keys := by
    rw [← Dict.get?_isSome_iff, h]
    exact Bool.false_ne_true
  rw [Dict.keys_insert_of_notMem p hnew]
  exact List.perm_append_singleton candidate probabilities.keys

-- Each item of an accepted ranking adds a candidate among the options.
private theorem keys_foldlM {options : List Text} {probabilities final : Dict Text PyFloat}
    {ranked : List Json} (hsub : ∀ c ∈ probabilities.keys, c ∈ options)
    (h : ranked.foldlM (addItem options) probabilities = .ok final) :
    (∀ c ∈ final.keys, c ∈ options) ∧
      final.keys.length = probabilities.keys.length + ranked.length := by
  induction ranked generalizing probabilities with
  | nil =>
    cases h
    exact ⟨hsub, rfl⟩
  | cons item rest ih =>
    rw [List.foldlM_cons] at h
    obtain ⟨next, hnext, h⟩ := bind_eq_ok.mp h
    obtain ⟨candidate, p, hin, hnone, hadd, -⟩ | ⟨e, hadd, -⟩ :=
      addItem_cases options (fun c ↦ (probabilities.get?_isSome_iff c).symm) item rest
    · rw [hadd] at hnext
      cases hnext
      have hperm := size_insert_of_none hnone p
      obtain ⟨hfinal, hlength⟩ := ih (fun c hc ↦ by
        obtain rfl | hc := List.mem_cons.mp (hperm.mem_iff.mp hc)
        · exact hin
        · exact hsub c hc) h
      refine ⟨hfinal, ?_⟩
      rw [hlength, hperm.length_eq, List.length_cons, List.length_cons]
      omega
    · rw [hadd] at hnext
      cases hnext

/-- A ranking of as many items as there are options: an exception leaves its checks when a huge
integer is reached, and only then. -/
theorem escapes_checkRanking {options : List Text} {ranked : List Json}
    (hlength : ranked.length = options.length) :
    Escapes (checkRanking options ranked) ↔ hugeAt options [] ranked = true := by
  have hempty : Seen (∅ : Dict Text PyFloat) [] := fun c ↦ by simp
  unfold checkRanking
  rw [escapes_bind, escapes_foldlM hempty, or_iff_left_iff_imp]
  rintro ⟨probabilities, hfold, hescapes⟩
  obtain ⟨hsub, hkeys⟩ := keys_foldlM (fun c hc ↦ (by cases hc)) hfold
  -- as many distinct candidates as there are options are all of them
  have hall : ∀ option ∈ options, option ∈ probabilities.keys := by
    have hperm : probabilities.keys.Perm options := by
      refine (List.Nodup.subperm probabilities.nodup hsub).perm_of_length_le ?_
      change options.length ≤ probabilities.keys.length
      rw [hkeys, hlength]
      exact Nat.le_add_left _ _
    exact fun option ho ↦ hperm.mem_iff.mpr ho
  split at hescapes
  · obtain ⟨shares, hshares⟩ := exists_mapM_ok (f := share probabilities (total probabilities))
      fun option (ho : option ∈ options) ↦ by
        obtain ⟨p, hp⟩ := Option.isSome_iff_exists.mp
          ((probabilities.get?_isSome_iff option).mpr (hall option ho))
        exact ⟨_, by rw [share, hp]⟩
    rw [hshares] at hescapes
    exact absurd hescapes (not_escapes_ok _)
  · cases (escapes_error _).mp hescapes

/-- The response that a request receives reaches a huge integer. -/
structure Overflows (adapter : ClmAdapter) (context question : Text) (options : List Text)
    (ranked : List Json) : Prop where
  options_ok : checkOptions options = .ok ()
  in_time : PyFloat.le (adapter.remaining ⟨context, question, options, adapter.servedModel⟩)
    (.fin 0) = false
  model_eq : (adapter.transport ⟨context, question, options, adapter.servedModel⟩).get? "model" =
    some (.str adapter.servedModel)
  ranked_eq : (adapter.transport ⟨context, question, options, adapter.servedModel⟩).get? "ranked" =
    some (.arr ranked)
  length_eq : ranked.length = options.length
  huge : hugeAt options [] ranked = true

private theorem not_escapes_checkOptions (options : List Text) :
    ¬ Escapes (checkOptions options) := by
  unfold checkOptions
  split
  · simp [valueError, PyError.isHostFailure]
  · split
    · simp [valueError, PyError.isHostFailure]
    · exact not_escapes_ok ()

/-- An exception leaves a request when its response reaches a huge integer, and only then. -/
theorem escapes_rank (adapter : ClmAdapter) (context question : Text) (options : List Text) :
    Escapes (adapter.rank context question options) ↔
      ∃ ranked, adapter.Overflows context question options ranked := by
  have hvalue : ∀ m, ¬ Escapes (.error (valueError m) : Except PyError (List PyFloat)) := by
    intro m h
    cases (escapes_error _).mp h
  unfold rank
  rw [escapes_bind, or_iff_right (not_escapes_checkOptions options)]
  constructor
  · rintro ⟨⟨⟩, hoptions, h⟩
    dsimp only at h
    split at h
    · cases (escapes_error _).mp h
    · next htime =>
      rw [Bool.not_eq_true] at htime
      unfold checkResponse at h
      split at h
      · next model hmodel =>
        split at h
        · exact absurd h (hvalue _)
        · next hserved =>
          rw [not_not] at hserved
          subst hserved
          split at h
          · next ranked hranked =>
            split at h
            · exact absurd h (hvalue _)
            · next hlength =>
              rw [not_not] at hlength
              exact ⟨ranked, hoptions, htime, hmodel, hranked, hlength,
                (escapes_checkRanking hlength).mp h⟩
          · exact absurd h (hvalue _)
      · exact absurd h (hvalue _)
  · rintro ⟨ranked, ho⟩
    refine ⟨(), ho.options_ok, ?_⟩
    dsimp only
    rw [ho.in_time, if_neg Bool.false_ne_true, checkResponse]
    simp only [ho.model_eq, ho.ranked_eq, ho.length_eq, ne_eq, not_true_eq_false, if_false]
    exact (escapes_checkRanking ho.length_eq).mpr ho.huge

/-- One of the requests, in their order, receives a response with a huge integer, and those
before it are answered. -/
def ReachesHuge (adapter : ClmAdapter) (context : Text) : List (Text × List Text) → Prop
  | [] => False
  | request :: rest =>
    (∃ ranked, adapter.Overflows context request.1 request.2 ranked) ∨
      ((∃ shares, adapter.rank context request.1 request.2 = .ok shares) ∧
        adapter.ReachesHuge context rest)

private theorem escapes_predict (adapter : ClmAdapter) (context : Text)
    (questions : List TypedQuestion) (output : Dict Text (List PyFloat)) :
    Escapes (questions.foldlM (adapter.predictQuestion context) output) ↔
      adapter.ReachesHuge context (questions.map fun q ↦ (q.id, q.options)) := by
  induction questions generalizing output with
  | nil => exact ⟨fun h ↦ absurd h (not_escapes_ok _), False.elim⟩
  | cons question questions ih =>
    rw [List.foldlM_cons, escapes_bind, List.map_cons, ReachesHuge, ← escapes_rank]
    refine or_congr ?_ ?_
    · rw [predictQuestion, escapes_bind, or_iff_left_iff_imp]
      rintro ⟨shares, -, h⟩
      exact absurd h (not_escapes_ok _)
    · constructor
      · rintro ⟨next, hnext, h⟩
        obtain ⟨shares, hshares, -⟩ := bind_eq_ok.mp hnext
        exact ⟨⟨shares, hshares⟩, (ih next).mp h⟩
      · rintro ⟨⟨shares, hshares⟩, h⟩
        refine ⟨output.insert question.id (adapter.logits shares), ?_, (ih _).mpr h⟩
        rw [predictQuestion, hshares]
        rfl

private theorem not_escapes_encodeUtf8 (t : Text) : ¬ Escapes t.encodeUtf8 := by
  unfold Text.encodeUtf8
  split
  · exact not_escapes_ok _
  · intro h
    cases (escapes_error _).mp h

private theorem not_escapes_context [FloatText] (state : CompiledState) :
    ¬ Escapes (context state) := by
  unfold context
  split
  · intro h
    cases (escapes_error _).mp h
  · dsimp only
    rw [escapes_bind, or_iff_right (not_escapes_encodeUtf8 _)]
    rintro ⟨bytes, -, h⟩
    split at h
    · cases (escapes_error _).mp h
    · exact absurd h (not_escapes_ok _)

end ClmAdapter

/-! ### Fast paths -/

/-- The fast paths over a CLM adapter. -/
inductive ClmPath where
  | calibrated (calibrator : TemperatureCalibrator) (top margin : PyFloat)
      (topInUnit : inUnit top = true) (marginInUnit : inUnit margin = true)
  | advisory

namespace ClmPath

variable [FloatSort] [FloatText] (path : ClmPath) (adapter : ClmAdapter)

/-- `decide` of the fast path. -/
def decide (state : CompiledState) (questions : List TypedQuestion) (actionFamily language : Text)
    (options : List Text) : Except PyError FastPathDecision :=
  match path with
  | .calibrated calibrator top margin topInUnit marginInUnit =>
    CalibratedFastPath.decide ⟨adapter.toTyped, calibrator, top, margin, topInUnit, marginInUnit⟩
      state actionFamily language questions options
  | .advisory => AdvisoryFastPath.decide adapter state options

/-- The rank requests of a decision, in their order. -/
def requests (questions : List TypedQuestion) (options : List Text) : List (Text × List Text) :=
  (if options = [] then [] else [(Text.ofString "NEXT_ACTION", options)]) ++
    match path with
    | .calibrated _ _ _ _ _ => questions.map fun q ↦ (q.id, q.options)
    | .advisory => []

/-- A response with a huge integer stops the decision. -/
def Stops (state : CompiledState) (questions : List TypedQuestion) (options : List Text) : Prop :=
  ∃ context, ClmAdapter.context state = .ok context ∧
    adapter.ReachesHuge context (path.requests questions options)

omit [FloatSort] in
private theorem escapes_rankActions (state : CompiledState) {options : List Text} :
    Escapes (adapter.rankActions state options) ↔ ∃ context, ClmAdapter.context state = .ok context ∧
      ∃ ranked, adapter.Overflows context "NEXT_ACTION" options ranked := by
  rw [ClmAdapter.rankActions, escapes_bind,
    or_iff_right (ClmAdapter.not_escapes_context state)]
  simp only [ClmAdapter.escapes_rank]

omit [FloatSort] in
private theorem escapes_predict (state : CompiledState) (questions : List TypedQuestion) :
    Escapes (adapter.predict state questions) ↔ ∃ context, ClmAdapter.context state = .ok context ∧
      adapter.ReachesHuge context (questions.map fun q ↦ (q.id, q.options)) := by
  rw [ClmAdapter.predict, escapes_bind, or_iff_right (ClmAdapter.not_escapes_context state)]
  simp only [ClmAdapter.escapes_predict]

omit [FloatSort] [FloatText] in
private theorem escapes_bind_pure {α β : Type} {x : Except PyError α} {f : α → β} :
    Escapes (do let a ← x; pure (f a)) ↔ Escapes x := by
  rw [escapes_bind, or_iff_left_iff_imp]
  rintro ⟨a, -, h⟩
  exact absurd h (not_escapes_ok _)

/-- An exception leaves a decision when a response stops it, and only then. -/
theorem escapes_decide (state : CompiledState) (questions : List TypedQuestion)
    (actionFamily language : Text) (options : List Text) :
    Escapes (path.decide adapter state questions actionFamily language options) ↔
      path.Stops adapter state questions options := by
  cases path with
  | advisory =>
    unfold Stops requests decide AdvisoryFastPath.decide
    rw [escapes_bind_pure]
    by_cases hnil : options = []
    · simp [hnil, ClmAdapter.ReachesHuge]
    · rw [if_neg hnil, if_neg hnil, escapes_rankActions]
      simp [ClmAdapter.ReachesHuge]
  | calibrated calibrator top margin topInUnit marginInUnit =>
    unfold Stops requests decide CalibratedFastPath.decide CalibratedFastPath.candidateProbabilities
    rw [escapes_bind]
    simp only [escapes_bind_pure]
    change (Escapes (if options = [] then _ else adapter.rankActions state options) ∨
      ∃ a, (if options = [] then _ else adapter.rankActions state options) = .ok a ∧
        Escapes (adapter.predict state questions)) ↔ _
    rw [escapes_predict]
    by_cases hnil : options = []
    · simp [hnil]
    · simp only [if_neg hnil, escapes_rankActions, List.singleton_append, ClmAdapter.ReachesHuge]
      constructor
      · rintro (⟨context, hcontext, h⟩ | ⟨shares, hshares, context, hcontext, h⟩)
        · exact ⟨context, hcontext, .inl h⟩
        · obtain ⟨context', hcontext', hrank⟩ := bind_eq_ok.mp hshares
          rw [hcontext] at hcontext'
          cases hcontext'
          exact ⟨context, hcontext, .inr ⟨⟨shares, hrank⟩, h⟩⟩
      · rintro ⟨context, hcontext, h | ⟨⟨shares, hrank⟩, h⟩⟩
        · exact .inl ⟨context, hcontext, h⟩
        · refine .inr ⟨shares, ?_, context, hcontext, h⟩
          rw [ClmAdapter.rankActions, hcontext]
          exact hrank

/-- The fast path of a controller. -/
def toFastPath : StandaloneController.FastPath where
  requested := true
  provider := some (Text.ofString "clm")
  decide := path.decide adapter

end ClmPath

/-! ### Runs -/

section Runs

variable {D : Type} [Digest] [FloatText] [FloatRound]

open StandaloneController

/-- Components that fail with one of the four caught exceptions, and a sink that appends. -/
structure Tame (others : Host D) : Prop where
  verifier : ∀ id candidate, ¬ Escapes (others (.verifier id candidate))
  deliberate : ∀ which state, ¬ Escapes (others (.deliberate which state))
  append : ∀ trace, ∃ record, others (.append trace) = .ok record

/-- A request whose run asks the fast path about these candidates. -/
structure Reaches (c : StandaloneController) (request : RuntimeRequest) (state : CompiledState)
    (compiled : CandidateCompilation) : Prop where
  runId : request.runId ≠ []
  hash : ∃ hash, stateHash request.rawState = .ok hash
  enabled : c.flags.enabledRequested = true
  state_eq : (c.compiler.compile request.rawState).state = some state
  budget : PyFloat.lt (remainingBudget state) (.fin 0) = false
  compiled_eq : c.compileCandidates request state = .ok compiled
  safe : compiled.noSafeAction = false
  provider : c.flags.systemOneProvider = "clm"

variable {c : StandaloneController} {host : Host D} {request : RuntimeRequest} {requested : Bool}
  {state : CompiledState} {candidates : List ActionCandidate}

omit [Digest] [FloatText] [FloatRound] in
private theorem exists_caught {α : Type} {x : Except PyError α} (h : ¬ Escapes x) :
    ∃ answer, caught x = .ok answer := by
  cases x with
  | ok a => exact ⟨some a, rfl⟩
  | error e =>
    rw [escapes_error, Bool.not_eq_false] at h
    exact ⟨none, by rw [caught, if_pos h]⟩

omit [Digest] [FloatText] [FloatRound] in
private theorem ok_deliberateOrStop (hdeliberate : ∀ which, ¬ Escapes (host (.deliberate which state)))
    (ids : List Text) (reason : Text) (fast : Option FastPathDecision)
    (deliberator : Option Deliberator) : ∃ closing,
      Prog.value host (c.deliberateOrStop state ids reason fast deliberator) = .ok closing := by
  unfold deliberateOrStop
  split
  · exact ⟨_, rfl⟩
  · next which _ =>
    obtain ⟨answer, hanswer⟩ := exists_caught (hdeliberate which)
    rw [Prog.value_bind]
    refine exists_bind_ok (a := answer) ?_ ?_
    · rw [value_attempt, value_ask_deliberate, hanswer]
    cases answer with
    | none => exact ⟨_, rfl⟩
    | some answer =>
      cases answer with
      | other value => exact ⟨_, rfl⟩
      | provider result =>
        dsimp only
        split
        · exact ⟨_, rfl⟩
        · exact ⟨_, rfl⟩

omit [FloatText] [FloatRound] in
private theorem not_escapes_signFields (key : ByteArray) (fields : List Text) :
    ¬ Escapes (Authority.signFields key fields) := by
  unfold Authority.signFields
  split
  · intro h
    cases (escapes_error _).mp h
  · rw [escapes_bind, or_iff_right (ClmAdapter.not_escapes_encodeUtf8 _)]
    rintro ⟨payload, -, h⟩
    exact absurd h (not_escapes_ok _)

omit [FloatRound] in
private theorem not_escapes_actionFingerprint (candidate : ActionCandidate) :
    ¬ Escapes (Authority.actionFingerprint candidate) := by
  unfold Authority.actionFingerprint dumps
  rw [Bool.not_true, Bool.false_and, if_neg Bool.false_ne_true]
  rw [escapes_bind, or_iff_right (not_escapes_ok _)]
  rintro ⟨canonical, -, h⟩
  rw [escapes_bind, or_iff_right (ClmAdapter.not_escapes_encodeUtf8 _)] at h
  obtain ⟨bytes, -, h⟩ := h
  exact absurd h (not_escapes_ok _)

omit [FloatRound] in
private theorem not_escapes_verify
    (hverifier : ∀ id candidate, ¬ Escapes (host (.verifier id candidate)))
    (candidate : ActionCandidate) :
    ¬ Escapes (Prog.value host (c.verifier.verify candidate)) := by
  unfold Authority.VerifierFirewall.verify
  simp only [StandaloneController.verifier, Dict.get?_mapEntries]
  cases c.verifierIds.get? (c.verifierPolicy.select candidate) with
  | none =>
    intro h
    cases (escapes_error _).mp h
  | some u =>
    simp only [Option.map_some, Prog.value_bind, value_ask_verifier, Prog.value_monadExcept_ofExcept,
      escapes_bind, not_or, not_exists, not_and]
    refine ⟨hverifier _ _, fun decision _ ↦ ⟨not_escapes_actionFingerprint candidate,
      fun fingerprint _ ↦ ⟨not_escapes_signFields _ _, fun attestation _ ↦ not_escapes_ok _⟩⟩⟩

private theorem ok_selectAction (hverifier : ∀ id candidate, ¬ Escapes (host (.verifier id candidate)))
    (hdeliberate : ∀ which, ¬ Escapes (host (.deliberate which state)))
    (fast : Option FastPathDecision) : ∃ closing,
      Prog.value host (c.selectAction request requested state candidates fast) = .ok closing := by
  have hverify := fun candidate ↦ exists_caught (not_escapes_verify (c := c) hverifier candidate)
  unfold selectAction
  split
  · unfold withoutSelection
    split
    · next fallback _ =>
      obtain ⟨answer, hanswer⟩ := hverify fallback
      rw [textFallback, Prog.value_bind, value_attempt]
      refine exists_bind_ok hanswer ?_
      cases answer with
      | none => exact ⟨_, rfl⟩
      | some verification =>
        dsimp only
        split
        · exact ok_deliberateOrStop hdeliberate _ _ _ _
        · exact ⟨_, rfl⟩
    · exact ⟨_, rfl⟩
  · next selected _ =>
    obtain ⟨answer, hanswer⟩ := hverify selected
    rw [withSelection, Prog.value_bind, value_attempt]
    refine exists_bind_ok hanswer ?_
    cases answer with
    | none => exact ⟨_, rfl⟩
    | some verification =>
      dsimp only
      split
      · exact ⟨_, rfl⟩
      · split
        · exact ok_deliberateOrStop hdeliberate _ _ _ _
        · split
          · exact ⟨_, rfl⟩
          · exact ⟨_, rfl⟩

private theorem ok_afterFastPath
    (hverifier : ∀ id candidate, ¬ Escapes (host (.verifier id candidate)))
    (hdeliberate : ∀ which, ¬ Escapes (host (.deliberate which state))) (fast : FastPathDecision) :
    ∃ closing, Prog.value host (c.afterFastPath request requested state candidates fast) =
      .ok closing := by
  unfold afterFastPath
  split
  · exact ok_deliberateOrStop hdeliberate _ _ _ _
  · split
    · exact ⟨_, rfl⟩
    · split
      · exact ok_deliberateOrStop hdeliberate _ _ _ _
      · exact ok_selectAction hverifier hdeliberate _

variable [FloatSort] (path : ClmPath) (adapter : ClmAdapter)

-- Once the fast path is asked, its exception is the only one that can leave the stage.
private theorem ok_systemOne_iff {others : Host D} (ht : Tame others) {c : StandaloneController}
    (hflag : c.flags.enabledRequested = true) (hprovider : c.flags.systemOneProvider = "clm") :
    (∃ closing, Prog.value ((path.toFastPath adapter).host others)
      ((c.withFastPath (path.toFastPath adapter)).systemOne request requested state candidates) =
        .ok closing) ↔
      ¬ path.Stops adapter state controlQuestions (candidates.map candidateOption) := by
  have henabled : (c.withFastPath (path.toFastPath adapter)).flags.systemOneEnabled = true := by
    change (c.flags.enabledRequested && true) = true
    rw [hflag, Bool.true_and]
  have hname : (c.withFastPath (path.toFastPath adapter)).flags.systemOneProvider =
      Text.ofString "clm" := hprovider
  rw [← path.escapes_decide adapter state controlQuestions "CONTROL" request.language]
  unfold systemOne
  rw [henabled, Bool.not_true, if_neg Bool.false_ne_true]
  change (∃ closing, Prog.value _ (if Text.ofString "clm" ≠ _ then _ else _) = _) ↔ _
  rw [hname, if_neg (not_not.mpr rfl), Prog.value_bind, value_attempt, value_ask_decide]
  change (∃ closing, (caught (path.decide adapter state controlQuestions "CONTROL" request.language
    (candidates.map candidateOption)) >>= _) = _) ↔ _
  constructor
  · rintro ⟨closing, hclosing⟩ ⟨e, he, hescapes⟩
    obtain ⟨answer, hanswer, -⟩ := bind_eq_ok.mp hclosing
    rw [he, caught, hescapes, if_neg Bool.false_ne_true] at hanswer
    cases hanswer
  · intro h
    obtain ⟨answer, hanswer⟩ := exists_caught h
    refine exists_bind_ok hanswer ?_
    have hverifier : ∀ id candidate,
        ¬ Escapes ((path.toFastPath adapter).host others (.verifier id candidate)) := ht.verifier
    have hdeliberate : ∀ which,
        ¬ Escapes ((path.toFastPath adapter).host others (.deliberate which state)) :=
      fun which ↦ ht.deliberate which state
    cases answer with
    | none =>
      dsimp only
      split
      · exact ok_selectAction hverifier hdeliberate _
      · exact ok_deliberateOrStop hdeliberate _ _ _ _
    | some fast => exact ok_afterFastPath hverifier hdeliberate fast

end Runs

/-! ### A server that answers with a huge integer -/

section Sample

attribute [local instance] FloatSort.insertion FloatText.fraction FloatRound.exact Digest.transparent

open StandaloneController

/-- An adapter with a given server. -/
def serverAdapter (server : RankPayload → Dict Text Json) : ClmAdapter where
  revision := "1"
  remaining _ := .fin 1
  transport := server
  log x := x

/-- A ranking that gives every option the same integer. -/
def integerServer (n : Int) (payload : RankPayload) : Dict Text Json :=
  Dict.ofList [("model", .str payload.model),
    ("ranked", .arr (payload.answers.map fun option ↦
      .obj [("candidate", .str option), ("prob", .int n)]))]

/-- The lookup reaches the fast path. -/
theorem reaches_lookup : ∃ state compiled, Reaches lookupController lookupRequest state compiled := by
  have hstate : (lookupController.compiler.compile lookupRequest.rawState).state.isSome = true := by
    decide +kernel
  have hhash : (stateHash lookupRequest.rawState).toOption.isSome = true := by decide +kernel
  have hsafe : (lookupController.compileCandidates lookupRequest
      (StateCompiler.compiledState lookupRequest.rawState)).toOption.map
        CandidateCompilation.noSafeAction = some false := by
    decide +kernel
  obtain ⟨state, hstate⟩ := Option.isSome_iff_exists.mp hstate
  obtain ⟨hash, hhash⟩ := Option.isSome_iff_exists.mp hhash
  obtain ⟨compiled, hcompiled, hsafe⟩ := Option.map_eq_some_iff.mp hsafe
  rw [← StateCompiler.compile_eq_some hstate] at hcompiled
  refine ⟨state, compiled, by decide, ⟨hash, toOption_eq_some.mp hhash⟩, rfl, hstate, ?_,
    toOption_eq_some.mp hcompiled, hsafe, rfl⟩
  rw [StateCompiler.compile_eq_some hstate]
  decide +kernel

/-- The accepting host is tame. -/
theorem tame_acceptingHost : Tame acceptingHost where
  verifier _ _ := not_escapes_ok _
  deliberate _ _ h := by cases (escapes_error _).mp h
  append _ := ⟨_, rfl⟩

end Sample

end C3RSpec.SystemOne
