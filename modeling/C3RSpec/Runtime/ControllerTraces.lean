import C3RSpec.Runtime.HostCalls
import C3RSpec.SystemOne.ShippedPath

/-!
# Traces of the controller at the governed sink

`c3r/runtime.py:151–193` against `c3r/telemetry/governed_store.py:51–89`. `finish` builds the
trace and the sink refuses what is no bounded token, no probability or no finite number. The
routes, reasons and results of `finish` are tokens; a trace is refused for the model of a
recorded decision, its calibrated probabilities, the recorded lower bound or the names of costs.
-/

namespace C3RSpec.Runtime

open Base Telemetry Authority Candidates SystemOne

namespace StandaloneController

variable {D : Type}

/-! ### What `finish` chooses -/

/-- The routes are tokens. -/
theorem isToken_of_mem_routes {t : Text} (h : t ∈ routes) : isToken t = true := by
  have hall : ∀ r ∈ routes, isToken r = true := by decide
  exact hall t h

/-- The reasons are tokens. -/
theorem isToken_of_mem_reasons {t : Text} (h : t ∈ reasons) : isToken t = true := by
  have hall : ∀ r ∈ reasons, isToken r = true := by decide
  exact hall t h

/-- The identifiers that a run is given are tokens. -/
structure Governed [Digest] [FloatText] (c : StandaloneController) (request : RuntimeRequest)
    (es : List (Event HostOp (HostOp.Res D))) : Prop where
  runId : isToken request.runId = true
  accessLevel : isToken request.accessLevel = true
  candidates : ∀ candidates, c.Compiled request candidates →
    ∀ candidate ∈ candidates, isToken candidate.id = true
  providers : ∀ result : ProviderExecutionResult D, DeliberatedIn result es →
    isToken result.providerId = true

/-- What `finish` is given can be recorded: without a provider id the model of a decision is a
token, the calibrated values of the decision are probabilities, the lower bound is finite, and
the costs have tokens for names. -/
structure Recordable (adapter : ShippedAdapter) (closing : Closing D) : Prop where
  model : closing.providerId = none → closing.fast.isSome → isToken adapter.modelId = true
  probabilities : ∀ fast, closing.fast = some fast → ∀ e ∈ fast.probabilities.entries,
    ∀ p ∈ e.2, isProbability p = true
  lowerBound : ∀ q, closing.lowerBound = some q → q.isFinite = true
  costs : ∀ cost, closing.systemCost = some cost → ∀ name ∈ cost.keys, isToken name = true

/-- A run whose host keeps to what can be recorded: the model of an adapter that decided is a token,
the calibrated values are probabilities, the multiplier is finite, and costs have tokens for
names. -/
structure HostRecordable (c : StandaloneController) (adapter : ShippedAdapter)
    (es : List (Event HostOp (HostOp.Res D))) : Prop where
  model : ∀ decision, DecidedIn decision es → isToken adapter.modelId = true
  probabilities : ∀ decision, DecidedIn decision es → ∀ e ∈ decision.probabilities.entries,
    ∀ p ∈ e.2, isProbability p = true
  multiplier : c.cvoc.uncertaintyMultiplier.isFinite = true
  costs : ∀ result : ProviderExecutionResult D, DeliberatedIn result es →
    ∀ name ∈ result.observedCost.keys, isToken name = true

/-! ### The validator on a trace of `finish` -/

section Finish

variable {request : RuntimeRequest} {hash : Text} {closing : Closing D} {adapter : ShippedAdapter}

private theorem namedNumbers_iff {d : Dict Text PyFloat} :
    namedNumbers d = true ↔ (∀ name ∈ d.keys, isToken name = true) ∧
      ∀ v ∈ d.values, v.isFinite = true := by
  simp only [namedNumbers, List.all_eq_true, Bool.and_eq_true, Dict.keys, Dict.values,
    List.forall_mem_map]
  exact forall₂_and

private theorem control_fits {probabilities : Dict Text (List PyFloat)}
    (h : Fits controlQuestions probabilities) {e : Text × List PyFloat}
    (he : e ∈ probabilities.entries) :
    isToken e.1 = true ∧ e.2 ≠ [] ∧ e.1 ≠ Text.ofString "CANDIDATE_RANK" := by
  obtain ⟨q, hq, hname, hlength⟩ := h e he
  have hall : ∀ q ∈ controlQuestions, isToken q.id = true ∧ q.options.length ≠ 0 ∧
      q.id ≠ Text.ofString "CANDIDATE_RANK" := by decide
  obtain ⟨htoken, hoptions, hne⟩ := hall q hq
  refine ⟨by rw [hname]; exact htoken, ?_, by rw [hname]; exact hne⟩
  intro hnil
  rw [hnil] at hlength
  exact hoptions hlength.symm

/-- The recorded probabilities of a decision pass exactly when its calibrated values do. -/
theorem namedProbabilities_iff {fast : FastPathDecision} (h : Decided adapter controlQuestions fast) :
    namedProbabilities (tracedProbabilities (some fast)) = true ↔
      ∀ e ∈ fast.probabilities.entries, ∀ p ∈ e.2, isProbability p = true := by
  have hsame : namedProbabilities fast.probabilities = true ↔
      ∀ e ∈ fast.probabilities.entries, ∀ p ∈ e.2, isProbability p = true := by
    simp only [namedProbabilities, List.all_eq_true, Bool.and_eq_true, bne_iff_ne]
    refine forall₂_congr fun e he ↦ ?_
    obtain ⟨htoken, hne, -⟩ := control_fits h.fits he
    exact ⟨fun h ↦ h.2, fun h ↦ ⟨⟨htoken, hne⟩, h⟩⟩
  rw [tracedProbabilities]
  split
  · exact hsame
  · next hranked =>
    -- no question is named as the ranking is
    have hnew : Text.ofString "CANDIDATE_RANK" ∉ fast.probabilities.keys := by
      intro hmem
      obtain ⟨e, he, hname⟩ := List.mem_map.mp hmem
      exact (control_fits h.fits he).2.2 hname
    have hrank : ((isToken (Text.ofString "CANDIDATE_RANK") && fast.candidateProbabilities != []) &&
        fast.candidateProbabilities.all isProbability) = true := by
      rw [Bool.and_eq_true, Bool.and_eq_true, bne_iff_ne, List.all_eq_true]
      exact ⟨⟨by decide, hranked⟩, h.ranking⟩
    rw [← hsame, namedProbabilities, Dict.entries_insert_of_notMem _ hnew, List.all_append,
      List.all_cons, List.all_nil, Bool.and_true, hrank, Bool.and_true, namedProbabilities]

-- the provider of a trace, where a provider id is a token
private theorem isToken_tracedProvider_iff (hroute : closing.route ∈ routes)
    (hprovider : ∀ id, closing.providerId = some id → isToken id = true)
    (hfast : ∀ fast, closing.fast = some fast → fast.modelId = adapter.modelId) :
    isToken (tracedProvider closing) = true ↔
      (closing.providerId = none → closing.fast.isSome → isToken adapter.modelId = true) := by
  unfold tracedProvider
  cases hid : closing.providerId with
  | some id =>
    have htoken := hprovider id hid
    have hne : id ≠ [] := by
      rintro rfl
      exact absurd htoken (by decide)
    dsimp only
    rw [if_neg hne]
    exact ⟨fun _ h ↦ (by cases h), fun _ ↦ htoken⟩
  | none =>
    cases hf : closing.fast with
    | none => exact ⟨fun _ _ h ↦ (by cases h), fun _ ↦ isToken_of_mem_routes hroute⟩
    | some fast =>
      dsimp only [Option.map_some, Option.getD_some]
      rw [hfast fast hf]
      exact ⟨fun h _ _ ↦ h, fun h ↦ h rfl rfl⟩

/-- What the exits of a run establish about the arguments of `finish`. -/
structure Closable (request : RuntimeRequest) (hash : Text) (adapter : ShippedAdapter)
    (closing : Closing D) : Prop where
  hash : isHash hash = true
  runId : isToken request.runId = true
  accessLevel : isToken request.accessLevel = true
  route : closing.route ∈ routes
  reason : closing.reason ∈ reasons
  authorityResult : isToken closing.authorityResult = true
  candidateIds : ∀ id ∈ closing.candidateIds, isToken id = true
  selected : ∀ candidate, closing.selected = some candidate → isToken candidate.id = true
  decided : ∀ fast, closing.fast = some fast → Decided adapter controlQuestions fast
  provider : ∀ id, closing.providerId = some id → isToken id = true
  cost : ∀ cost, closing.systemCost = some cost →
    ∀ v ∈ cost.values, v.isFinite = true ∧ PyFloat.lt v (.fin 0) = false

/-- The validator accepts a trace of `finish` exactly when its arguments can be recorded. -/
theorem admitted_finishTrace_iff (h : Closable request hash adapter closing) :
    Admitted (finishTrace request hash closing) ↔ Recordable adapter closing := by
  have hprovider := isToken_tracedProvider_iff h.route h.provider
    fun fast hfast ↦ (h.decided fast hfast).modelId
  constructor
  · intro ha
    refine ⟨?_, ?_, ?_, ?_⟩
    · exact hprovider.mp (ha.identifiers _ (by simp [Telemetry.identifiers, finishTrace]))
    · intro fast hfast
      have hprobabilities : namedProbabilities (tracedProbabilities closing.fast) = true :=
        ha.probabilities
      rw [hfast] at hprobabilities
      exact (namedProbabilities_iff (h.decided fast hfast)).mp hprobabilities
    · intro q hq
      have hquantiles : namedNumbers (closing.lowerBound.elim ∅ fun q ↦
          Dict.ofList [(Text.ofString "selected_lower_bound", q)]) = true := ha.utilityQuantiles
      rw [hq] at hquantiles
      exact (namedNumbers_iff.mp hquantiles).2 q (List.mem_singleton_self _)
    · intro cost hcost
      have hnumbers : namedNumbers (closing.systemCost.getD ∅) = true := ha.systemCost
      rw [hcost] at hnumbers
      exact (namedNumbers_iff.mp hnumbers).1
  · intro hr
    refine ⟨h.hash, ?_, rfl, ?_, ?_, ?_, ?_, ?_⟩
    · intro id hid
      simp only [Telemetry.identifiers, finishTrace, List.append_nil, List.mem_append, List.mem_cons,
        List.not_mem_nil, or_false, Option.mem_toList, Option.map_eq_some_iff] at hid
      obtain ((rfl | rfl | rfl | rfl) | hid) | ⟨candidate, hselected, rfl⟩ := hid
      · exact h.runId
      · exact h.accessLevel
      · exact hprovider.mpr hr.model
      · exact h.authorityResult
      · exact h.candidateIds id hid
      · exact h.selected candidate hselected
    · change namedProbabilities (tracedProbabilities closing.fast) = true
      cases hfast : closing.fast with
      | none => rfl
      | some fast =>
        exact (namedProbabilities_iff (h.decided fast hfast)).mpr (hr.probabilities fast hfast)
    · change namedNumbers (closing.lowerBound.elim ∅ fun q ↦
        Dict.ofList [(Text.ofString "selected_lower_bound", q)]) = true
      cases hq : closing.lowerBound with
      | none => rfl
      | some q =>
        refine namedNumbers_iff.mpr ⟨fun name hname ↦ ?_, fun v hv ↦ ?_⟩
        · rw [List.mem_singleton.mp hname]
          change isToken (Text.ofString "selected_lower_bound") = true
          decide
        · rw [List.mem_singleton.mp hv]
          exact hr.lowerBound q hq
    · change namedNumbers (closing.systemCost.getD ∅) = true
      cases hcost : closing.systemCost with
      | none => rfl
      | some cost =>
        exact namedNumbers_iff.mpr ⟨hr.costs cost hcost, fun v hv ↦ (h.cost cost hcost v hv).1⟩
    · intro v hv
      change v ∈ (closing.systemCost.getD ∅).values at hv
      cases hcost : closing.systemCost with
      | none =>
        rw [hcost] at hv
        exact absurd hv List.not_mem_nil
      | some cost =>
        rw [hcost] at hv
        exact (h.cost cost hcost v hv).2
    · intro e he
      rw [List.mem_singleton.mp
        (show e ∈ [(Text.ofString "status", Scalar.text closing.reason)] from he)]
      have hstatus : isToken (Text.ofString "status") = true := by decide
      exact ⟨hstatus, isToken_of_mem_reasons h.reason⟩

end Finish

/-! ### Every run -/

section Runs

variable [Digest] [FloatText] [FloatRound] {c : StandaloneController} {request : RuntimeRequest}
  {requestedDeliberator : Bool} {es : List (Event HostOp (HostOp.Res D))}

/-- A run that appends a trace has chosen the arguments of `finish`, which builds that trace. -/
theorem exists_finish {x : Except PyError (RuntimeOutcome D)}
    (hrun : Prog.Finishes (c.run request requestedDeliberator) es x) {trace : DecisionTrace}
    {answer : Except PyError LedgerRecord} (hmem : ⟨.append trace, answer⟩ ∈ es) :
    ∃ hash closing pre candidates fast,
      c.Closed request es hash closing answer pre candidates fast ∧
      Prog.Finishes (c.chooseClosing request requestedDeliberator) pre (.ok closing) ∧
      trace = finishTrace request hash closing := by
  have happend : ⟨.append trace, answer⟩ ∈ es.filter isAppend := List.mem_filter.mpr ⟨hmem, rfl⟩
  have hall : Prog.All (fun es x ↦ Silent es ∨ ∃ hash closing answer pre candidates fast,
        c.Closed request es hash closing answer pre candidates fast ∧
        Prog.Finishes (c.chooseClosing request requestedDeliberator) pre (.ok closing))
      (c.run request requestedDeliberator : HostProg D (RuntimeOutcome D)) := by
    unfold run
    split
    · exact .inl rfl
    · cases hhash : stateHash request.rawState with
      | error e => exact .inl rfl
      | ok hash =>
        rw [Prog.bind_ofExcept_ok]
        refine Prog.All.bind (((all_chooseClosing c request requestedDeliberator).and
          (Prog.all_finishes _)).mono ?_)
        rintro es x ⟨⟨candidates, hcompiled, fast, hdecided, hsilent, hexit⟩, hfinishes⟩
        refine ⟨?_, fun e _ ↦ .inl hsilent⟩
        rintro closing rfl answer
        have hclosed : c.Closed request
            (es ++ [⟨.append (finishTrace request hash closing), answer⟩]) hash closing answer es
            candidates fast :=
          ⟨rfl, hsilent, hhash, hcompiled, hdecided, hexit closing rfl⟩
        cases answer with
        | ok record => exact .inr ⟨hash, closing, _, es, candidates, fast, hclosed, hfinishes⟩
        | error e => exact .inr ⟨hash, closing, _, es, candidates, fast, hclosed, hfinishes⟩
  obtain hsilent | ⟨hash, closing, answer', pre, candidates, fast, hclosed, hfinishes⟩ :=
    hall.of_finishes hrun
  · rw [hsilent] at happend
    exact absurd happend List.not_mem_nil
  · -- the one call of the sink is the last event
    have hlast : es.filter isAppend = [⟨.append (finishTrace request hash closing), answer'⟩] := by
      have hpre : pre.filter isAppend = [] := hclosed.silent
      rw [hclosed.events, List.filter_append, hpre]
      rfl
    rw [hlast] at happend
    cases List.mem_singleton.mp happend
    exact ⟨hash, closing, pre, candidates, fast, hclosed, hfinishes, rfl⟩

/-- What the host keeps to is enough for the arguments of `finish`. -/
theorem recordable_of_host {hash : Text} {closing : Closing D}
    {answer : Except PyError LedgerRecord} {pre : List (Event HostOp (HostOp.Res D))}
    {candidates : List ActionCandidate} {fast : Option FastPathDecision}
    (hclosed : c.Closed request es hash closing answer pre candidates fast)
    {adapter : ShippedAdapter} (hhost : c.HostRecordable adapter es) : Recordable adapter closing := by
  have hpre : ∀ e ∈ pre, e ∈ es := by
    intro e he
    rw [hclosed.events]
    exact List.mem_append_left _ he
  have hdecided : ∀ decision, closing.fast = some decision → DecidedIn decision es := by
    intro decision hfast
    obtain hnone | hsame := hclosed.exit.fast
    · rw [hnone] at hfast
      cases hfast
    · obtain ⟨state, questions, actionFamily, language, labels, hdecide⟩ :=
        hclosed.decided decision (hsame.symm.trans hfast)
      exact ⟨state, questions, actionFamily, language, labels, hpre _ hdecide⟩
  refine ⟨?_, fun decision hfast ↦ hhost.probabilities decision (hdecided decision hfast), ?_, ?_⟩
  · intro _ hsome
    obtain ⟨decision, hfast⟩ := Option.isSome_iff_exists.mp hsome
    exact hhost.model decision (hdecided decision hfast)
  · intro q hq
    obtain ⟨hpositive, e, rfl⟩ := hclosed.exit.lowerBound q hq
    obtain hworthless | ⟨r, hr⟩ := RobustCvocController.lowerBound_cases hhost.multiplier e
    · rw [hworthless] at hpositive
      cases hpositive
    · rw [hr]
      rfl
  · intro cost hcost
    obtain ⟨-, hnone⟩ | ⟨result, ⟨which, state, hresult⟩, -, -, hsome⟩ := hclosed.exit.provider
    · rw [hnone] at hcost
      cases hcost
    · rw [hsome] at hcost
      cases hcost
      exact hhost.costs result ⟨which, state, hpre _ hresult⟩

variable [FloatSort] {path : ClmPath} {adapter : ShippedAdapter}

/-- The host's fast path is a shipped one. -/
def AnsweredBy (path : ClmPath) (adapter : ShippedAdapter)
    (es : List (Event HostOp (HostOp.Res D))) : Prop :=
  ∀ state questions actionFamily language labels decision,
    ⟨.decide state questions actionFamily language labels, .ok decision⟩ ∈ es →
      path.decideWith adapter.toTyped state questions actionFamily language labels = .ok decision

/-- The arguments of `finish` in a run with a shipped fast path. -/
theorem closable_of_closed (hlength : ∀ bytes, (Digest.sha256Hex bytes).length = 64)
    {x : Except PyError (RuntimeOutcome D)}
    (hrun : Prog.Finishes (c.run request requestedDeliberator) es x)
    (hpath : AnsweredBy path adapter es) (hgoverned : c.Governed request es) {hash : Text}
    {closing : Closing D} {answer : Except PyError LedgerRecord}
    {pre : List (Event HostOp (HostOp.Res D))} {candidates : List ActionCandidate}
    {fast : Option FastPathDecision}
    (hclosed : c.Closed request es hash closing answer pre candidates fast) :
    Closable request hash adapter closing := by
  have hpre : ∀ e ∈ pre, e ∈ es := by
    intro e he
    rw [hclosed.events]
    exact List.mem_append_left _ he
  have hcandidates := hgoverned.candidates candidates hclosed.compiled
  refine ⟨?_, hgoverned.runId, hgoverned.accessLevel, hclosed.exit.route, hclosed.exit.reason, ?_, ?_,
    ?_, ?_, ?_, ?_⟩
  · obtain ⟨canonical, -, hhash⟩ := bind_eq_ok.mp hclosed.hash
    obtain ⟨bytes, -, hhash⟩ := bind_eq_ok.mp hhash
    cases hhash
    rw [isHash, hlength, Digest.isHex_sha256Hex]
    rfl
  · have hall : ∀ t ∈ (["not_attempted", "verified_not_committed"] : List Text), isToken t = true := by
      decide
    exact hall _ hclosed.exit.authorityResult
  · intro id hid
    obtain hnil | hids := hclosed.exit.candidateIds
    · rw [hnil] at hid
      exact absurd hid List.not_mem_nil
    · rw [hids] at hid
      obtain ⟨candidate, hcandidate, rfl⟩ := List.mem_map.mp hid
      exact hcandidates candidate hcandidate
  · intro candidate hselected
    exact hcandidates candidate (hclosed.exit.selected candidate hselected).2.mem
  · intro decision hfast
    obtain hnone | hsame := hclosed.exit.fast
    · rw [hnone] at hfast
      cases hfast
    · obtain ⟨state, questions, actionFamily, language, labels, hdecide⟩ :=
        hclosed.decided decision (hsame.symm.trans hfast)
      have hevent := hpre _ hdecide
      obtain ⟨q, hruns, -⟩ := hrun
      obtain ⟨before, after, -, hguard⟩ :=
        (guarded_run c request requestedDeliberator).of_mem hruns hevent
      obtain ⟨-, rfl, -⟩ := hguard
      exact decided_of_decideWith (hpath _ _ _ _ _ _ hevent)
  · intro id hid
    obtain ⟨hnone, -⟩ | ⟨result, ⟨which, state, hresult⟩, -, hsome, -⟩ := hclosed.exit.provider
    · rw [hnone] at hid
      cases hid
    · rw [hsome] at hid
      cases hid
      exact hgoverned.providers result ⟨which, state, hpre _ hresult⟩
  · intro cost hcost v hv
    obtain ⟨-, hnone⟩ | ⟨result, -, hvalid, -, hsome⟩ := hclosed.exit.provider
    · rw [hnone] at hcost
      cases hcost
    · rw [hsome] at hcost
      cases hcost
      rw [validCost, Bool.not_eq_true', List.any_eq_false] at hvalid
      simpa using hvalid v hv

/-- In every run with a shipped fast path and governed identifiers, the trace given to the sink is
the one of the arguments that `finish` gets, and it passes the redaction schema exactly when these
can be recorded; they can in every run whose host keeps to what can be recorded. -/
theorem traces_admitted_iff (hlength : ∀ bytes, (Digest.sha256Hex bytes).length = 64)
    (path : ClmPath) (adapter : ShippedAdapter) (c : StandaloneController)
    (request : RuntimeRequest) (requestedDeliberator : Bool)
    (es : List (Event HostOp (HostOp.Res D))) (x : Except PyError (RuntimeOutcome D))
    (hrun : Prog.Finishes (c.run request requestedDeliberator) es x)
    (hpath : AnsweredBy path adapter es) (hgoverned : c.Governed request es)
    (trace : DecisionTrace) (answer : Except PyError LedgerRecord)
    (hmem : ⟨.append trace, answer⟩ ∈ es) :
    (∃ hash closing pre, stateHash request.rawState = .ok hash ∧
      Prog.Finishes (c.chooseClosing request requestedDeliberator) pre (.ok closing) ∧
      es = pre ++ [⟨.append trace, answer⟩] ∧ trace = finishTrace request hash closing ∧
      (validateTrace trace = .ok () ↔ Recordable adapter closing)) ∧
    (c.HostRecordable adapter es → validateTrace trace = .ok ()) := by
  obtain ⟨hash, closing, pre, candidates, fast, hclosed, hfinishes, rfl⟩ := exists_finish hrun hmem
  have hiff : validateTrace (finishTrace request hash closing) = .ok () ↔ Recordable adapter closing :=
    validateTrace_eq_ok.trans
      (admitted_finishTrace_iff (closable_of_closed hlength hrun hpath hgoverned hclosed))
  exact ⟨⟨hash, closing, pre, hclosed.hash, hfinishes, hclosed.events, rfl, hiff⟩,
    fun hhost ↦ hiff.mpr (recordable_of_host hclosed hhost)⟩

end Runs

section Sample

attribute [local instance] Digest.rolling FloatText.fraction FloatRound.exact FloatSort.insertion

/-- A CLM adapter whose server gives every option the same probability. -/
def evenAdapter (modelId : Text) : ClmAdapter where
  revision := List.replicate 64 97
  modelId := modelId
  remaining _ := .fin (1 / 2)
  transport payload := Dict.ofList [("model", .str payload.model),
    ("ranked", .arr (payload.answers.map fun option ↦
      .obj [("candidate", .str option), ("prob", .float (.fin (1 / payload.answers.length)))]))]
  log x := x

/-- A host with the advisory fast path over the adapter and the schema of the governed sink. -/
def governedHost (modelId : Text) : (o : HostOp) → HostOp.Res Unit o
  | .decide state questions actionFamily language labels =>
    ClmPath.advisory.decideWith (evenAdapter modelId).toTyped state questions actionFamily language
      labels
  | .verifier _ _ => .ok ⟨true, "policy fixture"⟩
  | .deliberate _ _ => .error ⟨.runtimeError, "unavailable"⟩
  | .append trace => (validateTrace trace).map fun _ ↦ ⟨genesis, genesis, []⟩

/-- The lookup controller with System One. -/
def rankedController : StandaloneController :=
  { lookupController with
    flags := { enabledRequested := true, systemOneRequested := true }
    fastPathProvider := some "clm" }

/-- The run of a lookup. -/
def rankedRun (modelId : Text) : List (Event HostOp (HostOp.Res Unit)) ×
    Except PyError (RuntimeOutcome Unit) :=
  Prog.play (governedHost modelId) (rankedController.run lookupRequest)

private theorem answeredBy_rankedRun (modelId : Text) :
    AnsweredBy .advisory (.clm (evenAdapter modelId)) (rankedRun modelId).1 := by
  intro state questions actionFamily language labels decision hmem
  exact (Prog.answer_of_mem_play hmem).symm

private theorem governed_rankedRun (modelId : Text) :
    rankedController.Governed lookupRequest (rankedRun modelId).1 := by
  refine ⟨by decide, by decide, ?_, ?_⟩
  · rintro candidates (rfl | ⟨-, state, compilation, hstate, hcompiled, rfl⟩) candidate hmem
    · exact absurd hmem List.not_mem_nil
    · have hall : ((rankedController.compiler.compile lookupRequest.rawState).state.all fun state ↦
          (rankedController.compileCandidates lookupRequest state).toOption.all fun compilation ↦
            compilation.candidates.all fun candidate ↦ isToken candidate.id) = true := by
        decide +kernel
      rw [hstate, Option.all_some, hcompiled] at hall
      exact List.all_eq_true.mp hall candidate hmem
  · rintro result ⟨which, state, hmem⟩
    cases Prog.answer_of_mem_play hmem

-- the sink refuses or accepts the one trace of the run
private theorem exists_append_rankedRun (modelId : Text) (accepted : Bool)
    (h : ((rankedRun modelId).1.any fun e ↦ match e.op with
      | .append trace => (validateTrace trace).toOption.isSome == accepted
      | .decide _ _ _ _ _ | .verifier _ _ | .deliberate _ _ => false) = true) :
    ∃ trace answer, ⟨.append trace, answer⟩ ∈ (rankedRun modelId).1 ∧
      (validateTrace trace).toOption.isSome = accepted := by
  obtain ⟨⟨o, answer⟩, hmem, he⟩ := List.any_eq_true.mp h
  cases o with
  | append trace => exact ⟨trace, answer, hmem, eq_of_beq he⟩
  | decide state questions actionFamily language labels => cases he
  | verifier id candidate => cases he
  | deliberate which state => cases he

/-- The default `model_id` of `ClmAdapter`. -/
def upstreamModel : Text := "Contrastive-LM/CLM"

/-- The default model of the CLM adapter is no token: with the advisory fast path an accepted
recommendation is refused by the governed sink. -/
theorem refused_default_model :
    ¬ ∀ (path : ClmPath) (adapter : ShippedAdapter) (c : StandaloneController)
      (request : RuntimeRequest) (es : List (Event HostOp (HostOp.Res Unit)))
      (x : Except PyError (RuntimeOutcome Unit)), Prog.Finishes (c.run request) es x →
      AnsweredBy path adapter es → c.Governed request es →
      ∀ trace answer, ⟨.append trace, answer⟩ ∈ es → validateTrace trace = .ok () := by
  intro hall
  obtain ⟨trace, answer, hmem, hrefused⟩ :=
    exists_append_rankedRun upstreamModel false (by decide +kernel)
  have hok := hall .advisory (.clm (evenAdapter upstreamModel)) rankedController lookupRequest
    (rankedRun upstreamModel).1 (rankedRun upstreamModel).2 (Prog.finishes_play _ _)
    (answeredBy_rankedRun upstreamModel) (governed_rankedRun upstreamModel) trace answer hmem
  rw [hok] at hrefused
  cases hrefused

/-- The name under which the server serves the model is a token, and the same run is admitted. -/
theorem traces_admitted_iff_served : ∃ trace answer,
    ⟨.append trace, answer⟩ ∈ (rankedRun "clm-latest").1 ∧ validateTrace trace = .ok () := by
  obtain ⟨trace, answer, hmem, -⟩ :=
    exists_append_rankedRun "clm-latest" true (by decide +kernel)
  refine ⟨trace, answer, hmem, ?_⟩
  refine (traces_admitted_iff length_rolling .advisory (.clm (evenAdapter "clm-latest"))
    rankedController lookupRequest false (rankedRun "clm-latest").1 (rankedRun "clm-latest").2
    (Prog.finishes_play _ _) (answeredBy_rankedRun _) (governed_rankedRun _) trace answer hmem).2 ?_
  refine ⟨fun decision _ ↦ ?_, ?_, ?_, ?_⟩
  · change isToken (Text.ofString "clm-latest") = true
    decide
  · rintro decision ⟨state, questions, actionFamily, language, labels, hdecide⟩ e he
    -- the advisory path calibrates nothing
    obtain ⟨scores, -, h⟩ := bind_eq_ok.mp (Prog.answer_of_mem_play hdecide).symm
    cases h
    exact absurd he List.not_mem_nil
  · decide +kernel
  · rintro result ⟨which, state, hresult⟩
    cases Prog.answer_of_mem_play hresult

end Sample

end StandaloneController

end C3RSpec.Runtime
