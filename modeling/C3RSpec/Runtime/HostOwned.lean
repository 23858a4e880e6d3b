import C3RSpec.Base.Calls
import C3RSpec.Candidates.Origin
import C3RSpec.Runtime.HostFactory

/-!
# Runs of host-owned requests

`c3r/host_factory.py:55–89`, `c3r/catalogs/registry.py` and `c3r/runtime.py:137–351` together.
Every label, candidate and verifier of a run comes from the factory, whatever the caller wrote,
and a run over a registered catalog names no action, whatever the host components answer.
-/

namespace C3RSpec.Runtime

open Base Telemetry Authority Candidates

variable {D : Type}

namespace StandaloneController

/-! ### What the stages call and how they close -/

/-- A call of the stages over these candidates. -/
def Labelled (c : StandaloneController) (request : RuntimeRequest) (state : CompiledState)
    (candidates : List ActionCandidate) : HostOp → Prop
  | .decide st questions actionFamily language options =>
    st = state ∧ questions = controlQuestions ∧ actionFamily = "CONTROL" ∧
      language = request.language ∧ options = candidates.map candidateOption
  | .verifier id candidate => candidate ∈ candidates ∧ id = c.verifierPolicy.select candidate
  | .deliberate _ st => st = state
  | .append _ => False

/-- A closing without an action. -/
structure Unselected (closing : Closing D) : Prop where
  selected : closing.selected = none
  lowerBound : closing.lowerBound = none
  authorityResult : closing.authorityResult = Text.ofString "not_attempted"
  route : closing.route ≠ Text.ofString "recommendation"

/-- The candidates of a closing are those of the run, and no action is selected where none is
valued. -/
structure Closes (request : RuntimeRequest) (candidates : List ActionCandidate)
    (closing : Closing D) : Prop where
  ids : closing.candidateIds = [] ∨ closing.candidateIds = candidateIds candidates
  unvalued : (∀ candidate ∈ candidates, request.estimates.get? candidate.id = none) →
    Unselected closing

section Stages

variable {c : StandaloneController} {request : RuntimeRequest} {state : CompiledState}
  {candidates : List ActionCandidate}

private theorem closes_plain {route reason : Text} {ids : List Text} (fast : Option FastPathDecision)
    (deliberation : Option D) (systemCost : Option (Dict Text PyFloat)) (providerId : Option Text)
    (hroute : route ≠ Text.ofString "recommendation")
    (hids : ids = [] ∨ ids = candidateIds candidates) :
    Closes request candidates
      { route, reason, candidateIds := ids, fast, deliberation, systemCost, providerId } :=
  ⟨hids, fun _ ↦ ⟨rfl, rfl, rfl, hroute⟩⟩

/-- A host call, caught. -/
theorem only_attempt_ask {P : HostOp → Prop} {o : HostOp} (h : P o) :
    Prog.Only P (fun _ ↦ True) (attempt (ask o : HostProg D _)) := by
  refine Prog.Only.tryCatch (Prog.Only.bind (R := fun _ ↦ True) ⟨h, fun r ↦ ?_⟩ fun a _ ↦ trivial) ?_
  · cases r <;> trivial
  · intro e
    split <;> trivial

/-- Deliberation closes without an action. -/
theorem only_deliberateOrStop (reason : Text) (fast : Option FastPathDecision)
    (deliberator : Option Deliberator) :
    Prog.Only (c.Labelled request state candidates) (Closes request candidates)
      (c.deliberateOrStop state (candidateIds candidates) reason fast deliberator :
        HostProg D (Closing D)) := by
  have det : Text.ofString "deterministic" ≠ Text.ofString "recommendation" := by decide
  have del : Text.ofString "deliberative" ≠ Text.ofString "recommendation" := by decide
  unfold deliberateOrStop
  split
  · exact closes_plain fast none none none det (.inr rfl)
  · next which _ =>
    refine (@only_attempt_ask D (c.Labelled request state candidates) (.deliberate which state)
      rfl).bind fun answer _ ↦ ?_
    cases answer with
    | none => exact closes_plain fast none none none det (.inr rfl)
    | some value =>
      cases value with
      | other value => exact closes_plain fast (some value) none none del (.inr rfl)
      | provider result =>
        dsimp only
        split
        · exact closes_plain fast none none none det (.inr rfl)
        · exact closes_plain fast _ _ _ del (.inr rfl)

variable [Digest] [FloatText] [FloatRound]

omit [FloatRound] in
/-- Verification calls the selected verifier, caught. -/
theorem only_attempt_verify {candidate : ActionCandidate} (h : candidate ∈ candidates) :
    Prog.Only (c.Labelled request state candidates) (fun _ ↦ True)
      (attempt (c.verifier.verify candidate : HostProg D VerificationResult)) := by
  refine Prog.Only.tryCatch (Prog.Only.bind (R := fun _ ↦ True) ?_ fun a _ ↦ trivial) ?_
  · unfold VerifierFirewall.verify
    simp only [verifier, Dict.get?_mapEntries]
    cases c.verifierIds.get? (c.verifierPolicy.select candidate) with
    | none => trivial
    | some u =>
      refine Prog.Only.bind (R := fun _ ↦ True) ⟨⟨h, rfl⟩, fun r ↦ ?_⟩ fun decision _ ↦ ?_
      · cases r <;> trivial
      · cases actionFingerprint candidate with
        | error e => trivial
        | ok fingerprint =>
          change Prog.Only _ _ (MonadExcept.ofExcept (signFields c.attestationKey _) >>= _)
          cases signFields c.attestationKey (VerifierFirewall.signedFields _ _ fingerprint _ _ _) <;>
            trivial
  · intro e
    split <;> trivial

/-- Selection closes without an action where nothing is valued. -/
theorem only_selectAction (requestedDeliberator : Bool) (fast : Option FastPathDecision) :
    Prog.Only (c.Labelled request state candidates) (Closes request candidates)
      (c.selectAction request requestedDeliberator state candidates fast :
        HostProg D (Closing D)) := by
  have det : Text.ofString "deterministic" ≠ Text.ofString "recommendation" := by decide
  unfold selectAction
  split
  · unfold withoutSelection
    split
    · next fallback hfallback =>
      have hmem : fallback ∈ candidates := by
        split at hfallback
        · exact List.mem_of_find?_eq_some hfallback
        · cases hfallback
      refine (only_attempt_verify hmem).bind fun answer _ ↦ ?_
      cases answer with
      | none => exact closes_plain none none none none det (.inr rfl)
      | some verification =>
        dsimp only
        split
        · exact only_deliberateOrStop _ _ _
        · exact closes_plain none none none none det (.inr rfl)
    · exact closes_plain fast none none none det (.inr rfl)
  · next selected hselected =>
    obtain ⟨hmem, e, he, -, -⟩ := RobustCvocController.select_eq_some hselected
    refine (only_attempt_verify hmem).bind fun answer _ ↦ ?_
    cases answer with
    | none => exact closes_plain fast none none none det (.inr rfl)
    | some verification =>
      -- what is selected has a value
      have valued : ∀ {closing : Closing D}, closing.candidateIds = candidateIds candidates →
          Closes request candidates closing := fun hids ↦
        ⟨.inr hids, fun hnone ↦ by rw [hnone _ hmem] at he; cases he⟩
      dsimp only
      split
      · exact valued rfl
      · split
        · exact only_deliberateOrStop _ _ _
        · split <;> exact valued rfl

/-- System One selects nothing. -/
theorem only_systemOne (requestedDeliberator : Bool) :
    Prog.Only (c.Labelled request state candidates) (Closes request candidates)
      (c.systemOne request requestedDeliberator state candidates : HostProg D (Closing D)) := by
  have det : Text.ofString "deterministic" ≠ Text.ofString "recommendation" := by decide
  have sys : Text.ofString "system_one" ≠ Text.ofString "recommendation" := by decide
  unfold systemOne
  split
  · exact only_selectAction requestedDeliberator none
  · split
    · exact closes_plain none none none none det (.inr rfl)
    · split
      · exact closes_plain none none none none det (.inr rfl)
      · refine (@only_attempt_ask D (c.Labelled request state candidates) (.decide _ _ _ _ _)
          ⟨rfl, rfl, rfl, rfl, rfl⟩).bind fun answer _ ↦ ?_
        cases answer with
        | none =>
          dsimp only
          split
          · exact only_selectAction requestedDeliberator none
          · exact only_deliberateOrStop _ _ _
        | some fast =>
          change Prog.Only _ _ (c.afterFastPath _ _ _ _ fast)
          unfold afterFastPath
          split
          · exact only_deliberateOrStop _ _ _
          · split
            · exact closes_plain (some fast) none none none sys (.inr rfl)
            · split
              · exact only_deliberateOrStop _ _ _
              · exact only_selectAction requestedDeliberator _

/-- The calls of a run: those of its stages over the compiled candidates, and the trace of a
closing over them. -/
def RunCalls (c : StandaloneController) (request : RuntimeRequest) (o : HostOp) : Prop :=
  (∃ state compilation, (c.compiler.compile request.rawState).state = some state ∧
    c.compileCandidates request state = .ok compilation ∧
    c.Labelled request state compilation.candidates o) ∨
  ∃ trace : DecisionTrace, o = .append trace ∧ trace.accessLevel = request.accessLevel ∧
    (trace.candidateIds = [] ∨ ∃ state compilation,
      (c.compiler.compile request.rawState).state = some state ∧
      c.compileCandidates request state = .ok compilation ∧
      trace.candidateIds = candidateIds compilation.candidates)

/-- Every run, by its calls and its outcome. -/
theorem only_run (c : StandaloneController) (request : RuntimeRequest)
    (requestedDeliberator : Bool) :
    Prog.Only (c.RunCalls request)
      (fun outcome ↦ (∀ state compilation, (c.compiler.compile request.rawState).state = some state →
          c.compileCandidates request state = .ok compilation →
          ∀ candidate ∈ compilation.candidates, request.estimates.get? candidate.id = none) →
        outcome.selectedActionId = none ∧ outcome.cvocLowerBound = none ∧
        outcome.authorityResult = Text.ofString "not_attempted" ∧
        outcome.route ≠ Text.ofString "recommendation")
      (c.run request requestedDeliberator : HostProg D (RuntimeOutcome D)) := by
  have det : Text.ofString "deterministic" ≠ Text.ofString "recommendation" := by decide
  unfold run
  split
  · trivial
  · refine (Prog.only_ofExcept (R := fun _ ↦ True) fun _ _ ↦ trivial).bind fun hash _ ↦ ?_
    refine Prog.Only.bind (R := fun closing : Closing D ↦
      (closing.candidateIds = [] ∧ Unselected closing) ∨ ∃ state compilation,
        (c.compiler.compile request.rawState).state = some state ∧
        c.compileCandidates request state = .ok compilation ∧
        Closes request compilation.candidates closing) ?_ ?_
    · unfold chooseClosing
      have early : ∀ reason : Text, Prog.Only (c.RunCalls request) (fun closing : Closing D ↦
          (closing.candidateIds = [] ∧ Unselected closing) ∨ ∃ state compilation,
            (c.compiler.compile request.rawState).state = some state ∧
            c.compileCandidates request state = .ok compilation ∧
            Closes request compilation.candidates closing)
          (return { route := "deterministic", reason := reason } : HostProg D (Closing D)) :=
        fun reason ↦ .inl ⟨rfl, rfl, rfl, rfl, det⟩
      split
      · exact early _
      · split
        · exact early _
        · next state hstate =>
          unfold compileActions
          split
          · exact early _
          · refine (Prog.only_ofExcept (R := fun compilation ↦
              c.compileCandidates request state = .ok compilation) fun _ h ↦ h).bind
              fun compilation hcompiled ↦ ?_
            split
            · exact .inr ⟨state, compilation, hstate, hcompiled,
                closes_plain none none none none det (.inr rfl)⟩
            · exact (only_systemOne requestedDeliberator).mono
                (fun o ho ↦ .inl ⟨state, compilation, hstate, hcompiled, ho⟩)
                fun closing hc ↦ .inr ⟨state, compilation, hstate, hcompiled, hc⟩
    · intro closing hclosing
      refine Prog.Only.bind (R := fun _ ↦ True) ⟨.inr ⟨_, rfl, rfl, ?_⟩, fun r ↦ ?_⟩ fun record _ ↦ ?_
      · obtain ⟨hids, -⟩ | ⟨state, compilation, hstate, hcompiled, hc⟩ := hclosing
        · exact .inl hids
        · exact hc.ids.imp_right fun hids ↦ ⟨state, compilation, hstate, hcompiled, hids⟩
      · cases r <;> trivial
      · intro hnone
        have hun : Unselected closing := by
          obtain ⟨-, hun⟩ | ⟨state, compilation, hstate, hcompiled, hc⟩ := hclosing
          · exact hun
          · exact hc.unvalued (hnone state compilation hstate hcompiled)
        exact ⟨by rw [finishOutcome, hun.selected]; rfl, hun.lowerBound, hun.authorityResult,
          hun.route⟩

end Stages

end StandaloneController

/-! ### Requests of a factory -/

namespace ReadOnlyRequestFactory

variable {factory : ReadOnlyRequestFactory} {runId : Text} {payload : Dict Text Json}
  {request : RuntimeRequest}

/-- A built request: the caller's part is task text. -/
theorem build_eq_ok (h : factory.build runId payload = .ok request) :
    ∃ goal currentSubgoal openQuestions estimates,
      boundedText "goal" ((payload.get? "goal").getD .null) = .ok goal ∧
      boundedText "current_subgoal" ((payload.get? "current_subgoal").getD .null) =
        .ok currentSubgoal ∧
      factory.estimateSource (factory.rawState goal currentSubgoal openQuestions) =
        .ok (some estimates) ∧
      request = { rawState := factory.rawState goal currentSubgoal openQuestions
                  definitions := factory.definitions
                  policy := factory.policy
                  estimates
                  runId } := by
  unfold build at h
  obtain ⟨goal, hgoal, h⟩ := bind_eq_ok.mp h
  obtain ⟨currentSubgoal, hsubgoal, h⟩ := bind_eq_ok.mp h
  obtain ⟨openQuestions, -, h⟩ := bind_eq_ok.mp h
  obtain ⟨source, hsource, h⟩ := bind_eq_ok.mp h
  obtain ⟨estimates, hestimates, h⟩ := bind_eq_ok.mp h
  cases source with
  | none => cases hestimates
  | some e =>
    cases hestimates
    exact ⟨goal, currentSubgoal, openQuestions, estimates, hgoal, hsubgoal, hsource,
      (Except.ok.inj h).symm⟩

variable (factory) in
/-- The candidates of every request of the factory. -/
def hostCandidates (c : StandaloneController) : List ActionCandidate :=
  ((c.candidates.compileHierarchical
    (factory.definitions.filter fun d ↦ decide (d.family ∈ factory.families)) factory.policy
    { remainingBudget := factory.remainingUsd
      allowedVerifiers := c.availableVerifierIds }).toOption.map
        CandidateCompilation.candidates).getD []

variable (factory) in
/-- A state in which the caller owns three texts. -/
def Owns (state : CompiledState) : Prop :=
  ∃ goal currentSubgoal openQuestions,
    state = StateCompiler.compiledState (factory.rawState goal currentSubgoal openQuestions)

/-- Whatever a built request compiles to is the factory's. -/
theorem owned_of_compiled (h : factory.build runId payload = .ok request) {generation : Bool}
    {c : StandaloneController} {state : CompiledState} {compilation : CandidateCompilation}
    (hstate : (c.compiler.compile request.rawState).state = some state)
    (hcompiled : c.compileCandidates { request with requestedTextGeneration := generation } state =
      .ok compilation) :
    factory.Owns state ∧ compilation.candidates = factory.hostCandidates c ∧
      ∀ candidate ∈ compilation.candidates, candidate.riskClass = .readOnly := by
  obtain ⟨goal, currentSubgoal, openQuestions, estimates, -, -, -, rfl⟩ := build_eq_ok h
  have hcompiledState := StateCompiler.compile_eq_some hstate
  subst hcompiledState
  refine ⟨⟨goal, currentSubgoal, openQuestions, rfl⟩, ?_, fun candidate hc ↦ ?_⟩
  · change c.candidates.compileHierarchical (factory.definitions.filter fun d ↦
      decide (d.family ∈ factory.families)) factory.policy
      { remainingBudget := factory.remainingUsd, allowedVerifiers := c.availableVerifierIds } =
        .ok compilation at hcompiled
    rw [hostCandidates, hcompiled]
    rfl
  · obtain ⟨d, hd, e, -, hexpand⟩ := exists_of_mem_candidates hcompiled hc
    obtain ⟨v, -, placement, -, verifier, -, rfl⟩ := mem_expandAll.mp hexpand
    have hdefinition := List.mem_filter.mp (List.mem_filter.mp hd).1
    exact factory.readOnly d hdefinition.1

/-- A host call whose labels are the factory's. -/
def HostLabels (factory : ReadOnlyRequestFactory) (c : StandaloneController) : HostOp → Prop
  | .decide state questions actionFamily language options =>
    factory.Owns state ∧ questions = StandaloneController.controlQuestions ∧
      actionFamily = "CONTROL" ∧ language = "en" ∧
      options = (factory.hostCandidates c).map StandaloneController.candidateOption
  | .verifier id candidate =>
    candidate ∈ factory.hostCandidates c ∧ candidate.riskClass = .readOnly ∧
      id = c.verifierPolicy.select candidate
  | .deliberate _ state => factory.Owns state
  | .append trace =>
    trace.accessLevel = "internal" ∧ (trace.candidateIds = [] ∨
      trace.candidateIds = StandaloneController.candidateIds (factory.hostCandidates c))

variable [Digest] [FloatText] [FloatRound]

/-- Whatever the caller wrote and the host answers, a run of a built request sends System One the
labels of the factory's candidates, shows verifiers read-only candidates of the factory alone,
hands deliberators a state in which the caller owns the goal, the subgoal and the open questions,
and records the ids of the factory's candidates. -/
theorem run_labels_hostOwned (factory : ReadOnlyRequestFactory) {runId : Text}
    {payload : Dict Text Json} {request : RuntimeRequest}
    (h : factory.build runId payload = .ok request) (c : StandaloneController)
    (generation requestedDeliberator : Bool) :
    Prog.All (fun es _ ↦ ∀ e ∈ es, factory.HostLabels c e.op)
      (c.run { request with requestedTextGeneration := generation } requestedDeliberator :
        HostProg D (RuntimeOutcome D)) := by
  obtain ⟨goal, currentSubgoal, openQuestions, estimates, -, -, -, hrequest⟩ := build_eq_ok h
  have hlanguage : request.language = Text.ofString "en" := by rw [hrequest]
  have haccess : request.accessLevel = Text.ofString "internal" := by rw [hrequest]
  refine (StandaloneController.only_run c _ requestedDeliberator).all.mono ?_
  rintro es x ⟨hcalls, -⟩ e he
  obtain ⟨state, compilation, hstate, hcompiled, hlabelled⟩ | ⟨trace, heq, hlevel, hids⟩ := hcalls e he
  · obtain ⟨howns, hcandidates, hreadOnly⟩ := owned_of_compiled h hstate hcompiled
    rw [hcandidates] at hlabelled hreadOnly
    cases hop : e.op with
    | decide st questions actionFamily language options =>
      rw [hop] at hlabelled
      obtain ⟨rfl, hquestions, hfamily, hsame, hoptions⟩ := hlabelled
      exact ⟨howns, hquestions, hfamily, hsame.trans hlanguage, hoptions⟩
    | verifier id candidate =>
      rw [hop] at hlabelled
      exact ⟨hlabelled.1, hreadOnly candidate hlabelled.1, hlabelled.2⟩
    | deliberate which st =>
      rw [hop] at hlabelled
      change st = state at hlabelled
      subst hlabelled
      exact howns
    | append trace =>
      rw [hop] at hlabelled
      exact hlabelled.elim
  · rw [heq]
    refine ⟨hlevel.trans haccess, hids.imp_right ?_⟩
    rintro ⟨state, compilation, hstate, hcompiled, hids⟩
    rw [hids, (owned_of_compiled h hstate hcompiled).2.1]

end ReadOnlyRequestFactory

/-! ### Requests of a registry -/

namespace CatalogRegistry

/-- What the factory of a catalog holds: no estimates and no budget. -/
theorem factory_eq_ok {catalog : Catalog} {factory : ReadOnlyRequestFactory}
    (h : catalog.factory = .ok factory) :
    factory.definitions = catalog.definitions ∧ factory.policy = catalog.policy ∧
      (∀ raw, factory.estimateSource raw = .ok (some ∅)) ∧ factory.remainingUsd = .fin 0 ∧
      factory.modelInventory = ["c3r-system-one", "deepseek"] ∧
      factory.dataBoundary = Text.ofString "local" := by
  unfold Catalog.factory at h
  split at h
  · cases h
  · split at h
    · cases h
    · cases h
      exact ⟨rfl, rfl, fun _ ↦ rfl, rfl, rfl, rfl⟩

/-- A registered factory is that of a catalog. -/
theorem exists_of_registered {catalogs : List Catalog} {registry : CatalogRegistry}
    (hnew : new catalogs = .ok registry) {name : Text} {factory : ReadOnlyRequestFactory}
    (hfactory : registry.factories.get? name = some factory) :
    ∃ catalog ∈ catalogs, catalog.name = name ∧ catalog.factory = .ok factory := by
  obtain ⟨factories, hfactories, h⟩ := bind_eq_ok.mp hnew
  cases h
  rw [Dict.get?_ofList] at hfactory
  obtain ⟨entry, hentry, rfl⟩ := Option.map_eq_some_iff.mp hfactory
  have hname := List.find?_some hentry
  have hmem := List.mem_reverse.mp (List.mem_of_find?_eq_some hentry)
  obtain ⟨catalog, hcatalog, hcreated⟩ := exists_partner (mapM_eq_ok_iff.mp hfactories).flip hmem
  obtain ⟨created, hmade, hpair⟩ := bind_eq_ok.mp hcreated
  cases hpair
  exact ⟨catalog, hcatalog, by simpa using hname, hmade⟩

variable [FloatText] [JsonLimits]

/-- A request of the registry is one of a registered factory. -/
theorem exists_of_build {registry : CatalogRegistry} {runId : Text} {payload : Dict Text Json}
    {request : RuntimeRequest} (h : registry.build runId payload = .ok request) :
    ∃ name factory task, catalogName payload = .ok name ∧
      registry.factories.get? name = some factory ∧ factory.build runId task = .ok request := by
  unfold build at h
  split at h
  · cases h
  · obtain ⟨name, hname, h⟩ := bind_eq_ok.mp h
    split at h
    · cases h
    · next factory hfactory =>
      obtain ⟨-, -, h⟩ := bind_eq_ok.mp h
      obtain ⟨state, -, h⟩ := bind_eq_ok.mp h
      exact ⟨name, factory, _, hname, hfactory, h⟩

variable [Digest] [FloatRound]

/-- Whatever the caller wrote and whatever System One, the verifiers, the deliberators and the
trace sink answer, a run over a registered catalog recommends no action: it names none, claims no
value and no authority, and its trace says the same. -/
theorem run_recommends_nothing {catalogs : List Catalog} {registry : CatalogRegistry}
    (hnew : new catalogs = .ok registry) {runId : Text} {payload : Dict Text Json}
    {request : RuntimeRequest} (hbuild : registry.build runId payload = .ok request)
    (c : StandaloneController) (generation requestedDeliberator : Bool) :
    Prog.All (fun es x ↦
        (∀ outcome, x = .ok outcome → outcome.selectedActionId = none ∧
          outcome.cvocLowerBound = none ∧
          outcome.authorityResult = Text.ofString "not_attempted" ∧
          outcome.route ≠ Text.ofString "recommendation") ∧
        ∀ trace answer, ⟨.append trace, answer⟩ ∈ es → trace.selectedActionId = none)
      (c.run { request with requestedTextGeneration := generation } requestedDeliberator :
        HostProg D (RuntimeOutcome D)) := by
  obtain ⟨name, factory, task, -, hfactory, htask⟩ := exists_of_build hbuild
  obtain ⟨catalog, -, -, hmade⟩ := exists_of_registered hnew hfactory
  obtain ⟨goal, currentSubgoal, openQuestions, estimates, -, -, hsource, hrequest⟩ :=
    ReadOnlyRequestFactory.build_eq_ok htask
  have hempty : ∀ id, request.estimates.get? id = none := by
    rw [(factory_eq_ok hmade).2.2.1] at hsource
    cases hsource
    rw [hrequest]
    exact fun id ↦ Dict.get?_empty id
  refine ((StandaloneController.only_run c _ requestedDeliberator).all.and
    (StandaloneController.all_run c _ requestedDeliberator)).mono ?_
  rintro es x ⟨⟨-, houtcome⟩, hclosed⟩
  refine ⟨fun outcome hx ↦ houtcome outcome hx fun _ _ _ _ candidate _ ↦ hempty candidate.id, ?_⟩
  intro trace answer hmem
  obtain ⟨hsilent, -⟩ | ⟨hash, closing, answer', pre, candidates, fast, hc, -⟩ := hclosed
  · exact absurd (List.mem_filter.mpr ⟨hmem, rfl⟩) (by rw [hsilent]; exact List.not_mem_nil)
  · rw [hc.events] at hmem
    obtain hmem | hmem := List.mem_append.mp hmem
    · exact absurd (List.mem_filter.mpr ⟨hmem, rfl⟩) (by rw [hc.silent]; exact List.not_mem_nil)
    · -- a selected action would have an estimate
      cases List.mem_singleton.mp hmem
      cases hselected : closing.selected with
      | none =>
        change closing.selected.map ActionCandidate.id = none
        rw [hselected]
        rfl
      | some candidate =>
        obtain ⟨-, hauthorized⟩ := hc.exit.selected candidate hselected
        obtain ⟨e, he, -⟩ := hauthorized.valued
        rw [show request.estimates.get? candidate.id = none from hempty _] at he
        cases he

end CatalogRegistry

section Sample

attribute [local instance] Digest.transparent FloatText.fraction FloatRound.exact JsonLimits.unreached

open StandaloneController

/-- A task for the default catalog. -/
def taskPayload : Dict Text Json := Dict.ofList
  [("goal", .str (Text.ofString "Summarise the report")),
    ("state", .obj [(Text.ofString "pages", .int 3)])]

/-- An enabled controller with the verifier of the catalogs. -/
def catalogController : StandaloneController :=
  { lookupController with
    verifierIds := Dict.ofList [("recommendation", ())]
    verifierPolicy := { defaultVerifier := "recommendation" } }

/-- What a run of the task over the default catalog comes to. -/
def taskOutcome : Option (Text × Nat) := do
  let registry ← (CatalogRegistry.new [generalCatalog]).toOption
  let request ← (registry.build "run-1" taskPayload).toOption
  let outcome ← (Prog.play acceptingHost (catalogController.run request)).2.toOption
  return (outcome.reason, outcome.candidateIds.length)

-- Nine candidates are compiled and none is valued.
example : taskOutcome = some (Text.ofString "NON_POSITIVE_CVOC", 9) := by decide +kernel

private theorem exists_taskRequest : ∃ registry request,
    CatalogRegistry.new [generalCatalog] = .ok registry ∧
      registry.build "run-1" taskPayload = .ok request := by
  have hsome : ((CatalogRegistry.new [generalCatalog]).toOption.bind fun registry ↦
      (registry.build "run-1" taskPayload).toOption).isSome = true := by decide +kernel
  obtain ⟨request, hrequest⟩ := Option.isSome_iff_exists.mp hsome
  obtain ⟨registry, hregistry, hrequest⟩ := Option.bind_eq_some_iff.mp hrequest
  exact ⟨registry, request, toOption_eq_some.mp hregistry, toOption_eq_some.mp hrequest⟩

/-- The task is carried out without a recommendation. -/
theorem run_recommends_nothing_task : ∃ registry request outcome,
    CatalogRegistry.new [generalCatalog] = .ok registry ∧
      registry.build "run-1" taskPayload = .ok request ∧
      (Prog.play acceptingHost (catalogController.run
        { request with requestedTextGeneration := false })).2 = .ok outcome ∧
      outcome.selectedActionId = none := by
  obtain ⟨registry, request, hregistry, hrequest⟩ := exists_taskRequest
  have hall := CatalogRegistry.run_recommends_nothing (D := Unit) hregistry hrequest
    catalogController false false
  have hplay := hall.of_finishes (Prog.finishes_play acceptingHost _)
  cases hx : (Prog.play acceptingHost (catalogController.run
      { request with requestedTextGeneration := false })).2 with
  | ok outcome =>
    exact ⟨registry, request, outcome, hregistry, hrequest, hx, (hplay.1 outcome hx).1⟩
  | error e =>
    -- the run of this task returns
    have hsome : ((CatalogRegistry.new [generalCatalog]).toOption.bind fun registry ↦
        (registry.build "run-1" taskPayload).toOption.map fun request ↦
          (Prog.play acceptingHost (catalogController.run
            { request with requestedTextGeneration := false })).2.toOption.isSome) = some true := by
      decide +kernel
    rw [hregistry, Except.toOption, Option.bind_some, hrequest, Except.toOption, Option.map_some,
      hx] at hsome
    cases hsome

/-- Every label of the task is the factory's. -/
theorem run_labels_hostOwned_task : ∃ (factory : ReadOnlyRequestFactory) (request : RuntimeRequest),
    (factory.hostCandidates catalogController).length = 9 ∧
      ∀ e ∈ (Prog.play acceptingHost (catalogController.run
        { request with requestedTextGeneration := false })).1,
        factory.HostLabels catalogController e.op := by
  obtain ⟨registry, request, hregistry, hrequest⟩ := exists_taskRequest
  obtain ⟨name, factory, task, -, hfactory, htask⟩ := CatalogRegistry.exists_of_build hrequest
  obtain ⟨catalog, hcatalog, -, hmade⟩ := CatalogRegistry.exists_of_registered hregistry hfactory
  rw [List.mem_singleton.mp hcatalog] at hmade
  have hlength : (generalCatalog.factory.toOption.map fun factory ↦
      (factory.hostCandidates catalogController).length) = some 9 := by decide +kernel
  rw [hmade, Except.toOption, Option.map_some, Option.some.injEq] at hlength
  have hall := ReadOnlyRequestFactory.run_labels_hostOwned (D := Unit) factory htask
    catalogController false false
  exact ⟨factory, request, hlength, hall.of_finishes (Prog.finishes_play acceptingHost _)⟩

end Sample

end C3RSpec.Runtime
