import C3RSpec.Authority.VerifierFirewall
import C3RSpec.Base.Prog
import C3RSpec.Candidates.Compiler
import C3RSpec.Runtime.Cvoc
import C3RSpec.Runtime.StateCompiler
import C3RSpec.Telemetry.Trace

/-!
# Standalone controller

`c3r/runtime.py:38–67,70–108,137–351`, with the flags of `c3r/feature_flags.py:22–62` and the
records of `c3r/system_one/fast_path.py:49–57` and `c3r/adapters/providers.py:78–83`. The fast
path, the verifiers, the deliberators and the trace sink are host code, so a run is a program
that calls them and may receive any value or any exception. Every exit of `run` is a tail call
of `finish`, so a run first chooses a `Closing` and then finishes with it. What a deliberator
returns is passed through unread, so its type is a parameter.
-/

namespace C3RSpec.Runtime

open Base Telemetry Authority Candidates

/-- `FeatureFlags`. -/
structure FeatureFlags where
  enabledRequested : Bool := false
  systemOneRequested : Bool := false
  deliberativeRequested : Bool := false
  systemOneProvider : Text := "clm"
  deriving DecidableEq

/-- `system_one_enabled`. -/
def FeatureFlags.systemOneEnabled (f : FeatureFlags) : Bool :=
  f.enabledRequested && f.systemOneRequested

/-- `deliberative_enabled`. -/
def FeatureFlags.deliberativeEnabled (f : FeatureFlags) : Bool :=
  f.enabledRequested && f.deliberativeRequested

/-- `TypedQuestion`. -/
structure TypedQuestion where
  id : Text
  options : List Text
  deriving DecidableEq

/-- `FastPathDecision`. -/
structure FastPathDecision where
  answers : Dict Text Text
  probabilities : Dict Text (List PyFloat)
  abstained : Bool
  reasons : List Text
  modelId : Text
  modelRevision : Text
  candidateProbabilities : List PyFloat := []

/-- `ProviderExecutionResult`. -/
structure ProviderExecutionResult (D : Type) where
  deliberation : D
  observedCost : Dict Text PyFloat
  providerId : Text
  modelId : Text

/-- What a deliberator returns, told apart by `isinstance`. -/
inductive Deliberated (D : Type) where
  | provider (result : ProviderExecutionResult D)
  | other (value : D)

/-- The deliberators a run may call: the controller's own and the one that the caller passes, which
may be the same object. Both are true. -/
inductive Deliberator where
  | configured
  | requested
  deriving DecidableEq

/-- A call to host code. -/
inductive HostOp where
  | decide (state : CompiledState) (questions : List TypedQuestion) (actionFamily : Text)
      (language : Text) (candidateOptions : List Text)
  | verifier (id : Text) (candidate : ActionCandidate)
  | deliberate (which : Deliberator) (state : CompiledState)
  | append (trace : DecisionTrace)

/-- What a host call returns. -/
abbrev HostOp.Answer (D : Type) : HostOp → Type
  | .decide _ _ _ _ _ => FastPathDecision
  | .verifier _ _ => VerifierDecision
  | .deliberate _ _ => Deliberated D
  | .append _ => LedgerRecord

/-- A host call returns or raises. -/
abbrev HostOp.Res (D : Type) (o : HostOp) : Type := Except PyError (o.Answer D)

/-- Programs over host calls. -/
abbrev HostProg (D α : Type) : Type := Prog HostOp (HostOp.Res D) α

/-- A host call whose exception is raised. -/
def ask {D : Type} (o : HostOp) : HostProg D (o.Answer D) := Prog.perform o >>= Prog.ofExcept

/-- `RuntimeRequest`. -/
structure RuntimeRequest where
  rawState : RawState
  definitions : List ActionDefinition
  policy : AuthorityPolicy
  estimates : Dict Text ValueEstimate
  runId : Text
  accessLevel : Text := "internal"
  language : Text := "en"
  requestedTextGeneration : Bool := false

/-- `RuntimeOutcome`. -/
structure RuntimeOutcome (D : Type) where
  route : Text
  selectedActionId : Option Text
  authorityResult : Text
  reason : Text
  ledgerRecord : LedgerRecord
  candidateIds : List Text := []
  fastPath : Option FastPathDecision := none
  deliberation : Option D := none
  cvocLowerBound : Option PyFloat := none

/-- `StandaloneController`. Host callables are known by their names: the registered verifiers,
the provider of the fast path and whether a deliberator is configured. -/
structure StandaloneController where
  flags : FeatureFlags
  compiler : StateCompiler := {}
  candidates : CandidateCompiler
  cvoc : RobustCvocController := {}
  verifierIds : Dict Text Unit
  verifierPolicy : VerifierPolicy
  attestationKey : ByteArray
  fastPathProvider : Option Text := none
  hasDeliberator : Bool := false

namespace StandaloneController

/-- The firewall over the registered verifiers. -/
def verifier {D : Type} (c : StandaloneController) :
    VerifierFirewall (Prog HostOp (HostOp.Res D)) where
  verifiers := c.verifierIds.mapEntries fun id _ candidate ↦ ask (.verifier id candidate)
  policy := c.verifierPolicy
  attestationKey := c.attestationKey

/-- The keyword arguments of `finish`. -/
structure Closing (D : Type) where
  route : Text
  reason : Text
  selected : Option ActionCandidate := none
  candidateIds : List Text := []
  lowerBound : Option PyFloat := none
  authorityResult : Text := "not_attempted"
  fast : Option FastPathDecision := none
  deliberation : Option D := none
  systemCost : Option (Dict Text PyFloat) := none
  providerId : Option Text := none

section Finish

variable {D : Type} (request : RuntimeRequest) (stateHash : Text) (closing : Closing D)

/-- The probabilities of a trace. -/
def tracedProbabilities : Option FastPathDecision → Dict Text (List PyFloat)
  | none => ∅
  | some fast =>
    if fast.candidateProbabilities = [] then fast.probabilities
    else fast.probabilities.insert "CANDIDATE_RANK" fast.candidateProbabilities

/-- `provider_id or (fast.model_id if fast is not None else route)`. -/
def tracedProvider : Text :=
  match closing.providerId with
  | none => (closing.fast.map FastPathDecision.modelId).getD closing.route
  | some id => if id = [] then (closing.fast.map FastPathDecision.modelId).getD closing.route else id

/-- The trace that `finish` builds. -/
def finishTrace : DecisionTrace where
  runId := request.runId
  stateHash := stateHash
  accessLevel := request.accessLevel
  modelProvider := tracedProvider closing
  candidateIds := closing.candidateIds
  probabilities := tracedProbabilities closing.fast
  utilityQuantiles := closing.lowerBound.elim ∅ fun q ↦ Dict.ofList [("selected_lower_bound", q)]
  selectedActionId := closing.selected.map ActionCandidate.id
  authorityResult := closing.authorityResult
  systemCost := closing.systemCost.getD ∅
  taskOutcome := Dict.ofList [("status", .text closing.reason)]
  artifactRefs := []

/-- The outcome that `finish` returns. -/
def finishOutcome (record : LedgerRecord) : RuntimeOutcome D where
  route := closing.route
  selectedActionId := closing.selected.map ActionCandidate.id
  authorityResult := closing.authorityResult
  reason := closing.reason
  ledgerRecord := record
  candidateIds := closing.candidateIds
  fastPath := closing.fast
  deliberation := closing.deliberation
  cvocLowerBound := closing.lowerBound

/-- `finish`. -/
def finish : HostProg D (RuntimeOutcome D) := do
  let record ← ask (.append (finishTrace request stateHash closing))
  return finishOutcome closing record

end Finish

/-- `try … except (OSError, RuntimeError, TypeError, ValueError)`: the value, or nothing after
one of the four. -/
def attempt {D α : Type} (p : HostProg D α) : HostProg D (Option α) :=
  tryCatch (p >>= fun a ↦ pure (some a)) fun e ↦ if e.isHostFailure then pure none else throw e

section Run

variable {D : Type} (c : StandaloneController)

/-- `_deliberate_or_stop`. -/
def deliberateOrStop (state : CompiledState) (candidateIds : List Text) (reason : Text)
    (fast : Option FastPathDecision) (deliberator : Option Deliberator := none) :
    HostProg D (Closing D) :=
  match if c.flags.deliberativeEnabled then
      deliberator.or (if c.hasDeliberator then some .configured else none) else none with
  | none => return { route := "deterministic", reason := reason ++ "_NO_PROVIDER", candidateIds, fast }
  | some which => do
    match ← attempt (ask (.deliberate which state)) with
    | none =>
      return { route := "deterministic", reason := "DELIBERATIVE_FAILURE", candidateIds, fast }
    | some (.provider result) =>
      if result.observedCost.values.any fun v ↦ !v.isFinite || PyFloat.lt v (.fin 0) then
        return { route := "deterministic", reason := "DELIBERATIVE_INVALID_COST", candidateIds, fast }
      else
        return { route := "deliberative", reason, candidateIds, fast
                 deliberation := some result.deliberation
                 systemCost := some result.observedCost
                 providerId := some result.providerId }
    | some (.other value) =>
      return { route := "deliberative", reason, candidateIds, fast, deliberation := some value }

/-- The two control questions. -/
def controlQuestions : List TypedQuestion :=
  [⟨"STOP_NOW", ["NO", "YES"]⟩, ⟨"DELIBERATION_REQUIRED", ["NO", "YES"]⟩]

/-- The label of a candidate that crosses the fast-path boundary. -/
def candidateOption (candidate : ActionCandidate) : Text :=
  candidate.id ++ " | " ++ candidate.family.value ++ " | " ++ candidate.riskClass.value

variable [Digest] [FloatText] [FloatRound]

/-- `state_hash`. -/
def stateHash (raw : RawState) : Except PyError Text := do
  let canonical ← dumps false false raw.asdict
  let bytes ← canonical.encodeUtf8
  return Digest.sha256Hex bytes

section Stages

variable (request : RuntimeRequest) (requestedDeliberator : Bool) (state : CompiledState)
  (candidates : List ActionCandidate)

/-- `candidate_ids`. -/
def candidateIds : List Text := candidates.map ActionCandidate.id

/-- The text fallback when nothing has a positive value. -/
def textFallback (fallback : ActionCandidate) (fast : Option FastPathDecision) :
    HostProg D (Closing D) := do
  match ← attempt (c.verifier.verify fallback) with
  | none =>
    return { route := "deterministic", reason := "VERIFIER_FAILURE"
             candidateIds := candidateIds candidates }
  | some verification =>
    if verification.accepted then
      c.deliberateOrStop state (candidateIds candidates) "REQUESTED_TEXT_POLICY_FALLBACK" fast
        (if requestedDeliberator then some .requested else none)
    else
      return { route := "deterministic", reason := "VERIFICATION_REJECTED"
               candidateIds := candidateIds candidates }

/-- `next((candidate for … if DELIBERATE and READ_ONLY), None)`. -/
def fallbackCandidate : Option ActionCandidate :=
  candidates.find? fun candidate ↦
    decide (candidate.family = .deliberate) && decide (candidate.riskClass = .readOnly)

/-- No candidate was selected. -/
def withoutSelection (fast : Option FastPathDecision) : HostProg D (Closing D) :=
  match if request.requestedTextGeneration && requestedDeliberator then
      fallbackCandidate candidates else none with
  | some fallback => c.textFallback requestedDeliberator state candidates fallback fast
  | none =>
    return { route := "deterministic", reason := "NON_POSITIVE_CVOC"
             candidateIds := candidateIds candidates, fast }

/-- A candidate was selected with its lower bound. -/
def withSelection (fast : Option FastPathDecision) (selected : ActionCandidate)
    (lowerBound : PyFloat) : HostProg D (Closing D) := do
  match ← attempt (c.verifier.verify selected) with
  | none =>
    return { route := "deterministic", reason := "VERIFIER_FAILURE"
             candidateIds := candidateIds candidates, fast }
  | some verification =>
    if !verification.accepted then
      return { route := "deterministic", reason := "VERIFICATION_REJECTED"
               candidateIds := candidateIds candidates, fast }
    else if selected.family = .deliberate then
      c.deliberateOrStop state (candidateIds candidates) "CVOC_SELECTED_DELIBERATION" fast
        (if request.requestedTextGeneration && requestedDeliberator then some .requested else none)
    else if selected.riskClass ≠ .readOnly then
      return { route := "deterministic", reason := "EFFECT_EXECUTION_UNAVAILABLE"
               candidateIds := candidateIds candidates, lowerBound := some lowerBound, fast }
    else
      return { route := "recommendation", reason := "VERIFIED_RECOMMENDATION"
               selected := some selected, candidateIds := candidateIds candidates
               lowerBound := some lowerBound, authorityResult := "verified_not_committed", fast }

/-- Selection by value, after System One. -/
def selectAction (fast : Option FastPathDecision) : HostProg D (Closing D) :=
  match (c.cvoc.select candidates request.estimates).selected with
  | none => c.withoutSelection request requestedDeliberator state candidates fast
  | some selected =>
    c.withSelection request requestedDeliberator state candidates fast selected
      (c.cvoc.select candidates request.estimates).lowerBound

/-- What the fast path decided. -/
def afterFastPath (fast : FastPathDecision) : HostProg D (Closing D) :=
  if fast.abstained then
    c.deliberateOrStop state (candidateIds candidates) "SYSTEM_ONE_ABSTAINED" (some fast)
  else if fast.answers.get? "STOP_NOW" = some (Text.ofString "YES") then
    return { route := "system_one", reason := "STOP_NOW", candidateIds := candidateIds candidates
             fast := some fast }
  else if fast.answers.get? "DELIBERATION_REQUIRED" = some (Text.ofString "YES") then
    c.deliberateOrStop state (candidateIds candidates) "DELIBERATION_REQUIRED" (some fast)
  else c.selectAction request requestedDeliberator state candidates (some fast)

/-- System One, when it is enabled. -/
def systemOne : HostProg D (Closing D) :=
  if !c.flags.systemOneEnabled then
    c.selectAction request requestedDeliberator state candidates none
  else
    match c.fastPathProvider with
    | none =>
      return { route := "deterministic", reason := "SYSTEM_ONE_UNAVAILABLE"
               candidateIds := candidateIds candidates }
    | some provider =>
      if provider ≠ c.flags.systemOneProvider then
        return { route := "deterministic", reason := "SYSTEM_ONE_PROVIDER_MISMATCH"
                 candidateIds := candidateIds candidates }
      else do
        match ← attempt (ask (.decide state controlQuestions "CONTROL" request.language
            (candidates.map candidateOption))) with
        | some fast => c.afterFastPath request requestedDeliberator state candidates fast
        | none =>
          if request.requestedTextGeneration then
            c.selectAction request requestedDeliberator state candidates none
          else
            c.deliberateOrStop state (candidateIds candidates) "SYSTEM_ONE_FAILURE" none

/-- `state.budget.get("remaining_usd", 0.0)`. -/
def remainingBudget (state : CompiledState) : PyFloat :=
  (state.budget.get? "remaining_usd").getD (.fin 0)

/-- The definitions whose family the state offers. -/
def availableDefinitions (request : RuntimeRequest) (state : CompiledState) :
    List ActionDefinition :=
  request.definitions.filter fun d ↦ decide (d.family ∈ state.availableActionFamilies)

/-- `self._verifier.available_verifier_ids`; what a deliberator returns plays no part in it. -/
def availableVerifierIds (c : StandaloneController) : List Text :=
  (c.verifier (D := Unit)).availableVerifierIds

/-- `compile_hierarchical` with the arguments of `run`. -/
def compileCandidates (c : StandaloneController) (request : RuntimeRequest)
    (state : CompiledState) : Except PyError CandidateCompilation :=
  c.candidates.compileHierarchical (availableDefinitions request state) request.policy
    { remainingBudget := remainingBudget state, allowedVerifiers := c.availableVerifierIds }

/-- Candidate compilation, for a compiled state. -/
def compileActions : HostProg D (Closing D) :=
  if PyFloat.lt (remainingBudget state) (.fin 0) then
    return { route := "deterministic", reason := "INVALID_BUDGET" }
  else do
    let compiled ← Prog.ofExcept (c.compileCandidates request state)
    if compiled.noSafeAction then
      return { route := "deterministic", reason := "NO_SAFE_ACTION"
               candidateIds := candidateIds compiled.candidates }
    else c.systemOne request requestedDeliberator state compiled.candidates

end Stages

/-- The exits of `run` after the state hash. -/
def chooseClosing (request : RuntimeRequest) (requestedDeliberator : Bool) :
    HostProg D (Closing D) :=
  if !c.flags.enabledRequested then
    return { route := "deterministic", reason := "C3R_DISABLED" }
  else
    match (c.compiler.compile request.rawState).state with
    | none =>
      return { route := "deterministic"
               reason := (c.compiler.compile request.rawState).status.value }
    | some state => c.compileActions request requestedDeliberator state

/-- `StandaloneController.run`. -/
def run (request : RuntimeRequest) (requestedDeliberator : Bool := false) :
    HostProg D (RuntimeOutcome D) :=
  if request.runId = [] then throw (valueError "run_id is required")
  else do
    let hash ← Prog.ofExcept (stateHash request.rawState)
    let closing ← c.chooseClosing request requestedDeliberator
    finish request hash closing

end Run

end StandaloneController

end C3RSpec.Runtime
