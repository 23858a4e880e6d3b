import C3RSpec.Base.JsonAccess
import C3RSpec.Runtime.HostCalls

/-!
# Host-owned requests

`c3r/host_factory.py:15–89` and `c3r/catalogs/`. A caller supplies task text and the name of a
catalog. Definitions, policy, budget and estimates come from the host; the registered catalogs have
no estimates, so no run over them recommends an action, and the action labels that leave the
controller do not depend on the caller's text.
-/

namespace C3RSpec.Runtime

open Base Telemetry Authority Candidates

/-! ### Requests from task text -/

/-- What a request needs beside task text. The constructor of the source checks the fields below
the data. -/
structure ReadOnlyRequestFactory where
  definitions : List ActionDefinition
  policy : AuthorityPolicy
  estimateSource : RawState → Except PyError (Option (Dict Text ValueEstimate))
  remainingUsd : PyFloat
  modelInventory : List Text := []
  dataBoundary : Text := "local"
  nonempty : definitions ≠ []
  readOnly : ∀ d ∈ definitions, d.riskClass = .readOnly
  policyReadOnly : ∀ risk, risk ∈ policy.allowedRisks ↔ risk = .readOnly
  budgetFinite : remainingUsd.isFinite = true
  budgetNotNegative : PyFloat.lt remainingUsd (.fin 0) = false
  boundaryExplicit : dataBoundary ∈ (["local", "approved_remote", "public"] : List Text)

/-- `_text`. -/
def boundedText (name : String) : Json → Except PyError Text
  | .str t =>
    if isBlankText t || 4096 < t.length then
      .error (valueError (name ++ " must be non-empty bounded text"))
    else .ok t
  | _ => .error (valueError (name ++ " must be non-empty bounded text"))

/-- The open questions of a payload. -/
def boundedQuestions : Json → Except PyError (List Text)
  | .arr xs =>
    if 64 < xs.length then .error (valueError "open_questions must be a bounded array")
    else xs.mapM (boundedText "open_question")
  | _ => .error (valueError "open_questions must be a bounded array")

/-- `_host_estimates`. -/
def hostEstimates : Option (Dict Text ValueEstimate) → Except PyError (Dict Text ValueEstimate)
  | some estimates => .ok estimates
  | none => .error (valueError "host estimate source returned an invalid mapping")

namespace ReadOnlyRequestFactory

variable (factory : ReadOnlyRequestFactory)

/-- `tuple(sorted(policy.allowed_families, key=lambda family: family.value))`. -/
def families : List ActionFamily := sortedFamilies factory.policy.allowedFamilies.dedup

/-- The raw state of a task. -/
def rawState (goal currentSubgoal : Text) (openQuestions : List Text) : RawState where
  goal
  currentSubgoal
  openQuestions
  availableActionFamilies := factory.families
  modelInventory := factory.modelInventory
  budget := Dict.ofList [("remaining_usd", factory.remainingUsd)]
  dataBoundary := factory.dataBoundary

/-- `build`; the run id is fresh. -/
def build (runId : Text) (payload : Dict Text Json) : Except PyError RuntimeRequest := do
  let goal ← boundedText "goal" ((payload.get? "goal").getD .null)
  let currentSubgoal ← boundedText "current_subgoal" ((payload.get? "current_subgoal").getD .null)
  let openQuestions ← boundedQuestions ((payload.get? "open_questions").getD (.arr []))
  let raw := factory.rawState goal currentSubgoal openQuestions
  let source ← factory.estimateSource raw
  let estimates ← hostEstimates source
  return { rawState := raw, definitions := factory.definitions, policy := factory.policy
           estimates, runId }

end ReadOnlyRequestFactory

/-! ### Catalogs -/

/-- `Catalog`. -/
structure Catalog where
  name : Text
  definitions : List ActionDefinition
  policy : AuthorityPolicy

/-- The operations of the shipped catalogs. -/
def catalogOperations : List (Text × ActionFamily) :=
  [("STOP", .stop), ("WAIT", .stop), ("VERIFY", .verify), ("RETRIEVE", .retrieval),
    ("SYSTEM_ONE", .localModel), ("DELIBERATE", .deliberate), ("CALL_LOCAL_MODEL", .localModel),
    ("CALL_FRONTIER_MODEL", .frontierModel), ("ASK_USER", .askUser)]

/-- The definition of an operation. -/
def catalogDefinition (operation : Text × ActionFamily) : ActionDefinition where
  id := operation.1
  family := operation.2
  subgroup := "compute"
  operation := operation.1
  riskClass := .readOnly
  argumentVariants := [[]]
  placements := ["local"]
  verifierIds := ["recommendation"]
  optimisticUtility := .fin 0
  estimatedCost := .fin 0

/-- The policy of the shipped catalogs. -/
def catalogPolicy : AuthorityPolicy where
  allowedFamilies := catalogOperations.map Prod.snd
  allowedRisks := [.readOnly]
  allowedDataBoundaries := ["local"]

/-- `general_catalog`. -/
def generalCatalog (name : Text := "agent-v1") : Catalog :=
  ⟨name, catalogOperations.map catalogDefinition, catalogPolicy⟩

/-- `browser_catalog`. -/
def browserCatalog : Catalog := generalCatalog "browser-v1"

/-- `tool_catalog`. -/
def toolCatalog : Catalog := generalCatalog "tool-routing-v1"

/-- The factory of a catalog, if its definitions and its policy are read-only. There are no
estimates and there is no budget. -/
def Catalog.factory (catalog : Catalog) : Except PyError ReadOnlyRequestFactory :=
  if hdefinitions : catalog.definitions = [] ∨ ∃ d ∈ catalog.definitions, d.riskClass ≠ .readOnly then
    .error (valueError "HTTP catalog must contain read-only definitions only")
  else if hpolicy : (∃ risk ∈ catalog.policy.allowedRisks, risk ≠ .readOnly) ∨
      RiskClass.readOnly ∉ catalog.policy.allowedRisks then
    .error (valueError "HTTP policy must permit read-only risk only")
  else .ok
    { definitions := catalog.definitions
      policy := catalog.policy
      estimateSource := fun _ ↦ .ok (some ∅)
      remainingUsd := .fin 0
      modelInventory := ["c3r-system-one", "deepseek"]
      dataBoundary := "local"
      nonempty := fun h ↦ hdefinitions (.inl h)
      readOnly := fun d hd ↦ by_contra fun h ↦ hdefinitions (.inr ⟨d, hd, h⟩)
      policyReadOnly := fun risk ↦
        ⟨fun hr ↦ by_contra fun h ↦ hpolicy (.inl ⟨risk, hr, h⟩), fun hr ↦ by
          rw [hr]
          exact by_contra fun h ↦ hpolicy (.inr h)⟩
      budgetFinite := rfl
      budgetNotNegative := by decide +kernel
      boundaryExplicit := List.mem_cons_self }

/-- `CatalogRegistry`: the factories under the names of their catalogs. -/
structure CatalogRegistry where
  factories : Dict Text ReadOnlyRequestFactory

namespace CatalogRegistry

/-- The constructor; a later catalog replaces one of the same name. -/
def new (catalogs : List Catalog) : Except PyError CatalogRegistry := do
  let factories ← catalogs.mapM fun catalog ↦ do
    let factory ← catalog.factory
    return (catalog.name, factory)
  return ⟨Dict.ofList factories⟩

/-- The fields of a payload. -/
def payloadFields : List Text :=
  ["goal", "state", "current_subgoal", "open_questions", "catalog", "application_id"]

/-- The name of the catalog. -/
def catalogName (payload : Dict Text Json) : Except PyError Text :=
  match (payload.get? "catalog").getD (.str (Text.ofString "agent-v1")) with
  | .str name => .ok name
  | _ => .error (valueError "unregistered catalog")

/-- The application identifier is absent, or a short text. -/
def checkApplication : Json → Except PyError Unit
  | .null => .ok ()
  | .str t => if 128 < t.length then .error (valueError "invalid application identifier") else .ok ()
  | _ => .error (valueError "invalid application identifier")

/-- `payload.get("state", payload.get("current_subgoal", payload.get("goal")))`. -/
def stateMember (payload : Dict Text Json) : Json :=
  (payload.get? "state").getD ((payload.get? "current_subgoal").getD ((payload.get? "goal").getD .null))

section Build

variable [FloatText] [JsonLimits]

/-- An object becomes its JSON text. -/
def stateJson : Json → Except PyError Json
  | .obj es =>
    match JsonLimits.writing (.obj es) with
    | some e => .error e
    | none =>
      if (Json.obj es).allFinite then .ok (.str ((Json.obj es).renderSpaced false))
      else .error (valueError "Out of range float values are not JSON compliant")
  | state => .ok state

/-- `build`. -/
def build (registry : CatalogRegistry) (runId : Text) (payload : Dict Text Json) :
    Except PyError RuntimeRequest := do
  if payload.keys.any fun key ↦ decide (key ∉ payloadFields) then
    throw (valueError "caller authority or unsupported fields rejected")
  let name ← catalogName payload
  match registry.factories.get? name with
  | none => throw (valueError "unregistered catalog")
  | some factory =>
    checkApplication ((payload.get? "application_id").getD .null)
    let state ← stateJson (stateMember payload)
    factory.build runId (Dict.ofList
      [("goal", (payload.get? "goal").getD .null), ("current_subgoal", state),
        ("open_questions", (payload.get? "open_questions").getD (.arr []))])

end Build

end CatalogRegistry

end C3RSpec.Runtime
