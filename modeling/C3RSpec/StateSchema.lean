import C3RSpec.Base.Json

/-!
# Control-path schemas

`c3r/state_schema.py:9–182`: runtime states, families, risk classes, candidates, action
definitions, authority policy and value estimates. A string enumeration is an inductive type
with its `value`.
-/

namespace C3RSpec

open Base

/-- `ActionFamily`. -/
inductive ActionFamily where
  | directTypedAction
  | tool
  | retrieval
  | localModel
  | frontierModel
  | verify
  | deliberate
  | askUser
  | stop
  deriving DecidableEq, Repr

/-- The text of a family. -/
def ActionFamily.value : ActionFamily → Text
  | .directTypedAction => "DIRECT_TYPED_ACTION"
  | .tool => "TOOL"
  | .retrieval => "RETRIEVAL"
  | .localModel => "LOCAL_MODEL"
  | .frontierModel => "FRONTIER_MODEL"
  | .verify => "VERIFY"
  | .deliberate => "DELIBERATE"
  | .askUser => "ASK_USER"
  | .stop => "STOP"

/-- `RiskClass`. -/
inductive RiskClass where
  | readOnly
  | lowReversible
  | externalWrite
  | highConsequence
  | destructive
  | approvalRequired
  deriving DecidableEq, Repr

/-- The text of a risk class. -/
def RiskClass.value : RiskClass → Text
  | .readOnly => "READ_ONLY"
  | .lowReversible => "LOW_REVERSIBLE"
  | .externalWrite => "EXTERNAL_WRITE"
  | .highConsequence => "HIGH_CONSEQUENCE"
  | .destructive => "DESTRUCTIVE"
  | .approvalRequired => "APPROVAL_REQUIRED"

/-- `CompilationStatus`. -/
inductive CompilationStatus where
  | compiled
  | stateUnsafeToCompress
  deriving DecidableEq, Repr

/-- The text of a status. -/
def CompilationStatus.value : CompilationStatus → Text
  | .compiled => "COMPILED"
  | .stateUnsafeToCompress => "STATE_UNSAFE_TO_COMPRESS"

/-- A value of type `str | float | bool`. -/
inductive Scalar where
  | text (t : Text)
  | float (x : PyFloat)
  | bool (b : Bool)
  deriving DecidableEq

/-- The JSON value of a scalar. -/
def Scalar.toJson : Scalar → Json
  | .text t => .str t
  | .float x => .float x
  | .bool b => .bool b

/-- `Provenance`. -/
structure Provenance where
  source : Text
  observedAt : Text
  digest : Option Text := none
  deriving DecidableEq

/-- `asdict` of a provenance entry. -/
def Provenance.asdict (p : Provenance) : Json :=
  .obj [
    ("source", .str p.source),
    ("observed_at", .str p.observedAt),
    ("digest", p.digest.elim .null .str)]

/-- `RawState`. -/
structure RawState where
  goal : Text
  currentSubgoal : Text
  verifiedFacts : List Text := []
  openQuestions : List Text := []
  recentFailures : List Text := []
  availableActionFamilies : List ActionFamily := []
  toolSummary : List Text := []
  modelInventory : List Text := []
  budget : Dict Text PyFloat := ∅
  runtimeSummary : Dict Text Scalar := ∅
  risk : Dict Text Scalar := ∅
  reversibility : Text := "unknown"
  approvalRequired : Bool := false
  dataBoundary : Text := "unknown"
  rollbackState : Option Text := none
  ambiguity : PyFloat := .fin 0
  consequence : Text := "low"
  provenance : Dict Text Provenance := ∅

/-- A dictionary as a JSON object. -/
def dictJson {V : Type} (f : V → Json) (d : Dict Text V) : Json :=
  .obj (d.entries.map fun e ↦ (e.1, f e.2))

/-- A sequence of texts as a JSON array. -/
def textsJson (ts : List Text) : Json := .arr (ts.map .str)

/-- A dictionary has distinct keys. -/
theorem dictJson_wf {V : Type} {f : V → Json} (hf : ∀ v, (f v).WF) (d : Dict Text V) :
    (dictJson f d).WF := by
  refine ⟨?_, ?_⟩
  · rw [List.map_map]
    exact d.nodup
  · rw [membersWF_iff]
    intro e he
    obtain ⟨x, -, rfl⟩ := List.mem_map.mp he
    exact hf x.2

/-- A dictionary holds the ints of its values. -/
theorem dictJson_allShort {V : Type} {f : V → Json} (hf : ∀ v, (f v).allShort = true)
    (d : Dict Text V) : (dictJson f d).allShort = true := by
  refine (membersShort_iff _).mpr fun e he ↦ ?_
  obtain ⟨x, -, rfl⟩ := List.mem_map.mp he
  exact hf x.2

/-- Texts hold no ints. -/
theorem textsJson_allShort (ts : List Text) : (textsJson ts).allShort = true := by
  refine (elementsShort_iff _).mpr fun x hx ↦ ?_
  obtain ⟨t, -, rfl⟩ := List.mem_map.mp hx
  rfl

/-- Texts have no keys. -/
theorem textsJson_wf (ts : List Text) : (textsJson ts).WF := by
  refine (elementsWF_iff _).mpr fun x hx ↦ ?_
  obtain ⟨t, -, rfl⟩ := List.mem_map.mp hx
  exact trivial

/-- `asdict` of a raw state. -/
def RawState.asdict (s : RawState) : Json :=
  .obj [
    ("goal", .str s.goal),
    ("current_subgoal", .str s.currentSubgoal),
    ("verified_facts", textsJson s.verifiedFacts),
    ("open_questions", textsJson s.openQuestions),
    ("recent_failures", textsJson s.recentFailures),
    ("available_action_families", textsJson (s.availableActionFamilies.map ActionFamily.value)),
    ("tool_summary", textsJson s.toolSummary),
    ("model_inventory", textsJson s.modelInventory),
    ("budget", dictJson .float s.budget),
    ("runtime_summary", dictJson Scalar.toJson s.runtimeSummary),
    ("risk", dictJson Scalar.toJson s.risk),
    ("reversibility", .str s.reversibility),
    ("approval_required", .bool s.approvalRequired),
    ("data_boundary", .str s.dataBoundary),
    ("rollback_state", s.rollbackState.elim .null .str),
    ("ambiguity", .float s.ambiguity),
    ("consequence", .str s.consequence),
    ("provenance", dictJson Provenance.asdict s.provenance)]

/-- `CompiledState`. -/
structure CompiledState where
  goal : Text
  currentSubgoal : Text
  verifiedFacts : List Text
  openQuestions : List Text
  recentFailures : List Text
  availableActionFamilies : List ActionFamily
  toolSummary : List Text
  modelInventory : List Text
  budget : Dict Text PyFloat
  runtimeSummary : Dict Text Scalar
  risk : Dict Text Scalar
  reversibility : Text
  approvalRequired : Bool
  dataBoundary : Text
  rollbackState : Option Text
  ambiguity : PyFloat
  stateCompilationConfidence : PyFloat
  provenance : Dict Text Provenance
  schemaVersion : Text := "c3r.state.v1"

/-- `CompilationResult`. -/
structure CompilationResult where
  status : CompilationStatus
  state : Option CompiledState
  reasons : List Text := []

/-- `ActionCandidate`. -/
structure ActionCandidate where
  id : Text
  family : ActionFamily
  riskClass : RiskClass
  optimisticUtility : PyFloat
  requestedVerifier : Option Text := none
  payload : List (Text × Text) := []
  deriving DecidableEq

/-- `ActionDefinition`; argument-key sets are only tested for membership. -/
structure ActionDefinition where
  id : Text
  family : ActionFamily
  subgroup : Text
  operation : Text
  riskClass : RiskClass
  argumentVariants : List (List (Text × Text))
  placements : List Text
  verifierIds : List Text
  optimisticUtility : PyFloat
  estimatedCost : PyFloat
  provenanceComplete : Bool := true
  dataBoundary : Text := "local"
  requiredArgumentKeys : List Text := []
  allowedArgumentKeys : List Text := []
  deriving DecidableEq

/-- `AuthorityPolicy`. -/
structure AuthorityPolicy where
  allowedFamilies : List ActionFamily
  allowedRisks : List RiskClass
  allowedDataBoundaries : List Text := ["local", "approved_remote", "public", "unknown"]
  deriving DecidableEq

/-- `AuthorityPolicy.permits`. -/
def AuthorityPolicy.permits (p : AuthorityPolicy) (c : ActionCandidate) : Bool :=
  decide (c.family ∈ p.allowedFamilies) && decide (c.riskClass ∈ p.allowedRisks)

/-- `CandidateCompilation`. -/
structure CandidateCompilation where
  candidates : List ActionCandidate
  maskedIds : List Text
  noSafeAction : Bool
  prunedIds : List Text := []
  widenedFamilies : List ActionFamily := []
  deriving DecidableEq

/-- `ValueEstimate`. -/
structure ValueEstimate where
  expectedGain : PyFloat
  totalCost : PyFloat
  riskPenalty : PyFloat
  uncertainty : PyFloat
  deriving DecidableEq

/-- `CvocDecision`. -/
structure CvocDecision where
  selected : Option ActionCandidate
  lowerBound : PyFloat
  fallback : Option ActionFamily
  deriving DecidableEq

/-- `VerificationResult`. -/
structure VerificationResult where
  verifierId : Text
  candidateId : Text
  actionFingerprint : Text
  policyVersion : Text
  accepted : Bool
  evidence : Text
  attestation : Text
  deriving DecidableEq

end C3RSpec
