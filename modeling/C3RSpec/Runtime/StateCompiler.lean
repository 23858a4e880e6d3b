import C3RSpec.Base.Loop
import C3RSpec.StateSchema

/-!
# State compilation

`c3r/state_compiler.py:15–139`. A raw state compiles only when every verified fact has
provenance, every field is within its bound and the confidence reaches the threshold; nothing
is truncated.
-/

namespace C3RSpec.Runtime

open Base

/-- `StateLimits`; its constructor refuses a limit below one. -/
structure StateLimits where
  maxItemsPerField : Nat := 64
  maxMappingEntries : Nat := 64
  maxTextChars : Nat := 4096
  maxTotalChars : Nat := 16384
  positive : 1 ≤ min (min maxItemsPerField maxMappingEntries) (min maxTextChars maxTotalChars) := by
    decide

/-- The default limits are positive. -/
theorem StateLimits.positive_default : 1 ≤ min (min 64 64) (min 4096 16384) := by decide

/-- `StateCompiler`; its constructor refuses a confidence outside zero and one. -/
structure StateCompiler where
  minimumConfidence : PyFloat := .fin (1 / 2)
  limits : StateLimits := {}
  inRange : (PyFloat.le (.fin 0) minimumConfidence && PyFloat.le minimumConfidence (.fin 1)) = true
    := by decide +kernel

namespace StateCompiler

/-- The sequences that `_check_bounds` counts, in its order. -/
def sequences (raw : RawState) : List (Text × Nat) :=
  [("verified_facts", raw.verifiedFacts.length),
   ("open_questions", raw.openQuestions.length),
   ("recent_failures", raw.recentFailures.length),
   ("available_action_families", raw.availableActionFamilies.length),
   ("tool_summary", raw.toolSummary.length),
   ("model_inventory", raw.modelInventory.length)]

/-- The mappings that `_check_bounds` counts, in its order. -/
def mappings (raw : RawState) : List (Text × Nat) :=
  [("budget", raw.budget.size),
   ("runtime_summary", raw.runtimeSummary.size),
   ("risk", raw.risk.size),
   ("provenance", raw.provenance.size)]

/-- The texts that `_check_bounds` measures. -/
def textValues (raw : RawState) : List Text :=
  [raw.goal, raw.currentSubgoal, raw.reversibility, raw.dataBoundary, raw.rollbackState.getD []]
    ++ raw.verifiedFacts ++ raw.openQuestions ++ raw.recentFailures ++ raw.toolSummary
    ++ raw.modelInventory

/-- The first field of a table above its bound. -/
def oversized (bound : Nat) (fields : List (Text × Nat)) (suffix : Text) : Option Text :=
  (fields.find? fun f ↦ decide (bound < f.2)).map fun f ↦ f.1 ++ suffix

/-- `_check_bounds`. -/
def checkBounds (limits : StateLimits) (raw : RawState) : Option Text :=
  (oversized limits.maxItemsPerField (sequences raw) " exceeds item bound").or <|
    (oversized limits.maxMappingEntries (mappings raw) " exceeds entry bound").or <|
      if (textValues raw).any fun t ↦ decide (limits.maxTextChars < t.length) then
        some "state field exceeds text bound"
      else if limits.maxTotalChars < ((textValues raw).map List.length).sum then
        some "state exceeds total text bound"
      else none

/-- A refused state with the reason. -/
def unsafeToCompress (reason : Text) : CompilationResult :=
  ⟨.stateUnsafeToCompress, none, [reason]⟩

/-- `max(0.0, 1.0 - raw.ambiguity)`. -/
def confidence (raw : RawState) : PyFloat :=
  firstMax PyFloat.lt (.fin 0) [PyFloat.sub (.fin 1) raw.ambiguity]

/-- The compiled form of a raw state. -/
def compiledState (raw : RawState) : CompiledState where
  goal := raw.goal
  currentSubgoal := raw.currentSubgoal
  verifiedFacts := raw.verifiedFacts
  openQuestions := raw.openQuestions
  recentFailures := raw.recentFailures
  availableActionFamilies := raw.availableActionFamilies
  toolSummary := raw.toolSummary
  modelInventory := raw.modelInventory
  budget := raw.budget
  runtimeSummary := raw.runtimeSummary
  risk := raw.risk.insert "consequence" (.text raw.consequence)
  reversibility := raw.reversibility
  approvalRequired := raw.approvalRequired
  dataBoundary := raw.dataBoundary
  rollbackState := raw.rollbackState
  ambiguity := raw.ambiguity
  stateCompilationConfidence := confidence raw
  provenance := raw.provenance

/-- `StateCompiler.compile`. -/
def compile (c : StateCompiler) (raw : RawState) : CompilationResult :=
  if raw.verifiedFacts.any fun fact ↦ decide (fact ∉ raw.provenance.keys) then
    unsafeToCompress "verified fact lacks provenance"
  else
    match checkBounds c.limits raw with
    | some reason => unsafeToCompress reason
    | none =>
      if !(PyFloat.le (.fin 0) raw.ambiguity && PyFloat.le raw.ambiguity (.fin 1)) then
        unsafeToCompress "ambiguity must be between zero and one"
      else if PyFloat.lt (confidence raw) c.minimumConfidence then
        unsafeToCompress "compilation confidence below threshold"
      else ⟨.compiled, some (compiledState raw), []⟩

/-- A state that compiles is the compiled form of the raw state. -/
theorem compile_eq_some {c : StateCompiler} {raw : RawState} {state : CompiledState}
    (h : (c.compile raw).state = some state) : state = compiledState raw := by
  unfold compile at h
  split at h
  · cases h
  · split at h
    · cases h
    · split at h
      · cases h
      · split at h
        · cases h
        · exact (Option.some.inj h).symm

end StateCompiler

end C3RSpec.Runtime
