import C3RSpec.Telemetry.Trace

/-!
# Redaction schema

`c3r/telemetry/governed_store.py:26–89`. Only bounded tokens, digests, probabilities and finite
numbers reach the store. Every refusal carries the same message.
-/

namespace C3RSpec.Telemetry

open Base

/-- `SourceGrant`; its constructor refuses an unattested source and identifiers that are not
tokens. -/
structure SourceGrant where
  sourceId : Text
  owner : Text
  taskIds : List Text
  rightsAttested : Bool
  attested : rightsAttested = true ∧ taskIds ≠ []
  tokens : ∀ t ∈ sourceId :: owner :: taskIds, isToken t = true

/-- The refusal of `_validate_trace`. -/
def redactionError : PyError := valueError "trace failed redaction schema"

/-- The identifiers of a trace, in the order of the source. -/
def identifiers (t : DecisionTrace) : List Text :=
  [t.runId, t.accessLevel, t.modelProvider, t.authorityResult] ++ t.candidateIds ++ t.artifactRefs
    ++ t.selectedActionId.toList

/-- `isfinite(value) and 0 <= value <= 1`. -/
def isProbability (x : PyFloat) : Bool :=
  x.isFinite && PyFloat.le (.fin 0) x && PyFloat.le x (.fin 1)

/-- One outcome value: a token, a boolean or a finite number. -/
def outcomeAllowed : Scalar → Bool
  | .text t => isToken t
  | .bool _ => true
  | .float x => x.isFinite

/-- The checks of one mapping of numbers. -/
def namedNumbers (d : Dict Text PyFloat) : Bool :=
  d.entries.all fun e ↦ isToken e.1 && e.2.isFinite

/-- The checks of the probabilities. -/
def namedProbabilities (d : Dict Text (List PyFloat)) : Bool :=
  d.entries.all fun e ↦ isToken e.1 && e.2 != [] && e.2.all isProbability

/-- `_validate_trace`. -/
def validateTrace (t : DecisionTrace) : Except PyError Unit :=
  if !isHash t.stateHash || (identifiers t).any fun id ↦ !isToken id then .error redactionError
  else if t.artifactRefs ≠ [] then .error redactionError
  else if !namedProbabilities t.probabilities then .error redactionError
  else if !namedNumbers t.utilityQuantiles || !namedNumbers t.systemCost then .error redactionError
  else if t.systemCost.values.any fun v ↦ PyFloat.lt v (.fin 0) then .error redactionError
  else if t.taskOutcome.entries.any fun e ↦ !isToken e.1 || !outcomeAllowed e.2 then
    .error redactionError
  else .ok ()

/-- What an admitted trace satisfies. -/
structure Admitted (t : DecisionTrace) : Prop where
  stateHash : isHash t.stateHash = true
  identifiers : ∀ id ∈ Telemetry.identifiers t, isToken id = true
  artifactRefs : t.artifactRefs = []
  probabilities : namedProbabilities t.probabilities = true
  utilityQuantiles : namedNumbers t.utilityQuantiles = true
  systemCost : namedNumbers t.systemCost = true
  nonNegative : ∀ v ∈ t.systemCost.values, PyFloat.lt v (.fin 0) = false
  taskOutcome : ∀ e ∈ t.taskOutcome.entries, isToken e.1 = true ∧ outcomeAllowed e.2 = true

/-- Exactly the traces that pass every check are admitted. -/
theorem validateTrace_eq_ok {t : DecisionTrace} : validateTrace t = .ok () ↔ Admitted t := by
  unfold validateTrace
  constructor
  · intro h
    split at h
    · cases h
    · next h1 =>
      split at h
      · cases h
      · next h2 =>
        split at h
        · cases h
        · next h3 =>
          split at h
          · cases h
          · next h4 =>
            split at h
            · cases h
            · next h5 =>
              split at h
              · cases h
              · next h6 =>
                simp only [Bool.or_eq_true, Bool.not_eq_true', List.any_eq_true, not_or,
                  Bool.not_eq_false, not_exists, not_and, Bool.not_eq_true] at h1 h3 h4 h5 h6
                exact ⟨h1.1, h1.2, not_not.mp h2, h3, h4.1, h4.2, h5, h6⟩
  · intro h
    rw [if_neg, if_neg, if_neg, if_neg, if_neg, if_neg]
    · simpa using h.taskOutcome
    · simpa using h.nonNegative
    · simp [h.utilityQuantiles, h.systemCost]
    · simp [h.probabilities]
    · simp [h.artifactRefs]
    · simpa [h.stateHash] using h.identifiers

/-- Every refusal is the redaction error. -/
theorem validateTrace_cases (t : DecisionTrace) :
    validateTrace t = .ok () ∨ validateTrace t = .error redactionError := by
  unfold validateTrace
  split_ifs <;> simp

end C3RSpec.Telemetry
