import C3RSpec.Adapters.TextStream

/-!
# A generation in one piece

`c3r/adapters/providers.py:399–431`: what `generate` takes from the body of a response. The counts
of a usage object become `float`s, and a count that is missing becomes zero. The request plays no
part.
-/

namespace C3RSpec.Adapters

open Base

/-- `TextGenerationResult`. -/
structure TextGenerationResult where
  text : Text
  finish : FinishReason
  usage : Dict Text PyFloat

section Float

variable [FloatRound]

/-- `_number(usage.get(key))`. -/
def observedCount (usage : Json) (key : Text) : Except PyError PyFloat := do
  let value ← usage.getMember key
  number (value.getD .null)

/-- The cost of a usage object, when it is a finite number that is not negative. -/
def observedCost (usage : Json) : Except PyError (Option PyFloat) := do
  match ← usage.getMember "cost" with
  | some (.int n) => do
    let x ← floatOfInt n
    return if 0 ≤ n then some x else none
  | some (.float x) => return if x.isFinite && PyFloat.le (.fin 0) x then some x else none
  | _ => return none

/-- The finish reason of a choice. -/
def generationFinish : Option Json → Except PyError FinishReason
  | some (.str reason) =>
    if reason = Text.ofString "stop" then .ok .stop
    else if reason = Text.ofString "length" then .ok .length
    else .error (valueError "invalid generation result")
  | some (.arr _) | some (.obj _) => .error ⟨.typeError, "unhashable type"⟩
  | some .null | some (.bool _) | some (.int _) | some (.float _) | none =>
    .error (valueError "invalid generation result")

/-- The first choice of a body, with its message. -/
def generationChoice (body : Json) : Except PyError (Json × Json) := do
  let choices ← body.member "choices"
  let choice ← choices.item 0
  let message ← choice.member "message"
  return (choice, message)

/-- The text of a message that calls no tool. -/
def generationText (message : Json) : Except PyError Text := do
  let toolCalls ← message.getMember "tool_calls"
  let functionCall ← message.getMember "function_call"
  if (toolCalls.getD .null).isTruthy || (functionCall.getD .null).isTruthy then
    throw (valueError "tool execution is not supported")
  else
    let content ← message.member "content"
    contentText content

/-- The body of the second `try` in `generate`. -/
def generationResult (body : Dict Text Json) (latencyMs : PyFloat) :
    Except PyError TextGenerationResult := do
  let (choice, message) ← generationChoice (.obj body.entries)
  let output ← generationText message
  let reason ← choice.getMember "finish_reason"
  if isBlankText output then throw (valueError "invalid generation result")
  else
    let finish ← generationFinish reason
    let usage := usageMember body "usage"
    let input ← observedCount usage "prompt_tokens"
    let generated ← observedCount usage "completion_tokens"
    let observed : Dict Text PyFloat := Dict.ofList
      [("input_tokens", input), ("output_tokens", generated), ("latency_ms", latencyMs)]
    let cost ← observedCost usage
    return ⟨output, finish, cost.elim observed fun x ↦ observed.insert "provider_cost_usd" x⟩

/-- `except (KeyError, IndexError, TypeError, ValueError, AttributeError)`. -/
def isGenerationFailure (e : PyError) : Bool :=
  match e.kind with
  | .keyError | .indexError | .typeError | .valueError | .unicodeEncodeError | .attributeError => true
  | .osError | .runtimeError | .overflowError | .sqliteError | .httpException | .recursionError
  | .driverError | .other => false

/-- `except (OSError, ValueError, TypeError)`. -/
def isTransportFailure (e : PyError) : Bool :=
  match e.kind with
  | .osError | .typeError | .valueError | .unicodeEncodeError => true
  | .keyError | .indexError | .attributeError | .runtimeError | .overflowError | .sqliteError
  | .httpException | .recursionError | .driverError | .other => false

/-- `raise RuntimeError(message) from error`, for the errors of an `except` clause. -/
def relabelled {α : Type} (catches : PyError → Bool) (message : String) :
    Except PyError α → Except PyError α
  | .ok a => .ok a
  | .error e => if catches e then .error ⟨.runtimeError, message⟩ else .error e

variable [FloatText] [JsonLimits]

/-- `len(json.dumps(response.body, allow_nan=False).encode())`. -/
def bodySize (body : Dict Text Json) : Except PyError Nat := do
  match JsonLimits.writing (.obj body.entries) with
  | some e => throw e
  | none =>
    if (Json.obj body.entries).allFinite then
      let bytes ← ((Json.obj body.entries).renderSpaced true).encodeUtf8
      return bytes.size
    else throw (valueError "Out of range float values are not JSON compliant")

/-- `generate`, from what the transport answers. -/
def generated (answer : Except PyError TransportResponse) : Except PyError TextGenerationResult := do
  let (response, size) ← relabelled isTransportFailure "generative provider transport unavailable"
    (do
      let response ← answer
      let size ← bodySize response.body
      return (response, size))
  if response.status < 200 ∨ 300 ≤ response.status then
    throw ⟨.runtimeError, "generative provider unavailable"⟩
  else if maxResponseBytes < size then
    throw ⟨.runtimeError, "generative provider response oversized"⟩
  else
    relabelled isGenerationFailure "invalid generative provider response"
      (generationResult response.body response.latencyMs)

end Float

end C3RSpec.Adapters
