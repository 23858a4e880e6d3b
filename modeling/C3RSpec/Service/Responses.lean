import C3RSpec.Adapters.TextGeneration
import C3RSpec.Service.Frames

/-!
# Events of a generated response

`c3r/responses.py:41–174`. The chunks of the provider become events of a response: it is created,
its text comes in pieces, and it ends in one of two ways. What the provider gets wrong is an event
too. A response in one piece is built from the result of `generate`.
-/

namespace C3RSpec.Service

open Base Adapters

/-- The `status` of a response. -/
inductive ResponseStatus where
  | inProgress
  | completed
  | incomplete
  | failed
  deriving DecidableEq

/-- The text of a status. -/
def ResponseStatus.value : ResponseStatus → Text
  | .inProgress => "in_progress"
  | .completed => "completed"
  | .incomplete => "incomplete"
  | .failed => "failed"

/-- `"completed" if finish == "stop" else "incomplete"`. -/
def statusOf : FinishReason → ResponseStatus
  | .stop => .completed
  | .length => .incomplete

/-- What a response is called by and where it comes from. -/
structure ResponseLabels where
  identifier : Text
  messageId : Text
  reason : Text
  provider : Text
  createdAt : Int

namespace ResponseLabels

variable (labels : ResponseLabels)

/-- The member `c3r` of a response. -/
def metadata : Members :=
  [("route", .str (Text.ofString "deliberative")),
    ("system_one_provider", .str (Text.ofString "clm")),
    ("controller_reason", .str labels.reason),
    ("effect_executed", .bool false),
    ("selection_basis", .str (Text.ofString "explicit_text_only_request_policy_fallback")),
    ("calibrated", .bool false),
    ("provider", .str labels.provider)]

/-- The member `output` of a response that is no longer in progress. -/
def output (status : ResponseStatus) (text : Text) : List Json :=
  [.obj [("id", .str labels.messageId),
    ("type", .str (Text.ofString "message")),
    ("role", .str (Text.ofString "assistant")),
    ("status", .str status.value),
    ("content", .arr [.obj [("type", .str (Text.ofString "output_text")),
      ("text", .str text),
      ("annotations", .arr [])]])]]

end ResponseLabels

/-- The member `usage` of a response. -/
def usageJson : Option TokenCounts → Json
  | none => .null
  | some counts => .obj [("input_tokens", .int counts.inputTokens),
      ("output_tokens", .int counts.outputTokens),
      ("total_tokens", .int (counts.inputTokens + counts.outputTokens))]

/-- What a response holds so far: `self._text`, `self._finish` and `self._usage`. -/
structure Draft where
  labels : ResponseLabels
  text : Text := []
  finish : Option FinishReason := none
  usage : Option TokenCounts := none

namespace Draft

variable (draft : Draft)

/-- `_response`. -/
def response (status : ResponseStatus) : Members :=
  [("id", .str draft.labels.identifier),
    ("object", .str (Text.ofString "response")),
    ("created_at", .int draft.labels.createdAt),
    ("model", .str (Text.ofString "c3r-core")),
    ("status", .str status.value),
    ("store", .bool false),
    ("output", .arr (if status = .inProgress then [] else draft.labels.output status draft.text)),
    ("usage", usageJson draft.usage),
    ("c3r", .obj draft.labels.metadata)]

/-- `response.created`. -/
def createdEvent : StreamEvent :=
  ("response.created", [("type", .str (Text.ofString "response.created")),
    ("response", .obj (draft.response .inProgress))])

/-- `response.output_text.delta`. -/
def deltaEvent (delta : Text) : StreamEvent :=
  ("response.output_text.delta", [("type", .str (Text.ofString "response.output_text.delta")),
    ("response_id", .str draft.labels.identifier),
    ("output_index", .int 0), ("content_index", .int 0),
    ("delta", .str delta)])

/-- `response.output_text.done`. -/
def doneEvent : StreamEvent :=
  ("response.output_text.done", [("type", .str (Text.ofString "response.output_text.done")),
    ("response_id", .str draft.labels.identifier),
    ("output_index", .int 0), ("content_index", .int 0),
    ("text", .str draft.text)])

/-- `response.completed`. -/
def completedEvent (status : ResponseStatus) : StreamEvent :=
  ("response.completed", [("type", .str (Text.ofString "response.completed")),
    ("response", .obj (draft.response status))])

/-- `response.failed`. -/
def failedEvent : StreamEvent :=
  ("response.failed", [("type", .str (Text.ofString "response.failed")),
    ("response", .obj (draft.response .failed)),
    ("error", .obj [("type", .str (Text.ofString "server_error")),
      ("message", .str (Text.ofString "Generation failed."))])])

end Draft

/-- `ResponseEventStream`. -/
structure ResponseEventStream where
  backend : TextGenerationStream
  draft : Draft
  started : Bool := false
  done : Bool := false
  pending : List StreamEvent := []

/-- `except (OSError, RuntimeError, TypeError, ValueError)`. -/
def isEventFailure (e : PyError) : Bool :=
  match e.kind with
  | .osError | .runtimeError | .recursionError | .typeError | .valueError | .unicodeEncodeError => true
  | .keyError | .indexError | .attributeError | .overflowError | .sqliteError | .httpException
  | .driverError | .other => false

namespace ResponseEventStream

/-- The largest text of a response. -/
def maxTextBytes : Nat := 65536

/-- A stream over a backend. -/
def new (backend : TextGenerationStream) (labels : ResponseLabels) : ResponseEventStream :=
  { backend, draft := { labels } }

variable (s : ResponseEventStream)

/-- An exception, under the `except` clause of `__next__`. -/
def fail (e : PyError) : Next StreamEvent × ResponseEventStream :=
  if isEventFailure e then
    (.item s.draft.failedEvent, { s with backend := s.backend.close, done := true })
  else (.raised e, s)

/-- The end of the backend. -/
def ended : Next StreamEvent × ResponseEventStream :=
  match s.draft.finish with
  | none => s.fail ⟨.runtimeError, "provider stream omitted finish reason"⟩
  | some finish =>
    (.item s.draft.doneEvent,
      { s with done := true
               pending := s.pending ++ [s.draft.completedEvent (statusOf finish)] })

/-- A text of the backend. -/
def emit (delta : Text) (finish : Option FinishReason) : Next StreamEvent × ResponseEventStream :=
  if s.draft.finish.isSome then s.fail ⟨.runtimeError, "provider emitted text after finish"⟩
  else
    let s := { s with draft := { s.draft with text := s.draft.text ++ delta } }
    match s.draft.text.encodeUtf8 with
    | .error e => s.fail e
    | .ok bytes =>
      if maxTextBytes < bytes.size then
        s.fail ⟨.runtimeError, "provider output exceeds byte limit"⟩
      else
        (.item (s.draft.deltaEvent delta),
          { s with draft := { s.draft with finish := finish.or s.draft.finish } })

variable [FloatText] [JsonLimits] [JsonBytes]

/-- The loop of `__next__`. -/
def pull (s : ResponseEventStream) : Next StreamEvent × ResponseEventStream :=
  match _h : s.backend.next with
  | (.stop, backend) => { s with backend }.ended
  | (.raised e, backend) => { s with backend }.fail e
  | (.item chunk, backend) =>
    let draft := { s.draft with usage := chunk.usage.or s.draft.usage }
    if chunk.delta = [] then
      { s with backend, draft := { draft with finish := chunk.finish.or draft.finish } }.pull
    else { s with backend, draft }.emit chunk.delta chunk.finish
termination_by maxResponseBytes - s.backend.bytes
decreasing_by
  have hchunk := TextGenerationStream.bytes_of_next _h
  omega

/-- `__next__`. -/
def next (s : ResponseEventStream) : Next StreamEvent × ResponseEventStream :=
  match s.pending with
  | event :: rest => (.item event, { s with pending := rest })
  | [] =>
    if s.done then (.stop, s)
    else if !s.started then (.item s.draft.createdEvent, { s with started := true })
    else s.pull

end ResponseEventStream

/-! ### A response in one piece -/

section Respond

variable [FloatRound]

/-- `int(x)` of a `float`. -/
def truncated : PyFloat → Except PyError Int
  | .fin q => .ok (if q < 0 then q.ceil else q.floor)
  | .posInf | .negInf => .error ⟨.overflowError, "cannot convert float infinity to integer"⟩
  | .nan => .error (valueError "cannot convert float NaN to integer")

/-- `usage[key]`. -/
def usageFloat (usage : Dict Text PyFloat) (key : Text) : Except PyError PyFloat :=
  match usage.get? key with
  | some x => .ok x
  | none => .error ⟨.keyError, "missing key"⟩

/-- The member `usage` of a response in one piece. -/
def respondUsage (usage : Dict Text PyFloat) : Except PyError Json := do
  let input ← usageFloat usage "input_tokens"
  let output ← usageFloat usage "output_tokens"
  let inputTokens ← truncated input
  let outputTokens ← truncated output
  let totalTokens ← truncated (PyFloat.rounded (PyFloat.add input output))
  return .obj [("input_tokens", .int inputTokens), ("output_tokens", .int outputTokens),
    ("total_tokens", .int totalTokens)]

/-- The metadata of a response in one piece, with the cost that was observed. -/
def respondMetadata (labels : ResponseLabels) (usage : Dict Text PyFloat) : Members :=
  match usage.get? "provider_cost_usd" with
  | some cost => assign "observed_provider_cost_usd" (.float cost) labels.metadata
  | none => labels.metadata

/-- `respond`, from the result of the deliberation. -/
def respond (labels : ResponseLabels) (result : TextGenerationResult) : Except PyError Members := do
  let usage ← respondUsage result.usage
  let status := statusOf result.finish
  return [("id", .str labels.identifier),
    ("object", .str (Text.ofString "response")),
    ("created_at", .int labels.createdAt),
    ("model", .str (Text.ofString "c3r-core")),
    ("status", .str status.value),
    ("store", .bool false),
    ("output", .arr (labels.output status result.text)),
    ("usage", usage),
    ("c3r", .obj (respondMetadata labels result.usage))]

end Respond

end C3RSpec.Service
