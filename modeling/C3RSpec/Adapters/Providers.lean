import C3RSpec.Base.JsonAccess
import C3RSpec.Runtime.Controller
import Mathlib.Data.List.DropRight

/-!
# Deliberative providers

`c3r/adapters/providers.py:23–253,510–560` and `c3r/deliberative/envelope.py:11–17`. A codec for
each kind of provider writes the request and walks the JSON object that comes back, with casts in
place of checks: what a step does on a value of another shape is in `Base.JsonAccess`. The
transport is host code that returns any object or raises. The endpoint checks of `ProviderConfig`
play no part.
-/

namespace C3RSpec.Adapters

open Base C3RSpec.Runtime

/-- `MAX_RESPONSE_BYTES`. -/
def maxResponseBytes : Nat := 65536

/-- `MAX_ARRAY_ITEMS`. -/
def maxArrayItems : Nat := 32

/-- `MAX_ITEM_CHARS`. -/
def maxItemChars : Nat := 2048

/-- `MAX_STRUCTURED_CHARS`. -/
def maxStructuredChars : Nat := 32768

/-- `ProviderKind`. -/
inductive ProviderKind where
  | openai
  | anthropic
  | gemini
  | openaiCompatible
  deriving DecidableEq

/-- `ProviderConfig`, with its checks on the identifiers and the timeout. -/
structure ProviderConfig where
  providerId : Text
  kind : ProviderKind
  baseUrl : Text
  model : Text
  apiKey : Option Text
  timeoutSeconds : PyFloat := .fin 60
  named : providerId ≠ [] ∧ model ≠ []
  timely : timeoutSeconds.isFinite = true ∧ PyFloat.lt (.fin 0) timeoutSeconds = true ∧
    PyFloat.le timeoutSeconds (.fin 120) = true

/-- `self.base_url.rstrip("/")`. -/
def ProviderConfig.origin (config : ProviderConfig) : Text :=
  config.baseUrl.rdropWhile fun c ↦ c == 47

/-- `DeliberationRequest`; `foreign` names the type of a value in the state that JSON has no form
for, if there is one. -/
structure DeliberationRequest where
  state : Dict Text Json
  foreign : Option String := none

/-- `TransportResponse`. -/
structure TransportResponse where
  status : Int
  body : Dict Text Json
  latencyMs : PyFloat

/-- `DeliberativeResult`. -/
structure DeliberativeResult where
  plan : List Text
  assumptions : List Text
  uncertainty : List Text
  candidateCommitments : List Text
  requestedActions : List Text
  deriving DecidableEq

/-- The five fields of a result. -/
def DeliberativeResult.fields (d : DeliberativeResult) : List (List Text) :=
  [d.plan, d.assumptions, d.uncertainty, d.candidateCommitments, d.requestedActions]

/-- `ControlledDeliberation`. -/
structure ControlledDeliberation where
  result : Option (ProviderExecutionResult DeliberativeResult)
  selectedAction : ActionFamily
  fallbackUsed : Bool
  failureReason : Option ErrorKind

/-- What a codec hands to the transport. -/
structure ProviderCall where
  url : Text
  headers : Dict Text Text
  payload : Json

/-- The error of everything that a response may get wrong. -/
def malformed (kind : ErrorKind) : PyError :=
  ⟨kind, "provider returned malformed or oversized structured deliberation"⟩

/-- `number if isfinite(number) and number >= 0 else 0.0`. -/
def countOrZero (x : PyFloat) : PyFloat :=
  if x.isFinite && PyFloat.le (.fin 0) x then x else .fin 0

/-- `_number`. -/
def number [FloatRound] : Json → Except PyError PyFloat
  | .int n => do
    let x ← floatOfInt n
    return countOrZero x
  | .float x => .ok (countOrZero x)
  | .null | .bool _ | .str _ | .arr _ | .obj _ => .ok (.fin 0)

/-- `isinstance(item, str) and len(item) <= MAX_ITEM_CHARS`, with the string. -/
def boundedItem : Json → Except PyError Text
  | .str t => if t.length ≤ maxItemChars then .ok t else .error (malformed .typeError)
  | .null | .bool _ | .int _ | .float _ | .arr _ | .obj _ => .error (malformed .typeError)

/-- `_string_tuple`, for a member that may be missing. -/
def stringTuple : Option Json → Except PyError (List Text)
  | some (.arr items) =>
    if maxArrayItems < items.length then .error (malformed .typeError) else items.mapM boundedItem
  | _ => .error (malformed .typeError)

/-- `_content`. -/
def contentText : Json → Except PyError Text
  | .str t => if maxStructuredChars < t.length then .error (malformed .typeError) else .ok t
  | .null | .bool _ | .int _ | .float _ | .arr _ | .obj _ => .error (malformed .typeError)

/-- `_number(usage.get(key, 0))`. -/
def tokenCount [FloatRound] (usage : Json) (key : Text) : Except PyError PyFloat := do
  let value ← usage.getMember key
  number (value.getD (.int 0))

/-- The counts that a codec reads from a usage member. -/
def tokenCounts [FloatRound] (usage : Json) (inputKey outputKey : Text) :
    Except PyError (Dict Text PyFloat) := do
  let input ← tokenCount usage inputKey
  let output ← tokenCount usage outputKey
  return Dict.ofList [("input_tokens", input), ("output_tokens", output)]

/-- `body.get(key, {})`. -/
def usageMember (body : Dict Text Json) (key : Text) : Json := (body.get? key).getD (.obj [])

/-- `RUNTIME_BOUNDARY`. -/
def runtimeBoundary : String :=
  "C3R v0.1 RUNTIME BOUNDARY\n" ++
  "The prompt describes intended reasoning and communication, not additional capabilities or " ++
  "permissions. This runtime provides text and verified recommendations only. Do not claim to " ++
  "execute tools, external actions, commits or authorizations. Do not claim empirical " ++
  "calibration, production qualification, measurements or verification that the runtime has " ++
  "not supplied. Deterministic controller admission, independent verification and operator " ++
  "policy remain authoritative. Never disclose private reasoning; return conclusions and " ++
  "concise rationale."

/-- `_SYSTEM`, for the text of the prompt resource. -/
def systemText (prompt : Text) : Text :=
  prompt ++ Text.ofString ("\n\n" ++ runtimeBoundary ++ "\n" ++
    "Return only one JSON object with string-array fields plan, assumptions, uncertainty, " ++
    "candidate_commitments, and requested_actions. Propose computation; never claim commit " ++
    "authority.")

section Codecs

variable [FloatText]

/-- The timeout header, which every codec sets first. -/
def timeoutHeader (config : ProviderConfig) : Dict Text Text :=
  Dict.ofList [("X-C3R-Timeout", floatStr config.timeoutSeconds)]

/-- A credential under the header that a provider expects, when there is one. -/
def withCredential (config : ProviderConfig) (headers : Dict Text Text) (name scheme : Text) :
    Dict Text Text :=
  match config.apiKey with
  | some key => if key = [] then headers else headers.insert name (scheme ++ key)
  | none => headers

/-- `_OpenAICodec.build`. -/
def OpenAICodec.build (prompt : Text) (config : ProviderConfig) (state : Text) : ProviderCall where
  url := config.origin ++ Text.ofString "/chat/completions"
  headers := withCredential config (timeoutHeader config) "Authorization" "Bearer "
  payload := .obj [
    ("model", .str config.model),
    ("temperature", .int 0),
    ("response_format", .obj [("type", .str "json_object")]),
    ("messages", .arr [
      .obj [("role", .str "system"), ("content", .str (systemText prompt))],
      .obj [("role", .str "user"), ("content", .str state)]])]

/-- `choices[0]["message"]["content"]`. -/
def OpenAICodec.content (body : Json) : Except PyError Json := do
  let choices ← body.member "choices"
  let choice ← choices.item 0
  let message ← choice.member "message"
  message.member "content"

/-- `_AnthropicCodec.build`. -/
def AnthropicCodec.build (prompt : Text) (config : ProviderConfig) (state : Text) :
    ProviderCall where
  url := config.origin ++ Text.ofString "/messages"
  headers := withCredential config
    ((timeoutHeader config).insert "anthropic-version" "2023-06-01") "x-api-key" []
  payload := .obj [
    ("model", .str config.model),
    ("max_tokens", .int 2048),
    ("system", .str (systemText prompt)),
    ("messages", .arr [.obj [("role", .str "user"), ("content", .str state)]])]

/-- `body["content"][0]["text"]`. -/
def AnthropicCodec.content (body : Json) : Except PyError Json := do
  let blocks ← body.member "content"
  let block ← blocks.item 0
  block.member "text"

/-- `_GeminiCodec.build`. -/
def GeminiCodec.build (prompt : Text) (config : ProviderConfig) (state : Text) : ProviderCall where
  url := config.origin ++ Text.ofString "/models/" ++ config.model ++
    Text.ofString ":generateContent"
  headers := withCredential config (timeoutHeader config) "x-goog-api-key" []
  payload := .obj [
    ("systemInstruction", .obj [("parts", .arr [.obj [("text", .str (systemText prompt))]])]),
    ("contents", .arr [.obj [("role", .str "user"),
      ("parts", .arr [.obj [("text", .str state)]])]]),
    ("generationConfig", .obj [("responseMimeType", .str "application/json"),
      ("temperature", .int 0)])]

/-- `candidates[0]["content"]["parts"][0]["text"]`. -/
def GeminiCodec.content (body : Json) : Except PyError Json := do
  let candidates ← body.member "candidates"
  let first ← candidates.item 0
  let candidate ← first.member "content"
  let parts ← candidate.member "parts"
  let part ← parts.item 0
  part.member "text"

namespace ProviderKind

/-- The `build` of `_CODECS[kind]`. -/
def build : ProviderKind → Text → ProviderConfig → Text → ProviderCall
  | .openai | .openaiCompatible => OpenAICodec.build
  | .anthropic => AnthropicCodec.build
  | .gemini => GeminiCodec.build

/-- The walk of `_CODECS[kind].extract` to the content. -/
def content : ProviderKind → Json → Except PyError Json
  | .openai | .openaiCompatible => OpenAICodec.content
  | .anthropic => AnthropicCodec.content
  | .gemini => GeminiCodec.content

/-- The member under which a codec looks for the usage. -/
def usageKey : ProviderKind → Text
  | .openai | .openaiCompatible | .anthropic => "usage"
  | .gemini => "usageMetadata"

/-- The count of input tokens in the usage. -/
def inputKey : ProviderKind → Text
  | .openai | .openaiCompatible => "prompt_tokens"
  | .anthropic => "input_tokens"
  | .gemini => "promptTokenCount"

/-- The count of output tokens in the usage. -/
def outputKey : ProviderKind → Text
  | .openai | .openaiCompatible => "completion_tokens"
  | .anthropic => "output_tokens"
  | .gemini => "candidatesTokenCount"

/-- `_CODECS[kind].extract`: the content is checked before the counts are read. -/
def extract [FloatRound] (kind : ProviderKind) (body : Dict Text Json) :
    Except PyError (Text × Dict Text PyFloat) := do
  let content ← kind.content (.obj body.entries)
  let text ← contentText content
  let usage ← tokenCounts (usageMember body kind.usageKey) kind.inputKey kind.outputKey
  return (text, usage)

end ProviderKind

variable [JsonLimits]

/-- `json.dumps(dict(request.state), sort_keys=True, separators=(",", ":"))`. -/
def DeliberationRequest.encode (request : DeliberationRequest) : Except PyError Text :=
  match request.foreign with
  | some name => .error ⟨.typeError, "Object of type " ++ name ++ " is not JSON serializable"⟩
  | none => dumpsCompact (Json.obj request.state.entries).sortKeys

/-- The bytes of `json.dumps(response.body, separators=(",", ":"))`. -/
def TransportResponse.encode (response : TransportResponse) : Except PyError ByteArray := do
  let text ← dumpsCompact (.obj response.body.entries)
  text.encodeUtf8

/-- The five fields of a decoded content. -/
def deliberationOf : Json → Except PyError DeliberativeResult
  | .obj es => do
    let plan ← stringTuple ((Json.obj es).get? "plan")
    let assumptions ← stringTuple ((Json.obj es).get? "assumptions")
    let uncertainty ← stringTuple ((Json.obj es).get? "uncertainty")
    let candidateCommitments ← stringTuple ((Json.obj es).get? "candidate_commitments")
    let requestedActions ← stringTuple ((Json.obj es).get? "requested_actions")
    return ⟨plan, assumptions, uncertainty, candidateCommitments, requestedActions⟩
  | .null | .bool _ | .int _ | .float _ | .str _ | .arr _ => .error ⟨.typeError, ""⟩

/-- The body of the `try` in `ProviderAdapter.deliberate`. -/
def decodeResponse [FloatRound] (kind : ProviderKind) (body : Dict Text Json) :
    Except PyError (DeliberativeResult × Dict Text PyFloat) := do
  let extracted ← kind.extract body
  let decoded ← loadsText extracted.1
  let deliberation ← deliberationOf decoded
  return (deliberation, extracted.2)

end Codecs

/-- Membership in `except (KeyError, IndexError, TypeError, ValueError, json.JSONDecodeError)`. -/
def isResponseFailure (e : PyError) : Bool :=
  match e.kind with
  | .keyError | .indexError | .typeError | .valueError | .unicodeEncodeError => true
  | .attributeError | .osError | .runtimeError | .overflowError | .sqliteError | .httpException
  | .recursionError | .driverError | .other => false

/-- What leaves the `except` clause of `ProviderAdapter.deliberate`. -/
def rejectMalformed {α : Type} : Except PyError α → Except PyError α
  | .ok a => .ok a
  | .error e => if isResponseFailure e then .error (malformed .valueError) else .error e

/-- `ProviderAdapter`, with the prompt resource that its requests carry. -/
structure ProviderAdapter where
  config : ProviderConfig
  prompt : Text
  transport : ProviderCall → Except PyError TransportResponse

namespace ProviderAdapter

variable [FloatText] [FloatRound] [JsonLimits] (adapter : ProviderAdapter)

/-- The call that a written state makes. -/
def send (state : Text) : Except PyError TransportResponse :=
  adapter.transport (adapter.config.kind.build adapter.prompt adapter.config state)

/-- What follows the transport in `deliberate`. -/
def accept (response : TransportResponse) :
    Except PyError (ProviderExecutionResult DeliberativeResult) := do
  let bytes ← response.encode
  if maxResponseBytes < bytes.size then
    throw (valueError "provider response exceeds byte limit")
  else if response.status < 200 ∨ 300 ≤ response.status then
    throw ⟨.runtimeError, "provider request failed with status " ++ toString response.status⟩
  else
    let decoded ← rejectMalformed (decodeResponse adapter.config.kind response.body)
    return { deliberation := decoded.1
             observedCost :=
               Dict.ofList (("latency_ms", response.latencyMs) :: decoded.2.entries)
             providerId := adapter.config.providerId
             modelId := adapter.config.model }

/-- `ProviderAdapter.deliberate`. -/
def deliberate (request : DeliberationRequest) :
    Except PyError (ProviderExecutionResult DeliberativeResult) := do
  let state ← request.encode
  let response ← adapter.send state
  adapter.accept response

end ProviderAdapter

/-- `ProviderController`. -/
structure ProviderController where
  adapter : ProviderAdapter
  fallbackAction : ActionFamily

/-- `ProviderController.deliberate`. -/
def ProviderController.deliberate [FloatText] [FloatRound] [JsonLimits] (controller : ProviderController)
    (request : DeliberationRequest) : Except PyError ControlledDeliberation :=
  match controller.adapter.deliberate request with
  | .ok result => .ok ⟨some result, .deliberate, false, none⟩
  | .error e =>
    if e.isHostFailure then .ok ⟨none, controller.fallbackAction, true, some e.kind⟩
    else .error e

end C3RSpec.Adapters
