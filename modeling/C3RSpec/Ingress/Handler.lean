import C3RSpec.ApiAccess.AccessStore
import C3RSpec.Base.Bytes
import C3RSpec.Base.Stateful

/-!
# The ingress handler

`c3r/ingress_proxy.py`. One request of `_IngressHandler` as a program over what it asks of its
host: the access store, the semaphores, the clock, the loopback connection with its watcher
thread, `json.loads` and the client socket. Any of these calls may raise. The attributes of the
handler object keep their values when an exception passes.
-/

namespace C3RSpec.Ingress

open Base ApiAccess

/-! ### The host -/

/-- The route semaphores; the decision routes share one. -/
inductive Slot where
  | inFlight
  | generation
  | systemOne
  | rank
  | decisions
  deriving DecidableEq

/-- `command`, as far as the handler tells them apart. -/
inductive Method where
  | get
  | post
  | head
  | other
  deriving DecidableEq

/-- The status line of the upstream, with its `Content-Type`, empty when there is none. -/
structure ResponseHead where
  status : Int
  contentType : Text

/-- Response headers, in order. -/
abbrev Headers := List (Text × Text)

/-- What the handler asks of its host. -/
inductive IngressOp where
  | authenticate (key : Text)
  | admitRequest (principal : Principal)
  | dispatchEvent (principal : Principal) (requestId : Text)
  | recordUsage (principal : Principal) (requestId : Text) (usage : Usage)
  | takeToken
  | acquire (slot : Slot)
  | release (slot : Slot)
  | monotonic
  | connect
  | startWatcher
  | request (method : Method) (path : Text) (body : Option Bytes) (headers : Headers)
  | getResponse
  | read (limit : Nat)
  | readLine (limit : Nat)
  | loads (data : Bytes)
  | isDisconnected
  | joinWatcher
  | closeConnection
  | readBody (length : Nat)
  | sendHead (status : Int) (headers : Headers)
  | write (body : Bytes)
  | flush

/-- What the host answers. `connect` also says whether the connection has a socket. -/
@[reducible] def IngressOp.Res : IngressOp → Type
  | .authenticate _ => Except PyError (Option Principal)
  | .admitRequest _ => Except PyError Bool
  | .dispatchEvent _ _ => Except PyError Unit
  | .recordUsage _ _ _ => Except PyError Unit
  | .takeToken => Bool
  | .acquire _ => Bool
  | .release _ => Unit
  | .monotonic => ℚ
  | .connect => Except PyError Bool
  | .startWatcher => Except PyError Unit
  | .request _ _ _ _ => Except PyError Unit
  | .getResponse => Except PyError ResponseHead
  | .read _ => Except PyError Bytes
  | .readLine _ => Except PyError Bytes
  | .loads _ => Except PyError Json
  | .isDisconnected => Bool
  | .joinWatcher => Unit
  | .closeConnection => Except PyError Unit
  | .readBody _ => Except PyError Bytes
  | .sendHead _ _ => Except PyError Unit
  | .write _ => Except PyError Unit
  | .flush => Except PyError Unit

/-- The watcher thread: not created, created, or started. -/
inductive Watcher where
  | none
  | created
  | started
  deriving DecidableEq

/-- The attributes of the handler and the variables that its blocks share. -/
structure Session where
  principal : Option Principal
  started : ℚ
  usageRecorded : Bool
  watcher : Watcher
  terminal : Bool

/-- A handler object before its first request. -/
def Session.initial : Session := ⟨none, 0, false, .none, false⟩

/-- Parts of the handler. -/
abbrev Handler := Act IngressOp IngressOp.Res Session

/-- Ask the host. -/
abbrev ask (o : IngressOp) : Handler o.Res := Act.perform o

/-! ### Configuration and request -/

/-- The configuration of the server that a request reads. -/
structure Gateway where
  hasStore : Bool
  clientToken : Text
  upstreamToken : Text

/-- A parsed request. `requestId` is the one that `_begin_request` generates. -/
structure Request where
  method : Method
  path : Text
  headers : Headers
  requestId : Text

/-- `MAX_REQUEST_BYTES`. -/
def maxRequestBytes : Nat := 65536

/-- `MAX_RESPONSE_BYTES`. -/
def maxResponseBytes : Nat := 65536

/-- The bound on a relayed stream. -/
def maxStreamBytes : Nat := 2097152

/-- `str.lower()` of ASCII text, which is all that header names are compared with. -/
def lower (t : Text) : Text :=
  t.map fun c ↦ if h : 65 ≤ c.val ∧ c.val ≤ 90 then ⟨c.val + 32, by omega⟩ else c

/-- `headers.get_all(name, [])`. -/
def getAll (headers : Headers) (name : Text) : List Text :=
  (headers.filter fun h ↦ decide (lower h.1 = lower name)).map Prod.snd

/-- Whitespace to `str.strip()` in the range of header text. -/
def isStripped (c : CodePoint) : Bool :=
  (9 ≤ c.val && c.val ≤ 13) || (28 ≤ c.val && c.val ≤ 32) || c.val == 133 || c.val == 160

/-- `str.strip()`. -/
def strip (t : Text) : Text := ((t.dropWhile isStripped).reverse.dropWhile isStripped).reverse

/-- `t.split(";", 1)[0]`. -/
def beforeSemicolon (t : Text) : Text := t.takeWhile fun c ↦ c != 59

/-- Decimal digits with single underscores between them. -/
private def digitGroups : Bool → Nat → Text → Option Nat
  | seen, value, [] => if seen then some value else none
  | seen, value, c :: rest =>
    if isDigit c then digitGroups true (value * 10 + (c.val - 48)) rest
    else if c = 95 ∧ seen = true then digitGroups false value rest
    else none

/-- `int(text)`; `none` is a `ValueError`. -/
def parseInt (t : Text) : Option Int :=
  match strip t with
  | [] => none
  | c :: rest =>
    if c = 43 then (digitGroups false 0 rest).map Int.ofNat
    else if c = 45 then (digitGroups false 0 rest).map fun n ↦ -Int.ofNat n
    else (digitGroups false 0 (c :: rest)).map Int.ofNat

/-- The headers that would override the tenant or the project of a key. -/
def overrideHeaders : List Text :=
  ["X-Tenant-ID", "X-Project-ID", "OpenAI-Organization", "OpenAI-Project", "X-C3R-Organization",
    "X-C3R-Project"]

/-- The scope of each path. -/
def scopeTable : List (Text × Text) :=
  [("/v1/models", "models:read"), ("/v1/responses", "responses:write"),
    ("/v1/system-one", "system_one:write"), ("/v1/c3r/rank", "rank:write"),
    ("/v1/c3r/decide", "decide:write"), ("/v1/decisions", "decide:write"),
    ("/v1/c3r/execute", "decide:write"), ("/ready", "models:read")]

/-- The scope mapped to a path. -/
def scopeOf (path : Text) : Option Text := scopeTable.lookup path

/-- `route_slots`. -/
def slotTable : List (Text × Slot) :=
  [("/v1/responses", .generation), ("/v1/system-one", .systemOne), ("/v1/c3r/rank", .rank),
    ("/v1/decisions", .decisions), ("/v1/c3r/decide", .decisions),
    ("/v1/c3r/execute", .decisions)]

/-- The route semaphore of a path. -/
def slotOf (path : Text) : Option Slot := slotTable.lookup path

/-- The paths of `_get`. -/
def getPaths : List Text := ["/health", "/metrics", "/ready", "/v1/models"]

/-- The paths of `_post`. -/
def postPaths : List Text :=
  ["/v1/decisions", "/v1/c3r/decide", "/v1/c3r/rank", "/v1/system-one", "/v1/c3r/execute",
    "/v1/responses"]

/-! ### Exceptions -/

/-- `except (OSError, sqlite3.Error)`. -/
def isStoreFailure (e : PyError) : Bool :=
  match e.kind with
  | .osError | .sqliteError => true
  | .valueError | .unicodeEncodeError | .typeError | .keyError | .runtimeError | .overflowError
  | .indexError | .attributeError | .httpException | .recursionError | .driverError | .other => false

/-- `except (OSError, HTTPException, ValueError, sqlite3.Error)`. -/
def isForwardFailure (e : PyError) : Bool :=
  match e.kind with
  | .osError | .sqliteError | .httpException | .valueError | .unicodeEncodeError => true
  | .typeError | .keyError | .indexError | .attributeError | .runtimeError | .overflowError
  | .recursionError | .driverError
  | .other => false

/-- `except (OSError, HTTPException, TypeError, ValueError, sqlite3.Error)`. -/
def isStreamFailure (e : PyError) : Bool :=
  match e.kind with
  | .osError | .sqliteError | .httpException | .valueError | .unicodeEncodeError
  | .typeError => true
  | .keyError | .indexError | .attributeError | .runtimeError | .overflowError | .recursionError
  | .driverError | .other => false

/-! ### Calls that may raise -/

/-- `access_store.authenticate`. -/
def authenticate (key : Text) : Handler (Option Principal) :=
  ask (.authenticate key) >>= Act.ofExcept

/-- `access_store.admit`. -/
def admitRequest (principal : Principal) : Handler Bool :=
  ask (.admitRequest principal) >>= Act.ofExcept

/-- `access_store.dispatch_event`. -/
def dispatchEvent (principal : Principal) (requestId : Text) : Handler Unit :=
  ask (.dispatchEvent principal requestId) >>= Act.ofExcept

/-- `access_store.record_usage`. -/
def storeUsage (principal : Principal) (requestId : Text) (usage : Usage) : Handler Unit :=
  ask (.recordUsage principal requestId usage) >>= Act.ofExcept

/-- `connection.connect()`, with whether `connection.sock` is set. -/
def connect : Handler Bool := ask .connect >>= Act.ofExcept

/-- `watcher.start()`. -/
def startWatcher : Handler Unit := ask .startWatcher >>= Act.ofExcept

/-- `connection.request(…)`. -/
def sendRequest (method : Method) (path : Text) (body : Option Bytes) (headers : Headers) :
    Handler Unit :=
  ask (.request method path body headers) >>= Act.ofExcept

/-- `connection.getresponse()`. -/
def getResponse : Handler ResponseHead := ask .getResponse >>= Act.ofExcept

/-- `response.read(limit)`. -/
def readResponse (limit : Nat) : Handler Bytes := ask (.read limit) >>= Act.ofExcept

/-- `response.readline(limit)`. -/
def readLine (limit : Nat) : Handler Bytes := ask (.readLine limit) >>= Act.ofExcept

/-- `json.loads(data)`. -/
def loadsJson (data : Bytes) : Handler Json := ask (.loads data) >>= Act.ofExcept

/-- `connection.close()`. -/
def closeConnection : Handler Unit := ask .closeConnection >>= Act.ofExcept

/-- `self.rfile.read(length)`. -/
def readBody (length : Nat) : Handler Bytes := ask (.readBody length) >>= Act.ofExcept

/-- `send_response`, `send_header` and `end_headers`, which writes them out. -/
def sendHead (status : Int) (headers : Headers) : Handler Unit :=
  ask (.sendHead status headers) >>= Act.ofExcept

/-- `self.wfile.write(body)`. -/
def write (body : Bytes) : Handler Unit := ask (.write body) >>= Act.ofExcept

/-- `self.wfile.flush()`. -/
def flush : Handler Unit := ask .flush >>= Act.ofExcept

section Handler

variable [FloatText] (g : Gateway) (rq : Request)

/-! ### Usage and refusals -/

/-- `value if type(value) is int and value >= 0 else None`. -/
def count : Option Json → Option Int
  | some (.int n) => if 0 ≤ n then some n else none
  | _ => none

/-- A member that is an object, else the empty one. -/
def member (decoded : List (Text × Json)) (key : Text) : Json :=
  match (Json.obj decoded).get? key with
  | some (.obj entries) => .obj entries
  | _ => .obj []

/-- `model if … in {"c3r-core", "c3r-system-one", "c3r-verifier"} else None`. -/
def knownModel : Option Json → Option Text
  | some (.str model) =>
    if model ∈ ([Text.ofString "c3r-core", Text.ofString "c3r-system-one",
      Text.ofString "c3r-verifier"] : List Text) then some model else none
  | _ => none

/-- `"adapter_transport_attempts" if … else None`. -/
def knownBasis : Option Json → Option Text
  | some (.str basis) =>
    if basis = Text.ofString "adapter_transport_attempts" then some basis else none
  | _ => none

/-- The arguments of `record_usage`. -/
def usageOf (latency : ℚ) (status : Int) (decoded : List (Text × Json)) : Usage where
  route := rq.path
  model := knownModel ((Json.obj decoded).get? "model")
  status
  latencyMs := .fin (latency * 1000)
  inputTokens := count ((member decoded "usage").get? "input_tokens")
  outputTokens := count ((member decoded "usage").get? "output_tokens")
  systemOneInvocations := count ((member decoded "c3r").get? "system_one_invocations")
  systemTwoInvocations := count ((member decoded "c3r").get? "system_two_invocations")
  invocationBasis := knownBasis ((member decoded "c3r").get? "invocation_basis")

/-- `_record_usage`. -/
def recordUsage (status : Int) (decoded : List (Text × Json)) : Handler Unit := do
  let s ← Act.read
  match s.principal with
  | none => pure ()
  | some principal =>
    if !g.hasStore || s.usageRecorded then pure ()
    else do
      let now ← ask .monotonic
      storeUsage principal rq.requestId (usageOf rq (now - s.started) status decoded)
      Act.modify fun s ↦ { s with usageRecorded := true }

/-- The error category of a status. -/
def category (status : Int) : Text :=
  if status = 400 ∨ status = 413 ∨ status = 415 then "invalid_request_error"
  else if status = 401 then "authentication_error"
  else if status = 403 then "permission_error"
  else if status = 404 then "not_found_error"
  else if status = 409 then "conflict_error"
  else if status = 429 then "rate_limit_error"
  else if status = 503 then "service_unavailable"
  else "api_error"

/-- The body of a refusal. -/
def errorValue (status : Int) (code : Text) : Json :=
  if g.hasStore then
    .obj [("error", .obj [("message", .str "C3R request could not be completed."),
      ("type", .str (category status)), ("code", .str code), ("param", .null),
      ("request_id", .str rq.requestId)])]
  else .obj [("error", .str code)]

/-- `json.dumps(value, separators=(",", ":")).encode("utf-8")`. -/
def errorBody (status : Int) (code : Text) : Bytes :=
  .ofAscii ((errorValue g rq status code).render true)

/-- The headers of a JSON reply. -/
def replyHeaders (length : Nat) : Headers :=
  [("x-request-id", rq.requestId), ("Content-Type", "application/json"),
    ("Cache-Control", "no-store"), ("Content-Length", decimal length)]

/-- The reply of `_send_error`, once usage was recorded or could not be. -/
def sendRefusal (status : Int) (code : Text) : Handler Unit := do
  sendHead status (replyHeaders rq (errorBody g rq status code).length)
  if rq.method ≠ .head then write (errorBody g rq status code) else pure ()

/-- `_send_error`. -/
def sendError (status : Int) (code : Text) : Handler Unit := do
  let recorded ← Act.tryExcept (do recordUsage g rq status []; pure true) isStoreFailure
    fun _ ↦ pure false
  if recorded then sendRefusal g rq status code else sendRefusal g rq 503 "access_unavailable"

/-- `_begin_request`. -/
def beginRequest : Handler Unit := do
  let now ← ask .monotonic
  Act.modify fun s ↦ { s with principal := none, started := now, usageRecorded := false }

/-! ### Authorization -/

/-- `_scope_allowed`. -/
def scopeAllowed : Handler Bool := do
  if g.hasStore then
    let s ← Act.read
    match s.principal, scopeOf rq.path with
    | some principal, some scope => pure (decide (scope ∈ principal.scopes))
    | _, _ => pure false
  else pure true

/-- `_admitted`. -/
def admitted : Handler Bool := do
  if g.hasStore then
    let s ← Act.read
    match s.principal with
    | some principal => admitRequest principal
    | none => pure false
  else ask .takeToken

/-- `hmac.compare_digest(a.encode(), b.encode())`. -/
def sameBytes (a b : Text) : Except PyError Bool := do
  let x ← a.encodeUtf8
  let y ← b.encodeUtf8
  pure (decide (x.data = y.data))

/-- The key in an `Authorization` header. -/
def bearer? (value : Text) : Option Text :=
  if (Text.ofString "Bearer ").isPrefixOf value then some (value.drop 7) else none

/-- `_authorized`, with a store. -/
def authorizedKey (supplied authorization : List Text) : Handler Bool :=
  match supplied, authorization with
  | [], [value] =>
    match bearer? value with
    | none => pure false
    | some key => do
      match ← authenticate key with
      | none => pure false
      | some principal => do
        Act.modify fun s ↦ { s with principal := some principal }
        pure true
  | _, _ => pure false

/-- `_authorized`. -/
def authorized : Handler Bool :=
  if overrideHeaders.any fun name ↦ !(getAll rq.headers name).isEmpty then pure false
  else
    let supplied := getAll rq.headers "X-C3R-Token"
    let authorization := getAll rq.headers "Authorization"
    if 1 < authorization.length ∨ 1 < supplied.length then pure false
    else if g.hasStore then authorizedKey supplied authorization
    else
      match supplied, authorization with
      | token :: _, _ => Act.ofExcept (sameBytes g.clientToken token)
      | [], [value] => Act.ofExcept (sameBytes (Text.ofString "Bearer " ++ g.clientToken) value)
      | [], _ => pure false

/-! ### Streams -/

/-- The payload of a frame: its `data:` lines without the field name. -/
def frameData (frame : Bytes) : Bytes :=
  Bytes.join [10] ((frame.splitLines.filter (Bytes.startsWith (.ofAscii "data:"))).map
    fun part ↦ Bytes.strip (part.drop 5))

/-- The event types that end a stream. -/
def isTerminal (eventType : Text) : Bool :=
  decide (eventType = Text.ofString "response.completed") ||
    decide (eventType = Text.ofString "response.failed")

/-- The event in a frame: its type and its members. -/
def streamEvent : Json → Except PyError (Text × List (Text × Json))
  | .obj entries =>
    match (Json.obj entries).get? "type" with
    | some (.str eventType) => .ok (eventType, entries)
    | _ => .error ⟨.typeError, "invalid stream event type"⟩
  | _ => .error ⟨.typeError, "invalid stream event"⟩

/-- The entries of `payload if isinstance(payload, dict) else {}`. -/
def payloadOf (entries : List (Text × Json)) : List (Text × Json) :=
  match (Json.obj entries).get? "response" with
  | some (.obj payload) => payload
  | _ => []

/-- A complete frame: record usage if it ends the stream, then relay it. -/
def relayFrame (frame : Bytes) : Handler Unit := do
  let raw ← loadsJson (frameData frame)
  let (eventType, entries) ← Act.ofExcept (streamEvent raw)
  if isTerminal eventType then
    recordUsage g rq (if eventType = Text.ofString "response.completed" then 200 else 503)
      (payloadOf entries)
    Act.modify fun s ↦ { s with terminal := true }
  write frame
  flush

/-- The loop of `_forward_stream`. Every line has at least one byte, so the bound on the total
ends the loop before the first argument runs out. -/
def streamLoop (deadline : ℚ) : Nat → Bytes → Nat → Handler Unit
  | 0, _, _ => Act.raise (valueError "stream bound exceeded")
  | n + 1, frame, total => do
    let now ← ask .monotonic
    if now < deadline then
      let line ← readLine (maxResponseBytes + 1)
      if line = [] then Act.raise (valueError "incomplete stream")
      else if maxResponseBytes < (frame ++ line).length ∨ maxStreamBytes < total + line.length then
        Act.raise (valueError "stream bound exceeded")
      else if line = [10] ∨ line = [13, 10] then
        relayFrame g rq (frame ++ line)
        let s ← Act.read
        if s.terminal then pure ()
        else streamLoop deadline n [] (total + line.length)
      else streamLoop deadline n (frame ++ line) (total + line.length)
    else Act.raise (valueError "incomplete stream")

/-- The event that ends an interrupted stream. -/
def interrupted : Json :=
  .obj [("type", .str "response.failed"), ("response", .obj [("status", .str "failed"),
    ("error", .obj [("code", .str "stream_interrupted"),
      ("message", .str "C3R stream interrupted.")])])]

/-- Its frame. -/
def interruptedFrame : Bytes :=
  .ofAscii (Text.ofString "event: response.failed\ndata: " ++ interrupted.renderSpaced true ++
    Text.ofString "\n\n")

/-- The `except` block of `_forward_stream`. -/
def streamFailed : Handler Unit := do
  let s ← Act.read
  if s.terminal then pure ()
  else
    Act.tryExcept (do
      let gone ← ask .isDisconnected
      recordUsage g rq (if gone then 499 else 503) []
      write interruptedFrame
      flush) isStoreFailure fun _ ↦ pure ()

/-- The headers of a stream. -/
def streamHeaders : Headers :=
  [("Content-Type", "text/event-stream"), ("Cache-Control", "no-store"),
    ("X-Accel-Buffering", "no"), ("x-request-id", rq.requestId)]

/-- `_forward_stream`. -/
def forwardStream : Handler Unit := do
  sendHead 200 (streamHeaders rq)
  Act.modify fun s ↦ { s with terminal := false }
  let now ← ask .monotonic
  Act.tryExcept (streamLoop g rq (now + 300) (maxStreamBytes + 1) [] 0) isStreamFailure
    fun _ ↦ streamFailed g rq

/-! ### Forwarding -/

/-- The audit event of a request that goes upstream. -/
def dispatch : Handler Unit := do
  let s ← Act.read
  match s.principal with
  | some principal => if g.hasStore then dispatchEvent principal rq.requestId else pure ()
  | none => pure ()

/-- The headers that go upstream. -/
def upstreamHeaders (body : Option Bytes) : Headers :=
  ("Authorization", Text.ofString "Bearer " ++ g.upstreamToken) ::
    ("x-request-id", rq.requestId) ::
    if body.isSome then [("Content-Type", "application/json")] else []

/-- Connect and start the watcher thread. -/
def openUpstream : Handler Unit := do
  let hasSocket ← connect
  if hasSocket then
    Act.modify fun s ↦ { s with watcher := .created }
    startWatcher
    Act.modify fun s ↦ { s with watcher := .started }
  else Act.raise ⟨.osError, "upstream transport missing"⟩

/-- The code of a refusal by the upstream. -/
def clientErrorCode (status : Int) : Text :=
  if status = 400 then "invalid_request"
  else if status = 413 then "request_too_large"
  else if status = 415 then "unsupported_media_type"
  else if status = 422 then "unprocessable_request"
  else "upstream_rejected"

/-- A JSON reply of the upstream, with what is left to send. -/
def receiveJson (status : Int) : Handler (Option (Int × Bytes)) := do
  let forwarded ← readResponse (maxResponseBytes + 1)
  if maxResponseBytes < forwarded.length then
    sendError g rq 502 "invalid_upstream_response"
    pure none
  else
    match ← loadsJson forwarded with
    | .obj decoded =>
      if 200 ≤ status ∧ status ≤ 599 then
        recordUsage g rq status decoded
        if 400 ≤ status ∧ g.hasStore = true then
          sendError g rq status (clientErrorCode status)
          pure none
        else pure (some (status, forwarded))
      else Act.raise (valueError "invalid upstream response")
    | _ => Act.raise (valueError "invalid upstream response")

/-- The reply of the upstream. -/
def receive : Handler (Option (Int × Bytes)) := do
  let head ← getResponse
  if head.status = 200 ∧ beforeSemicolon head.contentType = Text.ofString "text/event-stream" then
    if rq.method = .post ∧ rq.path = Text.ofString "/v1/responses" then
      forwardStream g rq
      pure none
    else Act.raise (valueError "unexpected stream")
  else receiveJson g rq head.status

/-- The `except` block of `_forward`. -/
def exchangeFailed : Handler Unit := do
  if ← ask .isDisconnected then
    Act.tryExcept (recordUsage g rq 499 []) isStoreFailure fun _ ↦ pure ()
  else sendError g rq 503 "upstream_unavailable"

/-- The `try` block of `_forward`, with its `except`. -/
def exchange (body : Option Bytes) : Handler (Option (Int × Bytes)) :=
  Act.tryExcept (do
    dispatch g rq
    openUpstream
    sendRequest rq.method rq.path body (upstreamHeaders g rq body)
    receive g rq) isForwardFailure fun _ ↦ do
      exchangeFailed g rq
      pure none

/-- `watcher.join(timeout=1)`, unless no watcher was created. -/
def joinWatcher : Handler Unit := do
  let s ← Act.read
  match s.watcher with
  | .none => pure ()
  | .created => Act.raise ⟨.runtimeError, "cannot join thread before it is started"⟩
  | .started => ask .joinWatcher

/-- Give the permit of a route back, if it has one. -/
def releaseRoute : Option Slot → Handler Unit
  | some slot => ask (.release slot)
  | none => pure ()

/-- The `finally` block of `_forward`. -/
def cleanUp (slot : Option Slot) : Handler Unit := do
  joinWatcher
  closeConnection
  ask (.release .inFlight)
  releaseRoute slot

/-- Take a permit of a route, if it has one. -/
def acquireRoute : Option Slot → Handler Bool
  | some slot => ask (.acquire slot)
  | none => pure true

/-- A refusal for want of a permit. -/
def overCapacity : Handler Unit := sendError g rq (if g.hasStore then 429 else 503) "over_capacity"

/-- `_forward`. -/
def forward (body : Option Bytes) : Handler Unit := do
  Act.modify fun s ↦ { s with watcher := .none }
  if ← acquireRoute (slotOf rq.path) then
    if ← ask (.acquire .inFlight) then
      match ← Act.finallyDo (exchange g rq body) (cleanUp (slotOf rq.path)) with
      | none => pure ()
      | some (status, forwarded) => do
        sendHead status (replyHeaders rq forwarded.length)
        write forwarded
    else
      releaseRoute (slotOf rq.path)
      overCapacity g rq
  else overCapacity g rq

/-! ### Entry points -/

/-- `_get` on a path other than `/health`. -/
def guardedGet : Handler Unit := do
  if ← authorized g rq then
    if ← scopeAllowed g rq then
      -- without a store the limiter is not asked
      let passed ← if g.hasStore then admitted g else pure true
      if passed then forward g rq none
      else sendError g rq 429 "rate_limited"
    else sendError g rq 403 "insufficient_scope"
  else sendError g rq 401 "unauthorized"

/-- `_get`. -/
def get : Handler Unit := do
  beginRequest
  if rq.path ∉ getPaths then sendError g rq 404 "not_found"
  else if rq.path = Text.ofString "/health" then forward g rq none
  else guardedGet g rq

/-- `Content-Length`, with `-1` for what cannot be read. -/
def contentLength : Int :=
  match getAll rq.headers "Content-Length" with
  | [value] => (parseInt value).getD (-1)
  | _ => -1

/-- The end of `_post`. -/
def postBody : Handler Unit := do
  if contentLength rq < 1 ∨ maxRequestBytes < contentLength rq then
    sendError g rq 413 "request_size_out_of_bounds"
  else
    let body ← readBody (contentLength rq).toNat
    forward g rq (some body)

/-- `headers.get("Content-Type", "").split(";", 1)[0].strip().lower()`. -/
def mediaType : Text := lower (strip (beforeSemicolon ((getAll rq.headers "Content-Type").headD [])))

/-- `_post` on a path that it serves. -/
def guardedPost : Handler Unit := do
  if ← authorized g rq then
    if ← scopeAllowed g rq then
      if !(getAll rq.headers "Transfer-Encoding").isEmpty then
        sendError g rq 400 "unsupported_transfer_encoding"
      else if mediaType rq ≠ Text.ofString "application/json" then
        sendError g rq 415 "unsupported_media_type"
      else if ← admitted g then postBody g rq
      else sendError g rq 429 "rate_limited"
    else sendError g rq 403 "insufficient_scope"
  else sendError g rq 401 "unauthorized"

/-- `_post`. -/
def post : Handler Unit := do
  beginRequest
  if rq.path ∉ postPaths then sendError g rq 404 "not_found" else guardedPost g rq

/-- The `except` of `do_GET` and `do_POST`. -/
def answering (method : Handler Unit) : Handler Unit :=
  Act.tryExcept method isStoreFailure fun _ ↦ sendError g rq 503 "access_unavailable"

/-- `send_error`, for methods and requests that are not handled. -/
def refuse (code : Int) : Handler Unit := do
  beginRequest
  if code = 501 then sendError g rq 405 "method_not_allowed"
  else sendError g rq code "invalid_request"

/-- One request; a code is what the base class found wrong with it. -/
def handle (malformed : Option Int) : Handler Unit :=
  match malformed with
  | some code => refuse g rq code
  | none =>
    match rq.method with
    | .get => answering g rq (get g rq)
    | .post => answering g rq (post g rq)
    | .head | .other => refuse g rq 501

end Handler

end C3RSpec.Ingress
