import C3RSpec.Base.Stateful
import C3RSpec.Service.Frames

/-!
# Generation requests of the service

`c3r/http_service.py:147–247, 331–371`. A generation request takes a permit, and either responds
at once or opens a stream and sends its events while a second thread watches the client. The two
threads share the flags of `_send_stream` and its lock; every access to them is one operation, as
is every call that may block or raise. Loops are cut after a number of rounds.
-/

namespace C3RSpec.Service

open Base

/-- Response headers, in order. -/
abbrev Headers := List (Text × Text)

/-- What the threads of a request do. -/
inductive ServiceOp where
  | acquirePermit
  | releasePermit
  | increment (name : Text)
  | sendJson (status : Int) (value : Json)
  | respond
  | startOpening
  | openEvents
  | isCancelled
  | finishOpening
  | sendHead (status : Int) (headers : Headers)
  | startWatcher
  | nextEvent
  | write (frame : Bytes)
  | flush
  | closeEvents
  | abortEvents
  | joinWatcher
  | lock
  | unlock
  | isGone
  | setGone
  | isReleased
  | setReleased
  | isStopped
  | setStopped
  | begin
  | select
  | peek

/-- What they get. `nextEvent` is empty-handed where Python raises `StopIteration`. -/
@[reducible] def ServiceOp.Res : ServiceOp → Type
  | .acquirePermit => Bool
  | .releasePermit => Unit
  | .increment _ => Unit
  | .sendJson _ _ => Except PyError Unit
  | .respond => Except PyError Json
  | .startOpening => Except PyError Unit
  | .openEvents => Except PyError Unit
  | .isCancelled => Bool
  | .finishOpening => Unit
  | .sendHead _ _ => Except PyError Unit
  | .startWatcher => Except PyError Unit
  | .nextEvent => Except PyError (Option StreamEvent)
  | .write _ => Except PyError Unit
  | .flush => Except PyError Unit
  | .closeEvents => Except PyError Unit
  | .abortEvents => Except PyError Unit
  | .joinWatcher => Unit
  | .lock => Unit
  | .unlock => Unit
  | .isGone => Bool
  | .setGone => Unit
  | .isReleased => Bool
  | .setReleased => Unit
  | .isStopped => Bool
  | .setStopped => Unit
  | .begin => Unit
  | .select => Except PyError Bool
  | .peek => Except PyError Unit

/-- The variable `watcher`: no thread, one that was created, or one that was started. -/
inductive Watcher where
  | none
  | created
  | started
  deriving DecidableEq

/-- Parts of a thread. -/
abbrev Serving := Act ServiceOp ServiceOp.Res Watcher

/-- One operation. -/
abbrev ask (o : ServiceOp) : Serving o.Res := Act.perform o

/-! ### Exceptions -/

/-- `ClientDisconnected`. -/
def clientDisconnected : PyError := ⟨.other, "ClientDisconnected"⟩

/-- `except OSError`. -/
def isOSError (e : PyError) : Bool := decide (e.kind = .osError)

/-- `except RuntimeError`, of which `RecursionError` is a subclass. -/
def isRuntimeError (e : PyError) : Bool :=
  decide (e.kind = .runtimeError) || decide (e.kind = .recursionError)

/-- `except (KeyError, TypeError, ValueError, RecursionError, json.JSONDecodeError)`. -/
def isInvalidRequest (e : PyError) : Bool :=
  match e.kind with
  | .keyError | .typeError | .valueError | .unicodeEncodeError | .recursionError => true
  | .indexError | .attributeError
  | .osError | .sqliteError | .runtimeError | .overflowError | .httpException | .driverError
  | .other => false

/-- `except (OSError, RuntimeError)`, after the clause before it. -/
def isServiceFailure (e : PyError) : Bool :=
  decide (e.kind = .osError) || decide (e.kind = .runtimeError)

/-! ### The shared flags -/

/-- `record_disconnect`. -/
def recordDisconnect : Serving Unit := do
  ask .lock
  if ← ask .isGone then ask .unlock
  else
    ask .setGone
    ask (.increment "stream_disconnect")
    ask .unlock

/-- `release_capacity`. -/
def releaseCapacity : Serving Unit := do
  ask .lock
  if ← ask .isReleased then ask .unlock
  else
    ask .setReleased
    ask .releasePermit
    ask .unlock

/-- What the watcher does once the client is gone. -/
def abandon : Serving Bool := do
  recordDisconnect
  ask .abortEvents >>= Act.ofExcept
  releaseCapacity
  pure false

/-- One round of the watcher; whether it goes on. -/
def watchRound : Serving Bool :=
  Act.tryExcept (do
    if ← ask .select >>= Act.ofExcept then
      ask .peek >>= Act.ofExcept
      abandon
    else pure true) isOSError fun _ ↦ abandon

/-- `watch_disconnect`. -/
def watchDisconnect : Nat → Serving Unit
  | 0 => pure ()
  | n + 1 => do
    if ← ask .isStopped then pure ()
    else if ← watchRound then watchDisconnect n
    else pure ()

section Handler

variable [FloatText] (counts : Invocations)

/-! ### Streams -/

/-- The loop over the events. -/
def sendEvents : Nat → Serving Unit
  | 0 => pure ()
  | n + 1 => do
    match ← ask .nextEvent >>= Act.ofExcept with
    | none => pure ()
    | some event =>
      if ← ask .isGone then pure ()
      else
        let bytes ← Act.ofExcept (frame counts event)
        ask (.write bytes) >>= Act.ofExcept
        ask .flush >>= Act.ofExcept
        sendEvents n

/-- The headers of a stream. -/
def streamHeaders : Headers :=
  [("Content-Type", "text/event-stream"), ("Cache-Control", "no-store"),
    ("X-Accel-Buffering", "no"), ("Connection", "close")]

/-- `watcher.join(timeout=0.5)`, unless no watcher was created. -/
def joinWatcher : Serving Unit := do
  match ← Act.read with
  | .none => pure ()
  | .created => Act.raise ⟨.runtimeError, "cannot join thread before it is started"⟩
  | .started => ask .joinWatcher

/-- The `finally` block of `_send_stream`. -/
def cleanUp : Serving Unit := do
  ask .setStopped
  ask .closeEvents >>= Act.ofExcept
  joinWatcher
  releaseCapacity

/-- The `try` block of `_send_stream`. -/
def streaming (rounds : Nat) : Serving Unit := do
  ask (.sendHead 200 streamHeaders) >>= Act.ofExcept
  Act.modify fun _ ↦ .created
  ask .startWatcher >>= Act.ofExcept
  Act.modify fun _ ↦ .started
  sendEvents counts rounds

/-- `_send_stream`. -/
def sendStream (rounds : Nat) : Serving Unit :=
  Act.finallyDo (Act.tryExcept (streaming counts rounds) isOSError fun _ ↦ recordDisconnect) cleanUp

/-- The `try` block of `_open_stream`. -/
def opening : Serving Unit := do
  ask .openEvents >>= Act.ofExcept
  if ← ask .isCancelled then
    ask .closeEvents >>= Act.ofExcept
    Act.raise clientDisconnected
  else pure ()

/-- `_open_stream`. -/
def openStream : Serving Unit := do
  ask .startOpening >>= Act.ofExcept
  Act.finallyDo (Act.tryExcept opening isRuntimeError fun e ↦ do
    if ← ask .isCancelled then Act.raise clientDisconnected else Act.raise e) (ask .finishOpening)

/-! ### Requests -/

/-- A permit is given back on every exception of `_open_stream`. -/
def openOrRelease : Serving Unit :=
  Act.tryExcept openStream (fun _ ↦ true) fun e ↦ do
    ask .releasePermit
    Act.raise e

/-- The generation branch of `_post`. -/
def generate (stream : Bool) (rounds : Nat) : Serving Unit := do
  if ← ask .acquirePermit then
    if stream then
      openOrRelease
      ask (.increment "text_responses")
      sendStream counts rounds
    else
      let response ← Act.finallyDo (ask .respond >>= Act.ofExcept) (ask .releasePermit)
      ask (.increment "text_responses")
      ask (.sendJson 200 response) >>= Act.ofExcept
  else ask (.sendJson 429 (.obj [("error", .str "capacity_exceeded")])) >>= Act.ofExcept

/-- A refusal after an exception. -/
def refuse (metric : Text) (status : Int) (code : Text) : Serving Unit := do
  ask (.increment metric)
  ask (.sendJson status (.obj [("error", .str code)])) >>= Act.ofExcept

/-- `_post` with its exception mapping, for a generation request. -/
def post (stream : Bool) (rounds : Nat) : Serving Unit :=
  Act.tryExcept (generate counts stream rounds)
    (fun e ↦ decide (e = clientDisconnected) || isInvalidRequest e || isServiceFailure e) fun e ↦
      if e = clientDisconnected then pure ()
      else if isInvalidRequest e then refuse "invalid_request" 400 "invalid_request"
      else refuse "internal_failure" 503 "service_unavailable"

end Handler

end C3RSpec.Service
