import C3RSpec.Ingress.Handler

/-!
# What each part of the handler asks for

Each of these parts leaves the watcher thread alone. Refusals and usage records touch the client,
the clock and the store; relaying adds the reading of the upstream's reply. Only `_forward` itself
takes and gives permits, and only opening and sending contact the upstream.
-/

namespace C3RSpec.Ingress

open Base

/-- Events of one request. -/
abbrev Log := List (Event IngressOp IngressOp.Res)

/-- The operations of a refusal. -/
def replies : IngressOp → Bool
  | .monotonic | .recordUsage _ _ _ | .sendHead _ _ | .write _ => true
  | _ => false

/-- The operations of relaying a reply. -/
def relays : IngressOp → Bool
  | .monotonic | .recordUsage _ _ _ | .sendHead _ _ | .write _ | .flush | .readLine _ | .read _
  | .loads _ | .isDisconnected | .getResponse => true
  | _ => false

/-- A refusal is part of relaying. -/
theorem relays_of_replies {o : IngressOp} (h : replies o = true) : relays o = true := by
  cases o with
  | monotonic | recordUsage | sendHead | write => rfl
  | _ => cases h

/-- A call that may raise. -/
theorem within_raising {α : Type} {p : IngressOp → Prop} (o : IngressOp)
    {f : o.Res → Except PyError α} (h : p o) :
    Act.Within p Session.watcher (ask o >>= fun r ↦ Act.ofExcept (f r) : Handler α) :=
  (Act.within_perform h).bind fun _ ↦ Act.within_ofExcept _

section Parts

variable [FloatText] (g : Gateway) (rq : Request) {p : IngressOp → Prop}

omit [FloatText] in
/-- `_record_usage` reads the clock and asks the store. -/
theorem recordUsage_within (hp : ∀ o, replies o = true → p o) (status : Int)
    (decoded : List (Text × Json)) : (recordUsage g rq status decoded).Within p Session.watcher := by
  refine Act.within_read.bind fun s ↦ ?_
  split
  · exact Act.within_pure ()
  · split
    · exact Act.within_pure ()
    · refine (Act.within_perform (hp .monotonic rfl)).bind fun now ↦ ?_
      refine Act.Within.bind (within_raising (.recordUsage _ _ _) (hp _ rfl)) fun _ ↦ ?_
      exact Act.within_modify fun _ ↦ rfl

private theorem sendRefusal_within (hp : ∀ o, replies o = true → p o) (status : Int) (code : Text) :
    (sendRefusal g rq status code).Within p Session.watcher := by
  refine Act.Within.bind (within_raising (.sendHead _ _) (hp _ rfl)) fun _ ↦ ?_
  split
  · exact within_raising (.write _) (hp _ rfl)
  · exact Act.within_pure ()

/-- `_send_error` records usage and replies. -/
theorem sendError_within (hp : ∀ o, replies o = true → p o) (status : Int) (code : Text) :
    (sendError g rq status code).Within p Session.watcher := by
  refine Act.Within.bind (Act.Within.tryExcept ?_ fun _ ↦ Act.within_pure _) fun recorded ↦ ?_
  · exact (recordUsage_within g rq hp status []).bind fun _ ↦ Act.within_pure _
  · split
    · exact sendRefusal_within g rq hp status code
    · exact sendRefusal_within g rq hp 503 _

omit [FloatText] in
private theorem relayFrame_within (hp : ∀ o, relays o = true → p o) (frame : Bytes) :
    (relayFrame g rq frame).Within p Session.watcher := by
  refine Act.Within.bind (within_raising (.loads _) (hp _ rfl)) fun raw ↦ ?_
  refine (Act.within_ofExcept _).bind fun event ↦ ?_
  have hsend : Act.Within p Session.watcher (do write frame; flush : Handler Unit) :=
    Act.Within.bind (within_raising (.write _) (hp _ rfl)) fun _ ↦ within_raising .flush (hp _ rfl)
  dsimp only
  split
  · refine Act.Within.bind (recordUsage_within g rq (fun o ho ↦ hp o (relays_of_replies ho)) _ _)
      fun _ ↦ ?_
    exact Act.Within.bind (Act.within_modify fun _ ↦ rfl) fun _ ↦ hsend
  · exact hsend

omit [FloatText] in
private theorem streamLoop_within (hp : ∀ o, relays o = true → p o) (deadline : ℚ) (n : Nat)
    (frame : Bytes) (total : Nat) :
    (streamLoop g rq deadline n frame total).Within p Session.watcher := by
  induction n generalizing frame total with
  | zero => exact Act.within_raise _
  | succ n ih =>
    refine (Act.within_perform (hp .monotonic rfl)).bind fun now ↦ ?_
    split
    · refine Act.Within.bind (within_raising (.readLine _) (hp _ rfl)) fun line ↦ ?_
      split
      · exact Act.within_raise _
      · split
        · exact Act.within_raise _
        · split
          · refine (relayFrame_within g rq hp _).bind fun _ ↦ Act.within_read.bind fun s ↦ ?_
            split
            · exact Act.within_pure ()
            · exact ih _ _
          · exact ih _ _
    · exact Act.within_raise _

private theorem streamFailed_within (hp : ∀ o, relays o = true → p o) :
    (streamFailed g rq).Within p Session.watcher := by
  refine Act.within_read.bind fun s ↦ ?_
  split
  · exact Act.within_pure ()
  · refine Act.Within.tryExcept ?_ fun _ ↦ Act.within_pure ()
    refine (Act.within_perform (hp .isDisconnected rfl)).bind fun gone ↦ ?_
    refine Act.Within.bind (recordUsage_within g rq (fun o ho ↦ hp o (relays_of_replies ho)) _ _)
      fun _ ↦ ?_
    exact Act.Within.bind (within_raising (.write _) (hp _ rfl)) fun _ ↦
      within_raising .flush (hp _ rfl)

private theorem forwardStream_within (hp : ∀ o, relays o = true → p o) :
    (forwardStream g rq).Within p Session.watcher := by
  refine Act.Within.bind (within_raising (.sendHead _ _) (hp _ rfl)) fun _ ↦ ?_
  refine Act.Within.bind (Act.within_modify fun _ ↦ rfl) fun _ ↦ ?_
  refine (Act.within_perform (hp .monotonic rfl)).bind fun now ↦ ?_
  exact (streamLoop_within g rq hp _ _ _ _).tryExcept fun _ ↦ streamFailed_within g rq hp

private theorem receiveJson_within (hp : ∀ o, relays o = true → p o) (status : Int) :
    (receiveJson g rq status).Within p Session.watcher := by
  have hreply : ∀ o, replies o = true → p o := fun o ho ↦ hp o (relays_of_replies ho)
  refine Act.Within.bind (within_raising (.read _) (hp _ rfl)) fun forwarded ↦ ?_
  split
  · exact (sendError_within g rq hreply _ _).bind fun _ ↦ Act.within_pure _
  · refine Act.Within.bind (within_raising (.loads _) (hp _ rfl)) fun decoded ↦ ?_
    split
    · split
      · refine (recordUsage_within g rq hreply _ _).bind fun _ ↦ ?_
        split
        · exact (sendError_within g rq hreply _ _).bind fun _ ↦ Act.within_pure _
        · exact Act.within_pure _
      · exact Act.within_raise _
    · exact Act.within_raise _

/-- The reply of the upstream is read, recorded and relayed. -/
theorem receive_within (hp : ∀ o, relays o = true → p o) : (receive g rq).Within p Session.watcher := by
  refine Act.Within.bind (within_raising .getResponse (hp _ rfl)) fun head ↦ ?_
  split
  · split
    · exact (forwardStream_within g rq hp).bind fun _ ↦ Act.within_pure _
    · exact Act.within_raise _
  · exact receiveJson_within g rq hp _

/-- A failed exchange is recorded or answered. -/
theorem exchangeFailed_within (hp : ∀ o, relays o = true → p o) :
    (exchangeFailed g rq).Within p Session.watcher := by
  have hreply : ∀ o, replies o = true → p o := fun o ho ↦ hp o (relays_of_replies ho)
  refine (Act.within_perform (hp .isDisconnected rfl)).bind fun gone ↦ ?_
  split
  · exact (recordUsage_within g rq hreply 499 []).tryExcept fun _ ↦ Act.within_pure ()
  · exact sendError_within g rq hreply _ _

end Parts

/-! ### Documented exceptions -/

/-- The call returns, or raises an exception of one of these classes. -/
def RaisesOnly {α : Type} (kinds : List ErrorKind) (x : Except PyError α) : Prop :=
  ∀ e, x = .error e → e.kind ∈ kinds

/-- The exceptions that each call is documented to raise: the store those of its driver and of the
system, a thread `RuntimeError` when it cannot start, sockets `OSError`, the HTTP client its own
class and `ValueError`, the decoder `ValueError` and, on deeply nested text, `RecursionError`. -/
def Documented : (o : IngressOp) → o.Res → Prop
  | .authenticate _ => RaisesOnly [.osError, .sqliteError, .driverError]
  | .admitRequest _ => RaisesOnly [.osError, .sqliteError, .driverError]
  | .dispatchEvent _ _ => RaisesOnly [.osError, .sqliteError, .driverError]
  | .recordUsage _ _ _ => RaisesOnly [.osError, .sqliteError, .driverError]
  | .connect => RaisesOnly [.osError]
  | .startWatcher => RaisesOnly [.runtimeError]
  | .request _ _ _ _ => RaisesOnly [.osError, .httpException, .valueError, .unicodeEncodeError]
  | .getResponse => RaisesOnly [.osError, .httpException, .valueError]
  | .read _ => RaisesOnly [.osError, .httpException, .valueError]
  | .readLine _ => RaisesOnly [.osError, .httpException, .valueError]
  | .loads _ => RaisesOnly [.valueError, .recursionError]
  | .closeConnection => RaisesOnly [.osError]
  | .readBody _ => RaisesOnly [.osError]
  | .sendHead _ _ => RaisesOnly [.osError]
  | .write _ => RaisesOnly [.osError]
  | .flush => RaisesOnly [.osError]
  | .takeToken | .acquire _ | .release _ | .monotonic | .isDisconnected | .joinWatcher =>
    fun _ ↦ True

/-! ### A host -/

/-- A principal that may list models and ask for responses. -/
def somePrincipal : ApiAccess.Principal :=
  ⟨"acme", "web", "key", {Text.ofString "models:read", Text.ofString "responses:write"}⟩

/-- A host on which every call succeeds and the upstream answers an empty object. -/
def calmHost : (o : IngressOp) → o.Res
  | .authenticate _ => .ok (some somePrincipal)
  | .admitRequest _ => .ok true
  | .dispatchEvent _ _ => .ok ()
  | .recordUsage _ _ _ => .ok ()
  | .takeToken => true
  | .acquire _ => true
  | .release _ => ()
  | .monotonic => 0
  | .connect => .ok true
  | .startWatcher => .ok ()
  | .request _ _ _ _ => .ok ()
  | .getResponse => .ok ⟨200, "application/json"⟩
  | .read _ => .ok (.ofAscii "{}")
  | .readLine _ => .ok []
  | .loads _ => .ok (.obj [])
  | .isDisconnected => false
  | .joinWatcher => ()
  | .closeConnection => .ok ()
  | .readBody _ => .ok []
  | .sendHead _ _ => .ok ()
  | .write _ => .ok ()
  | .flush => .ok ()

/-- It raises nothing. -/
theorem documented_calmHost (o : IngressOp) : Documented o (calmHost o) := by
  cases o <;>
    first
    | trivial
    | exact fun e he ↦ by cases he

/-- A gateway with an access store. -/
def keyGateway : Gateway := ⟨true, "client", "upstream"⟩

/-- A request for the list of models. -/
def modelsRequest : Request :=
  ⟨.get, "/v1/models", [(Text.ofString "Authorization", Text.ofString "Bearer secret")], "req_1"⟩

end C3RSpec.Ingress
