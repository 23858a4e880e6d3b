import C3RSpec.Ingress.Operations

/-!
# Answers during store outages

Every exception of the store that the gateway knows ends in a refusal: before the upstream was
contacted with status 503, and after that without a second reply. Exceptions that no handler
catches, such as those of the second backend's driver, end the request without one. A stream whose
last usage record fails ends without its terminal event.
-/

namespace C3RSpec.Ingress.Outage

open Base

/-! ### What the client sees -/

/-- A reply as far as it was sent; whether its last event ended the stream. -/
structure Reply where
  status : Int
  headers : Headers
  body : Bytes
  ended : Bool

/-- A reply is complete with the bytes that its `Content-Length` promises, none for `HEAD`, or with
the event that ends its stream. -/
def Reply.Complete (method : Method) (reply : Reply) : Prop :=
  match reply.headers.lookup (Text.ofString "Content-Length") with
  | some length => if method = .head then reply.body = [] else decimal reply.body.length = length
  | none => reply.ended = true

/-- The replies of a run, newest first, and what happened at the host. -/
structure Wire where
  replies : List Reply
  event : Option Bool
  contacted : Bool
  refused : Bool
  stray : Bool
  streaming : Bool
  unrecorded : Bool

/-- No event. -/
def Wire.zero : Wire := ⟨[], none, false, false, false, false, false⟩

/-- The decoded event ends its stream. -/
def endsStream (raw : Json) : Bool :=
  match streamEvent raw with
  | .ok (eventType, _) => isTerminal eventType
  | .error _ => false

/-- The upstream answered a stream that the request may relay. -/
def opensStream (rq : Request) (head : ResponseHead) : Bool :=
  decide (head.status = 200 ∧
    beforeSemicolon head.contentType = Text.ofString "text/event-stream") &&
    decide (rq.method = .post ∧ rq.path = Text.ofString "/v1/responses")

/-- The exception is one of the driver of the second backend. -/
def isDriver (e : PyError) : Bool := decide (e.kind = .driverError)

section Observation

variable [FloatText]

/-- More bytes of the newest reply. `event` tells of a relayed event whether it ends the stream. -/
def extend (event : Option Bool) (b : Bytes) : List Reply → List Reply
  | reply :: rest =>
    { reply with body := reply.body ++ b, ended := event.getD (decide (b = interruptedFrame)) } ::
      rest
  | [] => []

/-- One more event. Whether the client is gone is asked once nothing more is relayed. -/
def Wire.next (rq : Request) (w : Wire) : Event IngressOp IngressOp.Res → Wire
  | ⟨.authenticate _, .error e⟩ => { w with refused := true, stray := w.stray || isDriver e }
  | ⟨.admitRequest _, .error e⟩ => { w with refused := true, stray := w.stray || isDriver e }
  | ⟨.dispatchEvent _ _, .error e⟩ => { w with refused := true, stray := w.stray || isDriver e }
  | ⟨.recordUsage _ _ _, .ok _⟩ => { w with unrecorded := false }
  | ⟨.recordUsage _ _ _, .error e⟩ => { w with unrecorded := true, stray := w.stray || isDriver e }
  | ⟨.loads _, .ok raw⟩ => { w with event := some (endsStream raw) }
  | ⟨.loads _, .error e⟩ => { w with stray := w.stray || decide (e.kind = .recursionError) }
  | ⟨.startWatcher, .error _⟩ => { w with stray := true }
  | ⟨.connect, _⟩ => { w with contacted := true }
  | ⟨.request _ _ _ _, _⟩ => { w with contacted := true }
  | ⟨.getResponse, .ok head⟩ => { w with streaming := opensStream rq head }
  | ⟨.isDisconnected, _⟩ => { w with event := none }
  | ⟨.sendHead status headers, .ok _⟩ =>
    { w with replies := ⟨status, headers, [], false⟩ :: w.replies }
  | ⟨.write b, .ok _⟩ => { w with replies := extend w.event b w.replies }
  | _ => w

/-- What a run shows. -/
def observe (rq : Request) (es : Log) : Wire := es.foldl (Wire.next rq) .zero

/-- The client stays connected, and the connection to the upstream can be closed. -/
def Connected : (o : IngressOp) → o.Res → Prop
  | .sendHead _ _ => fun r ↦ r = .ok ()
  | .write _ => fun r ↦ r = .ok ()
  | .flush => fun r ↦ r = .ok ()
  | .isDisconnected => fun r ↦ r = false
  | .closeConnection => fun r ↦ r = .ok ()
  | _ => fun _ ↦ True

/-- The monitor of replies, with a connected client. -/
abbrev observing (rq : Request) : Monitor IngressOp IngressOp.Res Unit Wire :=
  ⟨Wire.next rq, fun _ _ ↦ True, fun o r ↦ Documented o r ∧ Connected o r, fun _ _ ↦ True⟩

end Observation

section Replies

variable [FloatText] (g : Gateway) (rq : Request)

/-- The reply is this refusal. -/
structure Refusal (answer : Int) (code : Text) (reply : Reply) : Prop where
  status : reply.status = answer
  headers : reply.headers = replyHeaders rq (errorBody g rq answer code).length
  body : reply.body = if rq.method ≠ .head then errorBody g rq answer code else []

/-- The reply is a sanitized 503 with the id of the request. -/
def Sanitized (reply : Reply) : Prop :=
  reply.status = 503 ∧ (Text.ofString "x-request-id", rq.requestId) ∈ reply.headers ∧
    (reply.body = errorBody g rq 503 "access_unavailable" ∨
      reply.body = errorBody g rq 503 "upstream_unavailable")

/-- The client received exactly one complete reply; if the store failed to authenticate, admit or
dispatch, it is a sanitized 503 and the upstream was not contacted. -/
def Answered (w : Wire) : Prop :=
  ∃ reply, w.replies = [reply] ∧ reply.Complete rq.method ∧
    (w.refused = true → Sanitized g rq reply ∧ w.contacted = false)

/-- Nothing that the gateway does not catch was raised, and the usage of a relayed stream was
recorded. -/
def Undisturbed (w : Wire) : Prop :=
  w.stray = false ∧ ¬(w.streaming = true ∧ w.unrecorded = true)

end Replies

/-! ### States of a request -/

section States

variable [FloatText] {g : Gateway} {rq : Request} {w : Wire} {s : Session}

/-- A usage record that failed can still be made up for. -/
def Owing (w : Wire) (s : Session) : Prop :=
  w.unrecorded = true → s.principal.isSome = true ∧ s.usageRecorded = false

/-- Nothing was sent yet and nothing went astray. -/
structure Open (w : Wire) (s : Session) : Prop where
  replies : w.replies = []
  stray : w.stray = false
  streaming : w.streaming = false
  contact : w.refused = true → w.contacted = false
  owing : Owing w s

/-- The request is answered, and nothing went astray. -/
def Served (g : Gateway) (rq : Request) (w : Wire) : Prop := Answered g rq w ∧ Undisturbed w

/-- Something went astray, and there is no complete reply. -/
def Broken (rq : Request) (w : Wire) : Prop :=
  ¬Undisturbed w ∧ ∀ reply, w.replies = [reply] → ¬reply.Complete rq.method

omit [FloatText] in
private theorem Open.broken (h : w.replies = []) (hstray : w.stray = true) : Broken rq w := by
  refine ⟨fun hu ↦ Bool.false_ne_true (hu.1.symm.trans hstray), fun reply hr ↦ ?_⟩
  rw [h] at hr
  cases hr

private theorem Refusal.complete {answer : Int} {code : Text} {reply : Reply}
    (h : Refusal g rq answer code reply) : reply.Complete rq.method := by
  have hlength : reply.headers.lookup (Text.ofString "Content-Length") =
      some (decimal (errorBody g rq answer code).length) := by
    rw [h.headers]
    rfl
  rw [Reply.Complete, hlength, h.body]
  by_cases hhead : rq.method = .head
  · show if rq.method = .head then _ else _
    rw [if_pos hhead, if_neg (not_not.mpr hhead)]
  · show if rq.method = .head then _ else _
    rw [if_neg hhead, if_pos hhead]

private theorem Refusal.sanitized {code : Text} {reply : Reply}
    (h : Refusal g rq 503 code reply) (hmethod : rq.method ≠ .head)
    (hcode : code = "access_unavailable" ∨ code = "upstream_unavailable") :
    Sanitized g rq reply := by
  refine ⟨h.status, ?_, ?_⟩
  · rw [h.headers]
    exact List.mem_cons_self
  · rw [h.body, if_pos hmethod]
    exact hcode.imp (fun hc ↦ by rw [hc]) fun hc ↦ by rw [hc]

omit [FloatText] in
private theorem kind_of_documented {α : Type} {x : Except PyError α} {kind : ErrorKind}
    {e : PyError} (h : RaisesOnly [kind] x) (he : x = .error e) : e.kind = kind :=
  List.mem_singleton.mp (h e he)

omit [FloatText] in
/-- An exception of the store is caught by every handler, or it is the driver's and goes astray. -/
private theorem store_cases {e : PyError} (h : e.kind ∈ [ErrorKind.osError, .sqliteError,
    .driverError]) : (isStoreFailure e = true ∧ isDriver e = false) ∨ e.kind = .driverError := by
  simp only [List.mem_cons, List.not_mem_nil, or_false] at h
  obtain h | h | h := h
  · exact .inl ⟨by rw [isStoreFailure, h], by rw [isDriver, h]; decide⟩
  · exact .inl ⟨by rw [isStoreFailure, h], by rw [isDriver, h]; decide⟩
  · exact .inr h

/-- A call that may raise, and what follows it. -/
private theorem ensures_raising {α β : Type} (o : IngressOp) {conv : o.Res → Except PyError α}
    {f : α → Handler β} {Q : Wire → Except PyError β → Session → Prop}
    (hok : ∀ r a, Documented o r ∧ Connected o r → conv r = .ok a →
      (observing rq).Ensures (Wire.next rq w ⟨o, r⟩) s (f a) Q)
    (herror : ∀ r e, Documented o r ∧ Connected o r → conv r = .error e →
      Q (Wire.next rq w ⟨o, r⟩) (.error e) s) :
    (observing rq).Ensures w s ((ask o >>= fun r ↦ Act.ofExcept (conv r)) >>= f) Q :=
  Monitor.ensures_raising trivial hok herror

/-- How a record ends: made, owed, or astray. -/
def Recorded (w : Wire) (r : Except PyError Unit) (w' : Wire) : Prop :=
  (r = .ok () ∧ w' = { w with unrecorded := false }) ∨
  (∃ e, r = .error e ∧ isStoreFailure e = true ∧ w' = { w with unrecorded := true }) ∨
  (∃ e, r = .error e ∧ e.kind = .driverError ∧ w' = { w with unrecorded := true, stray := true })

/-- `_record_usage`. -/
private theorem ensures_recordUsage (hstore : g.hasStore = true) (ho : Owing w s) (status : Int)
    (decoded : List (Text × Json)) :
    (observing rq).Ensures w s (recordUsage g rq status decoded) fun w' r s' ↦
      Recorded w r w' ∧ Owing w' s' ∧ s'.terminal = s.terminal := by
  have hdone : ¬(s.principal.isSome = true ∧ s.usageRecorded = false) →
      w = { w with unrecorded := false } := by
    intro hnot
    have hfalse : w.unrecorded = false := Bool.not_eq_true _ ▸ fun h ↦ hnot (ho h)
    rw [← hfalse]
  refine Monitor.ensures_get ?_
  split
  · next hnone =>
    refine Monitor.ensures_pure ⟨.inl ⟨rfl, hdone fun h ↦ ?_⟩, ho, rfl⟩
    rw [hnone] at h
    cases h.1
  · next principal hsome =>
    split
    · next hskip =>
      refine Monitor.ensures_pure ⟨.inl ⟨rfl, hdone fun h ↦ ?_⟩, ho, rfl⟩
      rw [hstore, h.2] at hskip
      cases hskip
    · next hfresh =>
      have hfalse : s.usageRecorded = false := by
        rw [hstore] at hfresh
        exact Bool.not_eq_true _ ▸ hfresh
      refine Monitor.ensures_call trivial fun now _ ↦ ensures_raising (.recordUsage _ _ _)
        (fun r u _ hr ↦ ?_) fun r e hr he ↦ ?_
      · subst hr
        exact Monitor.ensures_modify ⟨.inl ⟨rfl, rfl⟩, fun h ↦ (by cases h), rfl⟩
      · have he' : r = .error e := he
        subst he'
        have howing : s.principal.isSome = true ∧ s.usageRecorded = false := by
          rw [hsome]
          exact ⟨rfl, hfalse⟩
        obtain ⟨hcaught, hdriver⟩ | hdriver := store_cases (hr.1 e rfl)
        · refine ⟨.inr (.inl ⟨e, rfl, hcaught, ?_⟩), fun _ ↦ howing, rfl⟩
          show ({ w with unrecorded := true, stray := w.stray || isDriver e } : Wire) = _
          rw [hdriver, Bool.or_false]
        · refine ⟨.inr (.inr ⟨e, rfl, hdriver, ?_⟩), fun _ ↦ howing, rfl⟩
          show ({ w with unrecorded := true, stray := w.stray || isDriver e } : Wire) = _
          rw [isDriver, hdriver, decide_eq_true rfl, Bool.or_true]

/-! ### Refusals -/

private theorem ensures_sendRefusal (status : Int) (code : Text) :
    (observing rq).Ensures w s (sendRefusal g rq status code) fun w' r s' ↦ r = .ok () ∧ s' = s ∧
      ∃ reply, Refusal g rq status code reply ∧ w' = { w with replies := reply :: w.replies } := by
  refine ensures_raising (.sendHead _ _) (fun r u hr _ ↦ ?_) fun r e hr he ↦ ?_
  · have hr' : r = .ok () := hr.2
    subst hr'
    split
    · next hmethod =>
      refine Monitor.ensures_call trivial fun r hr ↦ Monitor.ensures_ofExcept ?_
      have hr' : r = .ok () := hr.2
      subst hr'
      refine ⟨rfl, rfl, _, ⟨rfl, rfl, ?_⟩, rfl⟩
      rw [if_pos hmethod]
      rfl
    · next hmethod =>
      exact Monitor.ensures_pure ⟨rfl, rfl, _, ⟨rfl, rfl, (if_neg hmethod).symm⟩, rfl⟩
  · have hr' : r = .ok () := hr.2
    subst hr'
    cases he

/-- An exception that no handler of the gateway catches passes, and nothing complete was sent. -/
def Astray {α : Type} (rq : Request) (w : Wire) (r : Except PyError α) : Prop :=
  Broken rq w ∧ ∃ e, r = .error e ∧ isStoreFailure e = false ∧ isForwardFailure e = false ∧
    isStreamFailure e = false

omit [FloatText] in
private theorem Astray.of_kind {α : Type} {e : PyError} (h : Broken rq w)
    (hkind : e.kind = .driverError ∨ e.kind = .recursionError ∨ e.kind = .runtimeError) :
    Astray rq w (.error e : Except PyError α) := by
  refine ⟨h, e, rfl, ?_⟩
  rw [isStoreFailure, isForwardFailure, isStreamFailure]
  obtain h | h | h := hkind <;> rw [h] <;> exact ⟨rfl, rfl, rfl⟩

omit [FloatText] in
private theorem Astray.cast {α β : Type} {e : PyError}
    (h : Astray rq w (.error e : Except PyError α)) :
    Astray rq w (.error e : Except PyError β) := by
  obtain ⟨hb, e', he', hclass⟩ := h
  cases he'
  exact ⟨hb, e, rfl, hclass⟩

private theorem served_of_refusal {status : Int} {code : Text} {reply : Reply} {u : Bool}
    (ho : Open w s) (hreply : Refusal g rq status code reply)
    (hclean : w.refused = true → rq.method ≠ .head ∧ status = 503 ∧
      (code = Text.ofString "access_unavailable" ∨ code = Text.ofString "upstream_unavailable")) :
    Served g rq { w with replies := [reply], unrecorded := u } := by
  refine ⟨⟨reply, rfl, hreply.complete, fun hrefused ↦ ?_⟩, ho.stray, fun h ↦ ?_⟩
  · obtain ⟨hmethod, rfl, hcode⟩ := hclean hrefused
    exact ⟨hreply.sanitized hmethod hcode, ho.contact hrefused⟩
  · exact Bool.false_ne_true (ho.streaming.symm.trans h.1)

/-- `_send_error`, when nothing was sent yet. -/
private theorem ensures_sendError (hstore : g.hasStore = true) (ho : Open w s) {status : Int}
    {code : Text} (hclean : w.refused = true → rq.method ≠ .head ∧ status = 503 ∧
      (code = Text.ofString "access_unavailable" ∨ code = Text.ofString "upstream_unavailable")) :
    (observing rq).Ensures w s (sendError g rq status code) fun w' r _ ↦
      r = .ok () ∧ Served g rq w' ∨ Astray rq w' r := by
  have hrefuse : ∀ {u : Bool} {s' : Session} {status' : Int} {code' : Text},
      (w.refused = true → rq.method ≠ .head ∧ status' = 503 ∧
        (code' = Text.ofString "access_unavailable" ∨
          code' = Text.ofString "upstream_unavailable")) →
      (observing rq).Ensures { w with unrecorded := u } s' (sendRefusal g rq status' code')
        fun w' r _ ↦ r = .ok () ∧ Served g rq w' ∨ Astray rq w' r := by
    intro u s' status' code' hclean'
    refine (ensures_sendRefusal status' code').mono ?_
    rintro w'' _ s'' ⟨rfl, rfl, reply, hreply, rfl⟩
    have hserved := served_of_refusal (u := u) ho hreply hclean'
    rw [← show reply :: w.replies = [reply] by rw [ho.replies]] at hserved
    exact .inl ⟨rfl, hserved⟩
  refine Monitor.ensures_bind (Monitor.ensures_tryExcept (Monitor.ensures_bind
    ((ensures_recordUsage hstore ho.owing status []).mono ?_)))
  rintro w' r s' ⟨⟨rfl, rfl⟩ | ⟨e, rfl, hcaught, rfl⟩ | ⟨e, rfl, hdriver, rfl⟩, -, -⟩
  · refine ⟨fun _ _ ↦ Monitor.ensures_pure ⟨fun _ h ↦ ⟨fun _ h' ↦ ?_, fun _ h' ↦ (by cases h')⟩,
      fun _ h _ ↦ (by cases h), fun _ h _ ↦ (by cases h)⟩, fun _ h ↦ (by cases h)⟩
    cases h
    cases h'
    exact hrefuse hclean
  · refine ⟨fun _ h ↦ (by cases h), fun e' he' ↦ ⟨fun _ h ↦ (by cases h), fun e'' he'' hc ↦ ?_,
      fun _ _ _ ↦ Monitor.ensures_pure ⟨fun _ h ↦ ?_, fun _ h ↦ (by cases h)⟩⟩⟩
    · cases he'
      cases he''
      rw [hcaught] at hc
      cases hc
    · cases h
      exact hrefuse fun h ↦ ⟨(hclean h).1, rfl, .inl rfl⟩
  · refine ⟨fun _ h ↦ (by cases h), fun e' he' ↦ ⟨fun _ h ↦ (by cases h),
      fun e'' he'' _ ↦ ⟨fun _ h ↦ (by cases h), fun e''' he''' ↦ .inr ?_⟩, fun e'' he'' hc ↦ ?_⟩⟩
    · cases he'
      cases he''
      cases he'''
      exact .of_kind (Open.broken ho.replies rfl) (.inl hdriver)
    · cases he'
      cases he''
      rw [isStoreFailure, hdriver] at hc
      cases hc

/-! ### Streams -/

/-- The reply is a stream, and nothing went astray. -/
structure Streaming (rq : Request) (w : Wire) (s : Session) : Prop where
  reply : ∃ reply, w.replies = [reply] ∧ reply.headers = streamHeaders rq
  stray : w.stray = false
  streaming : w.streaming = true
  unrefused : w.refused = false
  owing : Owing w s
  recorded : s.terminal = true → w.unrecorded = false

/-- Between frames: the stream ended if its terminal event was sent. -/
structure Relaying (rq : Request) (w : Wire) (s : Session) : Prop extends Streaming rq w s where
  ended : ∀ reply, w.replies = [reply] → reply.ended = s.terminal

omit [FloatText] in
private theorem Reply.complete_stream {reply : Reply} (h : reply.headers = streamHeaders rq) :
    reply.Complete rq.method ↔ reply.ended = true := by
  have hlength : reply.headers.lookup (Text.ofString "Content-Length") = none := by
    rw [h]
    rfl
  rw [Reply.Complete, hlength]

private theorem Relaying.served (h : Relaying rq w s) (hend : s.terminal = true) :
    Served g rq w := by
  obtain ⟨reply, hreply, hheaders⟩ := h.reply
  refine ⟨⟨reply, hreply, (Reply.complete_stream hheaders).mpr ((h.ended reply hreply).trans hend),
    fun hr ↦ ?_⟩, h.stray, fun hlost ↦ ?_⟩
  · exact absurd (h.unrefused.symm.trans hr) Bool.false_ne_true
  · exact Bool.false_ne_true ((h.recorded hend).symm.trans hlost.2)

omit [FloatText] in
/-- A stream without its terminal event, where something went astray or usage is owed. -/
private theorem Relaying.broken (h : Relaying rq w s) (hopen : s.terminal = false) {w' : Wire}
    (hreplies : w'.replies = w.replies) (hbad : ¬Undisturbed w') : Broken rq w' := by
  obtain ⟨reply, hreply, hheaders⟩ := h.reply
  refine ⟨hbad, fun reply' hr' hcomplete ↦ ?_⟩
  rw [hreplies, hreply] at hr'
  cases hr'
  rw [Reply.complete_stream hheaders, h.ended reply hreply, hopen] at hcomplete
  cases hcomplete

/-- How a frame and the loop over frames end: relayed, failed in a way that the handler of the
stream catches, or astray. -/
def Streamed (rq : Request) (w : Wire) (r : Except PyError Unit) (s : Session) : Prop :=
  (r = .ok () ∧ Relaying rq w s) ∨
  (∃ e, r = .error e ∧ isStreamFailure e = true ∧ Relaying rq w s ∧ s.terminal = false) ∨
  Astray rq w r

omit [FloatText] in
private theorem isStreamFailure_of_store {e : PyError} (h : isStoreFailure e = true) :
    isStreamFailure e = true := by
  unfold isStoreFailure at h
  unfold isStreamFailure
  cases hkind : e.kind <;> rw [hkind] at h <;> first | rfl | cases h

omit [FloatText] in
private theorem isStreamFailure_of_kind {e : PyError} {kinds : List ErrorKind}
    (h : e.kind ∈ kinds) (hk : ∀ k ∈ kinds, isStreamFailure ⟨k, ""⟩ = true) :
    isStreamFailure e = true := hk e.kind h

omit [FloatText] in
private theorem isStreamFailure_of_streamEvent {raw : Json} {e : PyError}
    (h : streamEvent raw = .error e) : isStreamFailure e = true := by
  unfold streamEvent at h
  split at h
  · split at h
    · cases h
    · cases h
      rfl
  · cases h
    rfl

/-- A frame is written: the event it carries tells whether the stream ended. -/
private theorem ensures_writeFrame (h : Streaming rq w s) (frame : Bytes) :
    (observing rq).Ensures w s (do write frame; flush : Handler Unit) fun w' r s' ↦
      r = .ok () ∧ s' = s ∧ ∃ reply, reply.headers = streamHeaders rq ∧
        reply.ended = w.event.getD (decide (frame = interruptedFrame)) ∧
          w' = { w with replies := [reply] } := by
  obtain ⟨reply, hreply, hheaders⟩ := h.reply
  refine ensures_raising (.write frame) (fun r u hr _ ↦ ?_) fun r e hr he ↦ ?_
  · have hr' : r = .ok () := hr.2
    subst hr'
    refine Monitor.ensures_call trivial fun r hr ↦ Monitor.ensures_ofExcept ?_
    refine ⟨hr.2, rfl, { reply with
      body := reply.body ++ frame,
      ended := w.event.getD (decide (frame = interruptedFrame)) }, hheaders, rfl, ?_⟩
    show ({ w with replies := extend w.event frame w.replies } : Wire) = _
    rw [hreply]
    rfl
  · have hr' : r = .ok () := hr.2
    subst hr'
    cases he

private theorem ensures_relay (h : Streaming rq w s) (frame : Bytes)
    (hevent : w.event = some s.terminal) :
    (observing rq).Ensures w s (do write frame; flush : Handler Unit) (Streamed rq) := by
  refine (ensures_writeFrame h frame).mono ?_
  rintro w' _ s' ⟨rfl, rfl, reply, hheaders, hended, rfl⟩
  rw [hevent] at hended
  refine .inl ⟨rfl, ⟨⟨reply, rfl, hheaders⟩, h.stray, h.streaming, h.unrefused, h.owing, h.recorded⟩,
    fun reply' hr' ↦ ?_⟩
  cases hr'
  exact hended

private theorem ensures_relayFrame (hstore : g.hasStore = true) (h : Relaying rq w s)
    (hopen : s.terminal = false) (frame : Bytes) :
    (observing rq).Ensures w s (relayFrame g rq frame) (Streamed rq) := by
  refine ensures_raising (.loads _) (fun r raw _ hr ↦ Monitor.ensures_let (fun event hevent ↦ ?_)
    fun e he ↦ ?_) fun r e hr he ↦ ?_
  · rw [show r = .ok raw from hr]
    have hends : endsStream raw = isTerminal event.1 := by
      rw [endsStream, hevent]
    have hstream : Streaming rq { w with event := some (endsStream raw) } s :=
      ⟨h.reply, h.stray, h.streaming, h.unrefused, h.owing, h.recorded⟩
    show (observing rq).Ensures { w with event := some (endsStream raw) } s _ _
    dsimp only
    split
    · next hterminal =>
      refine Monitor.ensures_bind ((ensures_recordUsage hstore hstream.owing _ _).mono ?_)
      rintro w' r' s' ⟨⟨rfl, rfl⟩ | ⟨e, rfl, hstorefail, rfl⟩ | ⟨e, rfl, hdriver, rfl⟩, howing, hterm⟩
      · refine ⟨fun _ _ ↦ Monitor.ensures_set (ensures_relay ?_ frame ?_), fun e he ↦ (by cases he)⟩
        · exact ⟨h.reply, h.stray, h.streaming, h.unrefused, fun hu ↦ (by cases hu), fun _ ↦ rfl⟩
        · exact congrArg some (hends.trans hterminal)
      · refine ⟨fun _ hu ↦ (by cases hu), fun e' he' ↦ ?_⟩
        cases he'
        refine .inr (.inl ⟨e, rfl, isStreamFailure_of_store hstorefail, ⟨⟨h.reply, h.stray,
          h.streaming, h.unrefused, howing, fun ht ↦ ?_⟩, fun reply hreply ↦ ?_⟩, hterm.trans hopen⟩)
        · exact absurd ((hterm.trans hopen).symm.trans ht) Bool.false_ne_true
        · exact (h.ended reply hreply).trans hterm.symm
      · refine ⟨fun _ hu ↦ (by cases hu), fun e' he' ↦ ?_⟩
        cases he'
        exact .inr (.inr (.of_kind (h.broken hopen rfl fun hu ↦ (by cases hu.1)) (.inl hdriver)))
    · next hterminal =>
      refine ensures_relay hstream frame (congrArg some ?_)
      exact (hends.trans (Bool.not_eq_true _ ▸ hterminal)).trans hopen.symm
  · rw [show r = .ok raw from hr]
    refine .inr (.inl ⟨e, rfl, isStreamFailure_of_streamEvent he, ⟨⟨h.reply, h.stray, h.streaming,
      h.unrefused, h.owing, h.recorded⟩, h.ended⟩, hopen⟩)
  · have he' : r = .error e := he
    subst he'
    have hkind : e.kind = .valueError ∨ e.kind = .recursionError := by
      simpa using hr.1 e rfl
    obtain hkind | hkind := hkind
    · refine .inr (.inl ⟨e, rfl, by rw [isStreamFailure, hkind], ?_, hopen⟩)
      have hstray : (w.stray || decide (e.kind = .recursionError)) = false := by
        rw [h.stray, hkind]
        decide
      exact ⟨⟨h.reply, hstray, h.streaming, h.unrefused, h.owing, h.recorded⟩, h.ended⟩
    · refine .inr (.inr (.of_kind (h.broken hopen rfl fun hu ↦ ?_) (.inr (.inl hkind))))
      have hstray : (w.stray || decide (e.kind = .recursionError)) = false := hu.1
      rw [hkind, decide_eq_true rfl, Bool.or_true] at hstray
      cases hstray

/-- The loop ends with the stream, or with an exception before it. -/
private theorem ensures_streamLoop (hstore : g.hasStore = true) (deadline : ℚ) (n : Nat)
    (frame : Bytes) (total : Nat) (h : Relaying rq w s) (hopen : s.terminal = false) :
    (observing rq).Ensures w s (streamLoop g rq deadline n frame total) fun w' r s' ↦
      Streamed rq w' r s' ∧ (r = .ok () → s'.terminal = true) := by
  induction n generalizing w s frame total with
  | zero =>
    exact Monitor.ensures_raise ⟨.inr (.inl ⟨_, rfl, rfl, h, hopen⟩), fun hr ↦ by cases hr⟩
  | succ n ih =>
    have hraise : ∀ message, (observing rq).Ensures w s
        (Act.raise (valueError message) : Handler Unit) fun w' r s' ↦
          Streamed rq w' r s' ∧ (r = .ok () → s'.terminal = true) := fun message ↦
      Monitor.ensures_raise ⟨.inr (.inl ⟨_, rfl, rfl, h, hopen⟩), fun hr ↦ by cases hr⟩
    refine Monitor.ensures_call trivial fun now _ ↦ ?_
    show (observing rq).Ensures w s _ _
    split
    · refine ensures_raising (.readLine _) (fun r line _ _ ↦ ?_) fun r e hr he ↦
        ⟨.inr (.inl ⟨e, rfl, ?_, h, hopen⟩), fun hr ↦ by cases hr⟩
      · show (observing rq).Ensures w s _ _
        split
        · exact hraise _
        · split
          · exact hraise _
          · split
            · refine Monitor.ensures_bind ((ensures_relayFrame hstore h hopen _).mono ?_)
              rintro w' r' s' (⟨rfl, hrelay⟩ | ⟨e, rfl, hcaught⟩ | hastray)
              · refine ⟨fun _ _ ↦ Monitor.ensures_get ?_, fun e he ↦ by cases he⟩
                split
                · next hterm => exact Monitor.ensures_pure ⟨.inl ⟨rfl, hrelay⟩, fun _ ↦ hterm⟩
                · next hterm => exact ih _ _ hrelay (Bool.not_eq_true _ ▸ hterm)
              · refine ⟨fun _ hu ↦ (by cases hu), fun e' he' ↦ ⟨.inr (.inl ?_), fun hr ↦ by cases hr⟩⟩
                cases he'
                exact ⟨e, rfl, hcaught⟩
              · obtain ⟨-, e, rfl, -⟩ := id hastray
                refine ⟨fun _ hu ↦ (by cases hu), fun e' he' ↦ ⟨.inr (.inr ?_), fun hr ↦ by cases hr⟩⟩
                cases he'
                exact hastray
            · exact ih _ _ h hopen
      · exact isStreamFailure_of_kind (hr.1 e he) (by decide)
    · exact hraise _

/-- How a stream ends: served, owing its usage record and terminal event, or astray. -/
def StreamEnd (g : Gateway) (rq : Request) (w : Wire) (r : Except PyError Unit) : Prop :=
  (r = .ok () ∧ (Served g rq w ∨ Broken rq w)) ∨ Astray rq w r

private theorem ensures_streamFailed (hstore : g.hasStore = true) (h : Relaying rq w s)
    (hopen : s.terminal = false) :
    (observing rq).Ensures w s (streamFailed g rq) fun w' r _ ↦ StreamEnd g rq w' r := by
  refine Monitor.ensures_get ?_
  rw [if_neg (hopen ▸ Bool.false_ne_true)]
  refine Monitor.ensures_tryExcept (Monitor.ensures_call trivial fun gone hgone ↦ ?_)
  refine Monitor.ensures_bind ((ensures_recordUsage hstore (w := { w with event := none }) h.owing
    _ []).mono ?_)
  rintro w' r s' ⟨⟨rfl, rfl⟩ | ⟨e, rfl, hcaught, rfl⟩ | ⟨e, rfl, hdriver, rfl⟩, howing, hterm⟩
  · refine ⟨fun _ _ ↦ (ensures_writeFrame ?_ interruptedFrame).mono ?_, fun e he ↦ (by cases he)⟩
    · exact ⟨h.reply, h.stray, h.streaming, h.unrefused, howing, fun _ ↦ rfl⟩
    · rintro w'' _ s'' ⟨rfl, rfl, reply, hheaders, hended, rfl⟩
      refine ⟨fun _ _ ↦ .inl ⟨rfl, .inl ?_⟩, fun e he ↦ (by cases he), fun e he ↦ (by cases he)⟩
      refine ⟨⟨reply, rfl, (Reply.complete_stream hheaders).mpr ?_, fun hr ↦ ?_⟩, h.stray, fun hl ↦ ?_⟩
      · simpa only [Option.getD_none, decide_true] using hended
      · exact absurd (h.unrefused.symm.trans hr) Bool.false_ne_true
      · cases hl.2
  · refine ⟨fun _ hu ↦ (by cases hu), fun e' he' ↦ ⟨fun _ hu ↦ (by cases hu), fun e'' he'' hc ↦ ?_,
      fun _ _ _ ↦ Monitor.ensures_pure (.inl ⟨rfl, .inr (h.broken hopen rfl fun hu ↦ ?_)⟩)⟩⟩
    · cases he'
      cases he''
      rw [hcaught] at hc
      cases hc
    · exact hu.2 ⟨h.streaming, rfl⟩
  · refine ⟨fun _ hu ↦ (by cases hu), fun e' he' ↦ ⟨fun _ hu ↦ (by cases hu), fun e'' he'' _ ↦
      .inr ?_, fun e'' he'' hc ↦ ?_⟩⟩
    · cases he'
      cases he''
      exact .of_kind (h.broken hopen rfl fun hu ↦ (by cases hu.1)) (.inl hdriver)
    · cases he'
      cases he''
      rw [isStoreFailure, hdriver] at hc
      cases hc

/-- `_forward_stream`. -/
private theorem ensures_forwardStream (hstore : g.hasStore = true) (hreplies : w.replies = [])
    (hstray : w.stray = false) (hstreaming : w.streaming = true) (hrefused : w.refused = false)
    (ho : Owing w s) :
    (observing rq).Ensures w s (forwardStream g rq) fun w' r _ ↦ StreamEnd g rq w' r := by
  refine ensures_raising (.sendHead _ _) (fun r u hr _ ↦ ?_) fun r e hr he ↦ ?_
  · have hr' : r = .ok () := hr.2
    subst hr'
    refine Monitor.ensures_set (Monitor.ensures_call trivial fun now _ ↦ ?_)
    have hrelay : Relaying rq { w with replies := ⟨200, streamHeaders rq, [], false⟩ :: w.replies }
        { s with terminal := false } := by
      rw [hreplies]
      refine ⟨⟨⟨_, rfl, rfl⟩, hstray, hstreaming, hrefused, ho, fun h ↦ (by cases h)⟩, ?_⟩
      intro reply hreply
      cases hreply
      rfl
    refine Monitor.ensures_tryExcept ((ensures_streamLoop hstore _ _ [] 0 hrelay rfl).mono ?_)
    rintro w' r' s' ⟨⟨rfl, hrelay'⟩ | ⟨e, rfl, hcaught, hrelay', hopen⟩ | hastray, hdone⟩
    · exact ⟨fun _ _ ↦ .inl ⟨rfl, .inl (hrelay'.served (hdone rfl))⟩, fun e he ↦ (by cases he),
        fun e he ↦ (by cases he)⟩
    · refine ⟨fun _ hu ↦ (by cases hu), fun e' he' hc ↦ ?_, fun _ _ _ ↦
        ensures_streamFailed hstore hrelay' hopen⟩
      cases he'
      rw [hcaught] at hc
      cases hc
    · obtain ⟨-, e, rfl, -, -, hpass⟩ := id hastray
      refine ⟨fun _ hu ↦ (by cases hu), fun e' he' _ ↦ ?_, fun e' he' hc ↦ ?_⟩
      · cases he'
        exact .inr hastray
      · cases he'
        rw [hpass] at hc
        cases hc
  · have hr' : r = .ok () := hr.2
    subst hr'
    cases he

/-! ### Replies of the upstream -/

/-- Nothing was sent, and the store refused nothing so far. -/
structure Fresh (w : Wire) (s : Session) : Prop extends Open w s where
  unrefused : w.refused = false

/-- How reading the reply ends: answered, owing its usage record, kept for later, failed in a way
that `_forward` catches, or astray. -/
def Received (g : Gateway) (rq : Request) (w : Wire) (r : Except PyError (Option (Int × Bytes)))
    (s : Session) : Prop :=
  (r = .ok none ∧ (Served g rq w ∨ Broken rq w)) ∨
  (∃ reply, r = .ok (some reply) ∧ Fresh w s) ∨
  (∃ e, r = .error e ∧ isForwardFailure e = true ∧ Fresh w s) ∨
  Astray rq w r

omit [FloatText] in
private theorem isForwardFailure_of_kind {e : PyError} {kinds : List ErrorKind}
    (h : e.kind ∈ kinds) (hk : ∀ k ∈ kinds, isForwardFailure ⟨k, ""⟩ = true) :
    isForwardFailure e = true := hk e.kind h

omit [FloatText] in
private theorem isForwardFailure_of_store {e : PyError} (h : isStoreFailure e = true) :
    isForwardFailure e = true := by
  unfold isStoreFailure at h
  unfold isForwardFailure
  cases hkind : e.kind <;> rw [hkind] at h <;> first | rfl | cases h

private theorem ensures_refused (hstore : g.hasStore = true) (hf : Fresh w s) (status : Int)
    (code : Text) :
    (observing rq).Ensures w s
      (do sendError g rq status code; pure none : Handler (Option (Int × Bytes)))
      (Received g rq) := by
  refine Monitor.ensures_bind ((ensures_sendError hstore hf.toOpen fun h ↦ ?_).mono ?_)
  · exact absurd (hf.unrefused.symm.trans h) Bool.false_ne_true
  · rintro w' r s' (⟨rfl, hserved⟩ | hastray)
    · exact ⟨fun _ _ ↦ Monitor.ensures_pure (.inl ⟨rfl, .inl hserved⟩), fun e he ↦ (by cases he)⟩
    · obtain ⟨-, e, rfl, -⟩ := id hastray
      refine ⟨fun _ hu ↦ (by cases hu), fun e' he' ↦ .inr (.inr (.inr ?_))⟩
      cases he'
      exact hastray.cast

private theorem ensures_receiveJson (hstore : g.hasStore = true) (hf : Fresh w s) (status : Int) :
    (observing rq).Ensures w s (receiveJson g rq status) (Received g rq) := by
  refine ensures_raising (.read _) (fun r forwarded _ _ ↦ ?_) fun r e hr he ↦
    .inr (.inr (.inl ⟨e, rfl, isForwardFailure_of_kind (hr.1 e he) (by decide), hf⟩))
  show (observing rq).Ensures w s _ _
  split
  · exact ensures_refused hstore hf _ _
  · refine ensures_raising (.loads _) (fun r raw _ hr ↦ ?_) fun r e hr he ↦ ?_
    · rw [show r = .ok raw from hr]
      have hf' : Fresh { w with event := some (endsStream raw) } s :=
        ⟨⟨hf.replies, hf.stray, hf.streaming, hf.contact, hf.owing⟩, hf.unrefused⟩
      show (observing rq).Ensures { w with event := some (endsStream raw) } s _ _
      have hinvalid : (observing rq).Ensures { w with event := some (endsStream raw) } s
          (Act.raise (valueError "invalid upstream response") : Handler (Option (Int × Bytes)))
          (Received g rq) :=
        Monitor.ensures_raise (.inr (.inr (.inl ⟨_, rfl, rfl, hf'⟩)))
      split
      · next decoded =>
        split
        · refine Monitor.ensures_bind ((ensures_recordUsage hstore hf'.owing _ _).mono ?_)
          rintro w' r' s' ⟨⟨rfl, rfl⟩ | ⟨e, rfl, hcaught, rfl⟩ | ⟨e, rfl, hdriver, rfl⟩, howing, -⟩
          · have hf'' : Fresh
                { w with event := some (endsStream (.obj decoded)), unrecorded := false } s' :=
              ⟨⟨hf.replies, hf.stray, hf.streaming, hf.contact, howing⟩, hf.unrefused⟩
            refine ⟨fun _ _ ↦ ?_, fun e he ↦ (by cases he)⟩
            split
            · exact ensures_refused hstore hf'' _ _
            · exact Monitor.ensures_pure (.inr (.inl ⟨_, rfl, hf''⟩))
          · refine ⟨fun _ hu ↦ (by cases hu), fun e' he' ↦ .inr (.inr (.inl ?_))⟩
            cases he'
            exact ⟨e, rfl, isForwardFailure_of_store hcaught,
              ⟨hf.replies, hf.stray, hf.streaming, hf.contact, howing⟩, hf.unrefused⟩
          · refine ⟨fun _ hu ↦ (by cases hu), fun e' he' ↦ .inr (.inr (.inr ?_))⟩
            cases he'
            exact .of_kind (Open.broken hf.replies rfl) (.inl hdriver)
        · exact hinvalid
      · exact hinvalid
    · have he' : r = .error e := he
      subst he'
      have hkind : e.kind = .valueError ∨ e.kind = .recursionError := by
        simpa using hr.1 e rfl
      obtain hkind | hkind := hkind
      · have hstray : (w.stray || decide (e.kind = .recursionError)) = false := by
          rw [hf.stray, hkind]
          decide
        exact .inr (.inr (.inl ⟨e, rfl, by rw [isForwardFailure, hkind],
          ⟨hf.replies, hstray, hf.streaming, hf.contact, hf.owing⟩, hf.unrefused⟩))
      · have hstray : (w.stray || decide (e.kind = .recursionError)) = true := by
          rw [hkind, decide_eq_true rfl, Bool.or_true]
        exact .inr (.inr (.inr (.of_kind (Open.broken hf.replies hstray) (.inr (.inl hkind)))))

private theorem ensures_receive (hstore : g.hasStore = true) (hf : Fresh w s) :
    (observing rq).Ensures w s (receive g rq) (Received g rq) := by
  refine ensures_raising .getResponse (fun r head _ hr ↦ ?_) fun r e hr he ↦ ?_
  · rw [show r = .ok head from hr]
    show (observing rq).Ensures { w with streaming := opensStream rq head } s _ _
    have hfresh : opensStream rq head = false →
        Fresh { w with streaming := opensStream rq head } s := fun h ↦
      ⟨⟨hf.replies, hf.stray, h, hf.contact, hf.owing⟩, hf.unrefused⟩
    split
    · next hstream =>
      split
      · next hroute =>
        have hopens : opensStream rq head = true := by
          rw [opensStream, decide_eq_true hstream, decide_eq_true hroute]
          rfl
        refine Monitor.ensures_bind ((ensures_forwardStream
          (w := { w with streaming := opensStream rq head }) hstore hf.replies hf.stray hopens
          hf.unrefused hf.owing).mono ?_)
        rintro w' r' s' (⟨rfl, hend⟩ | hastray)
        · exact ⟨fun _ _ ↦ Monitor.ensures_pure (.inl ⟨rfl, hend⟩), fun e he ↦ (by cases he)⟩
        · obtain ⟨-, e, rfl, -⟩ := id hastray
          refine ⟨fun _ hu ↦ (by cases hu), fun e' he' ↦ .inr (.inr (.inr ?_))⟩
          cases he'
          exact hastray.cast
      · next hroute =>
        refine Monitor.ensures_raise (.inr (.inr (.inl ⟨_, rfl, rfl, hfresh ?_⟩)))
        rw [opensStream, decide_eq_false hroute, Bool.and_false]
    · next hstream =>
      refine ensures_receiveJson hstore (hfresh ?_) _
      rw [opensStream, decide_eq_false hstream, Bool.false_and]
  · rw [show r = .error e from he]
    refine .inr (.inr (.inl ⟨e, rfl, isForwardFailure_of_kind (hr.1 e he) (by decide), hf⟩))

/-! ### Forwarding -/

/-- How the `try` block of `_forward` ends, before its handler. -/
def Tried (g : Gateway) (rq : Request) (w : Wire) (r : Except PyError (Option (Int × Bytes)))
    (s : Session) : Prop :=
  Astray rq w r ∨ s.watcher ≠ .created ∧
    ((r = .ok none ∧ (Served g rq w ∨ Broken rq w)) ∨ (∃ reply, r = .ok (some reply) ∧ Fresh w s) ∨
      ∃ e, r = .error e ∧ isForwardFailure e = true ∧ Open w s)

private theorem Received.tried {r : Except PyError (Option (Int × Bytes))}
    (h : Received g rq w r s) (hw : s.watcher ≠ .created) : Tried g rq w r s := by
  obtain h | h | ⟨e, he, hcaught, hf⟩ | h := h
  · exact .inr ⟨hw, .inl h⟩
  · exact .inr ⟨hw, .inr (.inl h)⟩
  · exact .inr ⟨hw, .inr (.inr ⟨e, he, hcaught, hf.toOpen⟩)⟩
  · exact .inl h

/-- The part of `_forward` after the watcher was started. -/
private theorem ensures_send (hstore : g.hasStore = true) (hf : Fresh w s)
    (hw : s.watcher = .started) (body : Option Bytes) :
    (observing rq).Ensures w s
      (do sendRequest rq.method rq.path body (upstreamHeaders g rq body); receive g rq)
      (Tried g rq) := by
  have hf' : Fresh { w with contacted := true } s :=
    ⟨⟨hf.replies, hf.stray, hf.streaming, fun h ↦
      absurd (hf.unrefused.symm.trans h) Bool.false_ne_true, hf.owing⟩, hf.unrefused⟩
  have hjoin : ∀ {s' : Session}, s'.watcher = s.watcher → s'.watcher ≠ .created := by
    intro s' h
    rw [h, hw]
    decide
  refine ensures_raising (.request _ _ _ _) (fun r u _ _ ↦ ?_) fun r e hr he ↦ ?_
  · have hwatcher : (observing rq).Ensures { w with contacted := true } s (receive g rq)
        fun _ _ s' ↦ True ∧ s'.watcher = s.watcher :=
      Monitor.ensures_of_within (P := fun _ ↦ True) (receive_within g rq fun _ h ↦ h)
        (fun _ _ _ _ ↦ ⟨trivial, fun _ _ ↦ trivial⟩) trivial
    refine ((ensures_receive hstore hf').and hwatcher).mono ?_
    rintro w' r' s' ⟨hreceived, -, hkept⟩
    exact hreceived.tried (hjoin hkept)
  · exact .inr ⟨hjoin rfl, .inr (.inr ⟨e, rfl, isForwardFailure_of_kind (hr.1 e he) (by decide),
      hf'.toOpen⟩)⟩

private theorem ensures_dispatch (hf : Fresh w s) (hcontact : w.contacted = false) :
    (observing rq).Ensures w s (dispatch g rq) fun w' r s' ↦ s' = s ∧
      (r = .ok () ∧ w' = w ∨ (∃ e, r = .error e ∧ isForwardFailure e = true ∧ Open w' s) ∨
        Astray rq w' r) := by
  refine Monitor.ensures_get ?_
  split
  · split
    · refine Monitor.ensures_call trivial fun r hr ↦ Monitor.ensures_ofExcept ⟨rfl, ?_⟩
      cases r with
      | ok u => exact .inl ⟨rfl, rfl⟩
      | error e =>
        obtain ⟨hcaught, hdriver⟩ | hdriver := store_cases (hr.1 e rfl)
        · have hstray : (w.stray || isDriver e) = false := by
            rw [hf.stray, hdriver, Bool.or_false]
          exact .inr (.inl ⟨e, rfl, isForwardFailure_of_store hcaught,
            hf.replies, hstray, hf.streaming, fun _ ↦ hcontact, hf.owing⟩)
        · have hstray : (w.stray || isDriver e) = true := by
            rw [isDriver, hdriver, decide_eq_true rfl, Bool.or_true]
          exact .inr (.inr (.of_kind (Open.broken hf.replies hstray) (.inl hdriver)))
    · exact Monitor.ensures_pure ⟨rfl, .inl ⟨rfl, rfl⟩⟩
  · exact Monitor.ensures_pure ⟨rfl, .inl ⟨rfl, rfl⟩⟩

private theorem ensures_openUpstream (hf : Fresh w s) :
    (observing rq).Ensures w s openUpstream fun w' r s' ↦
      (r = .ok () ∧ Fresh w' s' ∧ s'.watcher = .started) ∨
      (∃ e, r = .error e ∧ isForwardFailure e = true ∧ Open w' s' ∧ s'.watcher = s.watcher) ∨
      Astray rq w' r := by
  have hf' : ∀ {s' : Session}, s'.principal = s.principal → s'.usageRecorded = s.usageRecorded →
      Fresh { w with contacted := true } s' := fun hp hu ↦
    ⟨⟨hf.replies, hf.stray, hf.streaming, fun h ↦
      absurd (hf.unrefused.symm.trans h) Bool.false_ne_true,
      fun h ↦ by rw [hp, hu]; exact hf.owing h⟩, hf.unrefused⟩
  refine ensures_raising .connect (fun r hasSocket _ _ ↦ ?_) fun r e hr he ↦ .inr (.inl ?_)
  · show (observing rq).Ensures { w with contacted := true } s _ _
    split
    · refine Monitor.ensures_set (ensures_raising .startWatcher (fun r u _ hok ↦ ?_)
        fun r e hr he ↦ .inr (.inr ?_))
      · rw [show r = .ok u from hok]
        exact Monitor.ensures_modify (.inl ⟨rfl, hf' rfl rfl, rfl⟩)
      · have hkind := kind_of_documented hr.1 he
        have he' : r = .error e := he
        subst he'
        exact .of_kind (Open.broken hf.replies rfl) (.inr (.inr hkind))
    · exact Monitor.ensures_raise (.inr (.inl ⟨_, rfl, rfl, (hf' rfl rfl).toOpen, rfl⟩))
  · exact ⟨e, rfl, isForwardFailure_of_kind (hr.1 e he) (by decide), (hf' rfl rfl).toOpen, rfl⟩

private theorem ensures_try (hstore : g.hasStore = true) (hf : Fresh w s)
    (hcontact : w.contacted = false) (hw : s.watcher = .none) (body : Option Bytes) :
    (observing rq).Ensures w s (do
      dispatch g rq
      openUpstream
      sendRequest rq.method rq.path body (upstreamHeaders g rq body)
      receive g rq) (Tried g rq) := by
  have hnone : ∀ {s' : Session}, s'.watcher = s.watcher → s'.watcher ≠ .created := by
    intro s' h
    rw [h, hw]
    decide
  refine Monitor.ensures_bind ((ensures_dispatch hf hcontact).mono ?_)
  rintro w₁ r₁ s₁ ⟨rfl, ⟨rfl, rfl⟩ | ⟨e, rfl, hcaught, hopen⟩ | hastray⟩
  · refine ⟨fun _ _ ↦ Monitor.ensures_bind ((ensures_openUpstream hf).mono ?_),
      fun e he ↦ (by cases he)⟩
    rintro w₂ r₂ s₂ (⟨rfl, hf₂, hw₂⟩ | ⟨e, rfl, hcaught, hopen, hw₂⟩ | hastray)
    · exact ⟨fun _ _ ↦ ensures_send hstore hf₂ hw₂ body, fun e he ↦ (by cases he)⟩
    · refine ⟨fun _ hu ↦ (by cases hu), fun e' he' ↦ .inr ⟨hnone hw₂, .inr (.inr ?_)⟩⟩
      cases he'
      exact ⟨e, rfl, hcaught, hopen⟩
    · obtain ⟨-, e, rfl, -⟩ := id hastray
      refine ⟨fun _ hu ↦ (by cases hu), fun e' he' ↦ .inl ?_⟩
      cases he'
      exact hastray.cast
  · refine ⟨fun _ hu ↦ (by cases hu), fun e' he' ↦ .inr ⟨hnone rfl, .inr (.inr ?_)⟩⟩
    cases he'
    exact ⟨e, rfl, hcaught, hopen⟩
  · obtain ⟨-, e, rfl, -⟩ := id hastray
    refine ⟨fun _ hu ↦ (by cases hu), fun e' he' ↦ .inl ?_⟩
    cases he'
    exact hastray.cast

/-- How the `try` block ends with its handler. -/
def Exchanged (g : Gateway) (rq : Request) (w : Wire) (r : Except PyError (Option (Int × Bytes)))
    (s : Session) : Prop :=
  Astray rq w r ∨ s.watcher ≠ .created ∧
    ((r = .ok none ∧ (Served g rq w ∨ Broken rq w)) ∨ ∃ reply, r = .ok (some reply) ∧ Fresh w s)

private theorem ensures_exchangeFailed (hstore : g.hasStore = true) (hmethod : rq.method ≠ .head)
    (ho : Open w s) (hw : s.watcher ≠ .created) :
    (observing rq).Ensures w s
      (do exchangeFailed g rq; pure none : Handler (Option (Int × Bytes))) (Exchanged g rq) := by
  have hwatcher : (observing rq).Ensures w s (exchangeFailed g rq)
      fun _ _ s' ↦ True ∧ s'.watcher = s.watcher :=
    Monitor.ensures_of_within (P := fun _ ↦ True) (exchangeFailed_within g rq fun _ h ↦ h)
      (fun _ _ _ _ ↦ ⟨trivial, fun _ _ ↦ trivial⟩) trivial
  have hend : (observing rq).Ensures w s (exchangeFailed g rq) fun w' r _ ↦
      r = .ok () ∧ Served g rq w' ∨ Astray rq w' r := by
    refine Monitor.ensures_call trivial fun gone hgone ↦ ?_
    rw [show gone = false from hgone.2, if_neg Bool.false_ne_true]
    exact ensures_sendError (w := { w with event := none }) hstore
      ⟨ho.replies, ho.stray, ho.streaming, ho.contact, ho.owing⟩ fun _ ↦ ⟨hmethod, rfl, .inr rfl⟩
  refine Monitor.ensures_bind ((hend.and hwatcher).mono ?_)
  rintro w' r s' ⟨⟨rfl, hserved⟩ | hastray, -, hkept⟩
  · refine ⟨fun _ _ ↦ Monitor.ensures_pure (.inr ⟨?_, .inl ⟨rfl, .inl hserved⟩⟩),
      fun e he ↦ (by cases he)⟩
    rwa [hkept]
  · obtain ⟨-, e, rfl, -⟩ := id hastray
    refine ⟨fun _ hu ↦ (by cases hu), fun e' he' ↦ .inl ?_⟩
    cases he'
    exact hastray.cast

private theorem ensures_exchange (hstore : g.hasStore = true) (hmethod : rq.method ≠ .head)
    (hf : Fresh w s) (hcontact : w.contacted = false) (hw : s.watcher = .none)
    (body : Option Bytes) :
    (observing rq).Ensures w s (exchange g rq body) (Exchanged g rq) := by
  refine Monitor.ensures_tryExcept ((ensures_try hstore hf hcontact hw body).mono ?_)
  rintro w' r s' (hastray | ⟨hjoin, ⟨rfl, hend⟩ | ⟨reply, rfl, hf'⟩ | ⟨e, rfl, hcaught, ho⟩⟩)
  · obtain ⟨-, e, rfl, -, hpass, -⟩ := id hastray
    refine ⟨fun _ hu ↦ (by cases hu), fun e' he' _ ↦ .inl (he' ▸ hastray), fun e' he' hc ↦ ?_⟩
    cases he'
    rw [hpass] at hc
    cases hc
  · refine ⟨fun a ha ↦ ?_, fun e he ↦ (by cases he), fun e he ↦ (by cases he)⟩
    cases ha
    exact .inr ⟨hjoin, .inl ⟨rfl, hend⟩⟩
  · refine ⟨fun a ha ↦ ?_, fun e he ↦ (by cases he), fun e he ↦ (by cases he)⟩
    cases ha
    exact .inr ⟨hjoin, .inr ⟨reply, rfl, hf'⟩⟩
  · refine ⟨fun _ hu ↦ (by cases hu), fun e' he' hc ↦ ?_, fun _ _ _ ↦
      ensures_exchangeFailed hstore hmethod ho hjoin⟩
    cases he'
    rw [hcaught] at hc
    cases hc

/-- The `finally` block fails only on a watcher that never started. -/
private theorem ensures_cleanUp (slot : Option Slot) :
    (observing rq).Ensures w s (cleanUp slot) fun w' r s' ↦ w' = w ∧ s' = s ∧
      (r = .ok () ∨ s.watcher = .created ∧ ∃ e, r = .error e ∧ e.kind = .runtimeError) := by
  have hclosing : (observing rq).Ensures w s
      (do closeConnection; ask (.release .inFlight); releaseRoute slot : Handler Unit)
      fun w' r s' ↦ w' = w ∧ s' = s ∧ r = .ok () := by
    refine ensures_raising .closeConnection (fun r u hr _ ↦ ?_) fun r e hr he ↦ ?_
    · rw [show r = .ok () from hr.2]
      refine Monitor.ensures_call trivial fun _ _ ↦ ?_
      cases slot with
      | none => exact Monitor.ensures_pure ⟨rfl, rfl, rfl⟩
      | some slot => exact Monitor.ensures_perform trivial fun _ _ ↦ ⟨rfl, rfl, rfl⟩
    · have hr' : r = .ok () := hr.2
      subst hr'
      cases he
  refine Monitor.ensures_bind (Monitor.ensures_get ?_)
  cases hw : s.watcher with
  | none =>
    exact Monitor.ensures_pure ⟨fun _ _ ↦ hclosing.mono fun _ _ _ h ↦ ⟨h.1, h.2.1, .inl h.2.2⟩,
      fun e he ↦ (by cases he)⟩
  | created =>
    refine Monitor.ensures_raise
      ⟨fun _ hu ↦ (by cases hu), fun e he ↦ ⟨rfl, rfl, .inr ⟨rfl, e, rfl, ?_⟩⟩⟩
    cases he
    rfl
  | started =>
    exact Monitor.ensures_perform trivial fun _ _ ↦
      ⟨fun _ _ ↦ hclosing.mono fun _ _ _ h ↦ ⟨h.1, h.2.1, .inl h.2.2⟩, fun e he ↦ (by cases he)⟩

private theorem ensures_finally (hstore : g.hasStore = true) (hmethod : rq.method ≠ .head)
    (hf : Fresh w s) (hcontact : w.contacted = false) (hw : s.watcher = .none)
    (body : Option Bytes) (slot : Option Slot) :
    (observing rq).Ensures w s (Act.finallyDo (exchange g rq body) (cleanUp slot)) fun w' r s' ↦
      Astray rq w' r ∨ (r = .ok none ∧ (Served g rq w' ∨ Broken rq w')) ∨
        ∃ reply, r = .ok (some reply) ∧ Fresh w' s' := by
  refine Monitor.ensures_finallyDo
    ((ensures_exchange hstore hmethod hf hcontact hw body).mono fun w' r s' hex ↦ ?_)
  refine (ensures_cleanUp slot).mono ?_
  rintro _ r' _ ⟨rfl, rfl, rfl | ⟨hcreated, e, rfl, hkind⟩⟩
  · refine ⟨fun _ _ ↦ ?_, fun e he ↦ (by cases he)⟩
    obtain hastray | ⟨-, h⟩ := hex
    · exact .inl hastray
    · exact .inr h
  · refine ⟨fun _ hu ↦ (by cases hu), fun e' he' ↦ ?_⟩
    cases he'
    obtain hastray | ⟨hjoin, -⟩ := hex
    · exact .inl (.of_kind hastray.1 (.inr (.inr hkind)))
    · exact absurd hcreated hjoin

/-- How a request ends that was not handed to the handler of its method: answered or broken, or
astray. -/
def Ended (g : Gateway) (rq : Request) (w : Wire) (r : Except PyError Unit) : Prop :=
  (r = .ok () ∧ (Served g rq w ∨ Broken rq w)) ∨ Astray rq w r

/-- A refusal, when the store refused nothing. -/
private theorem ensures_refusal (hstore : g.hasStore = true) (hf : Fresh w s) (status : Int)
    (code : Text) :
    (observing rq).Ensures w s (sendError g rq status code) fun w' r _ ↦ Ended g rq w' r := by
  refine (ensures_sendError hstore hf.toOpen fun h ↦ ?_).mono fun w' r s' h ↦ ?_
  · exact absurd (hf.unrefused.symm.trans h) Bool.false_ne_true
  · exact h.imp (fun h ↦ ⟨h.1, .inl h.2⟩) id

/-- The reply that `_forward` relays last. -/
private theorem ensures_reply (hmethod : rq.method ≠ .head) (hf : Fresh w s) (status : Int)
    (body : Bytes) :
    (observing rq).Ensures w s
      (do sendHead status (replyHeaders rq body.length); write body : Handler Unit)
      fun w' r _ ↦ Ended g rq w' r := by
  refine ensures_raising (.sendHead _ _) (fun r u hr _ ↦ ?_) fun r e hr he ↦ ?_
  · rw [show r = .ok () from hr.2]
    refine Monitor.ensures_call trivial fun r hr ↦ Monitor.ensures_ofExcept ?_
    rw [show r = .ok () from hr.2]
    have hreplies : extend w.event body (⟨status, replyHeaders rq body.length, [], false⟩ ::
        w.replies) = [⟨status, replyHeaders rq body.length, body,
          w.event.getD (decide (body = interruptedFrame))⟩] := by
      rw [hf.replies]
      rfl
    refine .inl ⟨rfl, .inl ⟨⟨_, hreplies, ?_, fun h ↦ ?_⟩, hf.stray, fun h ↦ ?_⟩⟩
    · show if rq.method = .head then body = [] else decimal body.length = decimal body.length
      rw [if_neg hmethod]
    · exact absurd (hf.unrefused.symm.trans h) Bool.false_ne_true
    · exact Bool.false_ne_true (hf.streaming.symm.trans h.1)
  · have hr' : r = .ok () := hr.2
    subst hr'
    cases he

private theorem ensures_forward (hstore : g.hasStore = true) (hmethod : rq.method ≠ .head)
    (hf : Fresh w s) (hcontact : w.contacted = false) (body : Option Bytes) :
    (observing rq).Ensures w s (forward g rq body) fun w' r _ ↦ Ended g rq w' r := by
  have hf' : Fresh w { s with watcher := .none } :=
    ⟨⟨hf.replies, hf.stray, hf.streaming, hf.contact, hf.owing⟩, hf.unrefused⟩
  have hover : (observing rq).Ensures w { s with watcher := .none } (overCapacity g rq)
      fun w' r _ ↦ Ended g rq w' r := ensures_refusal hstore hf' _ _
  have hroute : (observing rq).Ensures w { s with watcher := .none } (acquireRoute (slotOf rq.path))
      fun w' r s' ↦ w' = w ∧ s' = { s with watcher := .none } ∧ ∃ b, r = .ok b := by
    cases slotOf rq.path with
    | none => exact Monitor.ensures_pure ⟨rfl, rfl, true, rfl⟩
    | some slot => exact Monitor.ensures_perform trivial fun b _ ↦ ⟨rfl, rfl, b, rfl⟩
  refine Monitor.ensures_set (Monitor.ensures_bind (hroute.mono ?_))
  rintro _ _ _ ⟨rfl, rfl, granted, rfl⟩
  refine ⟨fun _ _ ↦ ?_, fun e he ↦ (by cases he)⟩
  split
  · refine Monitor.ensures_call trivial fun held _ ↦ ?_
    split
    · refine Monitor.ensures_bind
        ((ensures_finally hstore hmethod hf' hcontact rfl body _).mono ?_)
      rintro w' r s' (hastray | ⟨rfl, hend⟩ | ⟨reply, rfl, hf''⟩)
      · obtain ⟨-, e, rfl, -⟩ := id hastray
        refine ⟨fun _ hu ↦ (by cases hu), fun e' he' ↦ .inr ?_⟩
        cases he'
        exact hastray.cast
      · refine ⟨fun reply hreply ↦ ?_, fun e he ↦ (by cases he)⟩
        cases hreply
        exact Monitor.ensures_pure (.inl ⟨rfl, hend⟩)
      · refine ⟨fun reply' hreply ↦ ?_, fun e he ↦ (by cases he)⟩
        cases hreply
        exact ensures_reply hmethod hf'' _ _
    · refine Monitor.ensures_bind ?_
      cases slotOf rq.path with
      | none => exact Monitor.ensures_pure ⟨fun _ _ ↦ hover, fun e he ↦ (by cases he)⟩
      | some slot =>
        exact Monitor.ensures_perform trivial fun _ _ ↦ ⟨fun _ _ ↦ hover, fun e he ↦ (by cases he)⟩
  · exact hover

/-! ### Requests -/

/-- How the method of a request ends: as above, or with a failure of the store or the socket before
anything was sent. -/
def MethodEnd (g : Gateway) (rq : Request) (w : Wire) (r : Except PyError Unit) (s : Session) :
    Prop :=
  Ended g rq w r ∨ ∃ e, r = .error e ∧ isStoreFailure e = true ∧ Open w s

/-- How a question to the store ends: it answers, fails, or goes astray. -/
def Asked (rq : Request) (w : Wire) (r : Except PyError Bool) (s : Session) : Prop :=
  (∃ b, r = .ok b ∧ Fresh w s ∧ w.contacted = false) ∨
  (∃ e, r = .error e ∧ isStoreFailure e = true ∧ Open w s) ∨ Astray rq w r

private theorem ensures_question {act : Handler Bool} {next : Bool → Handler Unit}
    (h : (observing rq).Ensures w s act (Asked rq))
    (hnext : ∀ b {w' s'}, Fresh w' s' → w'.contacted = false →
      (observing rq).Ensures w' s' (next b) (MethodEnd g rq)) :
    (observing rq).Ensures w s (act >>= next) (MethodEnd g rq) := by
  refine Monitor.ensures_bind (h.mono ?_)
  rintro w' r s' (⟨b, rfl, hf, hcontact⟩ | ⟨e, rfl, hcaught, ho⟩ | hast)
  · exact ⟨fun b' _ ↦ hnext b' hf hcontact, fun e he ↦ (by cases he)⟩
  · refine ⟨fun _ hu ↦ (by cases hu), fun e' he' ↦ .inr ?_⟩
    cases he'
    exact ⟨e, rfl, hcaught, ho⟩
  · obtain ⟨-, e, rfl, -⟩ := id hast
    refine ⟨fun _ hu ↦ (by cases hu), fun e' he' ↦ .inl (.inr ?_)⟩
    cases he'
    exact hast.cast

omit [FloatText] in
/-- The answer of the store to `authenticate` and `admit`, when it raises. -/
private theorem refused_cases (hf : Fresh w s) (hcontact : w.contacted = false) {e : PyError}
    (hkind : e.kind ∈ [ErrorKind.osError, .sqliteError, .driverError]) :
    (∃ e', (.error e : Except PyError Bool) = .error e' ∧ isStoreFailure e' = true ∧
      Open { w with refused := true, stray := w.stray || isDriver e } s) ∨
    Astray rq { w with refused := true, stray := w.stray || isDriver e }
      (.error e : Except PyError Bool) := by
  obtain ⟨hcaught, hdriver⟩ | hdriver := store_cases hkind
  · have hstray : (w.stray || isDriver e) = false := by
      rw [hf.stray, hdriver, Bool.or_false]
    exact .inl ⟨e, rfl, hcaught, hf.replies, hstray, hf.streaming, fun _ ↦ hcontact, hf.owing⟩
  · have hstray : (w.stray || isDriver e) = true := by
      rw [isDriver, hdriver, decide_eq_true rfl, Bool.or_true]
    exact .inr (.of_kind (Open.broken hf.replies hstray) (.inl hdriver))

private theorem ensures_authorized (hstore : g.hasStore = true) (hf : Fresh w s)
    (hcontact : w.contacted = false) (hclear : w.unrecorded = false) :
    (observing rq).Ensures w s (authorized g rq) (Asked rq) := by
  have hno : (observing rq).Ensures w s (pure false : Handler Bool) (Asked rq) :=
    Monitor.ensures_pure (.inl ⟨false, rfl, hf, hcontact⟩)
  unfold authorized
  split
  · exact hno
  · dsimp only
    split
    · exact hno
    · unfold authorizedKey
      split
      · split
        · exact hno
        · next key _ =>
          refine ensures_raising (.authenticate key) (fun r found _ hok ↦ ?_) fun r e hr he ↦ ?_
          · rw [show r = .ok found from hok]
            cases found with
            | none => exact hno
            | some principal =>
              refine Monitor.ensures_set (Monitor.ensures_pure (.inl ⟨true, rfl, ?_, hcontact⟩))
              refine ⟨⟨hf.replies, hf.stray, hf.streaming, hf.contact, fun h ↦ ?_⟩, hf.unrefused⟩
              exact absurd (hclear.symm.trans h) Bool.false_ne_true
          · have hkind := hr.1 e he
            have he' : r = .error e := he
            subst he'
            exact .inr (refused_cases hf hcontact hkind)
      · exact hno

private theorem ensures_scopeAllowed (hstore : g.hasStore = true) (hf : Fresh w s)
    (hcontact : w.contacted = false) :
    (observing rq).Ensures w s (scopeAllowed g rq) (Asked rq) := by
  unfold scopeAllowed
  rw [if_pos hstore]
  refine Monitor.ensures_get ?_
  split
  · exact Monitor.ensures_pure (.inl ⟨_, rfl, hf, hcontact⟩)
  · exact Monitor.ensures_pure (.inl ⟨_, rfl, hf, hcontact⟩)

private theorem ensures_admitted (hstore : g.hasStore = true) (hf : Fresh w s)
    (hcontact : w.contacted = false) :
    (observing rq).Ensures w s (admitted g) (Asked rq) := by
  unfold admitted
  rw [if_pos hstore]
  refine Monitor.ensures_get ?_
  split
  · refine Monitor.ensures_call trivial fun r hr ↦ Monitor.ensures_ofExcept ?_
    cases r with
    | ok b => exact .inl ⟨b, rfl, hf, hcontact⟩
    | error e => exact .inr (refused_cases hf hcontact (hr.1 e rfl))
  · exact Monitor.ensures_pure (.inl ⟨_, rfl, hf, hcontact⟩)

/-- An early refusal of a method. -/
private theorem ensures_early (hstore : g.hasStore = true) (hf : Fresh w s) (status : Int)
    (code : Text) :
    (observing rq).Ensures w s (sendError g rq status code) (MethodEnd g rq) :=
  (ensures_refusal hstore hf status code).mono fun _ _ _ h ↦ .inl h

private theorem ensures_guardedGet (hstore : g.hasStore = true) (hmethod : rq.method ≠ .head)
    (hf : Fresh w s) (hcontact : w.contacted = false) (hclear : w.unrecorded = false) :
    (observing rq).Ensures w s (guardedGet g rq) (MethodEnd g rq) := by
  refine ensures_question (ensures_authorized hstore hf hcontact hclear) fun _ _ _ hf₁ hc₁ ↦ ?_
  split
  · refine ensures_question (ensures_scopeAllowed hstore hf₁ hc₁) fun _ _ _ hf₂ hc₂ ↦ ?_
    split
    · refine ensures_question (ensures_admitted hstore hf₂ hc₂) fun _ _ _ hf₃ hc₃ ↦ ?_
      dsimp only
      split
      · exact (ensures_forward hstore hmethod hf₃ hc₃ none).mono fun _ _ _ h ↦ .inl h
      · exact ensures_early hstore hf₃ _ _
    · exact ensures_early hstore hf₂ _ _
  · exact ensures_early hstore hf₁ _ _

private theorem ensures_postBody (hstore : g.hasStore = true) (hmethod : rq.method ≠ .head)
    (hf : Fresh w s) (hcontact : w.contacted = false) :
    (observing rq).Ensures w s (postBody g rq) (MethodEnd g rq) := by
  unfold postBody
  split
  · exact ensures_early hstore hf _ _
  · refine ensures_raising (.readBody _) (fun r body _ _ ↦ ?_) fun r e hr he ↦ ?_
    · exact (ensures_forward hstore hmethod hf hcontact (some body)).mono fun _ _ _ h ↦ .inl h
    · refine .inr ⟨e, rfl, ?_, hf.toOpen⟩
      rw [isStoreFailure, kind_of_documented hr.1 he]

private theorem ensures_guardedPost (hstore : g.hasStore = true) (hmethod : rq.method ≠ .head)
    (hf : Fresh w s) (hcontact : w.contacted = false) (hclear : w.unrecorded = false) :
    (observing rq).Ensures w s (guardedPost g rq) (MethodEnd g rq) := by
  refine ensures_question (ensures_authorized hstore hf hcontact hclear) fun _ _ _ hf₁ hc₁ ↦ ?_
  split
  · refine ensures_question (ensures_scopeAllowed hstore hf₁ hc₁) fun _ _ _ hf₂ hc₂ ↦ ?_
    split
    · split
      · exact ensures_early hstore hf₂ _ _
      · split
        · exact ensures_early hstore hf₂ _ _
        · refine ensures_question (ensures_admitted hstore hf₂ hc₂) fun _ _ _ hf₃ hc₃ ↦ ?_
          split
          · exact ensures_postBody hstore hmethod hf₃ hc₃
          · exact ensures_early hstore hf₃ _ _
    · exact ensures_early hstore hf₂ _ _
  · exact ensures_early hstore hf₁ _ _

omit [FloatText] in
private theorem fresh_zero (s : Session) : Fresh .zero s :=
  ⟨⟨rfl, rfl, rfl, fun h ↦ (by cases h), fun h ↦ (by cases h)⟩, rfl⟩

private theorem ensures_begin {α : Type} {next : Handler α}
    {Q : Wire → Except PyError α → Session → Prop}
    (h : ∀ s, (observing rq).Ensures .zero s next Q) (s : Session) :
    (observing rq).Ensures .zero s (do beginRequest; next) Q :=
  Monitor.ensures_bind (Monitor.ensures_call trivial fun now _ ↦
    Monitor.ensures_modify ⟨fun _ _ ↦ h _, fun e he ↦ by cases he⟩)

private theorem ensures_getMethod (hstore : g.hasStore = true) (hmethod : rq.method ≠ .head)
    (s : Session) : (observing rq).Ensures .zero s (get g rq) (MethodEnd g rq) := by
  refine ensures_begin (fun s ↦ ?_) s
  split
  · exact ensures_early hstore (fresh_zero s) _ _
  · split
    · exact (ensures_forward hstore hmethod (fresh_zero s) rfl none).mono fun _ _ _ h ↦ .inl h
    · exact ensures_guardedGet hstore hmethod (fresh_zero s) rfl rfl

private theorem ensures_postMethod (hstore : g.hasStore = true) (hmethod : rq.method ≠ .head)
    (s : Session) : (observing rq).Ensures .zero s (post g rq) (MethodEnd g rq) := by
  refine ensures_begin (fun s ↦ ?_) s
  split
  · exact ensures_early hstore (fresh_zero s) _ _
  · exact ensures_guardedPost hstore hmethod (fresh_zero s) rfl rfl

private theorem ensures_answering (hstore : g.hasStore = true) (hmethod : rq.method ≠ .head)
    {method : Handler Unit} (h : (observing rq).Ensures .zero s method (MethodEnd g rq)) :
    (observing rq).Ensures .zero s (answering g rq method) fun w' r _ ↦ Ended g rq w' r := by
  refine Monitor.ensures_tryExcept (h.mono ?_)
  rintro w' r s' ((⟨rfl, hend⟩ | hastray) | ⟨e, rfl, hcaught, ho⟩)
  · exact ⟨fun _ _ ↦ .inl ⟨rfl, hend⟩, fun e he ↦ (by cases he), fun e he ↦ (by cases he)⟩
  · obtain ⟨-, e, rfl, hpass, -⟩ := id hastray
    refine ⟨fun _ hu ↦ (by cases hu), fun e' he' _ ↦ .inr (he' ▸ hastray), fun e' he' hc ↦ ?_⟩
    cases he'
    rw [hpass] at hc
    cases hc
  · refine ⟨fun _ hu ↦ (by cases hu), fun e' he' hc ↦ ?_, fun _ _ _ ↦ ?_⟩
    · cases he'
      rw [hcaught] at hc
      cases hc
    · refine (ensures_sendError hstore ho fun _ ↦ ⟨hmethod, rfl, .inl rfl⟩).mono fun _ _ _ h ↦ ?_
      exact h.imp (fun h ↦ ⟨h.1, .inl h.2⟩) id

private theorem ensures_refuse (hstore : g.hasStore = true) (code : Int) (s : Session) :
    (observing rq).Ensures .zero s (refuse g rq code) fun w' r _ ↦ Ended g rq w' r := by
  refine ensures_begin (fun s ↦ ?_) s
  split
  · exact ensures_refusal hstore (fresh_zero s) _ _
  · exact ensures_refusal hstore (fresh_zero s) _ _

/-- How every request ends. -/
theorem ensures_handle (hstore : g.hasStore = true) (malformed : Option Int) (s : Session) :
    (observing rq).Ensures .zero s (handle g rq malformed) fun w' r _ ↦ Ended g rq w' r := by
  unfold handle
  split
  · exact ensures_refuse hstore _ s
  · split
    · next hget =>
      have hmethod : rq.method ≠ .head := by
        rw [hget]
        decide
      exact ensures_answering hstore hmethod (ensures_getMethod hstore hmethod s)
    · next hpost =>
      have hmethod : rq.method ≠ .head := by
        rw [hpost]
        decide
      exact ensures_answering hstore hmethod (ensures_postMethod hstore hmethod s)
    · exact ensures_refuse hstore _ s
    · exact ensures_refuse hstore _ s

end States

private theorem connected_calmHost (o : IngressOp) : Connected o (calmHost o) := by
  cases o <;> trivial

/-- A host whose store cannot authenticate and raises this. -/
def failingHost (error : PyError) : (o : IngressOp) → o.Res
  | .authenticate _ => .error error
  | o => calmHost o

private theorem failingHost_connected {error : PyError}
    (h : error.kind ∈ [ErrorKind.osError, .sqliteError, .driverError]) (o : IngressOp) :
    Documented o (failingHost error o) ∧ Connected o (failingHost error o) := by
  cases o with
  | authenticate key =>
    refine ⟨fun e he ↦ ?_, trivial⟩
    cases he
    exact h
  | _ => exact ⟨documented_calmHost _, connected_calmHost _⟩

end C3RSpec.Ingress.Outage
