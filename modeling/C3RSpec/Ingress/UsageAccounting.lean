import C3RSpec.Ingress.Operations

/-!
# Usage records of the ingress

Usage is recorded from several places behind one flag: refusals, replies, disconnects, the
terminal event of a stream and its failure. As long as the store works, a request whose key was
authenticated ends with one record, unless an exception passes all of them: a `RecursionError` of
the decoder, or a watcher thread that could not be started. An `OSError` from closing the upstream
connection replaces the former, and is then answered and recorded after all.
-/

namespace C3RSpec.Ingress.Accounting

open Base

/-- What the events of a request amount to. -/
structure Tally where
  authenticated : Bool
  dispatched : Bool
  records : Nat
  recursed : Bool
  unstarted : Bool
  unclosed : Bool

/-- No event. -/
def Tally.zero : Tally := ⟨false, false, 0, false, false, false⟩

/-- One more event: a key was authenticated, the dispatch or the usage of this request was stored,
decoding exhausted the stack, the watcher could not be started, or the connection could not be
closed. -/
def Tally.next (requestId : Text) (t : Tally) : Event IngressOp IngressOp.Res → Tally
  | ⟨.authenticate _, .ok (some _)⟩ => { t with authenticated := true }
  | ⟨.dispatchEvent _ id, .ok _⟩ => if id = requestId then { t with dispatched := true } else t
  | ⟨.recordUsage _ id _, .ok _⟩ =>
    if id = requestId then { t with records := t.records + 1 } else t
  | ⟨.loads _, .error e⟩ =>
    if e.kind = .recursionError then { t with recursed := true } else t
  | ⟨.startWatcher, .error _⟩ => { t with unstarted := true }
  | ⟨.closeConnection, .error _⟩ => { t with unclosed := true }
  | _ => t

/-- The tally of a run. -/
def tally (requestId : Text) (es : Log) : Tally := es.foldl (Tally.next requestId) .zero

/-- The call, if it is one of the store, does not raise. -/
def StoreSucceeds : (o : IngressOp) → o.Res → Prop
  | .authenticate _ => fun r ↦ ∃ a, r = .ok a
  | .admitRequest _ => fun r ↦ ∃ a, r = .ok a
  | .dispatchEvent _ _ => fun r ↦ ∃ a, r = .ok a
  | .recordUsage _ _ _ => fun r ↦ ∃ a, r = .ok a
  | _ => fun _ ↦ True

/-- The monitor of usage, on a host whose store works. -/
abbrev tallying (rq : Request) : Monitor IngressOp IngressOp.Res Unit Tally :=
  ⟨Tally.next rq.requestId, fun _ _ ↦ True, fun o r ↦ Documented o r ∧ StoreSucceeds o r,
    fun _ _ ↦ True⟩

/-- The flag of the handler counts the records, and an authenticated key is remembered, also by a
request that was dispatched. -/
structure Books (t : Tally) (s : Session) : Prop where
  records : t.records = if s.usageRecorded then 1 else 0
  known : t.authenticated = true ∨ t.dispatched = true → s.principal.isSome = true

/-- A request with a principal has been recorded. -/
def Settled (s : Session) : Prop := s.principal.isSome = true → s.usageRecorded = true

/-- The threads and the connection are as before. -/
structure Kept (t : Tally) (s : Session) (t' : Tally) (s' : Session) : Prop where
  unstarted : t'.unstarted = t.unstarted
  unclosed : t'.unclosed = t.unclosed
  watcher : s'.watcher = s.watcher

private theorem Kept.refl (t : Tally) (s : Session) : Kept t s t s := ⟨rfl, rfl, rfl⟩

private theorem Kept.trans {t t' t'' : Tally} {s s' s'' : Session} (h : Kept t s t' s')
    (h' : Kept t' s' t'' s'') : Kept t s t'' s'' :=
  ⟨h'.unstarted.trans h.unstarted, h'.unclosed.trans h.unclosed, h'.watcher.trans h.watcher⟩

section Parts

variable [FloatText] {g : Gateway} {rq : Request} {t : Tally} {s : Session}

/-! ### Recording -/

omit [FloatText] in
/-- `_record_usage` leaves the request recorded, once. -/
theorem ensures_recordUsage (hstore : g.hasStore = true) (hb : Books t s) (status : Int)
    (decoded : List (Text × Json)) :
    (tallying rq).Ensures t s (recordUsage g rq status decoded) fun t' r s' ↦ r = .ok () ∧
      Books t' s' ∧ Kept t s t' s' ∧ Settled s' ∧ t'.recursed = t.recursed ∧
        s'.terminal = s.terminal := by
  refine Monitor.ensures_get ?_
  split
  · next hnone =>
    refine Monitor.ensures_pure ⟨rfl, hb, .refl t s, fun h ↦ ?_, rfl, rfl⟩
    rw [hnone] at h
    cases h
  · next principal hsome =>
    split
    · next hdone =>
      rw [hstore] at hdone
      exact Monitor.ensures_pure ⟨rfl, hb, .refl t s, fun _ ↦ hdone, rfl, rfl⟩
    · next hfresh =>
      have hfalse : s.usageRecorded = false := by
        rw [hstore] at hfresh
        exact Bool.not_eq_true _ ▸ hfresh
      refine Monitor.ensures_call trivial fun now _ ↦ Monitor.ensures_bind
        (Monitor.ensures_call trivial fun r hr ↦ Monitor.ensures_ofExcept ⟨fun u hu ↦ ?_, ?_⟩)
      · subst hu
        refine Monitor.ensures_modify ?_
        have hnext : (tallying rq).next ((tallying rq).next t ⟨.monotonic, now⟩)
            ⟨.recordUsage principal rq.requestId (usageOf rq (now - s.started) status decoded),
              .ok u⟩ = { t with records := t.records + 1 } := if_pos rfl
        refine ⟨rfl, ?_, ?_, fun _ ↦ rfl, ?_, rfl⟩
        · refine ⟨?_, fun _ ↦ by rw [hsome, Option.isSome_some]⟩
          rw [hnext, if_pos rfl]
          show t.records + 1 = 1
          rw [hb.records, hfalse, if_neg Bool.false_ne_true]
        · rw [hnext]
          exact ⟨rfl, rfl, rfl⟩
        · rw [hnext]
      · intro e he
        obtain ⟨u, hu⟩ := hr.2
        rw [he] at hu
        cases hu

omit [FloatText] in
/-- A call that may raise, and what follows it. -/
theorem ensures_raising {α β : Type} (o : IngressOp) {conv : o.Res → Except PyError α}
    {f : α → Handler β} {Q : Tally → Except PyError β → Session → Prop}
    (hok : ∀ r a, Documented o r ∧ StoreSucceeds o r → conv r = .ok a →
      (tallying rq).Ensures (Tally.next rq.requestId t ⟨o, r⟩) s (f a) Q)
    (herror : ∀ r e, Documented o r ∧ StoreSucceeds o r → conv r = .error e →
      Q (Tally.next rq.requestId t ⟨o, r⟩) (.error e) s) :
    (tallying rq).Ensures t s ((ask o >>= fun r ↦ Act.ofExcept (conv r)) >>= f) Q :=
  Monitor.ensures_raising trivial hok herror

/-- The request is recorded if it has a principal, and an exception is one of the socket. -/
def Answered (t : Tally) (s : Session) {α : Type} (t' : Tally) (r : Except PyError α)
    (s' : Session) : Prop :=
  Books t' s' ∧ Kept t s t' s' ∧ Settled s' ∧ t'.recursed = t.recursed ∧
    ∀ e, r = .error e → e.kind = .osError

omit [FloatText] in
private theorem kind_of_documented {α : Type} {x : Except PyError α} {kind : ErrorKind}
    {e : PyError} (h : RaisesOnly [kind] x) (he : x = .error e) : e.kind = kind :=
  List.mem_singleton.mp (h e he)

omit [FloatText] in
private theorem ensures_swallow {act : Handler Unit} {t₀ : Tally} {s₀ : Session}
    (h : (tallying rq).Ensures t s act (Answered t₀ s₀)) :
    (tallying rq).Ensures t s (Act.tryExcept act isStoreFailure fun _ ↦ pure ())
      (Answered t₀ s₀) := by
  refine Monitor.ensures_tryExcept (h.mono fun t' r s' hr ↦ ⟨fun a ha ↦ ha ▸ hr,
    fun e he _ ↦ he ▸ hr, fun e he _ ↦ Monitor.ensures_pure ?_⟩)
  obtain ⟨hb, hkept, hs, hrec, -⟩ := hr
  exact ⟨hb, hkept, hs, hrec, fun e he ↦ by cases he⟩

private theorem ensures_sendRefusal (hb : Books t s) (hs : Settled s) (status : Int) (code : Text) :
    (tallying rq).Ensures t s (sendRefusal g rq status code) (Answered t s) := by
  refine ensures_raising (.sendHead _ _) (fun r _ _ _ ↦ ?_) fun r e hr he ↦
    ⟨hb, .refl t s, hs, rfl, fun e' he' ↦ ?_⟩
  · split
    · refine Monitor.ensures_call trivial fun r hr ↦ Monitor.ensures_ofExcept
        ⟨hb, .refl t s, hs, rfl, fun e he ↦ kind_of_documented hr.1 he⟩
    · exact Monitor.ensures_pure ⟨hb, .refl t s, hs, rfl, fun e he ↦ by cases he⟩
  · cases he'
    exact kind_of_documented hr.1 he

/-- `_send_error` leaves the request recorded. -/
theorem ensures_sendError (hstore : g.hasStore = true) (hb : Books t s) (status : Int)
    (code : Text) :
    (tallying rq).Ensures t s (sendError g rq status code) (Answered t s) := by
  refine Monitor.ensures_bind (Monitor.ensures_tryExcept (Monitor.ensures_bind
    ((ensures_recordUsage hstore hb status []).mono ?_)))
  rintro t' _ s' ⟨rfl, hb', hkept, hs', hrec, -⟩
  refine ⟨fun _ _ ↦ Monitor.ensures_pure ⟨fun recorded h ↦ ⟨fun recorded' h' ↦ ?_, ?_⟩, ?_, ?_⟩, ?_⟩
  · cases h'
    cases h
    refine (ensures_sendRefusal hb' hs' status code).mono ?_
    rintro t'' r'' s'' ⟨hb'', hkept', hs'', hrec', hkind⟩
    exact ⟨hb'', hkept.trans hkept', hs'', hrec'.trans hrec, hkind⟩
  all_goals intro e he; cases he

/-! ### Streams -/

/-- The stream goes on or ended, in the second case recorded. -/
structure Flowing (t : Tally) (s : Session) (t' : Tally) (s' : Session) : Prop where
  books : Books t' s'
  kept : Kept t s t' s'
  recursed : t'.recursed = t.recursed
  ended : s'.terminal = true → Settled s'
  open_ : s'.terminal = false → s'.usageRecorded = false

/-- A `RecursionError` passes, and nothing was recorded. -/
structure Recursed (t : Tally) (s : Session) {α : Type} (t' : Tally) (r : Except PyError α)
    (s' : Session) : Prop where
  books : Books t' s'
  kept : Kept t s t' s'
  recursed : t'.recursed = true
  unrecorded : s'.usageRecorded = false
  error : ∃ e, r = .error e ∧ e.kind = .recursionError

omit [FloatText] in
private theorem Flowing.trans {t' t'' : Tally} {s' s'' : Session} (h : Flowing t s t' s')
    (h' : Flowing t' s' t'' s'') : Flowing t s t'' s'' :=
  ⟨h'.books, h.kept.trans h'.kept, h'.recursed.trans h.recursed, h'.ended, h'.open_⟩

omit [FloatText] in
private theorem Recursed.after {α : Type} {t' t'' : Tally} {s' s'' : Session}
    {r : Except PyError α} (h : Flowing t s t' s') (h' : Recursed t' s' t'' r s'') :
    Recursed t s t'' r s'' :=
  ⟨h'.books, h.kept.trans h'.kept, h'.recursed, h'.unrecorded, h'.error⟩

/-- How one frame and the loop over frames end. -/
def Streamed (t : Tally) (s : Session) (t' : Tally) (r : Except PyError Unit) (s' : Session) : Prop :=
  (Flowing t s t' s' ∧ ∀ e, r = .error e → isStreamFailure e = true) ∨ Recursed t s t' r s'

omit [FloatText] in
private theorem isStreamFailure_of_kind {e : PyError} {kinds : List ErrorKind}
    (h : e.kind ∈ kinds) (hk : ∀ k ∈ kinds, isStreamFailure ⟨k, ""⟩ = true) :
    isStreamFailure e = true := hk e.kind h

omit [FloatText] in
/-- Decoding: the tally remembers a `RecursionError` and nothing else. -/
private theorem ensures_loads {α : Type} {data : Bytes} {f : Json → Handler α}
    {Q : Tally → Except PyError α → Session → Prop}
    (hok : ∀ raw, (tallying rq).Ensures t s (f raw) Q)
    (hvalue : ∀ e : PyError, e.kind = .valueError → Q t (.error e) s)
    (hdeep : ∀ e : PyError, e.kind = .recursionError → Q { t with recursed := true } (.error e) s) :
    (tallying rq).Ensures t s (loadsJson data >>= f) Q := by
  refine ensures_raising (.loads data) (fun r raw hr hraw ↦ ?_) fun r e hr he ↦ ?_
  · rw [show r = .ok raw from hraw]
    exact hok raw
  · have he' : r = .error e := he
    subst he'
    have hkind : e.kind = .valueError ∨ e.kind = .recursionError := by
      simpa using hr.1 e rfl
    obtain hkind | hkind := hkind
    · have hnext : Tally.next rq.requestId t ⟨.loads data, .error e⟩ = t := by
        refine if_neg ?_
        rw [hkind]
        decide
      rw [hnext]
      exact hvalue e hkind
    · rw [show Tally.next rq.requestId t ⟨.loads data, .error e⟩ = { t with recursed := true } from
        if_pos hkind]
      exact hdeep e hkind

omit [FloatText] in
private theorem ensures_relay {t' : Tally} {s' : Session} (hflow : Flowing t s t' s')
    (frame : Bytes) :
    (tallying rq).Ensures t' s' (do write frame; flush : Handler Unit) (Streamed t s) := by
  refine ensures_raising (.write frame) (fun r _ _ _ ↦ ?_) fun r e hr he ↦ .inl ⟨hflow, ?_⟩
  · refine Monitor.ensures_call trivial fun r hr ↦
      Monitor.ensures_ofExcept (.inl ⟨hflow, fun e he ↦ ?_⟩)
    exact isStreamFailure_of_kind (hr.1 e he) (by decide)
  · intro e' he'
    cases he'
    exact isStreamFailure_of_kind (hr.1 e he) (by decide)

omit [FloatText] in
private theorem ensures_relayFrame (hstore : g.hasStore = true) (hb : Books t s)
    (hfresh : s.usageRecorded = false) (hopen : s.terminal = false) (frame : Bytes) :
    (tallying rq).Ensures t s (relayFrame g rq frame) (Streamed t s) := by
  have hflow : Flowing t s t s :=
    ⟨hb, .refl t s, rfl, fun h ↦ absurd (hopen.symm.trans h) Bool.false_ne_true, fun _ ↦ hfresh⟩
  refine ensures_loads (fun raw ↦ Monitor.ensures_let (fun event _ ↦ ?_) fun e he ↦ ?_)
    (fun e he ↦ .inl ⟨hflow, fun e' he' ↦ ?_⟩) fun e he ↦ ?_
  · dsimp only
    split
    · refine Monitor.ensures_bind ((ensures_recordUsage hstore hb _ _).mono ?_)
      rintro t' _ s' ⟨rfl, hb', hkept, hs', hrec, -⟩
      refine ⟨fun _ _ ↦ Monitor.ensures_set (ensures_relay ?_ frame), fun e he ↦ by cases he⟩
      exact ⟨⟨hb'.records, hb'.known⟩, ⟨hkept.unstarted, hkept.unclosed, hkept.watcher⟩, hrec,
        fun _ ↦ hs', fun h ↦ by cases h⟩
    · exact ensures_relay hflow frame
  · refine .inl ⟨hflow, fun e' he' ↦ ?_⟩
    cases he'
    unfold streamEvent at he
    split at he
    · split at he
      · cases he
      · cases he
        rfl
    · cases he
      rfl
  · cases he'
    exact isStreamFailure_of_kind (List.mem_singleton.mpr he) (by decide)
  · exact .inr ⟨⟨hb.records, hb.known⟩, ⟨rfl, rfl, rfl⟩, rfl, hfresh, e, rfl, he⟩

omit [FloatText] in
/-- The loop ends recorded, or with an exception that its handler catches, or it recursed. -/
private theorem ensures_streamLoop (hstore : g.hasStore = true) (deadline : ℚ) (n : Nat)
    (frame : Bytes) (total : Nat) (hb : Books t s) (hfresh : s.usageRecorded = false)
    (hopen : s.terminal = false) :
    (tallying rq).Ensures t s (streamLoop g rq deadline n frame total) fun t' r s' ↦
      Streamed t s t' r s' ∧ (r = .ok () → s'.terminal = true) := by
  induction n generalizing t s frame total with
  | zero =>
    refine Monitor.ensures_raise ⟨.inl ⟨?_, fun e he ↦ ?_⟩, fun h ↦ by cases h⟩
    · exact ⟨hb, .refl t s, rfl, fun h ↦ absurd (hopen.symm.trans h) Bool.false_ne_true,
        fun _ ↦ hfresh⟩
    · cases he
      rfl
  | succ n ih =>
    have hflow : Flowing t s t s :=
      ⟨hb, .refl t s, rfl, fun h ↦ absurd (hopen.symm.trans h) Bool.false_ne_true, fun _ ↦ hfresh⟩
    have hraise : ∀ message, (tallying rq).Ensures t s (Act.raise (valueError message) : Handler Unit)
        fun t' r s' ↦ Streamed t s t' r s' ∧ (r = .ok () → s'.terminal = true) := by
      refine fun message ↦ Monitor.ensures_raise ⟨.inl ⟨hflow, fun e he ↦ ?_⟩, fun h ↦ by cases h⟩
      cases he
      rfl
    refine Monitor.ensures_call trivial fun now _ ↦ ?_
    show (tallying rq).Ensures t s _ _
    split
    · refine ensures_raising (.readLine _) (fun r line _ _ ↦ ?_) fun r e hr he ↦
        ⟨.inl ⟨hflow, ?_⟩, fun h ↦ by cases h⟩
      · show (tallying rq).Ensures t s _ _
        split
        · exact hraise _
        · split
          · exact hraise _
          · split
            · refine Monitor.ensures_bind ((ensures_relayFrame hstore hb hfresh hopen _).mono ?_)
              intro t' r' s' hr'
              refine ⟨fun u hu ↦ Monitor.ensures_get ?_, fun e he ↦ ?_⟩
              · obtain ⟨hflow', -⟩ | hrec := hr'
                · split
                  · next hterm =>
                    exact Monitor.ensures_pure ⟨.inl ⟨hflow', fun e he ↦ by cases he⟩,
                      fun _ ↦ hterm⟩
                  · next hterm =>
                    have hterm' : s'.terminal = false := Bool.not_eq_true _ ▸ hterm
                    refine (ih [] (total + line.length) hflow'.books (hflow'.open_ hterm')
                      hterm').mono ?_
                    rintro t'' r'' s'' ⟨⟨hflow'', hcaught⟩ | hrec, hdone⟩
                    · exact ⟨.inl ⟨hflow'.trans hflow'', hcaught⟩, hdone⟩
                    · exact ⟨.inr (.after hflow' hrec), hdone⟩
                · obtain ⟨e, he, -⟩ := hrec.error
                  rw [hu] at he
                  cases he
              · subst he
                exact ⟨hr', fun h ↦ by cases h⟩
            · exact ih _ _ hb hfresh hopen
      · intro e' he'
        cases he'
        exact isStreamFailure_of_kind (hr.1 e he) (by decide)
    · exact hraise _

private theorem ensures_streamFailed (hstore : g.hasStore = true) (hb : Books t s)
    (hended : s.terminal = true → Settled s) :
    (tallying rq).Ensures t s (streamFailed g rq) (Answered t s) := by
  refine Monitor.ensures_get ?_
  split
  · next hterm =>
    exact Monitor.ensures_pure ⟨hb, .refl t s, hended hterm, rfl, fun e he ↦ by cases he⟩
  · refine ensures_swallow (Monitor.ensures_call trivial fun gone _ ↦
      Monitor.ensures_bind ((ensures_recordUsage hstore hb _ []).mono ?_))
    rintro t' _ s' ⟨rfl, hb', hkept, hs', hrec, -⟩
    refine ⟨fun _ _ ↦ ?_, fun e he ↦ by cases he⟩
    refine ensures_raising (.write _) (fun r _ _ _ ↦ ?_) fun r e hr he ↦
      ⟨hb', hkept, hs', hrec, fun e' he' ↦ ?_⟩
    · exact Monitor.ensures_call trivial fun r hr ↦ Monitor.ensures_ofExcept
        ⟨hb', hkept, hs', hrec, fun e he ↦ kind_of_documented hr.1 he⟩
    · cases he'
      exact kind_of_documented hr.1 he

/-- How reading the reply ends: recorded, with an exception that `_forward` catches, or it
recursed. -/
def Received (t : Tally) (s : Session) {α : Type} (t' : Tally) (r : Except PyError α)
    (s' : Session) : Prop :=
  (Books t' s' ∧ Kept t s t' s' ∧ t'.recursed = t.recursed ∧ (∀ a, r = .ok a → Settled s') ∧
    ∀ e, r = .error e → isForwardFailure e = true) ∨ Recursed t s t' r s'

omit [FloatText] in
private theorem isForwardFailure_of_kind {e : PyError} {kinds : List ErrorKind}
    (h : e.kind ∈ kinds) (hk : ∀ k ∈ kinds, isForwardFailure ⟨k, ""⟩ = true) :
    isForwardFailure e = true := hk e.kind h

omit [FloatText] in
private theorem Answered.received {α β : Type} {t' : Tally} {s' : Session} {r : Except PyError α}
    {r' : Except PyError β} (h : Answered t s t' r s') (hr : ∀ e, r' = .error e → r = .error e) :
    Received t s t' r' s' := by
  obtain ⟨hb, hkept, hs, hrec, hkind⟩ := h
  refine .inl ⟨hb, hkept, hrec, fun _ _ ↦ hs, fun e he ↦ ?_⟩
  exact isForwardFailure_of_kind (List.mem_singleton.mpr (hkind e (hr e he))) (by decide)

omit [FloatText] in
private theorem received_of_failure {α : Type} (hb : Books t s) {e : PyError}
    (he : isForwardFailure e = true) : Received t s t (.error e : Except PyError α) s := by
  refine .inl ⟨hb, .refl t s, rfl, fun a ha ↦ (by cases ha), fun e' he' ↦ ?_⟩
  cases he'
  exact he

omit [FloatText] in
private theorem Recursed.cast {α β : Type} {t' : Tally} {s' : Session} {e : PyError}
    (h : Recursed t s t' (.error e : Except PyError α) s') :
    Recursed t s t' (.error e : Except PyError β) s' := by
  obtain ⟨e', he', hkind⟩ := h.error
  cases he'
  exact ⟨h.books, h.kept, h.recursed, h.unrecorded, e, rfl, hkind⟩

private theorem ensures_forwardStream (hstore : g.hasStore = true) (hb : Books t s)
    (hfresh : s.usageRecorded = false) :
    (tallying rq).Ensures t s (forwardStream g rq) (Received t s) := by
  refine ensures_raising (.sendHead _ _) (fun r _ _ _ ↦ Monitor.ensures_set
    (Monitor.ensures_call trivial fun now _ ↦ ?_)) fun r e hr he ↦
      received_of_failure hb (isForwardFailure_of_kind (hr.1 e he) (by decide))
  have hb₀ : Books t { s with terminal := false } := ⟨hb.records, hb.known⟩
  have hkept₀ : ∀ {t' s'}, Kept t { s with terminal := false } t' s' → Kept t s t' s' :=
    fun h ↦ ⟨h.unstarted, h.unclosed, h.watcher⟩
  refine Monitor.ensures_tryExcept ((ensures_streamLoop hstore _ _ [] 0 hb₀ hfresh rfl).mono ?_)
  rintro t' r' s' ⟨⟨hflow, hcaught⟩ | hrec, hdone⟩
  · refine ⟨fun a ha ↦ .inl ?_, fun e he hc ↦ ?_, fun e he _ ↦ ?_⟩
    · exact ⟨hflow.books, hkept₀ hflow.kept, hflow.recursed, fun _ _ ↦ hflow.ended (hdone ha),
        fun e he ↦ by cases he⟩
    · rw [hcaught e he] at hc
      cases hc
    · refine (ensures_streamFailed hstore hflow.books hflow.ended).mono ?_
      rintro t'' r'' s'' ⟨hb'', hkept'', hs'', hrec'', hkind⟩
      refine Answered.received ?_ fun _ h ↦ h
      exact ⟨hb'', (hkept₀ hflow.kept).trans hkept'', hs'', hrec''.trans hflow.recursed, hkind⟩
  · obtain ⟨e, rfl, hkind⟩ := hrec.error
    refine ⟨fun a ha ↦ (by cases ha), fun e' he' _ ↦ .inr ?_, fun e' he' hc ↦ ?_⟩
    · cases he'
      exact ⟨hrec.books, hkept₀ hrec.kept, hrec.recursed, hrec.unrecorded, e, rfl, hkind⟩
    · cases he'
      rw [isStreamFailure, hkind] at hc
      cases hc

/-! ### Replies -/

private theorem ensures_refused {status : Int} {code : Text} {t₀ : Tally} {s₀ : Session}
    (hstore : g.hasStore = true) (hb : Books t s) (hkept : Kept t₀ s₀ t s)
    (hrec : t.recursed = t₀.recursed) :
    (tallying rq).Ensures t s
      (do sendError g rq status code; pure none : Handler (Option (Int × Bytes)))
      (Received t₀ s₀) := by
  refine Monitor.ensures_bind ((ensures_sendError hstore hb status code).mono ?_)
  rintro t' r s' ⟨hb', hkept', hs', hrec', hkind⟩
  have hanswer : Answered t₀ s₀ t' r s' := ⟨hb', hkept.trans hkept', hs', hrec'.trans hrec, hkind⟩
  refine ⟨fun u hu ↦ Monitor.ensures_pure (hanswer.received fun e he ↦ by cases he), fun e he ↦ ?_⟩
  exact hanswer.received fun e' he' ↦ (by cases he'; exact he)

private theorem ensures_receiveJson (hstore : g.hasStore = true) (hb : Books t s)
    (hfresh : s.usageRecorded = false) (status : Int) :
    (tallying rq).Ensures t s (receiveJson g rq status) (Received t s) := by
  have hinvalid : (tallying rq).Ensures t s (Act.raise (valueError "invalid upstream response"))
      (Received (α := Option (Int × Bytes)) t s) :=
    Monitor.ensures_raise (received_of_failure hb rfl)
  refine ensures_raising (.read _) (fun r forwarded _ _ ↦ ?_) fun r e hr he ↦
    received_of_failure hb (isForwardFailure_of_kind (hr.1 e he) (by decide))
  show (tallying rq).Ensures t s _ _
  split
  · exact ensures_refused hstore hb (.refl t s) rfl
  · refine ensures_loads (fun raw ↦ ?_) (fun e he ↦ ?_) fun e he ↦ ?_
    · split
      · split
        · refine Monitor.ensures_bind ((ensures_recordUsage hstore hb _ _).mono ?_)
          rintro t' _ s' ⟨rfl, hb', hkept, hs', hrec, -⟩
          refine ⟨fun _ _ ↦ ?_, fun e he ↦ by cases he⟩
          split
          · exact ensures_refused hstore hb' hkept hrec
          · exact Monitor.ensures_pure (.inl ⟨hb', hkept, hrec, fun _ _ ↦ hs',
              fun e he ↦ by cases he⟩)
        · exact hinvalid
      · exact hinvalid
    · exact received_of_failure hb (isForwardFailure_of_kind (List.mem_singleton.mpr he) (by decide))
    · exact .inr ⟨⟨hb.records, hb.known⟩, ⟨rfl, rfl, rfl⟩, rfl, hfresh, e, rfl, he⟩

private theorem ensures_receive (hstore : g.hasStore = true) (hb : Books t s)
    (hfresh : s.usageRecorded = false) :
    (tallying rq).Ensures t s (receive g rq) (Received t s) := by
  refine ensures_raising .getResponse (fun r head _ _ ↦ ?_) fun r e hr he ↦
    received_of_failure hb (isForwardFailure_of_kind (hr.1 e he) (by decide))
  show (tallying rq).Ensures t s _ _
  split
  · split
    · refine Monitor.ensures_bind ((ensures_forwardStream hstore hb hfresh).mono ?_)
      intro t' r' s' hr'
      refine ⟨fun u hu ↦ Monitor.ensures_pure ?_, fun e he ↦ ?_⟩
      · subst hu
        obtain ⟨hb', hkept, hrec, hs', -⟩ | hrec := hr'
        · exact .inl ⟨hb', hkept, hrec, fun _ _ ↦ hs' u rfl, fun e he ↦ by cases he⟩
        · obtain ⟨e, he, -⟩ := hrec.error
          cases he
      · subst he
        obtain ⟨hb', hkept, hrec, -, hcaught⟩ | hrec := hr'
        · refine .inl ⟨hb', hkept, hrec, fun _ h ↦ (by cases h), fun e' he' ↦ ?_⟩
          cases he'
          exact hcaught e rfl
        · exact .inr hrec.cast
    · exact Monitor.ensures_raise (received_of_failure hb rfl)
  · exact ensures_receiveJson hstore hb hfresh _

/-! ### Forwarding -/

/-- How a part of the handler ends. Either nothing went wrong that nobody catches, and it is
recorded unless the socket failed; or it ends unrecorded in an exception that nobody catches. -/
def Ended {α : Type} (t : Tally) (r : Except PyError α) (s : Session) : Prop :=
  Books t s ∧
    ((t.unstarted = false ∧ (t.recursed = false ∨ t.unclosed = true) ∧ (∀ a, r = .ok a → Settled s) ∧
      ∀ e, r = .error e → e.kind = .osError) ∨
    ((t.unstarted = true ∨ t.recursed = true ∧ t.unclosed = false) ∧ s.usageRecorded = false ∧
      ∃ e, r = .error e ∧ isStoreFailure e = false))

/-- Nothing was recorded yet and nothing went wrong. -/
structure Fresh (t : Tally) (s : Session) : Prop where
  books : Books t s
  unrecorded : s.usageRecorded = false
  started : t.unstarted = false
  flat : t.recursed = false
  closed : t.unclosed = false

/-- How the `try` block of `_forward` ends: with a watcher that can be joined, recorded or with a
`RecursionError`, or with one that never started. -/
def Exchanged {α : Type} (t : Tally) (r : Except PyError α) (s : Session) : Prop :=
  Books t s ∧ t.unclosed = false ∧
    ((t.unstarted = false ∧ s.watcher ≠ .created ∧
      (t.recursed = false ∧ Settled s ∧ (∀ e, r = .error e → e.kind = .osError) ∨
        t.recursed = true ∧ s.usageRecorded = false ∧
          ∃ e, r = .error e ∧ e.kind = .recursionError)) ∨
    (t.unstarted = true ∧ s.watcher = .created ∧ s.usageRecorded = false))

private theorem ensures_exchangeFailed (hstore : g.hasStore = true) (hb : Books t s) :
    (tallying rq).Ensures t s (exchangeFailed g rq) (Answered t s) := by
  refine Monitor.ensures_call trivial fun gone _ ↦ ?_
  show (tallying rq).Ensures t s _ _
  split
  · refine ensures_swallow ((ensures_recordUsage hstore hb 499 []).mono ?_)
    rintro t' _ s' ⟨rfl, hb', hkept, hs', hrec, -⟩
    exact ⟨hb', hkept, hs', hrec, fun e he ↦ by cases he⟩
  · exact ensures_sendError hstore hb _ _

private theorem ensures_caught (hstore : g.hasStore = true) (hb : Books t s)
    (hstarted : t.unstarted = false) (hflat : t.recursed = false) (hclosed : t.unclosed = false)
    (hwatcher : s.watcher ≠ .created) :
    (tallying rq).Ensures t s
      (do exchangeFailed g rq; pure none : Handler (Option (Int × Bytes))) Exchanged := by
  refine Monitor.ensures_bind ((ensures_exchangeFailed hstore hb).mono ?_)
  rintro t' r s' ⟨hb', hkept, hs', hrec, hkind⟩
  refine ⟨fun u _ ↦ Monitor.ensures_pure ?_, fun e he ↦ ?_⟩
  · exact ⟨hb', hkept.unclosed.trans hclosed, .inl ⟨hkept.unstarted.trans hstarted,
      hkept.watcher ▸ hwatcher, .inl ⟨hrec.trans hflat, hs', fun e he ↦ by cases he⟩⟩⟩
  · refine ⟨hb', hkept.unclosed.trans hclosed, .inl ⟨hkept.unstarted.trans hstarted,
      hkept.watcher ▸ hwatcher, .inl ⟨hrec.trans hflat, hs', fun e' he' ↦ ?_⟩⟩⟩
    cases he'
    exact hkind e he

omit [FloatText] in
private theorem ensures_dispatch (hf : Fresh t s) :
    (tallying rq).Ensures t s (dispatch g rq) fun t' r s' ↦ r = .ok () ∧ s' = s ∧ Fresh t' s := by
  refine Monitor.ensures_get ?_
  split
  · next principal hsome =>
    split
    · refine Monitor.ensures_call trivial fun r hr ↦ Monitor.ensures_ofExcept ?_
      obtain ⟨u, rfl⟩ := hr.2
      have hnext : (tallying rq).next t ⟨.dispatchEvent principal rq.requestId, .ok u⟩ =
          { t with dispatched := true } := if_pos rfl
      refine ⟨rfl, rfl, ?_⟩
      rw [hnext]
      exact ⟨⟨hf.books.records, fun _ ↦ by rw [hsome, Option.isSome_some]⟩, hf.unrecorded,
        hf.started, hf.flat, hf.closed⟩
    · exact Monitor.ensures_pure ⟨rfl, rfl, hf⟩
  · exact Monitor.ensures_pure ⟨rfl, rfl, hf⟩

omit [FloatText] in
/-- Opening succeeds, fails before there is a watcher, or leaves one that did not start. -/
private theorem ensures_openUpstream :
    (tallying rq).Ensures t s openUpstream fun t' r s' ↦
      (r = .ok () ∧ t' = t ∧ s' = { s with watcher := .started }) ∨
      (∃ e, r = .error e ∧ isForwardFailure e = true ∧ t' = t ∧ s' = s) ∨
      (∃ e, r = .error e ∧ isForwardFailure e = false ∧ t' = { t with unstarted := true } ∧
        s' = { s with watcher := .created }) := by
  refine ensures_raising .connect (fun r hasSocket hr hok ↦ ?_) fun r e hr he ↦ .inr (.inl ?_)
  · show (tallying rq).Ensures t s _ _
    split
    · refine Monitor.ensures_set (ensures_raising .startWatcher (fun r u hr hok ↦ ?_)
        fun r e hr he ↦ .inr (.inr ?_))
      · rw [show r = .ok u from hok]
        exact Monitor.ensures_modify (.inl ⟨rfl, rfl, rfl⟩)
      · refine ⟨e, rfl, ?_, ?_, rfl⟩
        · rw [isForwardFailure, kind_of_documented hr.1 he]
        · rw [show r = .error e from he]
          rfl
    · exact Monitor.ensures_raise (.inr (.inl ⟨_, rfl, rfl, rfl, rfl⟩))
  · exact ⟨e, rfl, isForwardFailure_of_kind (hr.1 e he) (by decide), rfl, rfl⟩

/-- How the `try` block ends, before its handler. -/
def Attempted {α : Type} (t : Tally) (r : Except PyError α) (s : Session) : Prop :=
  Books t s ∧ t.unclosed = false ∧
    ((t.unstarted = false ∧ s.watcher ≠ .created ∧
      (t.recursed = false ∧ (∀ a, r = .ok a → Settled s) ∧
          (∀ e, r = .error e → isForwardFailure e = true) ∨
        t.recursed = true ∧ s.usageRecorded = false ∧
          ∃ e, r = .error e ∧ e.kind = .recursionError)) ∨
    (t.unstarted = true ∧ s.watcher = .created ∧ s.usageRecorded = false ∧
      ∃ e, r = .error e ∧ isForwardFailure e = false))

omit [FloatText] in
private theorem Received.attempted {α : Type} {t' : Tally} {r : Except PyError α} {s' : Session}
    (h : Received t s t' r s') (hf : Fresh t s) (hw : s.watcher ≠ .created) : Attempted t' r s' := by
  obtain ⟨hb, hkept, hrec, hs, hcaught⟩ | hrec := h
  · exact ⟨hb, hkept.unclosed.trans hf.closed, .inl ⟨hkept.unstarted.trans hf.started,
      hkept.watcher ▸ hw, .inl ⟨hrec.trans hf.flat, hs, hcaught⟩⟩⟩
  · exact ⟨hrec.books, hrec.kept.unclosed.trans hf.closed, .inl
      ⟨hrec.kept.unstarted.trans hf.started, hrec.kept.watcher ▸ hw,
        .inr ⟨hrec.recursed, hrec.unrecorded, hrec.error⟩⟩⟩

private theorem ensures_attempt (hstore : g.hasStore = true) (hf : Fresh t s)
    (hnone : s.watcher = .none) (body : Option Bytes) :
    (tallying rq).Ensures t s (do
      dispatch g rq
      openUpstream
      sendRequest rq.method rq.path body (upstreamHeaders g rq body)
      receive g rq) Attempted := by
  refine Monitor.ensures_bind ((ensures_dispatch hf).mono ?_)
  rintro t₁ _ s₁ ⟨rfl, rfl, hf⟩
  refine ⟨fun _ _ ↦ Monitor.ensures_bind (ensures_openUpstream.mono ?_), fun e he ↦ by cases he⟩
  rintro t' r s' (⟨rfl, rfl, rfl⟩ | ⟨e, rfl, hcaught, rfl, rfl⟩ | ⟨e, rfl, hpass, rfl, rfl⟩)
  · have hf' : Fresh t' { s₁ with watcher := .started } :=
      ⟨⟨hf.books.records, hf.books.known⟩, hf.unrecorded, hf.started, hf.flat, hf.closed⟩
    have hjoin : Watcher.started ≠ .created := by decide
    refine ⟨fun _ _ ↦ ensures_raising (.request _ _ _ _) (fun r u hr _ ↦ ?_) fun r e hr he ↦ ?_,
      fun e he ↦ by cases he⟩
    · refine (ensures_receive hstore hf'.books hf'.unrecorded).mono fun t'' r'' s'' h ↦ ?_
      exact h.attempted hf' hjoin
    · exact (received_of_failure hf'.books
        (isForwardFailure_of_kind (hr.1 e he) (by decide))).attempted hf' hjoin
  · refine ⟨fun _ h ↦ (by cases h), fun e' he' ↦ ?_⟩
    cases he'
    refine (received_of_failure hf.books hcaught).attempted hf ?_
    rw [hnone]
    decide
  · refine ⟨fun _ h ↦ (by cases h), fun e' he' ↦ ?_⟩
    cases he'
    exact ⟨⟨hf.books.records, hf.books.known⟩, hf.closed, .inr ⟨rfl, rfl, hf.unrecorded, e, rfl,
      hpass⟩⟩

private theorem ensures_exchange (hstore : g.hasStore = true) (hf : Fresh t s)
    (hnone : s.watcher = .none) (body : Option Bytes) :
    (tallying rq).Ensures t s (exchange g rq body) Exchanged := by
  refine Monitor.ensures_tryExcept ((ensures_attempt hstore hf hnone body).mono ?_)
  rintro t' r s' ⟨hb, hclosed, ⟨hstarted, hw, ⟨hflat, hs, hcaught⟩ | ⟨hrec, hun, e, rfl, hkind⟩⟩ |
    ⟨hunstarted, hw, hun, e, rfl, hpass⟩⟩
  · refine ⟨fun a ha ↦ ?_, fun e he hc ↦ ?_, fun e he _ ↦ ?_⟩
    · exact ⟨hb, hclosed, .inl ⟨hstarted, hw, .inl ⟨hflat, hs a ha, fun e he ↦ by cases he⟩⟩⟩
    · rw [hcaught e he] at hc
      cases hc
    · exact ensures_caught hstore hb hstarted hflat hclosed hw
  · refine ⟨fun a ha ↦ (by cases ha), fun e' he' _ ↦ ?_, fun e' he' hc ↦ ?_⟩
    · cases he'
      exact ⟨hb, hclosed, .inl ⟨hstarted, hw, .inr ⟨hrec, hun, e, rfl, hkind⟩⟩⟩
    · cases he'
      rw [isForwardFailure, hkind] at hc
      cases hc
  · refine ⟨fun a ha ↦ (by cases ha), fun e' he' _ ↦ ?_, fun e' he' hc ↦ ?_⟩
    · exact ⟨hb, hclosed, .inr ⟨hunstarted, hw, hun⟩⟩
    · cases he'
      rw [hpass] at hc
      cases hc

omit [FloatText] in
private theorem ensures_releaseRoute {slot : Option Slot}
    {Q : Tally → Except PyError Unit → Session → Prop} (h : Q t (.ok ()) s) :
    (tallying rq).Ensures t s (releaseRoute slot) Q := by
  cases slot with
  | none => exact Monitor.ensures_pure h
  | some slot => exact Monitor.ensures_perform trivial fun _ _ ↦ h

omit [FloatText] in
private theorem ensures_closing {slot : Option Slot} :
    (tallying rq).Ensures t s
      (do closeConnection; ask (.release .inFlight); releaseRoute slot : Handler Unit)
      fun t' r s' ↦ s' = s ∧ (r = .ok () ∧ t' = t ∨
        t' = { t with unclosed := true } ∧ ∃ e, r = .error e ∧ e.kind = .osError) := by
  refine ensures_raising .closeConnection (fun r u hr hok ↦ ?_) fun r e hr he ↦ ?_
  · rw [show r = .ok u from hok]
    exact Monitor.ensures_call trivial fun _ _ ↦ ensures_releaseRoute ⟨rfl, .inl ⟨rfl, rfl⟩⟩
  · rw [show r = .error e from he]
    exact ⟨rfl, .inr ⟨rfl, e, rfl, kind_of_documented hr.1 he⟩⟩

omit [FloatText] in
/-- The `finally` block of `_forward`. -/
private theorem ensures_cleanUp {slot : Option Slot} :
    (tallying rq).Ensures t s (cleanUp slot) fun t' r s' ↦ s' = s ∧
      (s.watcher = .created ∧ t' = t ∧ (∃ e, r = .error e ∧ e.kind = .runtimeError) ∨
        s.watcher ≠ .created ∧ (r = .ok () ∧ t' = t ∨
          t' = { t with unclosed := true } ∧ ∃ e, r = .error e ∧ e.kind = .osError)) := by
  refine Monitor.ensures_bind (Monitor.ensures_get ?_)
  cases hw : s.watcher with
  | none =>
    refine Monitor.ensures_pure
      ⟨fun _ _ ↦ ensures_closing.mono fun t' r s' h ↦ ?_, fun e he ↦ by cases he⟩
    exact ⟨h.1, .inr ⟨by decide, h.2⟩⟩
  | created =>
    refine Monitor.ensures_raise ⟨fun _ h ↦ (by cases h), fun e he ↦ ⟨rfl, .inl ⟨rfl, rfl, e, rfl, ?_⟩⟩⟩
    cases he
    rfl
  | started =>
    refine Monitor.ensures_perform trivial fun _ _ ↦
      ⟨fun _ _ ↦ ensures_closing.mono fun t' r s' h ↦ ?_, fun e he ↦ by cases he⟩
    exact ⟨h.1, .inr ⟨by decide, h.2⟩⟩

private theorem ensures_finally (hstore : g.hasStore = true) (hf : Fresh t s)
    (hnone : s.watcher = .none) (body : Option Bytes) (slot : Option Slot) :
    (tallying rq).Ensures t s (Act.finallyDo (exchange g rq body) (cleanUp slot)) Ended := by
  refine Monitor.ensures_finallyDo ((ensures_exchange hstore hf hnone body).mono ?_)
  rintro t' r s' ⟨hb, hclosed, h⟩
  refine ensures_cleanUp.mono ?_
  rintro t'' r' _ ⟨rfl, ⟨hw, rfl, e, rfl, hkind⟩ | ⟨hw, ⟨rfl, rfl⟩ | ⟨rfl, e, rfl, hkind⟩⟩⟩
  · obtain ⟨-, hw', -⟩ | ⟨hunstarted, -, hun⟩ := h
    · exact absurd hw hw'
    · refine ⟨fun _ h ↦ (by cases h), fun e' he' ↦ ?_⟩
      cases he'
      refine ⟨hb, .inr ⟨.inl hunstarted, hun, e, rfl, ?_⟩⟩
      rw [isStoreFailure, hkind]
  · obtain ⟨hstarted, -, ⟨hflat, hs, hos⟩ | ⟨hrec, hun, e, rfl, hkind⟩⟩ | ⟨-, hw', -⟩ := h
    · exact ⟨fun _ _ ↦ ⟨hb, .inl ⟨hstarted, .inl hflat, fun _ _ ↦ hs, hos⟩⟩, fun e he ↦ by cases he⟩
    · refine ⟨fun _ _ ↦ ⟨hb, .inr ⟨.inr ⟨hrec, hclosed⟩, hun, e, rfl, ?_⟩⟩, fun e he ↦ by cases he⟩
      rw [isStoreFailure, hkind]
    · exact absurd hw' hw
  · obtain ⟨hstarted, -, -⟩ | ⟨-, hw', -⟩ := h
    · refine ⟨fun _ h ↦ (by cases h), fun e' he' ↦ ?_⟩
      cases he'
      refine ⟨⟨hb.records, hb.known⟩,
        .inl ⟨hstarted, .inr rfl, fun _ h ↦ (by cases h), fun e' he' ↦ ?_⟩⟩
      cases he'
      exact hkind
    · exact absurd hw' hw

private theorem ensures_endError (hstore : g.hasStore = true) (hb : Books t s)
    (hstarted : t.unstarted = false) (hfine : t.recursed = false ∨ t.unclosed = true) (status : Int)
    (code : Text) : (tallying rq).Ensures t s (sendError g rq status code) fun t' r s' ↦
      Ended t' r s' ∧ t'.unstarted = false ∧ Settled s' := by
  refine (ensures_sendError hstore hb status code).mono ?_
  rintro t' r s' ⟨hb', hkept, hs', hrec, hkind⟩
  have hstarted' := hkept.unstarted.trans hstarted
  refine ⟨⟨hb', .inl ⟨hstarted', ?_, fun _ _ ↦ hs', hkind⟩⟩, hstarted', hs'⟩
  rwa [hrec, hkept.unclosed]

omit [FloatText] in
private theorem Ended.cast {α β : Type} {e : PyError} (h : Ended t (.error e : Except PyError α) s) :
    Ended t (.error e : Except PyError β) s := by
  obtain ⟨hb, ⟨hstarted, hfine, -, hos⟩ | ⟨hbad, hun, e', he', hpass⟩⟩ := h
  · refine ⟨hb, .inl ⟨hstarted, hfine, fun _ h ↦ (by cases h), fun e' he' ↦ ?_⟩⟩
    cases he'
    exact hos e rfl
  · cases he'
    exact ⟨hb, .inr ⟨hbad, hun, e, rfl, hpass⟩⟩

omit [FloatText] in
private theorem ensures_send (status : Int) (headers : Headers) (body : Bytes) :
    (tallying rq).Ensures t s (do sendHead status headers; write body : Handler Unit)
      fun t' r s' ↦ t' = t ∧ s' = s ∧ ∀ e, r = .error e → e.kind = .osError := by
  refine ensures_raising (.sendHead _ _) (fun r _ _ _ ↦ ?_) fun r e hr he ↦ ⟨rfl, rfl, fun e' he' ↦ ?_⟩
  · exact Monitor.ensures_call trivial fun r hr ↦ Monitor.ensures_ofExcept
      ⟨rfl, rfl, fun e he ↦ kind_of_documented hr.1 he⟩
  · cases he'
    exact kind_of_documented hr.1 he

/-- How `_forward` ends. -/
private theorem ensures_forward (hstore : g.hasStore = true) (hf : Fresh t s) (body : Option Bytes) :
    (tallying rq).Ensures t s (forward g rq body) Ended := by
  have hf' : Fresh t { s with watcher := .none } :=
    ⟨⟨hf.books.records, hf.books.known⟩, hf.unrecorded, hf.started, hf.flat, hf.closed⟩
  have hover : (tallying rq).Ensures t { s with watcher := .none } (overCapacity g rq) Ended :=
    (ensures_endError hstore hf'.books hf'.started (.inl hf'.flat) _ _).mono fun _ _ _ h ↦ h.1
  have hroute : (tallying rq).Ensures t { s with watcher := .none } (acquireRoute (slotOf rq.path))
      fun t' r s' ↦ t' = t ∧ s' = { s with watcher := .none } ∧ ∃ b, r = .ok b := by
    cases slotOf rq.path with
    | none => exact Monitor.ensures_pure ⟨rfl, rfl, true, rfl⟩
    | some slot => exact Monitor.ensures_perform trivial fun b _ ↦ ⟨rfl, rfl, b, rfl⟩
  refine Monitor.ensures_set (Monitor.ensures_bind (hroute.mono ?_))
  rintro _ _ _ ⟨rfl, rfl, granted, rfl⟩
  refine ⟨fun _ _ ↦ ?_, fun e he ↦ by cases he⟩
  split
  · refine Monitor.ensures_call trivial fun held _ ↦ ?_
    split
    · refine Monitor.ensures_bind ((ensures_finally hstore hf' rfl body _).mono ?_)
      intro t' r s' hend
      refine ⟨fun reply hr ↦ ?_, fun e he ↦ ?_⟩
      · subst hr
        obtain ⟨hb', ⟨hstarted, hfine, hs, -⟩ | ⟨-, -, e, he, -⟩⟩ := hend
        · have hs' := hs reply rfl
          cases reply with
          | none => exact Monitor.ensures_pure ⟨hb', .inl ⟨hstarted, hfine, fun _ _ ↦ hs',
              fun e he ↦ by cases he⟩⟩
          | some reply =>
            refine (ensures_send _ _ _).mono ?_
            rintro _ r'' _ ⟨rfl, rfl, hos⟩
            exact ⟨hb', .inl ⟨hstarted, hfine, fun _ _ ↦ hs', hos⟩⟩
        · cases he
      · subst he
        exact hend.cast
    · exact Monitor.ensures_bind (ensures_releaseRoute ⟨fun _ _ ↦ hover, fun e he ↦ by cases he⟩)
  · exact hover

/-! ### Requests -/

/-- An early refusal. -/
private theorem ensures_refusal (hstore : g.hasStore = true) (hf : Fresh t s) (status : Int)
    (code : Text) : (tallying rq).Ensures t s (sendError g rq status code) Ended :=
  (ensures_endError hstore hf.books hf.started (.inl hf.flat) status code).mono fun _ _ _ h ↦ h.1

omit [FloatText] in
/-- A question to the store before anything was recorded. -/
private theorem ensures_ask {α : Type} {act : Handler Bool} {next : Bool → Handler α}
    {Q : Tally → Except PyError α → Session → Prop}
    (h : (tallying rq).Ensures t s act fun t' r s' ↦ Fresh t' s' ∧ ∃ b, r = .ok b)
    (hnext : ∀ b {t' s'}, Fresh t' s' → (tallying rq).Ensures t' s' (next b) Q) :
    (tallying rq).Ensures t s (act >>= next) Q := by
  refine Monitor.ensures_bind (h.mono ?_)
  rintro t' _ s' ⟨hf, b, rfl⟩
  refine ⟨fun b' _ ↦ hnext b' hf, fun e he ↦ by cases he⟩

omit [FloatText] in
private theorem ensures_authorizedKey (hf : Fresh t s) (supplied authorization : List Text) :
    (tallying rq).Ensures t s (authorizedKey supplied authorization) fun t' r s' ↦
      Fresh t' s' ∧ ∃ b, r = .ok b := by
  unfold authorizedKey
  split
  · split
    · exact Monitor.ensures_pure ⟨hf, false, rfl⟩
    · next key _ =>
      refine ensures_raising (.authenticate key) (fun r found hr hok ↦ ?_) fun r e hr he ↦ ?_
      · rw [show r = .ok found from hok]
        cases found with
        | none => exact Monitor.ensures_pure ⟨hf, false, rfl⟩
        | some principal =>
          refine Monitor.ensures_set (Monitor.ensures_pure ⟨?_, true, rfl⟩)
          exact ⟨⟨hf.books.records, fun _ ↦ rfl⟩, hf.unrecorded, hf.started, hf.flat, hf.closed⟩
      · obtain ⟨found, hfound⟩ := hr.2
        rw [show r = .error e from he] at hfound
        cases hfound
  · exact Monitor.ensures_pure ⟨hf, false, rfl⟩

omit [FloatText] in
private theorem ensures_authorized (hstore : g.hasStore = true) (hf : Fresh t s) :
    (tallying rq).Ensures t s (authorized g rq) fun t' r s' ↦ Fresh t' s' ∧ ∃ b, r = .ok b := by
  unfold authorized
  split
  · exact Monitor.ensures_pure ⟨hf, false, rfl⟩
  · dsimp only
    split
    · exact Monitor.ensures_pure ⟨hf, false, rfl⟩
    · exact ensures_authorizedKey hf _ _

omit [FloatText] in
private theorem ensures_scopeAllowed (hstore : g.hasStore = true) (hf : Fresh t s) :
    (tallying rq).Ensures t s (scopeAllowed g rq) fun t' r s' ↦ Fresh t' s' ∧ ∃ b, r = .ok b := by
  unfold scopeAllowed
  rw [if_pos hstore]
  refine Monitor.ensures_get ?_
  split
  · exact Monitor.ensures_pure ⟨hf, _, rfl⟩
  · exact Monitor.ensures_pure ⟨hf, false, rfl⟩

omit [FloatText] in
private theorem ensures_admitted (hstore : g.hasStore = true) (hf : Fresh t s) :
    (tallying rq).Ensures t s (admitted g) fun t' r s' ↦ Fresh t' s' ∧ ∃ b, r = .ok b := by
  unfold admitted
  rw [if_pos hstore]
  refine Monitor.ensures_get ?_
  split
  · refine Monitor.ensures_call trivial fun r hr ↦ Monitor.ensures_ofExcept ?_
    obtain ⟨b, rfl⟩ := hr.2
    exact ⟨hf, b, rfl⟩
  · exact Monitor.ensures_pure ⟨hf, false, rfl⟩

private theorem ensures_guardedGet (hstore : g.hasStore = true) (hf : Fresh t s) :
    (tallying rq).Ensures t s (guardedGet g rq) Ended := by
  refine ensures_ask (ensures_authorized hstore hf) fun allowed _ _ hf₁ ↦ ?_
  split
  · refine ensures_ask (ensures_scopeAllowed hstore hf₁) fun inScope _ _ hf₂ ↦ ?_
    split
    · refine ensures_ask (ensures_admitted hstore hf₂) fun passed _ _ hf₃ ↦ ?_
      dsimp only
      split
      · exact ensures_forward hstore hf₃ none
      · exact ensures_refusal hstore hf₃ _ _
    · exact ensures_refusal hstore hf₂ _ _
  · exact ensures_refusal hstore hf₁ _ _

private theorem ensures_postBody (hstore : g.hasStore = true) (hf : Fresh t s) :
    (tallying rq).Ensures t s (postBody g rq) Ended := by
  unfold postBody
  split
  · exact ensures_refusal hstore hf _ _
  · refine ensures_raising (.readBody _) (fun r body _ _ ↦ ?_) fun r e hr he ↦ ?_
    · exact ensures_forward hstore hf (some body)
    · refine ⟨hf.books, .inl ⟨hf.started, .inl hf.flat, fun _ h ↦ (by cases h), fun e' he' ↦ ?_⟩⟩
      cases he'
      exact kind_of_documented hr.1 he

private theorem ensures_guardedPost (hstore : g.hasStore = true) (hf : Fresh t s) :
    (tallying rq).Ensures t s (guardedPost g rq) Ended := by
  refine ensures_ask (ensures_authorized hstore hf) fun allowed _ _ hf₁ ↦ ?_
  split
  · refine ensures_ask (ensures_scopeAllowed hstore hf₁) fun inScope _ _ hf₂ ↦ ?_
    split
    · split
      · exact ensures_refusal hstore hf₂ _ _
      · split
        · exact ensures_refusal hstore hf₂ _ _
        · refine ensures_ask (ensures_admitted hstore hf₂) fun passed _ _ hf₃ ↦ ?_
          split
          · exact ensures_postBody hstore hf₃
          · exact ensures_refusal hstore hf₃ _ _
    · exact ensures_refusal hstore hf₂ _ _
  · exact ensures_refusal hstore hf₁ _ _

omit [FloatText] in
private theorem ensures_begin {α : Type} {next : Handler α}
    {Q : Tally → Except PyError α → Session → Prop}
    (h : ∀ s, Fresh .zero s → (tallying rq).Ensures .zero s next Q) (s : Session) :
    (tallying rq).Ensures .zero s (do beginRequest; next) Q := by
  refine Monitor.ensures_bind (Monitor.ensures_call trivial fun now _ ↦
    Monitor.ensures_modify ⟨fun _ _ ↦ h _ ?_, fun e he ↦ by cases he⟩)
  exact ⟨⟨rfl, fun hk ↦ by obtain h | h := hk <;> cases h⟩, rfl, rfl, rfl, rfl⟩

private theorem ensures_getMethod (hstore : g.hasStore = true) (s : Session) :
    (tallying rq).Ensures .zero s (get g rq) Ended := by
  refine ensures_begin (fun s hf ↦ ?_) s
  split
  · exact ensures_refusal hstore hf _ _
  · split
    · exact ensures_forward hstore hf none
    · exact ensures_guardedGet hstore hf

private theorem ensures_postMethod (hstore : g.hasStore = true) (s : Session) :
    (tallying rq).Ensures .zero s (post g rq) Ended := by
  refine ensures_begin (fun s hf ↦ ?_) s
  split
  · exact ensures_refusal hstore hf _ _
  · exact ensures_guardedPost hstore hf

/-- How a request ends: recorded exactly if nothing went wrong that nobody catches. -/
def Counted {α : Type} (t : Tally) (_ : Except PyError α) (s : Session) : Prop :=
  Books t s ∧
    (t.unstarted = false ∧ (t.recursed = false ∨ t.unclosed = true) ∧ Settled s ∨
      (t.unstarted = true ∨ t.recursed = true ∧ t.unclosed = false) ∧ s.usageRecorded = false)

private theorem ensures_answering {method : Handler Unit} (hstore : g.hasStore = true)
    (h : (tallying rq).Ensures t s method Ended) :
    (tallying rq).Ensures t s (answering g rq method) Counted := by
  refine Monitor.ensures_tryExcept (h.mono ?_)
  rintro t' r s' ⟨hb, ⟨hstarted, hfine, hs, hos⟩ | ⟨hbad, hun, e, rfl, hpass⟩⟩
  · refine ⟨fun u hu ↦ ⟨hb, .inl ⟨hstarted, hfine, hs u hu⟩⟩, fun e he hc ↦ ?_, fun e he _ ↦ ?_⟩
    · rw [isStoreFailure, hos e he] at hc
      cases hc
    · refine (ensures_sendError hstore hb 503 "access_unavailable").mono ?_
      rintro t'' r'' s'' ⟨hb'', hkept, hs'', hrec, -⟩
      refine ⟨hb'', .inl ⟨hkept.unstarted.trans hstarted, ?_, hs''⟩⟩
      rwa [hrec, hkept.unclosed]
  · refine ⟨fun _ h ↦ (by cases h), fun _ _ _ ↦ ⟨hb, .inr ⟨hbad, hun⟩⟩, fun e' he' hc ↦ ?_⟩
    cases he'
    rw [hpass] at hc
    cases hc

private theorem ensures_refuse (hstore : g.hasStore = true) (code : Int) (s : Session) :
    (tallying rq).Ensures .zero s (refuse g rq code) Counted := by
  refine ensures_begin (fun s hf ↦ ?_) s
  have hend : ∀ status code, (tallying rq).Ensures .zero s (sendError g rq status code) Counted := by
    intro status code
    refine (ensures_endError hstore hf.books hf.started (.inl hf.flat) status code).mono ?_
    rintro t' r s' ⟨⟨hb, ⟨hstarted, hfine, -, -⟩ | ⟨hbad, hun, -⟩⟩, -, hs'⟩
    · exact ⟨hb, .inl ⟨hstarted, hfine, hs'⟩⟩
    · exact ⟨hb, .inr ⟨hbad, hun⟩⟩
  split
  · exact hend _ _
  · exact hend _ _

/-- How every request ends. -/
theorem ensures_handle (hstore : g.hasStore = true) (malformed : Option Int) (s : Session) :
    (tallying rq).Ensures .zero s (handle g rq malformed) Counted := by
  unfold handle
  split
  · exact ensures_refuse hstore _ s
  · split
    · exact ensures_answering hstore (ensures_getMethod hstore s)
    · exact ensures_answering hstore (ensures_postMethod hstore s)
    · exact ensures_refuse hstore _ s
    · exact ensures_refuse hstore _ s

/-- With a store that works, a request whose key was authenticated, in particular one that was
dispatched, is recorded at most once, and exactly once if and only if its watcher started and no
`RecursionError` of the decoder passed: there was none, or an `OSError` from closing the connection
replaced it. -/
theorem recorded_once_iff (hstore : g.hasStore = true) (malformed : Option Int) {s s' : Session}
    {es : Log} {r : Except PyError Unit}
    (hrun : Prog.Finishes (handle g rq malformed s) es (.ok (r, s')))
    (hhost : ∀ e ∈ es, Documented e.op e.answer ∧ StoreSucceeds e.op e.answer)
    (hkey : (tally rq.requestId es).authenticated = true ∨
      (tally rq.requestId es).dispatched = true) :
    (tally rq.requestId es).records ≤ 1 ∧
      ((tally rq.requestId es).records = 1 ↔ (tally rq.requestId es).unstarted = false ∧
        ((tally rq.requestId es).recursed = false ∨ (tally rq.requestId es).unclosed = true)) := by
  have hend : Counted (tally rq.requestId es) r s' :=
    (ensures_handle hstore malformed s).of_track hrun hhost
  obtain ⟨hb, h⟩ := hend
  rw [hb.records]
  obtain ⟨hstarted, hfine, hs⟩ | ⟨hbad, hun⟩ := h
  · rw [if_pos (hs (hb.known hkey))]
    exact ⟨le_rfl, fun _ ↦ ⟨hstarted, hfine⟩, fun _ ↦ rfl⟩
  · rw [if_neg (hun ▸ Bool.false_ne_true)]
    refine ⟨Nat.zero_le 1, fun h ↦ (by cases h), ?_⟩
    rintro ⟨hstarted, hfine⟩
    obtain hunstarted | ⟨hrec, hclosed⟩ := hbad
    · rw [hstarted] at hunstarted
      cases hunstarted
    · rw [hrec, hclosed] at hfine
      obtain h | h := hfine <;> cases h

end Parts

private theorem storeSucceeds_calmHost (o : IngressOp) : StoreSucceeds o (calmHost o) := by
  cases o <;>
    first
    | trivial
    | exact ⟨_, rfl⟩

/-- A request for the list of models is recorded once. -/
theorem recorded_once_iff_models :
    (tally modelsRequest.requestId (Prog.play calmHost
      (@handle FloatText.fraction keyGateway modelsRequest none .initial)).1).records = 1 := by
  let _ := FloatText.fraction
  refine ((recorded_once_iff (r := .ok ()) rfl none (Prog.finishes_play calmHost
    (handle keyGateway modelsRequest none .initial)) (fun e he ↦ ?_) (.inl rfl)).2).mpr
      ⟨rfl, .inl rfl⟩
  rw [Prog.answer_of_mem_play he]
  exact ⟨documented_calmHost e.op, storeSucceeds_calmHost e.op⟩

/-- A host whose upstream nests its reply too deeply for the decoder. -/
def deepHost : (o : IngressOp) → o.Res
  | .loads _ => .error ⟨.recursionError, "maximum recursion depth exceeded"⟩
  | o => calmHost o

/-- A reply nested too deeply: the key was authenticated, the dispatch was stored, every call of the
store succeeded, and no usage was recorded. -/
theorem unrecorded_of_deep_reply : ∃ es r s', Prog.Finishes
    (@handle FloatText.fraction keyGateway modelsRequest none .initial) es (.ok (r, s')) ∧
    (∀ e ∈ es, Documented e.op e.answer ∧ StoreSucceeds e.op e.answer) ∧
    (tally modelsRequest.requestId es).authenticated = true ∧
    (tally modelsRequest.requestId es).dispatched = true ∧
    (tally modelsRequest.requestId es).records = 0 := by
  let _ := FloatText.fraction
  refine ⟨_, .error ⟨.recursionError, "maximum recursion depth exceeded"⟩, _,
    Prog.finishes_play deepHost (handle keyGateway modelsRequest none .initial), fun e he ↦ ?_,
    rfl, rfl, rfl⟩
  rw [Prog.answer_of_mem_play he]
  cases he' : e.op with
  | loads data =>
    refine ⟨fun e he ↦ ?_, trivial⟩
    cases he
    decide
  | _ => exact ⟨documented_calmHost _, storeSucceeds_calmHost _⟩

end C3RSpec.Ingress.Accounting
