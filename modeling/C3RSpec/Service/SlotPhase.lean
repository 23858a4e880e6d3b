import C3RSpec.Service.Handler

/-!
# The threads of a generation request

A request is a pool of two threads over the flags of `_send_stream`, and every operation of either
is one step of it. What a thread may do next is read off its place in the two locked sections and
the stage of the permit; both programs are checked against these phases once.
-/

namespace C3RSpec.Service.Slots

open Base

/-- The flags of `_send_stream` and its lock, with what became of the permit and the counter. -/
structure Shared where
  locked : Bool
  gone : Bool
  released : Bool
  stopped : Bool
  started : Bool
  acquired : Nat
  returned : Nat
  disconnects : Nat

/-- Before the request. -/
def Shared.initial : Shared := ⟨false, false, false, false, false, 0, 0, 0⟩

/-- What the outside answers. -/
abbrev Host := (o : ServiceOp) → o.Res

/-- One operation. The lock blocks while it is held, and the watcher until it is started. -/
def handle (s : Shared) (_ : Nat) (host : Host) : (o : ServiceOp) → Option (o.Res × Shared)
  | .lock => if s.locked then none else some ((), { s with locked := true })
  | .unlock => some ((), { s with locked := false })
  | .isGone => some (s.gone, s)
  | .setGone => some ((), { s with gone := true })
  | .isReleased => some (s.released, s)
  | .setReleased => some ((), { s with released := true })
  | .isStopped => some (s.stopped, s)
  | .setStopped => some ((), { s with stopped := true })
  | .begin => if s.started then some ((), s) else none
  | .startWatcher =>
    match host .startWatcher with
    | .ok u => some (.ok u, { s with started := true })
    | .error e => some (.error e, s)
  | .acquirePermit =>
    if host .acquirePermit then some (true, { s with acquired := s.acquired + 1 })
    else some (false, s)
  | .releasePermit => some ((), { s with returned := s.returned + 1 })
  | .increment name =>
    if name = "stream_disconnect" then some ((), { s with disconnects := s.disconnects + 1 })
    else some ((), s)
  | o => some (host o, s)

/-- The threads of a request. -/
inductive Role where
  | handler
  | watcher

/-- What a thread runs. -/
abbrev Code := Prog ServiceOp ServiceOp.Res (Except PyError Unit × Watcher)

/-- The request handler, and the watcher from the moment it is started. -/
def threadCode [FloatText] (counts : Invocations) (stream : Bool) (rounds watches : Nat) :
    Role → Code
  | .handler => post counts stream rounds .none
  | .watcher => (do ask .begin; watchDisconnect watches : Serving Unit) .none

/-- A request in progress. -/
abbrev RequestPool := Pool ServiceOp ServiceOp.Res Role (Except PyError Unit × Watcher) Shared

/-- Who moves, and what the outside answers. -/
abbrev Schedule := List (Nat × Host)

/-- One move of the request. -/
def move (code : Role → Code) (s : RequestPool) (x : Nat × Host) : Option RequestPool :=
  Pool.step code handle s (.advance x.1 x.2)

/-- The pool in which neither thread has moved. -/
def fresh (code : Role → Code) : RequestPool :=
  ⟨.initial, [⟨.handler, [], code .handler⟩, ⟨.watcher, [], code .watcher⟩], []⟩

/-- The handler has come to its end. -/
def HandlerDone (s : RequestPool) : Prop :=
  ∃ t, s.threads[0]? = some t ∧ t.rest.result? ≠ none

/-- The watcher could not be started, or the events not be closed. -/
def disturbs : Event ServiceOp ServiceOp.Res → Bool
  | ⟨.startWatcher, .error _⟩ => true
  | ⟨.closeEvents, .error _⟩ => true
  | _ => false

/-! ### Phases -/

/-- Places in the locked sections. -/
inductive Place where
  | out
  | entered
  | unmarked
  | marked
  | recorded
  | unreleased
  | flagged
  | settled
  deriving DecidableEq

/-- Stages of the permit, as the handler and the watcher see it. -/
inductive Stage where
  | idle
  | holding
  | direct
  | streaming
  | finished
  | waiting
  | watching
  deriving DecidableEq

/-- The stages of the handler. -/
def Stage.serves : Stage → Bool
  | .idle | .holding | .direct | .streaming | .finished => true
  | .waiting | .watching => false

/-- The stages in which a thread may enter the locked sections. -/
def Stage.contends : Stage → Bool
  | .holding | .streaming | .watching => true
  | .idle | .direct | .finished | .waiting => false

/-- From here on the permit is given back under the lock. -/
def Stage.begun : Stage → Stage
  | .holding => .streaming
  | stage => stage

/-- `release_capacity` is done. -/
def Stage.settle : Stage → Stage
  | .streaming => .finished
  | stage => stage

/-- The phase of a thread. -/
structure Phase where
  place : Place
  stage : Stage
  disturbed : Bool

/-- The phase after an event. -/
def Phase.next (p : Phase) : Event ServiceOp ServiceOp.Res → Phase
  | ⟨.lock, _⟩ => { p with place := .entered, stage := p.stage.begun }
  | ⟨.unlock, _⟩ =>
    { p with place := .out, stage := if p.place = .settled then p.stage.settle else p.stage }
  | ⟨.isGone, gone⟩ =>
    if p.place = .entered then { p with place := if gone then .recorded else .unmarked } else p
  | ⟨.setGone, _⟩ => { p with place := .marked }
  | ⟨.increment _, _⟩ => if p.place = .marked then { p with place := .recorded } else p
  | ⟨.isReleased, released⟩ => { p with place := if released then .settled else .unreleased }
  | ⟨.setReleased, _⟩ => { p with place := .flagged }
  | ⟨.releasePermit, _⟩ =>
    if p.place = .flagged then { p with place := .settled } else { p with stage := .direct }
  | ⟨.acquirePermit, granted⟩ => if granted then { p with stage := .holding } else p
  | ⟨.startWatcher, .ok _⟩ => { p with stage := .streaming }
  | ⟨.startWatcher, .error _⟩ => { p with stage := .streaming, disturbed := true }
  | ⟨.closeEvents, .error _⟩ => { p with disturbed := true }
  | ⟨.begin, _⟩ => { p with stage := .watching }
  | _ => p

/-- What a thread does in a phase. -/
def Phase.Allows (p : Phase) : ServiceOp → Prop
  | .lock => p.place = .out ∧ p.stage.contends = true
  | .unlock => p.place = .recorded ∨ p.place = .settled
  | .isGone => p.place = .out ∨ p.place = .entered
  | .setGone => p.place = .unmarked
  | .increment name =>
    (p.place = .marked ∧ name = "stream_disconnect") ∨
      (p.place = .out ∧ name ≠ "stream_disconnect")
  | .isReleased => p.place = .entered
  | .setReleased => p.place = .unreleased
  | .releasePermit => p.place = .flagged ∨ (p.place = .out ∧ p.stage = .holding)
  | .acquirePermit => p.place = .out ∧ p.stage = .idle
  | .startWatcher => p.place = .out ∧ p.stage = .holding
  | .begin => p.place = .out ∧ p.stage = .waiting
  | _ => p.place = .out

/-- Where a thread may end: its permit is accounted for, or something failed. -/
def Phase.Accounted (p : Phase) : Prop :=
  p.place = .out ∧ (p.disturbed = true ∨ p.stage ≠ .holding ∧ p.stage ≠ .streaming)

/-- The phases as a monitor. -/
def slots : Monitor ServiceOp ServiceOp.Res (Except PyError Unit × Watcher) Phase where
  next := Phase.next
  allows := Phase.Allows
  possible _ _ := True
  accepts p _ := p.Accounted

/-- The phase a thread starts in. -/
def Role.start : Role → Phase
  | .handler => ⟨.out, .idle, false⟩
  | .watcher => ⟨.out, .waiting, false⟩

/-! ### What the programs do -/

/-- Operations that leave the phase of a thread outside the locked sections as it is. -/
def calm : ServiceOp → Bool
  | .lock | .unlock | .setGone | .isReleased | .setReleased | .releasePermit | .acquirePermit
  | .startWatcher | .begin => false
  | .increment name => decide (name ≠ "stream_disconnect")
  | _ => true

/-- Still outside and at the same stage; what failed stays failed. -/
structure Kept (p q : Phase) : Prop where
  place : q.place = .out
  stage : q.stage = p.stage
  disturbed : p.disturbed = true → q.disturbed = true

section Programs

variable {p : Phase} {s : Watcher}

private theorem Kept.trans {p q r : Phase} (h : Kept p q) (h' : Kept q r) : Kept p r :=
  ⟨h'.place, h'.stage.trans h.stage, fun hd ↦ h'.disturbed (h.disturbed hd)⟩

private theorem kept_next {o : ServiceOp} (hp : p.place = .out) (ho : calm o = true) :
    p.Allows o ∧ ∀ r, Kept p (p.next ⟨o, r⟩) := by
  have hsame : Kept p p := ⟨hp, rfl, id⟩
  cases o with
  | lock | unlock | setGone | isReleased | setReleased | releasePermit | acquirePermit
  | startWatcher | begin => cases ho
  | increment name =>
    refine ⟨.inr ⟨hp, of_decide_eq_true ho⟩, fun r ↦ ?_⟩
    simp only [Phase.next, hp, reduceCtorEq, ↓reduceIte]
    exact hsame
  | isGone =>
    refine ⟨.inl hp, fun r ↦ ?_⟩
    simp only [Phase.next, hp, reduceCtorEq, ↓reduceIte]
    exact hsame
  | closeEvents =>
    refine ⟨hp, fun r ↦ ?_⟩
    cases r with
    | ok u => exact hsame
    | error e => exact ⟨hp, rfl, fun _ ↦ rfl⟩
  | _ => exact ⟨hp, fun _ ↦ hsame⟩

private theorem ensures_calm {α : Type} {act : Serving α}
    (h : act.Within (fun o ↦ calm o = true) id) (hp : p.place = .out) :
    slots.Ensures p s act fun q _ s' ↦ Kept p q ∧ s' = s := by
  refine Monitor.ensures_of_within (P := Kept p) h ?_ ⟨hp, rfl, id⟩
  intro q o hq ho
  obtain ⟨hallows, hnext⟩ := kept_next hq.place ho
  exact ⟨hallows, fun r _ ↦ hq.trans (hnext r)⟩

private theorem ensures_recordDisconnect (hp : p.place = .out) (hc : p.stage.contends = true) :
    slots.Ensures p s recordDisconnect fun q r s' ↦
      r = .ok () ∧ q = { p with stage := p.stage.begun } ∧ s' = s := by
  refine Monitor.ensures_call ⟨hp, hc⟩ fun _ _ ↦ Monitor.ensures_call (.inr rfl) fun gone _ ↦ ?_
  obtain ⟨place, stage, disturbed⟩ := p
  cases hp
  cases gone with
  | true => exact Monitor.ensures_perform (.inl rfl) fun _ _ ↦ ⟨rfl, rfl, rfl⟩
  | false =>
    exact Monitor.ensures_call rfl fun _ _ ↦ Monitor.ensures_call (.inl ⟨rfl, rfl⟩) fun _ _ ↦
      Monitor.ensures_perform (.inl rfl) fun _ _ ↦ ⟨rfl, rfl, rfl⟩

private theorem ensures_releaseCapacity (hp : p.place = .out) (hc : p.stage.contends = true) :
    slots.Ensures p s releaseCapacity fun q r s' ↦
      r = .ok () ∧ q = { p with stage := p.stage.begun.settle } ∧ s' = s := by
  refine Monitor.ensures_call ⟨hp, hc⟩ fun _ _ ↦ Monitor.ensures_call rfl fun released _ ↦ ?_
  obtain ⟨place, stage, disturbed⟩ := p
  cases hp
  cases released with
  | true => exact Monitor.ensures_perform (.inr rfl) fun _ _ ↦ ⟨rfl, rfl, rfl⟩
  | false =>
    exact Monitor.ensures_call rfl fun _ _ ↦ Monitor.ensures_call (.inl rfl) fun _ _ ↦
      Monitor.ensures_perform (.inr rfl) fun _ _ ↦ ⟨rfl, rfl, rfl⟩

/-! ### The watcher -/

/-- Outside the sections, after it was started. -/
def Phase.Watches (p : Phase) : Prop := p.place = .out ∧ p.stage = .watching

private theorem ensures_abandon (h : p.Watches) :
    slots.Ensures p s abandon fun q _ _ ↦ q.Watches := by
  have hcontends : p.stage.contends = true := by
    rw [h.2]
    rfl
  refine Monitor.ensures_bind ((ensures_recordDisconnect h.1 hcontends).mono ?_)
  rintro _ _ _ ⟨rfl, rfl, rfl⟩
  refine ⟨fun _ _ ↦ ?_, fun e he ↦ by cases he⟩
  have hwatches : Phase.Watches { p with stage := p.stage.begun } := by
    rw [h.2]
    exact ⟨h.1, rfl⟩
  refine Monitor.ensures_raising h.1 (fun _ _ _ _ ↦ ?_) fun _ _ _ _ ↦ hwatches
  refine Monitor.ensures_bind ((ensures_releaseCapacity hwatches.1 ?_).mono ?_)
  · rw [hwatches.2]
    rfl
  · rintro _ _ _ ⟨rfl, rfl, rfl⟩
    refine ⟨fun _ _ ↦ Monitor.ensures_pure ?_, fun e he ↦ by cases he⟩
    rw [hwatches.2]
    exact ⟨h.1, rfl⟩

private theorem ensures_watchRound (h : p.Watches) :
    slots.Ensures p s watchRound fun q _ _ ↦ q.Watches := by
  refine Monitor.ensures_tryExcept ?_
  refine Monitor.ensures_raising h.1 (fun _ readable _ _ ↦ ?_) fun _ _ _ _ ↦
    ⟨fun _ he ↦ (by cases he), fun _ _ _ ↦ h, fun _ _ _ ↦ ensures_abandon h⟩
  split
  · refine Monitor.ensures_raising h.1 (fun _ _ _ _ ↦ ?_) fun _ _ _ _ ↦
      ⟨fun _ he ↦ (by cases he), fun _ _ _ ↦ h, fun _ _ _ ↦ ensures_abandon h⟩
    exact (ensures_abandon h).mono fun _ _ _ hq ↦
      ⟨fun _ _ ↦ hq, fun _ _ _ ↦ hq, fun _ _ _ ↦ ensures_abandon hq⟩
  · exact Monitor.ensures_pure
      ⟨fun _ _ ↦ h, fun _ he ↦ (by cases he), fun _ he ↦ (by cases he)⟩

private theorem ensures_watchDisconnect (n : Nat) (h : p.Watches) :
    slots.Ensures p s (watchDisconnect n) fun q _ _ ↦ q.Watches := by
  induction n generalizing p s with
  | zero => exact Monitor.ensures_pure h
  | succ n ih =>
    refine Monitor.ensures_call h.1 fun stopped _ ↦ ?_
    split
    · exact Monitor.ensures_pure h
    · refine Monitor.ensures_bind ((ensures_watchRound h).mono fun q r s' hq ↦
        ⟨fun goesOn _ ↦ ?_, fun _ _ ↦ hq⟩)
      split
      · exact ih hq
      · exact Monitor.ensures_pure hq

/-! ### The handler -/

private theorem within_ask {o : ServiceOp} (ho : calm o = true) :
    (ask o).Within (fun o ↦ calm o = true) id := Act.within_perform ho

private theorem within_raising {o : ServiceOp} {α : Type} {conv : o.Res → Except PyError α}
    (ho : calm o = true) :
    (ask o >>= fun r ↦ Act.ofExcept (conv r) : Serving α).Within (fun o ↦ calm o = true) id :=
  (within_ask ho).bind fun _ ↦ Act.within_ofExcept _

private theorem sendEvents_within [FloatText] (counts : Invocations) (rounds : Nat) :
    (sendEvents counts rounds).Within (fun o ↦ calm o = true) id := by
  induction rounds with
  | zero => exact Act.within_pure ()
  | succ n ih =>
    refine (within_raising rfl).bind fun event ↦ ?_
    cases event with
    | none => exact Act.within_pure ()
    | some event =>
      refine (within_ask rfl).bind fun gone ↦ ?_
      split
      · exact Act.within_pure ()
      · exact (Act.within_ofExcept _).bind fun bytes ↦ (within_raising rfl).bind fun _ ↦
          (within_raising rfl).bind fun _ ↦ ih

private theorem openStream_within : openStream.Within (fun o ↦ calm o = true) id := by
  refine (within_raising rfl).bind fun _ ↦ ?_
  refine Act.Within.finallyDo (Act.Within.tryExcept ?_ fun e ↦ ?_) (within_ask rfl)
  · refine (within_raising rfl).bind fun _ ↦ (within_ask rfl).bind fun cancelled ↦ ?_
    split
    · exact (within_raising rfl).bind fun _ ↦ Act.within_raise _
    · exact Act.within_pure ()
  · refine (within_ask rfl).bind fun cancelled ↦ ?_
    split
    · exact Act.within_raise _
    · exact Act.within_raise _

/-- A stream has begun or is about to; a watcher that was never started shows in the phase. -/
structure Serves (p : Phase) (s : Watcher) : Prop where
  place : p.place = .out
  stage : p.stage = .holding ∨ p.stage = .streaming
  unstarted : s = .created → p.disturbed = true

private theorem Serves.contends (h : Serves p s) : p.stage.contends = true := by
  obtain hstage | hstage := h.stage
  · rw [hstage]
    rfl
  · rw [hstage]
    rfl

private theorem Serves.kept {q : Phase} (h : Serves p s) (hq : Kept p q) : Serves q s :=
  ⟨hq.place, hq.stage ▸ h.stage, fun hs ↦ hq.disturbed (h.unstarted hs)⟩

private theorem Serves.begun (h : Serves p s) : Serves { p with stage := p.stage.begun } s := by
  refine ⟨h.place, .inr ?_, h.unstarted⟩
  obtain hstage | hstage := h.stage
  · rw [hstage]
    rfl
  · rw [hstage]
    rfl

private theorem ensures_streaming [FloatText] (counts : Invocations) (rounds : Nat)
    (hp : p.place = .out) (hs : p.stage = .holding) :
    slots.Ensures p .none (streaming counts rounds) fun q _ s' ↦ Serves q s' := by
  have hserves : Serves p .none := ⟨hp, .inl hs, fun h ↦ by cases h⟩
  refine Monitor.ensures_raising hp (fun _ _ _ _ ↦ ?_) fun _ _ _ _ ↦ hserves
  refine Monitor.ensures_set (Monitor.ensures_raising ⟨hp, hs⟩ (fun r u _ hr ↦ ?_) fun r e _ hr ↦ ?_)
  · subst hr
    refine Monitor.ensures_set ?_
    have hbegun : Phase.place { p with stage := .streaming } = .out := hp
    refine (ensures_calm (sendEvents_within counts rounds) hbegun).mono ?_
    rintro q _ _ ⟨hq, rfl⟩
    exact ⟨hq.place, .inr hq.stage, fun h ↦ by cases h⟩
  · subst hr
    exact ⟨hp, .inr rfl, fun _ ↦ rfl⟩

private theorem ensures_cleanUp (h : Serves p s) :
    slots.Ensures p s cleanUp fun q _ _ ↦ q.Accounted := by
  refine Monitor.ensures_call h.place fun _ _ ↦ ?_
  refine Monitor.ensures_raising h.place (fun r u _ hr ↦ ?_) fun r e _ hr ↦ ?_
  · subst hr
    refine Monitor.ensures_bind (Monitor.ensures_get ?_)
    -- the permit is returned under the lock, wherever joining succeeds
    have hrelease : slots.Ensures p s releaseCapacity fun q _ _ ↦ q.Accounted := by
      refine (ensures_releaseCapacity h.place h.contends).mono ?_
      rintro _ _ _ ⟨-, rfl, -⟩
      refine ⟨h.place, .inr ?_⟩
      obtain hstage | hstage := h.stage
      · rw [hstage]
        exact ⟨fun h ↦ (by cases h), fun h ↦ (by cases h)⟩
      · rw [hstage]
        exact ⟨fun h ↦ (by cases h), fun h ↦ (by cases h)⟩
    cases s with
    | none => exact Monitor.ensures_pure ⟨fun _ _ ↦ hrelease, fun e he ↦ by cases he⟩
    | created =>
      exact Monitor.ensures_raise
        ⟨fun _ he ↦ (by cases he), fun _ _ ↦ ⟨h.place, .inl (h.unstarted rfl)⟩⟩
    | started =>
      exact Monitor.ensures_perform h.place fun _ _ ↦
        ⟨fun _ _ ↦ hrelease, fun e he ↦ by cases he⟩
  · subst hr
    exact ⟨h.place, .inl rfl⟩

private theorem ensures_sendStream [FloatText] (counts : Invocations) (rounds : Nat)
    (hp : p.place = .out) (hs : p.stage = .holding) :
    slots.Ensures p .none (sendStream counts rounds) fun q _ _ ↦ q.Accounted := by
  refine Monitor.ensures_finallyDo ?_
  refine Monitor.Ensures.mono (P := fun q _ s' ↦ Serves q s') ?_ fun q r s' hq ↦
    (ensures_cleanUp hq).mono fun _ _ _ hq ↦ ⟨fun _ _ ↦ hq, fun _ _ ↦ hq⟩
  refine Monitor.ensures_tryExcept ((ensures_streaming counts rounds hp hs).mono fun q r s' hq ↦
    ⟨fun _ _ ↦ hq, fun _ _ _ ↦ hq, fun _ _ _ ↦ ?_⟩)
  refine (ensures_recordDisconnect hq.place hq.contends).mono ?_
  rintro _ _ _ ⟨-, rfl, rfl⟩
  exact hq.begun

private theorem ensures_openOrRelease (hp : p.place = .out) (hs : p.stage = .holding) :
    slots.Ensures p s openOrRelease fun q r s' ↦ q.place = .out ∧ s' = s ∧
      (∀ u, r = .ok u → q.stage = .holding) ∧ ∀ e, r = .error e → q.stage = .direct := by
  refine Monitor.ensures_tryExcept ((ensures_calm openStream_within hp).mono ?_)
  rintro q r s' ⟨hq, rfl⟩
  have hstage : q.stage = .holding := hq.stage.trans hs
  refine ⟨fun _ _ ↦ ⟨hq.place, rfl, fun _ _ ↦ hstage, fun _ he ↦ (by cases he)⟩,
    fun _ _ he ↦ (by cases he), fun e _ _ ↦ ?_⟩
  refine Monitor.ensures_call (.inr ⟨hq.place, hstage⟩) fun _ _ ↦ Monitor.ensures_raise ?_
  simp only [slots, Phase.next, hq.place, reduceCtorEq, ↓reduceIte]
  exact ⟨trivial, trivial, fun _ he ↦ (by cases he), fun _ _ ↦ trivial⟩

private theorem Phase.Accounted.kept {q : Phase} (h : p.Accounted) (hq : Kept p q) :
    q.Accounted := by
  refine ⟨hq.place, ?_⟩
  rw [hq.stage]
  exact h.2.imp_left hq.disturbed

private theorem ensures_accounted {α : Type} {act : Serving α}
    (h : act.Within (fun o ↦ calm o = true) id) (hp : p.Accounted) :
    slots.Ensures p s act fun q _ _ ↦ q.Accounted :=
  (ensures_calm h hp.1).mono fun _ _ _ hq ↦ hp.kept hq.1

private theorem ensures_generate [FloatText] (counts : Invocations) (stream : Bool) (rounds : Nat) :
    slots.Ensures Role.handler.start .none (generate counts stream rounds) fun q _ _ ↦
      q.Accounted := by
  refine Monitor.ensures_call ⟨rfl, rfl⟩ fun granted _ ↦ ?_
  cases granted with
  | false =>
    refine ensures_accounted (within_raising rfl) ⟨rfl, .inr ⟨?_, ?_⟩⟩
    · exact fun h ↦ by cases h
    · exact fun h ↦ by cases h
  | true =>
    cases stream with
    | true =>
      refine Monitor.ensures_bind ((ensures_openOrRelease rfl rfl).mono ?_)
      rintro q r s' ⟨hplace, rfl, hok, herror⟩
      refine ⟨fun u hu ↦ ?_, fun e he ↦ ⟨hplace, .inr ?_⟩⟩
      · obtain ⟨hallows, hnext⟩ := kept_next (o := .increment "text_responses") hplace rfl
        refine Monitor.ensures_call hallows fun r _ ↦ ?_
        have hkept := hnext r
        exact ensures_sendStream counts rounds hkept.place (hkept.stage.trans (hok u hu))
      · rw [herror e he]
        exact ⟨fun h ↦ (by cases h), fun h ↦ (by cases h)⟩
    | false =>
      refine Monitor.ensures_bind (Monitor.ensures_finallyDo ?_)
      have hrest : Phase.Accounted ⟨.out, .direct, false⟩ :=
        ⟨rfl, .inr ⟨fun h ↦ (by cases h), fun h ↦ (by cases h)⟩⟩
      refine Monitor.ensures_call rfl fun r _ ↦ Monitor.ensures_ofExcept ?_
      refine Monitor.ensures_perform (.inr ⟨rfl, rfl⟩) fun _ _ ↦
        ⟨fun _ _ ↦ ⟨fun response _ ↦ ?_, fun _ _ ↦ hrest⟩, fun e he ↦ by cases he⟩
      exact ensures_accounted ((within_ask rfl).bind fun _ ↦ within_raising rfl) hrest

private theorem refuse_within {metric code : Text} (status : Int)
    (h : calm (.increment metric) = true) :
    (refuse metric status code).Within (fun o ↦ calm o = true) id :=
  (within_ask h).bind fun _ ↦ within_raising rfl

private theorem ensures_post [FloatText] (counts : Invocations) (stream : Bool) (rounds : Nat) :
    slots.Ensures Role.handler.start .none (post counts stream rounds) fun q _ _ ↦
      q.Accounted := by
  refine Monitor.ensures_tryExcept ((ensures_generate counts stream rounds).mono fun q r s' hq ↦
    ⟨fun _ _ ↦ hq, fun _ _ _ ↦ hq, fun e _ _ ↦ ?_⟩)
  split
  · exact Monitor.ensures_pure hq
  · split
    · exact ensures_accounted (refuse_within 400 rfl) hq
    · exact ensures_accounted (refuse_within 503 rfl) hq

/-- Both threads keep to their phases. -/
theorem obeys_slots [FloatText] (counts : Invocations) (stream : Bool) (rounds watches : Nat)
    (role : Role) : slots.Obeys role.start (threadCode counts stream rounds watches role) := by
  cases role with
  | handler => exact (ensures_post counts stream rounds).obeys fun _ _ _ hq ↦ hq
  | watcher =>
    have hwatcher : slots.Ensures Role.watcher.start .none
        (do ask .begin; watchDisconnect watches : Serving Unit) fun q _ _ ↦ q.Watches :=
      Monitor.ensures_call ⟨rfl, rfl⟩ fun _ _ ↦ ensures_watchDisconnect watches ⟨rfl, rfl⟩
    refine hwatcher.obeys fun q _ _ hq ↦ ⟨hq.1, .inr ?_⟩
    rw [hq.2]
    exact ⟨fun h ↦ (by cases h), fun h ↦ (by cases h)⟩

end Programs

end C3RSpec.Service.Slots
