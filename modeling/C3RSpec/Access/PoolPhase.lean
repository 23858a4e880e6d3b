import C3RSpec.Access.PgPool

/-!
# Phases of a pooled operation

Where an operation is in `_acquire`, its transaction, `_discard` or `_release`, read off the
steps it has taken. Every step of every thread is one move of its phase over the shared pool.
-/

namespace C3RSpec.Access.Pooling

open Base

/-- Where an operation is. -/
inductive PgPhase where
  | start
  | empty
  | locked
  | checked
  | incrementing (value : Int)
  | reserved
  | connected (c : Connection)
  | unconnected
  | full
  | waiting
  | holding (c : Connection)
  | failed (c : Connection)
  | committed (c : Connection)
  | overflow (c : Connection)
  | closed
  | closedLocked
  | decrementing (value : Int)
  | decremented
  | done
  deriving DecidableEq

namespace PgPhase

/-- The live connection that the operation has checked out. -/
def connection? : PgPhase → Option Connection
  | .connected c | .holding c | .failed c | .committed c | .overflow c => some c
  | .start | .empty | .locked | .checked | .incrementing _ | .reserved | .unconnected | .full
  | .waiting | .closed | .closedLocked | .decrementing _ | .decremented | .done => none

/-- The counter has one for this operation: its connection, or one it is opening or has closed. -/
def carries : PgPhase → Bool
  | .reserved | .connected _ | .holding _ | .failed _ | .committed _ | .overflow _ | .closed
  | .closedLocked | .decrementing _ => true
  | .start | .empty | .locked | .checked | .incrementing _ | .unconnected | .full | .waiting
  | .decremented | .done => false

/-- The operation has the lock. -/
def locks : PgPhase → Bool
  | .locked | .checked | .incrementing _ | .reserved | .connected _ | .unconnected | .full
  | .closedLocked | .decrementing _ | .decremented => true
  | .start | .empty | .waiting | .holding _ | .failed _ | .committed _ | .overflow _ | .closed
  | .done => false

/-- The operation is inside `_acquire`, `_discard` or `_release`. -/
def inside : PgPhase → Bool
  | .start | .holding _ | .failed _ | .committed _ | .done => false
  | .empty | .locked | .checked | .incrementing _ | .reserved | .connected _ | .unconnected
  | .full | .waiting | .overflow _ | .closed | .closedLocked | .decrementing _
  | .decremented => true

/-- What an operation that has the lock knows about the counter. -/
def Knows (size : Nat) (created : Int) : PgPhase → Prop
  | .checked => created < size
  | .incrementing value => value = created ∧ created < size
  | .full => size ≤ created
  | .decrementing value => value = created
  | _ => True

end PgPhase

section Monitor

variable {Stmt Rows α : Type}

/-- The phase after a step. -/
def nextPhase (size : Nat) : PgPhase → Event (PgOp Stmt) (PgOp.Res Rows) → PgPhase
  | .start, ⟨.getNowait, some c⟩ => .holding c
  | .start, ⟨.getNowait, none⟩ => .empty
  | .empty, ⟨.acquireLock, _⟩ => .locked
  | .locked, ⟨.readCreated, value⟩ => if value < size then .checked else .full
  | .checked, ⟨.readCreated, value⟩ => .incrementing value
  | .incrementing _, ⟨.writeCreated _, _⟩ => .reserved
  | .reserved, ⟨.connect, .ok c⟩ => .connected c
  | .reserved, ⟨.connect, .error _⟩ => .unconnected
  | .connected c, ⟨.releaseLock, _⟩ => .holding c
  | .unconnected, ⟨.releaseLock, _⟩ => .done
  | .full, ⟨.releaseLock, _⟩ => .waiting
  | .waiting, ⟨.get, c⟩ => .holding c
  | .holding c, ⟨.cursor _, .error _⟩ => .failed c
  | .holding c, ⟨.execute _ _, .error _⟩ => .failed c
  | .holding c, ⟨.commit _, .error _⟩ => .failed c
  | .holding c, ⟨.commit _, .ok _⟩ => .committed c
  | .holding _, ⟨.close _, _⟩ => .closed
  | .failed _, ⟨.close _, _⟩ => .closed
  | .overflow _, ⟨.close _, _⟩ => .closed
  | .committed _, ⟨.putNowait _, true⟩ => .done
  | .committed c, ⟨.putNowait _, false⟩ => .overflow c
  | .closed, ⟨.acquireLock, _⟩ => .closedLocked
  | .closedLocked, ⟨.readCreated, value⟩ => .decrementing value
  | .decrementing _, ⟨.writeCreated _, _⟩ => .decremented
  | .decremented, ⟨.releaseLock, _⟩ => .done
  | phase, _ => phase

/-- The steps an operation may take. -/
inductive Allows : PgPhase → PgOp Stmt → Prop
  | getNowait : Allows .start .getNowait
  | lockEmpty : Allows .empty .acquireLock
  | readLocked : Allows .locked .readCreated
  | readChecked : Allows .checked .readCreated
  | increment (value : Int) : Allows (.incrementing value) (.writeCreated (value + 1))
  | connect : Allows .reserved .connect
  | unlockConnected (c : Connection) : Allows (.connected c) .releaseLock
  | unlockUnconnected : Allows .unconnected .releaseLock
  | unlockFull : Allows .full .releaseLock
  | get : Allows .waiting .get
  | cursor (c : Connection) : Allows (.holding c) (.cursor c)
  | execute (c : Connection) (statement : Stmt) : Allows (.holding c) (.execute c statement)
  | commit (c : Connection) : Allows (.holding c) (.commit c)
  | closeHolding (c : Connection) : Allows (.holding c) (.close c)
  | closeFailed (c : Connection) : Allows (.failed c) (.close c)
  | closeOverflow (c : Connection) : Allows (.overflow c) (.close c)
  | closeCursor (c : Connection) : Allows (.committed c) (.closeCursor c)
  | putNowait (c : Connection) : Allows (.committed c) (.putNowait c)
  | lockClosed : Allows .closed .acquireLock
  | readClosed : Allows .closedLocked .readCreated
  | decrement (value : Int) : Allows (.decrementing value) (.writeCreated (value - 1))
  | unlockDecremented : Allows .decremented .releaseLock
  | closeCursorDone (c : Connection) : Allows .done (.closeCursor c)

/-- An operation takes only steps of its phase and ends with nothing checked out. -/
def pgMonitor (size : Nat) : Monitor (PgOp Stmt) (PgOp.Res Rows) α PgPhase where
  next := nextPhase size
  allows := Allows
  possible := fun _ _ ↦ True
  accepts := fun phase _ ↦ phase = .done

section Obeys

variable {size : Nat} {c : Connection}

/-- A monitor of programs with another result. -/
abbrev judging {β : Type} (size : Nat) (accepts : PgPhase → Except PyError β → Prop) :
    Monitor (PgOp Stmt) (PgOp.Res Rows) β PgPhase :=
  (@pgMonitor Stmt Rows β size).accepting accepts

private theorem obeys_discard {accepts : PgPhase → Except PyError Unit → Prop} {phase : PgPhase}
    (hallows : @Allows Stmt phase (.close c))
    (hclosed : ∀ r, nextPhase size phase (⟨.close c, r⟩ : Event (PgOp Stmt) (PgOp.Res Rows)) =
      .closed)
    (h : accepts .done (.ok ())) :
    (@judging Stmt Rows _ size accepts).Obeys phase (discard c) := by
  refine ⟨hallows, fun r _ ↦ ?_⟩
  change (judging size accepts).Obeys (nextPhase size phase ⟨.close c, r⟩) _
  rw [hclosed]
  exact ⟨.lockClosed, fun _ _ ↦ ⟨.readClosed, fun value _ ↦ ⟨.decrement value, fun _ _ ↦
    ⟨.unlockDecremented, fun _ _ ↦ h⟩⟩⟩⟩

private theorem obeys_release {accepts : PgPhase → Except PyError Unit → Prop}
    (h : accepts .done (.ok ())) :
    (@judging Stmt Rows _ size accepts).Obeys (.committed c) (release c) := by
  refine ⟨.putNowait c, fun kept _ ↦ ?_⟩
  cases kept with
  | true => exact h
  | false => exact obeys_discard (.closeOverflow c) (fun _ ↦ rfl) h

private theorem obeys_acquire {accepts : PgPhase → Except PyError Connection → Prop}
    (hok : ∀ c, accepts (.holding c) (.ok c)) (herror : ∀ e, accepts .done (.error e)) :
    (@judging Stmt Rows _ size accepts).Obeys .start (acquire size) := by
  refine ⟨.getNowait, fun found _ ↦ ?_⟩
  cases found with
  | some c => exact hok c
  | none =>
    refine ⟨.lockEmpty, fun _ _ ↦ ⟨.readLocked, fun created _ ↦ ?_⟩⟩
    change (judging size accepts).Obeys (if created < size then .checked else .full)
      (if created < size then _ else _)
    split
    · refine ⟨.readChecked, fun value _ ↦ ⟨.increment value, fun _ _ ↦ ⟨.connect, fun r _ ↦ ?_⟩⟩⟩
      cases r with
      | ok c => exact ⟨.unlockConnected c, fun _ _ ↦ hok c⟩
      | error e => exact ⟨.unlockUnconnected, fun _ _ ↦ herror e⟩
    · exact ⟨.unlockFull, fun _ _ ↦ ⟨.get, fun c _ ↦ hok c⟩⟩

private theorem obeys_runBody {accepts : PgPhase → Except PyError (Except PyError α) → Prop}
    (body : Body Stmt Rows α) (hok : ∀ a, accepts (.holding c) (.ok (.ok a)))
    (hraised : ∀ e, accepts (.holding c) (.ok (.error e)))
    (hfailed : ∀ e, accepts (.failed c) (.ok (.error e))) :
    (judging size accepts).Obeys (.holding c) (runBody c body) := by
  induction body with
  | ret a => exact hok a
  | raise e => exact hraised e
  | call statement k ih =>
    rw [runBody]
    refine ⟨.execute c statement, fun r _ ↦ ?_⟩
    cases r with
    | ok rows => exact ih rows
    | error e => exact hfailed e

private theorem obeys_transaction
    {accepts : PgPhase → Except PyError (Bool × Except PyError α) → Prop}
    (body : Body Stmt Rows α) (hok : ∀ b a, accepts (.committed c) (.ok (b, .ok a)))
    (hraised : ∀ b e, accepts (.holding c) (.ok (b, .error e)))
    (hfailed : ∀ b e, accepts (.failed c) (.ok (b, .error e))) :
    (judging size accepts).Obeys (.holding c) (transaction c body) := by
  refine ⟨.cursor c, fun r _ ↦ ?_⟩
  cases r with
  | error e => exact hfailed false e
  | ok _ =>
    refine Monitor.obeys_bind _ (obeys_runBody body ?_ ?_ ?_)
    · intro a
      refine ⟨fun outcome ho ↦ ?_, fun e he ↦ by cases he⟩
      cases ho
      refine ⟨.commit c, fun r _ ↦ ?_⟩
      cases r with
      | ok _ => exact hok true a
      | error e => exact hfailed true e
    · intro e
      refine ⟨fun outcome ho ↦ ?_, fun e he ↦ by cases he⟩
      cases ho
      exact hraised true e
    · intro e
      refine ⟨fun outcome ho ↦ ?_, fun e he ↦ by cases he⟩
      cases ho
      exact hfailed true e

private theorem obeys_settle_error {phase : PgPhase} (hallows : @Allows Stmt phase (.close c))
    (hclosed : ∀ r, nextPhase size phase (⟨.close c, r⟩ : Event (PgOp Stmt) (PgOp.Res Rows)) =
      .closed) (opened : Bool) (e : PyError) :
    (@pgMonitor Stmt Rows α size).Obeys phase (settle c (opened, .error e)) := by
  cases opened with
  | false =>
    refine Monitor.obeys_bind _ (obeys_discard hallows hclosed ⟨fun _ _ ↦ ?_, fun e he ↦ ?_⟩)
    · exact (rfl : PgPhase.done = .done)
    · cases he
  | true =>
    refine Monitor.obeys_bind _ (obeys_discard hallows hclosed ⟨fun _ _ ↦ ?_, fun e he ↦ ?_⟩)
    · exact ⟨.closeCursorDone c, fun _ _ ↦ rfl⟩
    · cases he

/-- Every operation takes only the steps of its phase, whatever the driver does. -/
theorem obeys_withCursor (size : Nat) (body : Body Stmt Rows α) :
    (@pgMonitor Stmt Rows α size).Obeys .start (withCursor size body) := by
  refine Monitor.obeys_bind _ (obeys_acquire (fun c ↦ ⟨fun c' hc ↦ ?_, fun e he ↦ ?_⟩)
    fun e ↦ ⟨fun c hc ↦ ?_, fun e he ↦ rfl⟩)
  · cases hc
    refine Monitor.obeys_bind _ (obeys_transaction body ?_ ?_ ?_)
    · intro opened a
      refine ⟨fun outcome ho ↦ ?_, fun e he ↦ by cases he⟩
      cases ho
      rw [settle]
      refine ⟨.closeCursor c, fun r _ ↦ ?_⟩
      change (pgMonitor size).Obeys (.committed c) (release c >>= fun _ ↦ Prog.ret a)
      refine Monitor.obeys_bind _ (obeys_release ⟨fun _ _ ↦ ?_, fun e he ↦ ?_⟩)
      · exact (rfl : PgPhase.done = .done)
      · cases he
    · intro opened e
      refine ⟨fun outcome ho ↦ ?_, fun e he ↦ by cases he⟩
      cases ho
      exact obeys_settle_error (.closeHolding c) (fun _ ↦ rfl) opened e
    · intro opened e
      refine ⟨fun outcome ho ↦ ?_, fun e he ↦ by cases he⟩
      cases ho
      exact obeys_settle_error (.closeFailed c) (fun _ ↦ rfl) opened e
  · cases he
  · cases hc

end Obeys

/-! ### Moves -/

/-- A step that lost a reserved place: `connect` raised. -/
def connectFailed : Event (PgOp Stmt) (PgOp.Res Rows) → Bool
  | ⟨.connect, .error _⟩ => true
  | _ => false

/-- What a step of thread `i` does to the pool and to its phase, with whether a `connect`
failed. -/
inductive Move (size i : Nat) : PgShared → PgPhase → PgShared → PgPhase → Bool → Prop
  | take {s : PgShared} {c : Connection} {rest : List Connection} (h : s.idle = c :: rest) :
      Move size i s .start { s with idle := rest } (.holding c) false
  | miss {s : PgShared} (h : s.idle = []) : Move size i s .start s .empty false
  | lock {s : PgShared} (h : s.holder = none) :
      Move size i s .empty { s with holder := some i } .locked false
  | below {s : PgShared} (h : s.created < size) : Move size i s .locked s .checked false
  | atSize {s : PgShared} (h : ¬ s.created < size) : Move size i s .locked s .full false
  | read {s : PgShared} : Move size i s .checked s (.incrementing s.created) false
  | increment {s : PgShared} (value : Int) :
      Move size i s (.incrementing value) { s with created := value + 1 } .reserved false
  | connect {s : PgShared} :
      Move size i s .reserved { s with made := s.made + 1 } (.connected s.made) false
  | connectFailed {s : PgShared} : Move size i s .reserved s .unconnected true
  | unlockConnected {s : PgShared} (c : Connection) :
      Move size i s (.connected c) { s with holder := none } (.holding c) false
  | unlockUnconnected {s : PgShared} :
      Move size i s .unconnected { s with holder := none } .done false
  | unlockFull {s : PgShared} : Move size i s .full { s with holder := none } .waiting false
  | get {s : PgShared} {c : Connection} {rest : List Connection} (h : s.idle = c :: rest) :
      Move size i s .waiting { s with idle := rest } (.holding c) false
  | work {s : PgShared} (c : Connection) : Move size i s (.holding c) s (.holding c) false
  | fail {s : PgShared} (c : Connection) : Move size i s (.holding c) s (.failed c) false
  | commit {s : PgShared} (c : Connection) : Move size i s (.holding c) s (.committed c) false
  | closeHolding {s : PgShared} (c : Connection) : Move size i s (.holding c) s .closed false
  | closeFailed {s : PgShared} (c : Connection) : Move size i s (.failed c) s .closed false
  | closeOverflow {s : PgShared} (c : Connection) : Move size i s (.overflow c) s .closed false
  | closeCursor {s : PgShared} (c : Connection) :
      Move size i s (.committed c) s (.committed c) false
  | put {s : PgShared} (c : Connection) (h : s.idle.length < size) :
      Move size i s (.committed c) { s with idle := s.idle ++ [c] } .done false
  | putFull {s : PgShared} (c : Connection) (h : ¬ s.idle.length < size) :
      Move size i s (.committed c) s (.overflow c) false
  | lockClosed {s : PgShared} (h : s.holder = none) :
      Move size i s .closed { s with holder := some i } .closedLocked false
  | readClosed {s : PgShared} : Move size i s .closedLocked s (.decrementing s.created) false
  | decrement {s : PgShared} (value : Int) :
      Move size i s (.decrementing value) { s with created := value - 1 } .decremented false
  | unlockDecremented {s : PgShared} :
      Move size i s .decremented { s with holder := none } .done false
  | closeCursorDone {s : PgShared} : Move size i s .done s .done false

/-- Every step that a phase allows is a move. -/
theorem move_of_serve {size i : Nat} {s s' : PgShared} {driver : Except PyError Rows}
    {phase : PgPhase} {o : PgOp Stmt} {r : o.Res Rows} (ha : Allows phase o)
    (h : serve size s i driver o = some (r, s')) :
    Move size i s phase s' (nextPhase size phase ⟨o, r⟩)
      (connectFailed (⟨o, r⟩ : Event (PgOp Stmt) (PgOp.Res Rows))) := by
  cases ha with
  | getNowait =>
    rw [serve] at h
    split at h
    · next hidle =>
      cases h
      exact .miss hidle
    · next c rest hidle =>
      cases h
      exact .take hidle
  | lockEmpty =>
    rw [serve] at h
    split at h
    · cases h
    · next hfree =>
      cases h
      exact .lock (Option.not_isSome_iff_eq_none.mp hfree)
  | readLocked =>
    cases h
    change Move size i s .locked s (if s.created < size then .checked else .full) false
    split
    · next hlt => exact .below hlt
    · next hlt => exact .atSize hlt
  | readChecked => cases h; exact .read
  | increment value => cases h; exact .increment value
  | connect =>
    cases driver with
    | error e => cases h; exact .connectFailed
    | ok rows => cases h; exact .connect
  | unlockConnected c => cases h; exact .unlockConnected c
  | unlockUnconnected => cases h; exact .unlockUnconnected
  | unlockFull => cases h; exact .unlockFull
  | get =>
    rw [serve] at h
    split at h
    · cases h
    · next c rest hidle =>
      cases h
      exact .get hidle
  | cursor c =>
    cases driver with
    | error e => cases h; exact .fail c
    | ok rows => cases h; exact .work c
  | execute c statement =>
    cases driver with
    | error e => cases h; exact .fail c
    | ok rows => cases h; exact .work c
  | commit c =>
    cases driver with
    | error e => cases h; exact .fail c
    | ok rows => cases h; exact .commit c
  | closeHolding c => cases h; exact .closeHolding c
  | closeFailed c => cases h; exact .closeFailed c
  | closeOverflow c => cases h; exact .closeOverflow c
  | closeCursor c => cases h; exact .closeCursor c
  | putNowait c =>
    rw [serve] at h
    split at h
    · next hroom =>
      cases h
      exact .put c hroom
    · next hfull =>
      cases h
      exact .putFull c hfull
  | lockClosed =>
    rw [serve] at h
    split at h
    · cases h
    · next hfree =>
      cases h
      exact .lockClosed (Option.not_isSome_iff_eq_none.mp hfree)
  | readClosed => cases h; exact .readClosed
  | decrement value => cases h; exact .decrement value
  | unlockDecremented => cases h; exact .unlockDecremented
  | closeCursorDone c => cases h; exact .closeCursorDone

end Monitor

end C3RSpec.Access.Pooling
