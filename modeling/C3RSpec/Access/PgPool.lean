import C3RSpec.Base.Monitor

/-!
# The connection pool of the Postgres store

`c3r/pg_access.py:96–140`. Every operation of the store runs its statements inside `_cursor`,
which checks a connection out of a bounded queue, opens a new one while the counter is below the
pool size, or waits for one. Queue operations are atomic; the counter is read and written
separately under the lock. Any call of the driver may raise.
-/

namespace C3RSpec.Access.Pooling

open Base

/-- A connection, numbered in the order of creation. -/
abbrev Connection := Nat

/-- The steps of an operation; statements are of any type. -/
inductive PgOp (Stmt : Type) where
  | getNowait
  | acquireLock
  | readCreated
  | writeCreated (value : Int)
  | connect
  | releaseLock
  | get
  | cursor (c : Connection)
  | execute (c : Connection) (statement : Stmt)
  | commit (c : Connection)
  | closeCursor (c : Connection)
  | close (c : Connection)
  | putNowait (c : Connection)

/-- What a step returns. `getNowait` is empty-handed where Python raises `queue.Empty`, and
`putNowait` false where it raises `queue.Full`. -/
@[reducible] def PgOp.Res {Stmt : Type} (Rows : Type) : PgOp Stmt → Type
  | .getNowait => Option Connection
  | .acquireLock => Unit
  | .readCreated => Int
  | .writeCreated _ => Unit
  | .connect => Except PyError Connection
  | .releaseLock => Unit
  | .get => Connection
  | .cursor _ => Except PyError Unit
  | .execute _ _ => Except PyError Rows
  | .commit _ => Except PyError Unit
  | .closeCursor _ => Except PyError Unit
  | .close _ => Except PyError Unit
  | .putNowait _ => Bool

section Programs

variable {Stmt Rows α : Type}

/-- Programs over the pool. -/
abbrev PgProg (Stmt Rows : Type) := Prog (PgOp Stmt) (PgOp.Res Rows)

/-- The body of a `with self._cursor()` block: statements, and a value or an exception. -/
abbrev Body (Stmt Rows : Type) := Prog Stmt (fun _ ↦ Rows)

/-- One step. -/
abbrev ask (o : PgOp Stmt) : PgProg Stmt Rows (o.Res Rows) := Prog.perform o

/-- `_acquire`, once the queue was empty. -/
def acquireNew (size : Nat) : PgProg Stmt Rows Connection := do
  ask PgOp.acquireLock
  let created ← ask PgOp.readCreated
  if created < size then
    let current ← ask PgOp.readCreated
    ask (PgOp.writeCreated (current + 1))
    let opened ← ask PgOp.connect
    -- the `with` block gives the lock back on both ways out
    ask PgOp.releaseLock
    Prog.ofExcept opened
  else
    ask PgOp.releaseLock
    ask PgOp.get

/-- `_acquire`. -/
def acquire (size : Nat) : PgProg Stmt Rows Connection :=
  .call .getNowait fun
    | some c => .ret c
    | none => acquireNew size

/-- `_discard`; an exception of `close` is suppressed. -/
def discard (c : Connection) : PgProg Stmt Rows Unit := do
  let _ ← ask (PgOp.close c)
  ask PgOp.acquireLock
  let current ← ask PgOp.readCreated
  ask (PgOp.writeCreated (current - 1))
  ask PgOp.releaseLock

/-- `_release`. -/
def release (c : Connection) : PgProg Stmt Rows Unit :=
  .call (.putNowait c) fun
    | true => .ret ()
    | false => discard c

/-- The statements of a body on one connection, with what they ended in. -/
def runBody (c : Connection) : Body Stmt Rows α → PgProg Stmt Rows (Except PyError α)
  | .ret a => .ret (.ok a)
  | .raise e => .ret (.error e)
  | .call statement k => .call (.execute c statement) fun
    | .ok rows => runBody c (k rows)
    | .error e => .ret (.error e)

/-- `connection.commit()` after a body that returned. -/
def commitAfter (c : Connection) : Except PyError α → PgProg Stmt Rows (Except PyError α)
  | .error e => .ret (.error e)
  | .ok a => .call (.commit c) fun
    | .error e => .ret (.error e)
    | .ok _ => .ret (.ok a)

/-- From `connection.cursor()` to `connection.commit()`, with whether a cursor was opened. -/
def transaction (c : Connection) (body : Body Stmt Rows α) :
    PgProg Stmt Rows (Bool × Except PyError α) :=
  .call (.cursor c) fun
    | .error e => .ret (false, .error e)
    | .ok _ => do
      let outcome ← runBody c body
      let outcome ← commitAfter c outcome
      return (true, outcome)

/-- The rest of `_cursor`: discard the connection when the transaction failed, then close the
cursor, then release the connection when it did not. -/
def settle (c : Connection) : Bool × Except PyError α → PgProg Stmt Rows α
  | (false, .error e) => do
    discard c
    throw e
  | (true, .error e) => do
    discard c
    let _ ← ask (PgOp.closeCursor c)
    throw e
  | (_, .ok a) => do
    let _ ← ask (PgOp.closeCursor c)
    release c
    return a

/-- `_cursor` around a body. -/
def withCursor (size : Nat) (body : Body Stmt Rows α) : PgProg Stmt Rows α := do
  let c ← acquire size
  let outcome ← transaction c body
  settle c outcome

end Programs

/-! ### The shared pool -/

/-- The queue, the counter, the holder of the lock and the number of connections made. -/
structure PgShared where
  idle : List Connection
  created : Int
  holder : Option Nat
  made : Nat

/-- A store that has made no connection. -/
def PgShared.empty : PgShared := ⟨[], 0, none, 0⟩

section Host

variable {Stmt Rows : Type}

/-- The host answers a step of thread `i`, or makes it wait for the lock or for a connection. The
input says whether the driver raises. -/
def serve (size : Nat) (s : PgShared) (i : Nat) (driver : Except PyError Rows) :
    (o : PgOp Stmt) → Option (o.Res Rows × PgShared)
  | .getNowait =>
    match s.idle with
    | [] => some (none, s)
    | c :: rest => some (some c, { s with idle := rest })
  | .acquireLock => if s.holder.isSome then none else some ((), { s with holder := some i })
  | .readCreated => some (s.created, s)
  | .writeCreated value => some ((), { s with created := value })
  | .connect =>
    match driver with
    | .error e => some (.error e, s)
    | .ok _ => some (.ok s.made, { s with made := s.made + 1 })
  | .releaseLock => some ((), { s with holder := none })
  | .get =>
    match s.idle with
    | [] => none
    | c :: rest => some (c, { s with idle := rest })
  | .cursor _ => some (driver.map fun _ ↦ (), s)
  | .execute _ _ => some (driver, s)
  | .commit _ => some (driver.map fun _ ↦ (), s)
  | .closeCursor _ => some (driver.map fun _ ↦ (), s)
  | .close _ => some (driver.map fun _ ↦ (), s)
  | .putNowait c =>
    if s.idle.length < size then some (true, { s with idle := s.idle ++ [c] })
    else some (false, s)

/-- Operations over one store; each thread runs one body. -/
abbrev PgPool (Stmt Rows α : Type) :=
  Pool (PgOp Stmt) (PgOp.Res Rows) (Body Stmt Rows α) α PgShared

/-- One step of one of the operations. -/
def pgStep {α : Type} (size : Nat) : PgPool Stmt Rows α →
    PoolAction (Body Stmt Rows α) (Except PyError Rows) → Option (PgPool Stmt Rows α) :=
  Pool.step (withCursor size) (serve size)

end Host

end C3RSpec.Access.Pooling
