import C3RSpec.Base.Prog
import C3RSpec.Telemetry.Admissible
import C3RSpec.Telemetry.RetentionInvariant

/-!
# Concurrent appends to one governed store

`c3r/telemetry/governed_store.py:152–156, 218–264`. Threads share an open store. A call reads the
clock before it takes the lock, and the transaction under the lock compares the reading with the
last one committed. Readings of the shared clock never decrease, but between its reading and its
transaction a call can be overtaken by one that read the clock later.
-/

namespace C3RSpec.Telemetry

open Base

/-- The arguments of one call of `append`. -/
structure AppendCall where
  trace : DecisionTrace
  sourceId : Text
  taskId : Text

/-- The steps of `append` that other threads can see or delay. -/
inductive AppendOp where
  | clock
  | acquire
  | transact (p : Prepared)
  | release

/-- What each step returns. -/
abbrev AppendOp.Res : AppendOp → Type
  | .clock => DateTime
  | .acquire => Unit
  | .transact _ => Except PyError LedgerRecord
  | .release => Unit

/-- What the threads share: the database, who holds the lock and the last clock reading. -/
structure SharedStore where
  db : Db
  holder : Option Nat
  lastReading : Option DateTime

/-- The transaction of a call: committed, or rolled back with its error. -/
def commit [Digest] (db : Db) (p : Prepared) : Except PyError LedgerRecord × Db :=
  match appendTransaction db p with
  | .error e => (.error e, db)
  | .ok (record, db') => (.ok record, db')

/-- `append` with its steps visible. -/
def appendCall [FloatText] (grants : Grants) (call : AppendCall) :
    Prog AppendOp AppendOp.Res LedgerRecord := do
  Prog.ofExcept (admitTrace grants call.trace call.sourceId call.taskId)
  let now ← Prog.perform AppendOp.clock
  let p ← Prog.ofExcept (serialize call.trace call.sourceId call.taskId now)
  Prog.perform AppendOp.acquire
  let outcome ← Prog.perform (AppendOp.transact p)
  -- the lock is released on both ways out of the `with` block
  Prog.perform AppendOp.release
  Prog.ofExcept outcome

/-- The host: a clock that does not go backwards, and a lock that blocks while it is held. -/
def serve [Digest] (s : SharedStore) (i : Nat) (now : DateTime) :
    (o : AppendOp) → Option (o.Res × SharedStore)
  | .clock =>
    if s.lastReading.any fun last ↦ decide (now.micros < last.micros) then none
    else some (now, { s with lastReading := some now })
  | .acquire => if s.holder.isSome then none else some ((), { s with holder := some i })
  | .transact p => some ((commit s.db p).1, { s with db := (commit s.db p).2 })
  | .release => some ((), { s with holder := none })

/-- Threads that append to one store. -/
abbrev AppendPool := Pool AppendOp AppendOp.Res AppendCall LedgerRecord SharedStore

/-- A thread that appends. -/
abbrev AppendThread := Thread AppendOp AppendOp.Res AppendCall LedgerRecord

/-- One scheduling step; a clock reading is the input of the step. -/
def appendStep [Digest] [FloatText] (grants : Grants) :
    AppendPool → PoolAction AppendCall DateTime → Option AppendPool :=
  Pool.step (appendCall grants) serve

/-- What a transaction step ran on. -/
def AppendOp.prepared? : AppendOp → Option Prepared
  | .transact p => some p
  | _ => none

/-- The transactions of a history, in the order in which they ran. -/
def transactions (history : List (Nat × Event AppendOp AppendOp.Res)) : List Prepared :=
  history.filterMap fun e ↦ e.2.op.prepared?

/-- What a transaction step answered. -/
def outcome? : Event AppendOp AppendOp.Res → Option (Except PyError LedgerRecord)
  | ⟨.transact _, r⟩ => some r
  | _ => none

/-- What a clock step answered. -/
def reading? : Event AppendOp AppendOp.Res → Option DateTime
  | ⟨.clock, now⟩ => some now
  | _ => none

/-- The clock reading of one call. -/
def readingOf (history : List (Nat × Event AppendOp AppendOp.Res)) (i : Nat) : Option DateTime :=
  (Pool.project i history).findSome? reading?

/-- The clock readings of the calls that have run their transaction, in the order of the
transactions. -/
def transactionReadings (history : List (Nat × Event AppendOp AppendOp.Res)) : List DateTime :=
  history.filterMap fun e ↦ if e.2.op.prepared?.isSome then readingOf history e.1 else none

/-- Transactions one after another. -/
def replay [Digest] : Db → List Prepared → List (Except PyError LedgerRecord) × Db
  | db, [] => ([], db)
  | db, p :: ps =>
    ((commit db p).1 :: (replay (commit db p).2 ps).1, (replay (commit db p).2 ps).2)

/-- Every one of these transactions finds no overdue row. -/
def Timely [Digest] : Db → List Prepared → Prop
  | _, [] => True
  | db, p :: ps =>
    (∀ row ∈ db.rows, ¬ row.collectedAt ≤ p.retentionCutoff) ∧ Timely (commit db p).2 ps

instance decidableTimely [Digest] : (db : Db) → (ps : List Prepared) → Decidable (Timely db ps)
  | _, [] => isTrue trivial
  | db, p :: ps => @instDecidableAnd _ _ _ (decidableTimely (commit db p).2 ps)

/-- The threads append valid traces for approved tasks under distinct run ids, and none of their
transactions meets an overdue row. -/
structure Collecting [Digest] [FloatText] (grants : Grants) (db : Db) (s : AppendPool) :
    Prop where
  valid : ∀ t ∈ s.threads, admitTrace grants t.label.trace t.label.sourceId t.label.taskId = .ok ()
  distinct : (s.threads.map fun t ↦ t.label.trace.runId).Nodup
  timely : Timely db (transactions s.history)

instance decidableCollecting [Digest] [FloatText] (grants : Grants) (db : Db) (s : AppendPool) :
    Decidable (Collecting grants db s) :=
  decidable_of_iff
    ((∀ t ∈ s.threads, admitTrace grants t.label.trace t.label.sourceId t.label.taskId = .ok ()) ∧
      (s.threads.map fun t ↦ t.label.trace.runId).Nodup ∧ Timely db (transactions s.history))
    ⟨fun h ↦ ⟨h.1, h.2.1, h.2.2⟩, fun h ↦ ⟨h.valid, h.distinct, h.timely⟩⟩

namespace AppendThread

/-- The call has run its transaction. -/
def Transacted (t : AppendThread) : Prop := ∃ e ∈ t.log, e.op.prepared?.isSome

/-- The call has raised, or its transaction was rolled back and it is about to. -/
def Refused (t : AppendThread) : Prop :=
  (∃ e, t.rest = .raise e) ∨ ∃ e ∈ t.log, ∃ error, outcome? e = some (.error error)

/-- A call that has returned has its record in the database. -/
def Stored (t : AppendThread) (db : Db) : Prop :=
  ∀ record, t.rest = .ret record → ∃ row ∈ db.rows, row.runId = t.label.trace.runId ∧
    record = ⟨row.previousHash, row.recordHash, row.canonicalJson⟩

end AppendThread

/-- The calls run their transactions in the order in which they read the clock, none reads it
before what the store has recorded, no run id is stored already, and thirty days before every
reading there is a date. -/
structure InOrder (db : Db) (s : AppendPool) : Prop where
  ordered : (transactionReadings s.history).Pairwise fun a b ↦ a.micros ≤ b.micros
  current : ∀ now ∈ transactionReadings s.history, ∀ md, db.metadata = some md →
    md.lastCollectedAt ≤ now.isoformat
  fresh : ∀ t ∈ s.threads, AppendThread.Transacted t →
    ∀ row ∈ db.rows, row.runId ≠ t.label.trace.runId
  dated : ∀ e ∈ s.history, ∀ now, reading? e.2 = some now → retentionDays < now.toOrdinal

/-! ### One call -/

/-- Where a call can be: the steps it has taken and what is left of it. -/
inductive CallPhase [FloatText] (grants : Grants) (call : AppendCall) :
    List (Event AppendOp AppendOp.Res) → Prog AppendOp AppendOp.Res LedgerRecord → Prop
  | unapproved {e : PyError} (h : admitTrace grants call.trace call.sourceId call.taskId = .error e) :
      CallPhase grants call [] (.raise e)
  | start (k : DateTime → Prog AppendOp AppendOp.Res LedgerRecord) :
      CallPhase grants call [] (.call .clock k)
  | undated {now : DateTime} {e : PyError}
      (h : serialize call.trace call.sourceId call.taskId now = .error e) :
      CallPhase grants call [⟨.clock, now⟩] (.raise e)
  | waiting {now : DateTime} {p : Prepared}
      (h : serialize call.trace call.sourceId call.taskId now = .ok p)
      (k : Unit → Prog AppendOp AppendOp.Res LedgerRecord) :
      CallPhase grants call [⟨.clock, now⟩] (.call .acquire k)
  | locked {now : DateTime} {p : Prepared}
      (h : serialize call.trace call.sourceId call.taskId now = .ok p)
      (k : Except PyError LedgerRecord → Prog AppendOp AppendOp.Res LedgerRecord) :
      CallPhase grants call [⟨.clock, now⟩, ⟨.acquire, ()⟩] (.call (.transact p) k)
  | closing {now : DateTime} {p : Prepared}
      (h : serialize call.trace call.sourceId call.taskId now = .ok p)
      (outcome : Except PyError LedgerRecord)
      (k : Unit → Prog AppendOp AppendOp.Res LedgerRecord) :
      CallPhase grants call [⟨.clock, now⟩, ⟨.acquire, ()⟩, ⟨.transact p, outcome⟩]
        (.call .release k)
  | done {now : DateTime} {p : Prepared}
      (h : serialize call.trace call.sourceId call.taskId now = .ok p)
      (outcome : Except PyError LedgerRecord) :
      CallPhase grants call
        [⟨.clock, now⟩, ⟨.acquire, ()⟩, ⟨.transact p, outcome⟩, ⟨.release, ()⟩]
        (Prog.ofExcept outcome)

/-- What is left of a call after some of its steps. -/
theorem callPhase_of_runs [FloatText] {grants : Grants} {call : AppendCall}
    {log : List (Event AppendOp AppendOp.Res)} {rest : Prog AppendOp AppendOp.Res LedgerRecord}
    (h : Prog.Runs (appendCall grants call) log rest) : CallPhase grants call log rest := by
  unfold appendCall at h
  cases ha : admitTrace grants call.trace call.sourceId call.taskId with
  | error e =>
    rw [ha, Prog.bind_ofExcept_error, Prog.runs_raise] at h
    obtain ⟨rfl, rfl⟩ := h
    exact .unapproved ha
  | ok _ =>
    rw [ha, Prog.bind_ofExcept_ok, Prog.bind_perform, Prog.runs_call] at h
    obtain ⟨rfl, rfl⟩ | ⟨now, log, rfl, h⟩ := h
    · exact .start _
    · cases hp : serialize call.trace call.sourceId call.taskId now with
      | error e =>
        rw [hp, Prog.bind_ofExcept_error, Prog.runs_raise] at h
        obtain ⟨rfl, rfl⟩ := h
        exact .undated hp
      | ok p =>
        rw [hp, Prog.bind_ofExcept_ok, Prog.bind_perform, Prog.runs_call] at h
        obtain ⟨rfl, rfl⟩ | ⟨_, log, rfl, h⟩ := h
        · exact .waiting hp _
        · rw [Prog.bind_perform, Prog.runs_call] at h
          obtain ⟨rfl, rfl⟩ | ⟨outcome, log, rfl, h⟩ := h
          · exact .locked hp _
          · rw [Prog.bind_perform, Prog.runs_call] at h
            obtain ⟨rfl, rfl⟩ | ⟨_, log, rfl, h⟩ := h
            · exact .closing hp outcome _
            · cases outcome with
              | ok record =>
                obtain ⟨rfl, rfl⟩ := Prog.runs_ret.mp h
                exact .done hp (.ok record)
              | error e =>
                obtain ⟨rfl, rfl⟩ := Prog.runs_raise.mp h
                exact .done hp (.error e)

namespace CallPhase

variable [FloatText] {grants : Grants} {call : AppendCall}
  {log : List (Event AppendOp AppendOp.Res)} {rest : Prog AppendOp AppendOp.Res LedgerRecord}
  (h : CallPhase grants call log rest)

include h

/-- A transaction runs on the serialized trace of the call's one clock reading. -/
theorem transacted {e : Event AppendOp AppendOp.Res} (he : e ∈ log) {p : Prepared}
    (hp : e.op.prepared? = some p) : ∃ now, log.findSome? reading? = some now ∧
      serialize call.trace call.sourceId call.taskId now = .ok p := by
  cases h with
  | unapproved | start => cases he
  | undated | waiting =>
    cases List.mem_singleton.mp he
    cases hp
  | locked hs =>
    rcases List.mem_pair.mp he with rfl | rfl <;> cases hp
  | closing hs outcome =>
    simp only [List.mem_cons, List.not_mem_nil, or_false] at he
    rcases he with rfl | rfl | rfl <;> cases hp
    exact ⟨_, rfl, hs⟩
  | done hs outcome =>
    simp only [List.mem_cons, List.not_mem_nil, or_false] at he
    rcases he with rfl | rfl | rfl | rfl <;> cases hp
    exact ⟨_, rfl, hs⟩

/-- A call runs at most one transaction. -/
theorem transactions_le : (log.filter fun e ↦ e.op.prepared?.isSome).length ≤ 1 := by
  cases h <;> simp [AppendOp.prepared?]

/-- After its clock reading a call has a serialized trace or has raised. -/
theorem serialized {e : Event AppendOp AppendOp.Res} (he : e ∈ log) {now : DateTime}
    (hn : reading? e = some now) :
    (∃ p, serialize call.trace call.sourceId call.taskId now = .ok p) ∨
      ∃ error, rest = .raise error := by
  cases h with
  | unapproved | start => cases he
  | undated => exact .inr ⟨_, rfl⟩
  | waiting hs =>
    cases List.mem_singleton.mp he
    cases hn
    exact .inl ⟨_, hs⟩
  | locked hs =>
    rcases List.mem_pair.mp he with rfl | rfl <;> cases hn
    exact .inl ⟨_, hs⟩
  | closing hs outcome =>
    simp only [List.mem_cons, List.not_mem_nil, or_false] at he
    rcases he with rfl | rfl | rfl <;> cases hn
    exact .inl ⟨_, hs⟩
  | done hs outcome =>
    simp only [List.mem_cons, List.not_mem_nil, or_false] at he
    rcases he with rfl | rfl | rfl | rfl <;> cases hn
    exact .inl ⟨_, hs⟩

/-- An admitted call is refused exactly when its reading has no cutoff or its transaction was
rolled back. -/
theorem refused_iff (ha : admitTrace grants call.trace call.sourceId call.taskId = .ok ()) :
    AppendThread.Refused ⟨call, log, rest⟩ ↔
      (∃ e ∈ log, ∃ now, reading? e = some now ∧ ¬ retentionDays < now.toOrdinal) ∨
      ∃ e ∈ log, ∃ error, outcome? e = some (.error error) := by
  obtain ⟨-, -, -, hadm⟩ := admitTrace_eq_ok.mp ha
  have dated : ∀ now, (∃ p, serialize call.trace call.sourceId call.taskId now = .ok p) ↔
      retentionDays < now.toOrdinal := fun now ↦ exists_serialize_iff hadm _ _
  constructor
  · rintro (⟨error, hraise⟩ | hout)
    · dsimp only at hraise
      cases h with
      | unapproved hn => rw [ha] at hn; cases hn
      | start | waiting | locked | closing => cases hraise
      | undated hs =>
        refine .inl ⟨_, List.mem_singleton_self _, _, rfl, fun hd ↦ ?_⟩
        obtain ⟨p, hp⟩ := (dated _).mpr hd
        rw [hs] at hp
        cases hp
      | @done _ p _ outcome =>
        cases outcome with
        | ok record => cases hraise
        | error e => exact .inr ⟨⟨.transact p, .error e⟩, by simp, e, rfl⟩
    · exact .inr hout
  · rintro (⟨e, he, now, hn, hd⟩ | hout)
    · obtain hp | hraise := h.serialized he hn
      · exact (hd ((dated now).mp hp)).elim
      · exact .inl hraise
    · exact .inr hout

end CallPhase

/-! ### Transactions one after another -/

section Replay

variable [Digest]

/-- A committed transaction keeps the rows and stores its record. -/
theorem commit_eq_ok {db : Db} {p : Prepared} {record : LedgerRecord}
    (h : (commit db p).1 = .ok record) :
    ∃ row, (commit db p).2.rows = db.rows ++ [row] ∧ row.runId = p.runId ∧
      record = ⟨row.previousHash, row.recordHash, row.canonicalJson⟩ := by
  unfold commit at h ⊢
  split at h
  · cases h
  · next record' db' ha =>
    cases h
    obtain ⟨md, digest, -, -, -, -, -, rfl, rfl⟩ := appendTransaction_eq_ok ha
    exact ⟨_, rfl, rfl, rfl⟩

/-- No transaction removes a row. -/
theorem mem_rows_commit {db : Db} (p : Prepared) {row : Row} (h : row ∈ db.rows) :
    row ∈ (commit db p).2.rows := by
  cases hc : (commit db p).1 with
  | ok record =>
    obtain ⟨new, hrows, -⟩ := commit_eq_ok hc
    rw [hrows]
    exact List.mem_append_left _ h
  | error e =>
    unfold commit at hc ⊢
    split at hc
    · exact h
    · cases hc

/-- One more transaction runs on what the earlier ones left. -/
theorem replay_snoc (db : Db) (ps : List Prepared) (p : Prepared) :
    replay db (ps ++ [p]) = ((replay db ps).1 ++ [(commit (replay db ps).2 p).1],
      (commit (replay db ps).2 p).2) := by
  induction ps generalizing db with
  | nil => rfl
  | cons q ps ih => simp only [List.cons_append, replay, ih]

variable [FloatText]

/-- The prepared append of some admitted call. -/
def Prepared.FromCall (p : Prepared) : Prop :=
  ∃ (grants : Grants) (call : AppendCall) (now : DateTime),
    admitTrace grants call.trace call.sourceId call.taskId = .ok () ∧
    serialize call.trace call.sourceId call.taskId now = .ok p

/-- Timely transactions with distinct run ids all commit exactly when their times do not decrease
and no run id is stored already. -/
theorem replay_ok_iff {db : Db} {l : Ledger} (hs : Shows db l) (hl : l.Sound)
    {ps : List Prepared} (hp : ∀ p ∈ ps, p.FromCall) (hd : (ps.map Prepared.runId).Nodup)
    (ht : Timely db ps) :
    (∀ outcome ∈ (replay db ps).1, ∃ record, outcome = .ok record) ↔
      List.IsChain (· ≤ ·) (l.lastCollectedAt :: ps.map Prepared.collectedAt) ∧
      ∀ p ∈ ps, ∀ row ∈ db.rows, row.runId ≠ p.runId := by
  induction ps generalizing db l with
  | nil => simp [replay]
  | cons p ps ih =>
    obtain ⟨grants, call, now, hadm, hser⟩ := hp p List.mem_cons_self
    have hiff := hs.appendTransaction_ok_iff hl (isScalar_payload hadm hser)
    obtain ⟨hnew, hdist⟩ := List.nodup_cons.mp hd
    rw [List.map_cons, List.isChain_cons_cons]
    cases ha : appendTransaction db p with
    | error e =>
      have hbad : (commit db p).1 = .error e := by rw [commit, ha]
      constructor
      · intro hall
        obtain ⟨record, hrec⟩ := hall _ List.mem_cons_self
        rw [hbad] at hrec
        cases hrec
      · rintro ⟨⟨hle, -⟩, hfresh⟩
        obtain ⟨r, hr⟩ := hiff.mpr ⟨hle, ht.1, hfresh p List.mem_cons_self⟩
        rw [ha] at hr
        cases hr
    | ok r =>
      obtain ⟨record, db'⟩ := r
      have hgood : commit db p = (.ok record, db') := by rw [commit, ha]
      obtain ⟨hle, -, hfresh⟩ := hiff.mp ⟨_, ha⟩
      obtain ⟨row, hshow, hsound, -, hrun, hat, -⟩ := hs.append hl hser ha
      obtain ⟨cutoff, payload, -, -, rfl⟩ := serialize_eq_ok hser
      have hrows : db'.rows = db.rows ++ [row] := by
        rw [hshow.rows, PrunedLog.retained_append, hs.rows]
      have hlast : Ledger.lastCollectedAt (PrunedLog.append l row) = now.isoformat := by
        rw [Ledger.lastCollectedAt, ← hat]
        simp [PrunedLog.append]
      have htail := ih hshow hsound (fun q hq ↦ hp q (List.mem_cons_of_mem _ hq)) hdist
        (by rw [← show (commit db _).2 = db' from congrArg Prod.snd hgood]; exact ht.2)
      rw [hlast, hrows] at htail
      simp only [replay, hgood, List.forall_mem_cons, htail]
      constructor
      · rintro ⟨-, hchain, hall⟩
        exact ⟨⟨hle, hchain⟩, hfresh, fun q hq r hr ↦ hall q hq r (List.mem_append_left _ hr)⟩
      · rintro ⟨⟨-, hchain⟩, -, hall⟩
        refine ⟨⟨record, rfl⟩, hchain, fun q hq r hr ↦ ?_⟩
        rcases List.mem_append.mp hr with hr | hr
        · exact hall q hq r hr
        · rw [List.mem_singleton.mp hr, hrun]
          exact fun he ↦ hnew (List.mem_map.mpr ⟨q, hq, he.symm⟩)

end Replay

/-! ### All threads -/

/-- The thread holds the lock. -/
def AppendThread.Holding (t : AppendThread) : Prop :=
  ∃ o k, t.rest = .call o k ∧ (o = .release ∨ ∃ p, o = .transact p)

private theorem holding_of_last [FloatText] {grants : Grants} {t : AppendThread}
    (h : CallPhase grants t.label t.log t.rest) {e : Event AppendOp AppendOp.Res}
    (hl : t.log.getLast? = some e) (he : e.op = .acquire ∨ ∃ p, e.op = .transact p) :
    AppendThread.Holding t := by
  obtain ⟨call, log, rest⟩ := t
  dsimp only at h hl
  cases h with
  | unapproved | start => cases hl
  | undated | waiting =>
    cases hl
    obtain he | ⟨p, he⟩ := he <;> cases he
  | locked hs k => exact ⟨_, k, rfl, .inr ⟨_, rfl⟩⟩
  | closing hs outcome k => exact ⟨_, k, rfl, .inl rfl⟩
  | done hs outcome =>
    cases hl
    obtain he | ⟨p, he⟩ := he <;> cases he

private theorem transactions_snoc (history : List (Nat × Event AppendOp AppendOp.Res)) (i : Nat)
    (e : Event AppendOp AppendOp.Res) :
    transactions (history ++ [(i, e)]) = transactions history ++ e.op.prepared?.toList := by
  cases h : e.op.prepared? <;> simp [transactions, h]

section Run

variable [Digest] [FloatText]

/-- Each thread runs its call, the transactions ran one after another on the store, committed
records are in it, and the holder of the lock is about to use it or give it back. -/
structure AppendInv (grants : Grants) (db : Db) (s : AppendPool) : Prop where
  coherent : Pool.Coherent (appendCall grants) s
  outcomes : s.history.filterMap (fun e ↦ outcome? e.2) = (replay db (transactions s.history)).1
  shared : s.shared.db = (replay db (transactions s.history)).2
  stored : ∀ e ∈ s.history, ∀ p record, e.2 = ⟨.transact p, .ok record⟩ →
    ∃ row ∈ s.shared.db.rows, row.runId = p.runId ∧
      record = ⟨row.previousHash, row.recordHash, row.canonicalJson⟩
  holder : ∀ i, s.shared.holder = some i →
    ∃ t, s.threads[i]? = some t ∧ AppendThread.Holding t

/-- No thread has started. -/
theorem appendInv_idle (grants : Grants) (db : Db) (clock : Option DateTime) :
    AppendInv grants db (Pool.idle ⟨db, none, clock⟩) where
  coherent := Pool.coherent_idle _ _
  outcomes := rfl
  shared := rfl
  stored := fun _ he ↦ (nomatch he)
  holder := fun _ hi ↦ (nomatch hi)

-- a step without a transaction leaves the database and what is known about it
private theorem appendInv_quiet {grants : Grants} {db : Db} {s : AppendPool}
    (hs : AppendInv grants db s) {threads : List AppendThread} {i : Nat}
    {e : Event AppendOp AppendOp.Res} {shared : SharedStore}
    (hco : Pool.Coherent (appendCall grants) ⟨shared, threads, s.history ++ [(i, e)]⟩)
    (he : e.op.prepared? = none) (hdb : shared.db = s.shared.db)
    (hholder : ∀ j, shared.holder = some j → ∃ t, threads[j]? = some t ∧ AppendThread.Holding t) :
    AppendInv grants db ⟨shared, threads, s.history ++ [(i, e)]⟩ := by
  have hout : outcome? e = none := by
    obtain ⟨o, r⟩ := e
    cases o with
    | transact p => cases he
    | clock | acquire | release => rfl
  have htx : transactions (s.history ++ [(i, e)]) = transactions s.history := by
    rw [transactions_snoc, he, Option.toList_none, List.append_nil]
  refine ⟨hco, ?_, ?_, ?_, hholder⟩
  · rw [htx, ← hs.outcomes]
    simp [hout]
  · rw [htx, hdb, hs.shared]
  · intro x hx p record hxe
    rcases List.mem_append.mp hx with hx | hx
    · rw [hdb]
      exact hs.stored x hx p record hxe
    · rw [List.mem_singleton.mp hx] at hxe
      dsimp only at hxe
      rw [hxe] at he
      cases he

/-- Every scheduling step keeps the invariant. -/
theorem appendInv_step {grants : Grants} {db : Db} {s s' : AppendPool}
    {a : PoolAction AppendCall DateTime} (hs : AppendInv grants db s)
    (h : appendStep grants s a = some s') : AppendInv grants db s' := by
  have hco := Pool.coherent_step _ _ s a s' hs.coherent h
  obtain ⟨label, -, rfl⟩ | ⟨i, input, t, o, k, r, shared, -, ht, hr, hserve, rfl⟩ :=
    Pool.step_cases _ _ h
  · refine ⟨hco, hs.outcomes, hs.shared, hs.stored, fun i hi ↦ ?_⟩
    obtain ⟨t, ht, hold⟩ := hs.holder i hi
    exact ⟨t, by rw [List.getElem?_append_left (List.getElem?_eq_some_iff.mp ht).1]; exact ht,
      hold⟩
  · have hi : i < s.threads.length := (List.getElem?_eq_some_iff.mp ht).1
    have hnew : (s.threads.set i ⟨t.label, t.log ++ [⟨o, r⟩], k r⟩)[i]? =
        some ⟨t.label, t.log ++ [⟨o, r⟩], k r⟩ := List.getElem?_set_self hi
    have hphase := callPhase_of_runs (hco.runs i _ hnew)
    -- the holder keeps its place unless it is the thread that moved
    have keep : ∀ j, j ≠ i → s.shared.holder = some j →
        ∃ u, (s.threads.set i ⟨t.label, t.log ++ [⟨o, r⟩], k r⟩)[j]? = some u ∧
          AppendThread.Holding u := by
      intro j hj hjh
      rw [List.getElem?_set_ne (Ne.symm hj)]
      exact hs.holder j hjh
    have moved : o = .acquire ∨ (∃ p, o = .transact p) →
        ∃ u, (s.threads.set i ⟨t.label, t.log ++ [⟨o, r⟩], k r⟩)[i]? = some u ∧
          AppendThread.Holding u := fun ho ↦
      ⟨_, hnew, holding_of_last hphase List.getLast?_concat ho⟩
    cases o with
    | clock =>
      rw [serve] at hserve
      split at hserve
      · cases hserve
      · cases hserve
        refine appendInv_quiet hs hco rfl rfl fun j hj ↦ keep j ?_ hj
        rintro rfl
        obtain ⟨u, hu, o, k', hrest, ho⟩ := hs.holder j hj
        rw [ht] at hu
        cases hu
        rw [hr] at hrest
        cases hrest
        obtain ho | ⟨p, ho⟩ := ho <;> cases ho
    | acquire =>
      rw [serve] at hserve
      split at hserve
      · cases hserve
      · cases hserve
        refine appendInv_quiet hs hco rfl rfl fun j hj ↦ ?_
        cases hj
        exact moved (.inl rfl)
    | release =>
      cases hserve
      exact appendInv_quiet hs hco rfl rfl fun j hj ↦ (nomatch hj)
    | transact p =>
      cases hserve
      have htx : transactions (s.history ++ [(i, ⟨.transact p, (commit s.shared.db p).1⟩)]) =
          transactions s.history ++ [p] := transactions_snoc _ _ _
      refine ⟨hco, ?_, ?_, ?_, fun j hj ↦ ?_⟩
      · rw [htx, replay_snoc, List.filterMap_append, hs.outcomes, hs.shared]
        rfl
      · rw [htx, replay_snoc, hs.shared]
      · intro x hx q record hxe
        rcases List.mem_append.mp hx with hx | hx
        · obtain ⟨row, hrow, hrun, hrec⟩ := hs.stored x hx q record hxe
          exact ⟨row, mem_rows_commit p hrow, hrun, hrec⟩
        · rw [List.mem_singleton.mp hx] at hxe
          obtain ⟨hop, hans⟩ := Event.mk.inj hxe
          cases hop
          obtain ⟨row, hrows, hrun, hrec⟩ := commit_eq_ok (eq_of_heq hans)
          exact ⟨row, by rw [hrows]; exact List.mem_append_right _ (List.mem_singleton_self row),
            hrun, hrec⟩
      · by_cases hji : j = i
        · subst hji
          exact moved (.inr ⟨p, rfl⟩)
        · exact keep j hji hj

/-- Every run keeps the invariant. -/
theorem appendInv_run {grants : Grants} {db : Db} {clock : Option DateTime}
    {as : List (PoolAction AppendCall DateTime)} {s : AppendPool}
    (h : runAll (appendStep grants) (Pool.idle ⟨db, none, clock⟩) as = some s) :
    AppendInv grants db s :=
  runAll_invariant (fun _ _ _ hs hstep ↦ appendInv_step hs hstep)
    (appendInv_idle grants db clock) h

end Run

end C3RSpec.Telemetry
