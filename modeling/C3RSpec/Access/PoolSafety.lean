import C3RSpec.Access.PoolAccounting

/-!
# The connection pool over whole runs

Any number of threads run operations over one store and any call of the driver may raise. The
counter is exact in quiet states until a `connect` raises, after which it stays too high. A thread
that waits for a connection is stranded when the last connection is lost behind its back.
-/

namespace C3RSpec.Access.Pooling

open Base

section Runs

variable {Stmt Rows α : Type} {size : Nat}

/-- Where each operation is. -/
def phasesOf (size : Nat) (s : PgPool Stmt Rows α) : List PgPhase :=
  (pgMonitor size).phases (fun _ ↦ .start) s

/-- How many `connect` calls have raised. -/
def failedConnects (s : PgPool Stmt Rows α) : Nat :=
  s.history.countP fun e ↦ connectFailed e.2

/-- No thread is inside `_acquire`, `_discard` or `_release`. -/
def Quiet (size : Nat) (s : PgPool Stmt Rows α) : Prop :=
  ∀ p ∈ phasesOf size s, p.inside = false

/-- Idle and checked-out connections. -/
def live (size : Nat) (s : PgPool Stmt Rows α) : Nat :=
  s.shared.idle.length + (phasesOf size s).countP fun p ↦ p.connection?.isSome

/-- The counter is exact in quiet states and always within bounds, no connection is checked out
twice or while it is idle, and one that was offered to the queue had committed. -/
structure Accounted (size : Nat) (s : PgPool Stmt Rows α) : Prop where
  exact : Quiet size s → s.shared.created = live size s
  bounds : 0 ≤ s.shared.created ∧ s.shared.created ≤ size
  alone : ∀ (i j : Nat) (p q : PgPhase) (c : Connection), (phasesOf size s)[i]? = some p →
    (phasesOf size s)[j]? = some q → p.connection? = some c → q.connection? = some c → i = j
  apart : ∀ p ∈ phasesOf size s, ∀ c, p.connection? = some c → c ∉ s.shared.idle
  idle : s.shared.idle.Nodup
  returned : ∀ t ∈ s.threads, ∀ e ∈ t.log, ∀ c, offered? e = some c → CommittedIn c t.log

/-- What holds in every state of a run. -/
structure PgInv (size : Nat) (s : PgPool Stmt Rows α) : Prop where
  coherent : Pool.Coherent (withCursor size) s
  counted : Counted size s.shared (phasesOf size s) (failedConnects s)
  exclusive : Exclusive s.shared (phasesOf size s)

/-- An idle pool. -/
theorem pgInv_idle (size : Nat) : PgInv size (Pool.idle .empty : PgPool Stmt Rows α) where
  coherent := Pool.coherent_idle _ _
  counted := ⟨rfl, Int.natCast_nonneg size, fun _ _ h ↦ (by cases h), fun _ h ↦ (by cases h),
    fun _ _ h ↦ (by cases h)⟩
  exclusive := ⟨List.nodup_nil, fun _ h ↦ (by cases h), fun _ _ _ h ↦ (by cases h),
    fun _ _ _ _ _ h ↦ (by cases h)⟩

-- a `connect` fails where an operation has reserved a place and the driver raises
private theorem connectFailed_iff {s s' : PgShared} {i : Nat} {driver : Except PyError Rows}
    {p : PgPhase} {o : PgOp Stmt} {r : o.Res Rows} (ha : Allows p o)
    (h : serve size s i driver o = some (r, s')) :
    connectFailed (⟨o, r⟩ : Event (PgOp Stmt) (PgOp.Res Rows)) = true ↔
      p = .reserved ∧ ∃ e, driver = .error e := by
  cases ha with
  | connect =>
    cases driver with
    | error e =>
      cases h
      exact iff_of_true rfl ⟨rfl, e, rfl⟩
    | ok rows =>
      cases h
      exact iff_of_false (fun hf ↦ by cases hf) fun hr ↦ by cases hr.2.choose_spec
  | _ => exact iff_of_false (fun hf ↦ by cases hf) fun hr ↦ by cases hr.1

/-- A step of a run, seen as a new operation or as a move of one. -/
theorem PgInv.step_cases {s s' : PgPool Stmt Rows α}
    {a : PoolAction (Body Stmt Rows α) (Except PyError Rows)} (hs : PgInv size s)
    (h : pgStep size s a = some s') :
    (∃ body, a = .spawn body ∧ s'.shared = s.shared ∧
      phasesOf size s' = phasesOf size s ++ [.start] ∧ failedConnects s' = failedConnects s) ∨
    ∃ i driver p q lost, a = .advance i driver ∧ (phasesOf size s)[i]? = some p ∧
      Move size i s.shared p s'.shared q lost ∧ phasesOf size s' = (phasesOf size s).set i q ∧
      failedConnects s' = failedConnects s + lost.toNat ∧
      (lost = true ↔ p = .reserved ∧ ∃ e, driver = .error e) := by
  obtain ⟨body, ha, hshared, hphases, hhistory⟩ | ⟨i, driver, p, o, r, ha, hi, hallows, hserve,
    hphases, hhistory⟩ := Monitor.step_cases (obeys_withCursor size) (fun _ _ ↦ trivial) hs.coherent h
  · exact .inl ⟨body, ha, hshared, hphases, by rw [failedConnects, hhistory]; rfl⟩
  · refine .inr ⟨i, driver, p, _, _, ha, hi, move_of_serve hallows hserve, hphases, ?_,
      connectFailed_iff hallows hserve⟩
    rw [failedConnects, hhistory, List.countP_append, List.countP_singleton, failedConnects]
    cases connectFailed (⟨o, r⟩ : Event (PgOp Stmt) (PgOp.Res Rows)) <;> rfl

private theorem getElem?_snoc_cases {phases : List PgPhase} {i : Nat} {p q : PgPhase}
    (h : (phases ++ [q])[i]? = some p) :
    phases[i]? = some p ∨ (i = phases.length ∧ p = q) := by
  rw [List.getElem?_append] at h
  split at h
  · exact .inl h
  · rw [List.getElem?_singleton] at h
    split at h
    · exact .inr ⟨by omega, (Option.some.inj h).symm⟩
    · cases h

private theorem Counted.spawn {s : PgShared} {phases : List PgPhase} {failures : Nat}
    (h : Counted size s phases failures) : Counted size s (phases ++ [.start]) failures where
  count := by
    rw [List.countP_append]
    exact h.count
  le := h.le
  lock := by
    intro i p hp
    obtain hp | ⟨rfl, rfl⟩ := getElem?_snoc_cases hp
    · exact h.lock i p hp
    · exact iff_of_false (by decide) fun he ↦ lt_irrefl _ (h.holder _ he)
  holder := by
    intro i hi
    rw [List.length_append]
    exact Nat.lt_add_right _ (h.holder i hi)
  knows := by
    intro i p hp
    obtain hp | ⟨-, rfl⟩ := getElem?_snoc_cases hp
    · exact h.knows i p hp
    · trivial

private theorem Exclusive.spawn {s : PgShared} {phases : List PgPhase} (h : Exclusive s phases) :
    Exclusive s (phases ++ [.start]) := by
  have old : ∀ (i : Nat) (p : PgPhase) (c : Connection), (phases ++ [.start])[i]? = some p →
      p.connection? = some c → phases[i]? = some p := by
    intro i p c hp hc
    obtain hp | ⟨-, rfl⟩ := getElem?_snoc_cases hp
    · exact hp
    · cases hc
  refine ⟨h.nodup, h.made, fun i p c hp hc ↦ h.held i p c (old i p c hp hc) hc, ?_⟩
  intro i j p q c hp hq hpc hqc
  exact h.alone i j p q c (old i p c hp hpc) (old j q c hq hqc) hpc hqc

/-- Every step keeps the invariant. -/
theorem PgInv.step {s s' : PgPool Stmt Rows α}
    {a : PoolAction (Body Stmt Rows α) (Except PyError Rows)} (hs : PgInv size s)
    (h : pgStep size s a = some s') : PgInv size s' := by
  have hco := Pool.coherent_step _ _ s a s' hs.coherent h
  obtain ⟨-, -, hshared, hphases, hfailed⟩ | ⟨i, driver, p, q, lost, -, hi, hm, hphases, hfailed,
    -⟩ := hs.step_cases h
  · refine ⟨hco, ?_, ?_⟩
    · rw [hshared, hphases, hfailed]
      exact hs.counted.spawn
    · rw [hshared, hphases]
      exact hs.exclusive.spawn
  · refine ⟨hco, ?_, ?_⟩
    · rw [hphases, hfailed]
      exact hs.counted.move hi hm
    · rw [hphases]
      exact hs.exclusive.move hi hm

/-- Every run keeps the invariant. -/
theorem pgInv_of_run {as : List (PoolAction (Body Stmt Rows α) (Except PyError Rows))}
    {s : PgPool Stmt Rows α} (h : runAll (pgStep size) (Pool.idle .empty) as = some s) :
    PgInv size s :=
  runAll_invariant (fun _ _ _ hs hstep ↦ hs.step hstep) (pgInv_idle size) h

/-! ### Accounting -/

private theorem recorded_start : Recorded (.start : PgPhase)
    ([] : List (Event (PgOp Stmt) (PgOp.Res Rows))) :=
  ⟨fun _ _ h ↦ (by cases h), fun _ h ↦ (by cases h), fun _ h ↦ (by cases h),
    fun _ _ h ↦ (by cases h)⟩

/-- A thread offers a connection to the queue only after it committed and nothing failed. -/
theorem PgInv.returned {s : PgPool Stmt Rows α} (hs : PgInv size s)
    {t : Thread (PgOp Stmt) (PgOp.Res Rows) (Body Stmt Rows α) α} (ht : t ∈ s.threads)
    {e : Event (PgOp Stmt) (PgOp.Res Rows)} (he : e ∈ t.log) {c : Connection}
    (hc : offered? e = some c) : CommittedIn c t.log := by
  obtain ⟨i, hi⟩ := List.mem_iff_getElem?.mp ht
  have hrecorded := (obeys_withCursor size t.label).invariant
    (P := fun phase log ↦ Recorded phase log)
    (fun _ _ _ _ hr ha ↦ hr.step ha) (hs.coherent.runs i t hi) (fun _ _ ↦ trivial) recorded_start
  exact hrecorded.returned e he c hc

-- outside of the pool's own code the counter has a one for each connection checked out
private theorem carries_eq_of_quiet {p : PgPhase} (h : p.inside = false) :
    p.carries = p.connection?.isSome := by
  cases p with
  | start | holding | failed | committed | done => rfl
  | _ => cases h

/-- In a quiet state the counter is too high by the number of failed `connect` calls. -/
theorem PgInv.created_of_quiet {s : PgPool Stmt Rows α} (hs : PgInv size s) (hq : Quiet size s) :
    s.shared.created = live size s + failedConnects s := by
  have hcount : (phasesOf size s).countP PgPhase.carries =
      (phasesOf size s).countP fun p ↦ p.connection?.isSome :=
    List.countP_congr fun p hp ↦ by rw [carries_eq_of_quiet (hq p hp)]
  rw [hs.counted.count, hcount, live]
  push_cast
  rfl

/-- The step is not a `connect` that raises. -/
def Connects (size : Nat) (s : PgPool Stmt Rows α) :
    PoolAction (Body Stmt Rows α) (Except PyError Rows) → Prop
  | .spawn _ => True
  | .advance i driver => (phasesOf size s)[i]? = some .reserved → ∃ rows, driver = .ok rows

private theorem connects_iff {s s' : PgPool Stmt Rows α}
    {a : PoolAction (Body Stmt Rows α) (Except PyError Rows)} (hs : PgInv size s)
    (h : pgStep size s a = some s') :
    failedConnects s ≤ failedConnects s' ∧
      (Connects size s a ↔ failedConnects s' = failedConnects s) := by
  obtain ⟨body, rfl, -, -, hfailed⟩ | ⟨i, driver, p, q, lost, rfl, hi, -, -, hfailed, hlost⟩ :=
    hs.step_cases h
  · exact ⟨hfailed.ge, iff_of_true trivial hfailed⟩
  · rw [Connects, hi, hfailed, Option.some.injEq]
    refine ⟨Nat.le_add_right _ _, ?_⟩
    cases lost with
    | true =>
      obtain ⟨hp, e, rfl⟩ := hlost.mp rfl
      refine iff_of_false (fun hc ↦ ?_) (Nat.succ_ne_self _)
      obtain ⟨rows, hrows⟩ := hc hp
      cases hrows
    | false =>
      refine iff_of_true (fun hp ↦ ?_) rfl
      cases driver with
      | ok rows => exact ⟨rows, rfl⟩
      | error e => exact absurd (hlost.mpr ⟨hp, e, rfl⟩) Bool.false_ne_true

/-- No `connect` raised in a run exactly when no step of it is one. -/
theorem runMeets_connects_iff {as : List (PoolAction (Body Stmt Rows α) (Except PyError Rows))}
    {s s' : PgPool Stmt Rows α} (hs : PgInv size s) (h : runAll (pgStep size) s as = some s') :
    failedConnects s ≤ failedConnects s' ∧
      (RunMeets (pgStep size) (Connects size) s as ↔ failedConnects s' = failedConnects s) := by
  induction as generalizing s with
  | nil =>
    cases h
    exact ⟨le_rfl, iff_of_true trivial rfl⟩
  | cons a as ih =>
    obtain ⟨t, ht, h⟩ := runAll_cons_eq_some.mp h
    obtain ⟨hle, hrest⟩ := ih (hs.step ht) h
    obtain ⟨hle', hfirst⟩ := connects_iff hs ht
    refine ⟨hle'.trans hle, ⟨fun hm ↦ ?_, fun he ↦ ?_⟩⟩
    · rw [hrest.mp (hm.2 t ht), hfirst.mp hm.1]
    · refine ⟨hfirst.mpr (by omega), fun t' ht' ↦ ?_⟩
      obtain rfl : t = t' := Option.some.inj (ht.symm.trans ht')
      exact hrest.mpr (by omega)

/-- The pool is accounted for while no `connect` call raises, and in no quiet state after one. -/
theorem accounted_iff (as : List (PoolAction (Body Stmt Rows α) (Except PyError Rows)))
    (s : PgPool Stmt Rows α) (h : runAll (pgStep size) (Pool.idle .empty) as = some s) :
    (RunMeets (pgStep size) (Connects size) (Pool.idle .empty) as → Accounted size s) ∧
      (Quiet size s →
        (Accounted size s ↔ RunMeets (pgStep size) (Connects size) (Pool.idle .empty) as)) := by
  have hinv := pgInv_of_run h
  have hmeets := (runMeets_connects_iff (pgInv_idle size) h).2
  have hzero : failedConnects (Pool.idle .empty : PgPool Stmt Rows α) = 0 := rfl
  rw [hzero] at hmeets
  have hgood : failedConnects s = 0 → Accounted size s := by
    intro hzero
    refine ⟨fun hq ↦ ?_, ⟨?_, hinv.counted.le⟩, hinv.exclusive.alone, fun p hp c hc ↦ ?_,
      hinv.exclusive.nodup, fun t ht e he c hc ↦ hinv.returned ht he hc⟩
    · rw [hinv.created_of_quiet hq, hzero]
      exact Int.add_zero _
    · rw [hinv.counted.count]
      omega
    · obtain ⟨i, hi⟩ := List.mem_iff_getElem?.mp hp
      exact (hinv.exclusive.held i p c hi hc).2
  rw [hmeets]
  refine ⟨hgood, fun hq ↦ ⟨fun ha ↦ ?_, hgood⟩⟩
  have hexact := ha.exact hq
  have hcreated := hinv.created_of_quiet hq
  omega

end Runs

/-! ### Runs of operations -/

/-- The driver does not raise. -/
def works : Except PyError Unit := .ok ()

/-- The database refuses. -/
def refused : Except PyError Unit := .error ⟨.osError, "connection refused"⟩

/-- An operation without statements on thread `i`, where the driver works `n` times. -/
def advances (i n : Nat) : List (PoolAction (Body Unit Unit Unit) (Except PyError Unit)) :=
  List.replicate n (.advance i works)

/-- Two operations find the queue empty and open a connection each. The commit of the second raises
while the first is in its transaction; the first puts its connection back, the second discards its
own. -/
def commitsAndFails : List (PoolAction (Body Unit Unit Unit) (Except PyError Unit)) :=
  .spawn (.ret ()) :: .spawn (.ret ()) :: (advances 0 1 ++ advances 1 1 ++ advances 0 6 ++
    advances 1 7 ++ advances 0 1 ++ [.advance 1 refused] ++ advances 0 3 ++ advances 1 6)

/-- The counter is exact after a run in which every `connect` worked. -/
theorem accounted_iff_commit_failed : ∃ s, runAll (pgStep 2) (Pool.idle .empty) commitsAndFails =
    some s ∧ (s.shared.created, live 2 s, phasesOf 2 s) = (1, 1, [.done, .done]) ∧
      Accounted 2 s := by
  have hrun : (runAll (pgStep 2) (Pool.idle .empty) commitsAndFails).map
      (fun s ↦ ((s.shared.created, live 2 s, phasesOf 2 s), failedConnects s)) =
        some ((1, 1, [.done, .done]), 0) := by decide +kernel
  obtain ⟨s, hs, heq⟩ := Option.map_eq_some_iff.mp hrun
  obtain ⟨hshared, hfailed⟩ := Prod.mk.inj heq
  have hmeets := (runMeets_connects_iff (pgInv_idle 2) hs).2.mpr hfailed
  exact ⟨s, hs, hshared, (accounted_iff commitsAndFails s hs).1 hmeets⟩

/-- `connect` raises: the operation is over, no connection is live and the counter says one. -/
theorem accounted_fails_after_refused : ¬ ∀ (size : Nat)
    (as : List (PoolAction (Body Unit Unit Unit) (Except PyError Unit)))
    (s : PgPool Unit Unit Unit), runAll (pgStep size) (Pool.idle .empty) as = some s →
      Accounted size s := by
  intro h
  have hrun : (runAll (pgStep 1) (Pool.idle .empty)
      (.spawn (.ret ()) :: advances 0 5 ++ [.advance 0 refused, .advance 0 works])).map
      (fun s ↦ (s.shared.created, live 1 s, phasesOf 1 s)) = some (1, 0, [.done]) := by
    decide +kernel
  obtain ⟨s, hs, heq⟩ := Option.map_eq_some_iff.mp hrun
  simp only [Prod.mk.injEq] at heq
  obtain ⟨hcreated, hlive, hphases⟩ := heq
  have hquiet : Quiet 1 s := by
    intro p hp
    rw [hphases, List.mem_singleton] at hp
    rw [hp]
    rfl
  have hexact := (h 1 _ s hs).exact hquiet
  rw [hcreated, hlive] at hexact
  cases hexact

end C3RSpec.Access.Pooling
