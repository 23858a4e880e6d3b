import C3RSpec.Access.PoolSafety
import Mathlib.Tactic.Push

/-!
# Threads that wait for a connection

`c3r/pg_access.py:99–119`. A thread waits in `_pool.get()` once the counter has reached the pool
size. `_discard` and a raised `connect` later free a place without putting anything in the queue,
so a waiting thread is woken only as long as some other operation still has a connection to give
back.
-/

namespace C3RSpec.Access.Pooling

open Base

section Waiters

variable {Stmt Rows α : Type} {size : Nat}

/-- A thread waits for a connection, the queue is empty, none is checked out and no other thread
is between the steps of acquiring or releasing one. -/
structure Stranded (size : Nat) (s : PgPool Stmt Rows α) : Prop where
  waiting : .waiting ∈ phasesOf size s
  idle : s.shared.idle = []
  none : ∀ p ∈ phasesOf size s, p.connection? = none
  still : ∀ p ∈ phasesOf size s, p.inside = true → p = .waiting

/-- There is a connection in the queue, or an operation that has one, opens one or discards one. -/
def HasSource (s : PgShared) (phases : List PgPhase) : Prop :=
  s.idle ≠ [] ∨ ∃ (j : Nat) (p : PgPhase), phases[j]? = some p ∧ p.carries = true

/-- A thread waits and there is no source of connections. -/
def Orphaned (s : PgShared) (phases : List PgPhase) : Prop :=
  .waiting ∈ phases ∧ ¬ HasSource s phases

/-- A place is given up without a connection going back to the queue: the end of `_discard`, or
a `connect` that raises. -/
def givesUp (driver : Except PyError Rows) : PgPhase → Bool
  | .reserved => match driver with
    | .error _ => true
    | .ok _ => false
  | .decrementing _ => true
  | _ => false

/-- The step is not the last source of connections being given up while a thread waits, and not a
thread starting to wait when every place was lost to a `connect` that raised. -/
structure KeepsSource (size : Nat) (s : PgPool Stmt Rows α) (i : Nat)
    (driver : Except PyError Rows) : Prop where
  gives : ∀ p ∈ (phasesOf size s)[i]?, givesUp driver p = true → .waiting ∈ phasesOf size s →
    s.shared.idle ≠ [] ∨ ∃ q ∈ (phasesOf size s).eraseIdx i, q.carries = true
  waits : (phasesOf size s)[i]? = some .full → failedConnects s < size

instance (size : Nat) (s : PgPool Stmt Rows α) (i : Nat) (driver : Except PyError Rows) :
    Decidable (KeepsSource size s i driver) :=
  decidable_of_iff ((∀ p ∈ (phasesOf size s)[i]?, givesUp driver p = true →
      .waiting ∈ phasesOf size s →
      s.shared.idle ≠ [] ∨ ∃ q ∈ (phasesOf size s).eraseIdx i, q.carries = true) ∧
    ((phasesOf size s)[i]? = some .full → failedConnects s < size))
    ⟨fun h ↦ ⟨h.1, h.2⟩, fun h ↦ ⟨h.gives, h.waits⟩⟩

/-- The side condition on a step of a run. -/
def Supplied (size : Nat) (s : PgPool Stmt Rows α) :
    PoolAction (Body Stmt Rows α) (Except PyError Rows) → Prop
  | .spawn _ => True
  | .advance i driver => KeepsSource size s i driver

instance (size : Nat) (s : PgPool Stmt Rows α) :
    ∀ a : PoolAction (Body Stmt Rows α) (Except PyError Rows), Decidable (Supplied size s a)
  | .spawn _ => .isTrue trivial
  | .advance i driver => inferInstanceAs (Decidable (KeepsSource size s i driver))

/-- A stranded thread has no source. -/
theorem Stranded.orphaned {s : PgPool Stmt Rows α} (h : Stranded size s) :
    Orphaned s.shared (phasesOf size s) := by
  refine ⟨h.waiting, fun hsource ↦ ?_⟩
  obtain hidle | ⟨j, p, hp, hc⟩ := hsource
  · exact hidle h.idle
  · have hmem := List.mem_of_getElem? hp
    have hnone := h.none p hmem
    have hstill := h.still p hmem
    cases p with
    | start | done | waiting => cases hc
    | holding | failed | committed => cases hnone
    | _ => cases hstill rfl

section Moves

variable {i : Nat} {s s' : PgShared} {p q : PgPhase} {phases : List PgPhase}

-- the operation itself is a source afterwards
private theorem not_orphaned_of_carries (hi : phases[i]? = some p) (hq : q.carries = true) :
    ¬ Orphaned s' (phases.set i q) := by
  intro h
  have hlt := (List.getElem?_eq_some_iff.mp hi).1
  exact h.2 (.inr ⟨i, q, List.getElem?_set_self hlt, hq⟩)

private theorem mem_set_of_ne {r : PgPhase} (hi : phases[i]? = some p) (hr : r ≠ p)
    (h : r ∈ phases) (q : PgPhase) : r ∈ phases.set i q := by
  obtain ⟨j, hj⟩ := List.mem_iff_getElem?.mp h
  have hij : i ≠ j := by
    rintro rfl
    exact hr (Option.some.inj (hj.symm.trans hi))
  refine List.mem_of_getElem? (i := j) ?_
  rw [List.getElem?_set_ne hij]
  exact hj

-- another operation is a source before and after
private theorem hasSource_set {j : Nat} {r : PgPhase} (hj : j ≠ i) (hr : phases[j]? = some r)
    (hc : r.carries = true) (q : PgPhase) : HasSource s' (phases.set i q) := by
  refine .inr ⟨j, r, ?_, hc⟩
  rw [List.getElem?_set_ne (Ne.symm hj)]
  exact hr

private theorem HasSource.set (h : HasSource s phases) (hi : phases[i]? = some p)
    (hidle : s'.idle = s.idle) (hp : p.carries = false) (q : PgPhase) :
    HasSource s' (phases.set i q) := by
  obtain h | ⟨j, r, hr, hc⟩ := h
  · exact .inl (by rw [hidle]; exact h)
  · refine hasSource_set (fun hij ↦ ?_) hr hc q
    obtain rfl : r = p := Option.some.inj (hr.symm.trans (by rw [hij]; exact hi))
    rw [hp] at hc
    cases hc

-- an operation that was and is no source, and does not start to wait
private theorem orphaned_of_set (hi : phases[i]? = some p) (hidle : s'.idle = s.idle)
    (hp : p.carries = false) (hq : q ≠ .waiting)
    (h : Orphaned s' (phases.set i q)) : Orphaned s phases := by
  refine ⟨?_, fun hsource ↦ h.2 (hsource.set hi hidle hp q)⟩
  obtain hw | hw := List.mem_or_eq_of_mem_set h.1
  · exact hw
  · exact absurd hw.symm hq

-- the last source is given up
private theorem orphaned_set (hi : phases[i]? = some p) (hidle : s'.idle = [])
    (hq : q.carries = false) (hw : .waiting ∈ phases.set i q)
    (hno : ∀ (j : Nat) (r : PgPhase), j ≠ i → phases[j]? = some r → r.carries = false) :
    Orphaned s' (phases.set i q) := by
  refine ⟨hw, fun hsource ↦ ?_⟩
  obtain h | ⟨j, r, hr, hc⟩ := hsource
  · exact h hidle
  · by_cases hj : j = i
    · rw [hj, List.getElem?_set_self (List.getElem?_eq_some_iff.mp hi).1] at hr
      rw [← Option.some.inj hr, hq] at hc
      cases hc
    · rw [List.getElem?_set_ne (Ne.symm hj)] at hr
      rw [hno j r hj hr] at hc
      cases hc

/-- What a move does to waiting threads: it leaves a source, it changes nothing for them, it
gives up a place, or it starts to wait. -/
theorem Move.waiters {lost : Bool} (hi : phases[i]? = some p) (hm : Move size i s p s' q lost) :
    ¬ Orphaned s' (phases.set i q) ∨
      (Orphaned s' (phases.set i q) → Orphaned s phases) ∨
      s'.idle = s.idle ∧ q.carries = false ∧ q ≠ .waiting ∧
        (p = .reserved ∧ lost = true ∨ ∃ value, p = .decrementing value) ∨
      s'.idle = s.idle ∧ p = .full ∧ q = .waiting := by
  cases hm with
  | take | get | increment | connect | unlockConnected | work | fail | commit | closeHolding
  | closeFailed | closeOverflow | closeCursor | putFull | lockClosed | readClosed =>
    exact .inl (not_orphaned_of_carries hi rfl)
  | put c hroom => exact .inl fun h ↦ h.2 (.inl (List.append_ne_nil_of_right_ne_nil _ (by simp)))
  | miss | lock | below | atSize | read | unlockUnconnected | unlockDecremented
  | closeCursorDone =>
    exact .inr (.inl (orphaned_of_set hi rfl rfl fun h ↦ by cases h))
  | connectFailed =>
    exact .inr (.inr (.inl ⟨rfl, rfl, fun h ↦ (by cases h), .inl ⟨rfl, rfl⟩⟩))
  | decrement value =>
    exact .inr (.inr (.inl ⟨rfl, rfl, fun h ↦ (by cases h), .inr ⟨value, rfl⟩⟩))
  | unlockFull => exact .inr (.inr (.inr ⟨rfl, rfl, rfl⟩))

end Moves

private theorem hasSource_iff {s : PgShared} {phases : List PgPhase} :
    HasSource s phases ↔ 0 < s.idle.length + phases.countP PgPhase.carries := by
  rw [Nat.add_pos_iff_pos_or_pos, List.length_pos_iff, List.countP_pos_iff]
  refine or_congr Iff.rfl ⟨?_, ?_⟩
  · rintro ⟨j, p, hp, hc⟩
    exact ⟨p, List.mem_of_getElem? hp, hc⟩
  · rintro ⟨p, hp, hc⟩
    obtain ⟨j, hj⟩ := List.mem_iff_getElem?.mp hp
    exact ⟨j, p, hj, hc⟩

-- a thread at `full` has the lock, so the counter still is what it saw
private theorem hasSource_of_full {s : PgPool Stmt Rows α} (hs : PgInv size s) {i : Nat}
    (hi : (phasesOf size s)[i]? = some .full) :
    HasSource s.shared (phasesOf size s) ↔ failedConnects s < size := by
  have hknows : (size : Int) ≤ s.shared.created := hs.counted.knows i _ hi
  have hcount := hs.counted.count
  have hle := hs.counted.le
  rw [hasSource_iff]
  omega

/-- A step that meets the condition leaves no waiting thread without a source. -/
theorem PgInv.not_orphaned_step {s s' : PgPool Stmt Rows α}
    {a : PoolAction (Body Stmt Rows α) (Except PyError Rows)} (hs : PgInv size s)
    (ho : ¬ Orphaned s.shared (phasesOf size s)) (hk : Supplied size s a)
    (h : pgStep size s a = some s') : ¬ Orphaned s'.shared (phasesOf size s') := by
  obtain ⟨body, rfl, hshared, hphases, -⟩ | ⟨i, driver, p, q, lost, rfl, hi, hm, hphases, -,
    hlost⟩ := hs.step_cases h
  · rw [hshared, hphases]
    rintro ⟨hw, hnone⟩
    refine ho ⟨?_, fun hsource ↦ hnone ?_⟩
    · obtain hw | hw := List.mem_append.mp hw
      · exact hw
      · cases List.mem_singleton.mp hw
    · obtain hidle | ⟨j, p, hp, hc⟩ := hsource
      · exact .inl hidle
      · have hlt := (List.getElem?_eq_some_iff.mp hp).1
        exact .inr ⟨j, p, (List.getElem?_append_left hlt).trans hp, hc⟩
  · rw [hphases]
    obtain hgood | hkeep | ⟨hidle, hq, hwait, hgives⟩ | ⟨hidle, rfl, rfl⟩ := hm.waiters hi
    · exact hgood
    · exact fun h ↦ ho (hkeep h)
    · intro horphan
      have hup : givesUp driver p = true := by
        obtain ⟨rfl, hl⟩ | ⟨value, rfl⟩ := hgives
        · obtain ⟨-, e, rfl⟩ := hlost.mp hl
          rfl
        · rfl
      have hw : .waiting ∈ phasesOf size s := by
        obtain hw | hw := List.mem_or_eq_of_mem_set horphan.1
        · exact hw
        · exact absurd hw.symm hwait
      obtain hne | ⟨r, hr, hc⟩ := hk.gives p hi hup hw
      · exact horphan.2 (.inl (by rw [hidle]; exact hne))
      · obtain ⟨j, hj, hr⟩ := List.mem_eraseIdx_iff_getElem?.mp hr
        exact horphan.2 (hasSource_set hj hr hc q)
    · intro horphan
      exact horphan.2 (((hasSource_of_full hs hi).mpr (hk.waits hi)).set hi hidle rfl _)

/-- A step that does not meet the condition leaves a waiting thread without a source. -/
theorem PgInv.orphaned_step {s s' : PgPool Stmt Rows α}
    {a : PoolAction (Body Stmt Rows α) (Except PyError Rows)} (hs : PgInv size s)
    (hk : ¬ Supplied size s a) (h : pgStep size s a = some s') :
    Orphaned s'.shared (phasesOf size s') := by
  obtain ⟨body, rfl, -, -, -⟩ | ⟨i, driver, p, q, lost, rfl, hi, hm, hphases, -, hlost⟩ :=
    hs.step_cases h
  · exact absurd trivial hk
  · rw [hphases]
    generalize s'.shared = after at hm ⊢
    by_cases hfull : (phasesOf size s)[i]? = some .full ∧ size ≤ failedConnects s
    · -- every place was lost to a `connect` that raised
      obtain ⟨hi', hall⟩ := hfull
      obtain rfl : p = .full := Option.some.inj (hi.symm.trans hi')
      have hnone : ¬ HasSource s.shared (phasesOf size s) := by
        rw [hasSource_of_full hs hi']
        exact Nat.not_lt.mpr hall
      cases hm with
      | unlockFull =>
        refine orphaned_set hi ?_ rfl (List.mem_set (List.getElem?_eq_some_iff.mp hi).1 _) ?_
        · exact by_contra fun hne ↦ hnone (.inl hne)
        · exact fun j r _ hr ↦ Bool.eq_false_iff.mpr fun hc ↦ hnone (.inr ⟨j, r, hr, hc⟩)
    · have hgives : ¬ ∀ p ∈ (phasesOf size s)[i]?, givesUp driver p = true →
          .waiting ∈ phasesOf size s → s.shared.idle ≠ [] ∨
            ∃ q ∈ (phasesOf size s).eraseIdx i, q.carries = true := fun hall ↦
        hk ⟨hall, fun hi' ↦ Nat.not_le.mp fun hle ↦ hfull ⟨hi', hle⟩⟩
      push Not at hgives
      obtain ⟨p', hi', hup, hw, hidle, hno⟩ := hgives
      obtain rfl : p = p' := Option.some.inj (hi.symm.trans hi')
      have hothers : ∀ (j : Nat) (r : PgPhase), j ≠ i → (phasesOf size s)[j]? = some r →
          r.carries = false := fun j r hj hr ↦
        Bool.eq_false_iff.mpr (hno r (List.mem_eraseIdx_iff_getElem?.mpr ⟨j, hj, hr⟩))
      cases p with
      | reserved =>
        obtain ⟨e, rfl⟩ : ∃ e, driver = .error e := by
          cases driver with
          | ok rows => cases hup
          | error e => exact ⟨e, rfl⟩
        obtain rfl : lost = true := hlost.mpr ⟨rfl, e, rfl⟩
        cases hm with
        | connectFailed =>
          exact orphaned_set hi hidle rfl (mem_set_of_ne hi (fun h ↦ by cases h) hw _) hothers
      | decrementing value =>
        cases hm with
        | decrement =>
          exact orphaned_set hi hidle rfl (mem_set_of_ne hi (fun h ↦ by cases h) hw _) hothers
      | _ => cases hup

/-- No thread is ever stranded in a run whose steps all keep a source for those that wait. -/
theorem not_stranded (as : List (PoolAction (Body Stmt Rows α) (Except PyError Rows)))
    (s : PgPool Stmt Rows α) (h : runAll (pgStep size) (Pool.idle .empty) as = some s)
    (hmeets : RunMeets (pgStep size) (Supplied size) (Pool.idle .empty) as) :
    ¬ Stranded size s := by
  have hinv := @runAll_invariant_of_meets _ _ _ _
    (fun s : PgPool Stmt Rows α ↦ PgInv size s ∧ ¬ Orphaned s.shared (phasesOf size s))
    (fun _ _ _ hs hk hstep ↦ ⟨hs.1.step hstep, hs.1.not_orphaned_step hs.2 hk hstep⟩)
    _ _ _ ⟨pgInv_idle size, fun ho ↦ by cases ho.1⟩ hmeets h
  exact fun hs ↦ hinv.2 hs.orphaned

end Waiters

/-! ### Two operations over a pool of one connection -/

/-- One operation holds the only connection, the other waits for it. -/
def waitsForHolder : List (PoolAction (Body Unit Unit Unit) (Except PyError Unit)) :=
  .spawn (.ret ()) :: .spawn (.ret ()) :: advances 0 8 ++ advances 1 4

/-- The holder commits and gives the connection back; the waiting operation gets it. -/
theorem not_stranded_released : ∃ s, runAll (pgStep 1) (Pool.idle .empty)
    (waitsForHolder ++ advances 0 3 ++ advances 1 1) = some s ∧
      phasesOf 1 s = [.done, .holding 0] ∧ ¬ Stranded 1 s := by
  have hrun : (runAll (pgStep 1) (Pool.idle .empty)
      (waitsForHolder ++ advances 0 3 ++ advances 1 1)).map (phasesOf 1) =
        some [.done, .holding 0] := by decide +kernel
  obtain ⟨s, hs, hphases⟩ := Option.map_eq_some_iff.mp hrun
  exact ⟨s, hs, hphases, not_stranded _ s hs (by decide +kernel)⟩

/-- The commit of the holder raises; it discards the connection and nobody is left to wake the
operation that waits. -/
theorem stranded_after_discard : ∃ (as : List (PoolAction (Body Unit Unit Unit)
    (Except PyError Unit))) (s : PgPool Unit Unit Unit),
      runAll (pgStep 1) (Pool.idle .empty) as = some s ∧ Stranded 1 s := by
  have hrun : (runAll (pgStep 1) (Pool.idle .empty)
      (waitsForHolder ++ .advance 0 refused :: advances 0 6)).map
        (fun s ↦ (s.shared.idle, phasesOf 1 s)) = some ([], [.done, .waiting]) := by decide +kernel
  obtain ⟨s, hs, heq⟩ := Option.map_eq_some_iff.mp hrun
  obtain ⟨hidle, hphases⟩ := Prod.mk.inj heq
  refine ⟨_, s, hs, by rw [hphases]; decide, hidle, ?_, ?_⟩
  · rw [hphases]
    decide
  · rw [hphases]
    decide

end C3RSpec.Access.Pooling
