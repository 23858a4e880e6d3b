import C3RSpec.Access.PoolPhase
import Mathlib.Data.List.Nodup
import Mathlib.Tactic.Push

/-!
# Accounting of pooled connections

Over every interleaving and every pattern of driver failures: the counter is the number of idle
connections, of operations that have or are opening or closing one, and of `connect` calls that
raised. The last part is what a raised `connect` leaves behind, since nothing takes its increment
back. A connection is never in two places, and only a committed one goes back to the queue.
-/

namespace C3RSpec.Access.Pooling

open Base

/-- The counter, the lock and what operations know of them. -/
structure Counted (size : Nat) (s : PgShared) (phases : List PgPhase) (failures : Nat) :
    Prop where
  count : s.created = s.idle.length + phases.countP PgPhase.carries + failures
  le : s.created ≤ size
  lock : ∀ (i : Nat) (p : PgPhase), phases[i]? = some p → (p.locks = true ↔ s.holder = some i)
  holder : ∀ i, s.holder = some i → i < phases.length
  knows : ∀ (i : Nat) (p : PgPhase), phases[i]? = some p → p.Knows size s.created

/-- No connection is in two places. -/
structure Exclusive (s : PgShared) (phases : List PgPhase) : Prop where
  nodup : s.idle.Nodup
  made : ∀ c ∈ s.idle, c < s.made
  held : ∀ (i : Nat) (p : PgPhase) (c : Connection), phases[i]? = some p →
    p.connection? = some c → c < s.made ∧ c ∉ s.idle
  alone : ∀ (i j : Nat) (p q : PgPhase) (c : Connection), phases[i]? = some p →
    phases[j]? = some q → p.connection? = some c → q.connection? = some c → i = j

private theorem knows_of_unlocked {p : PgPhase} (h : p.locks = false) (size : Nat)
    (created : Int) : p.Knows size created := by
  cases p with
  | checked | incrementing | full | decrementing => cases h
  | _ => trivial

private theorem getElem?_set_cases' {phases : List PgPhase} {i j : Nat} {q r : PgPhase}
    (h : (phases.set i q)[j]? = some r) : (j = i ∧ r = q) ∨ (j ≠ i ∧ phases[j]? = some r) := by
  rw [List.getElem?_set] at h
  split at h
  · next hij =>
    split at h
    · exact .inl ⟨hij.symm, (Option.some.inj h).symm⟩
    · cases h
  · next hij => exact .inr ⟨Ne.symm hij, h⟩

section Moves

variable {size i failures : Nat} {s s' : PgShared} {p q : PgPhase} {phases : List PgPhase}

private theorem countP_set_carries (hi : phases[i]? = some p) (q : PgPhase) :
    ((phases.set i q).countP PgPhase.carries : Int) =
      phases.countP PgPhase.carries - p.carries.toNat + q.carries.toNat := by
  obtain ⟨hlt, hp⟩ := List.getElem?_eq_some_iff.mp hi
  have hpos : p.carries = true → 0 < phases.countP PgPhase.carries := fun hc ↦
    List.countP_pos_iff.mpr ⟨p, List.mem_of_getElem? hi, hc⟩
  rw [List.countP_set hlt, hp]
  cases hpc : p.carries with
  | false => cases q.carries <;> simp
  | true =>
    have := hpos hpc
    cases q.carries <;> simp <;> omega

-- what a move has to keep of the accounting
private theorem Counted.set (h : Counted size s phases failures) (hi : phases[i]? = some p)
    {lost : Nat}
    (hcount : s'.created + p.carries.toNat + s.idle.length =
      s.created + q.carries.toNat + s'.idle.length + lost)
    (hle : s'.created ≤ size) (hlock : q.locks = true ↔ s'.holder = some i)
    (hothers : ∀ j, j ≠ i → (s'.holder = some j ↔ s.holder = some j))
    (hknows : q.Knows size s'.created) (hkeep : s'.created = s.created ∨ p.locks = true) :
    Counted size s' (phases.set i q) (failures + lost) where
  count := by
    have := h.count
    rw [countP_set_carries hi]
    push_cast
    omega
  le := hle
  lock := by
    intro j r hr
    obtain ⟨rfl, rfl⟩ | ⟨hj, hr⟩ := getElem?_set_cases' hr
    · exact hlock
    · rw [hothers j hj]
      exact h.lock j r hr
  holder := by
    intro j hj
    rw [List.length_set]
    by_cases hji : j = i
    · rw [hji]
      exact (List.getElem?_eq_some_iff.mp hi).1
    · exact h.holder j ((hothers j hji).mp hj)
  knows := by
    intro j r hr
    obtain ⟨rfl, rfl⟩ | ⟨hj, hr⟩ := getElem?_set_cases' hr
    · exact hknows
    · obtain hsame | hlocked := hkeep
      · rw [hsame]
        exact h.knows j r hr
      · -- only the thread that has the lock changes the counter
        have hholder := (h.lock i p hi).mp hlocked
        refine knows_of_unlocked ?_ size _
        rw [← Bool.not_eq_true, h.lock j r hr, hholder]
        exact fun he ↦ hj (Option.some.inj he).symm

-- a move that neither counts nor moves a connection
private theorem Counted.keep (h : Counted size s phases failures) (hi : phases[i]? = some p)
    (hcarries : q.carries = p.carries) (hcreated : s'.created = s.created)
    (hidle : s'.idle = s.idle) (hlock : q.locks = true ↔ s'.holder = some i)
    (hothers : ∀ j, j ≠ i → (s'.holder = some j ↔ s.holder = some j))
    (hknows : q.Knows size s'.created) :
    Counted size s' (phases.set i q) (failures + false.toNat) := by
  refine h.set hi ?_ (by rw [hcreated]; exact h.le) hlock hothers hknows (.inl hcreated)
  rw [hcarries, hcreated, hidle, Bool.toNat_false]
  omega

/-- Every move keeps the accounting. -/
theorem Counted.move (h : Counted size s phases failures) (hi : phases[i]? = some p)
    {lost : Bool} (hm : Move size i s p s' q lost) :
    Counted size s' (phases.set i q) (failures + lost.toNat) := by
  have hlocked := h.lock i p hi
  have hknown := h.knows i p hi
  have hle := h.le
  have free : s.holder = none → ∀ j, j ≠ i → (some i = some j ↔ s.holder = some j) := by
    intro hfree j hj
    rw [hfree]
    exact iff_of_false (fun he ↦ hj (Option.some.inj he).symm) (Option.some_ne_none j).symm
  have unlock : p.locks = true → ∀ j, j ≠ i → (none = some j ↔ s.holder = some j) := by
    intro hp j hj
    rw [hlocked.mp hp]
    exact iff_of_false (Option.some_ne_none j).symm fun he ↦ hj (Option.some.inj he).symm
  have same : ∀ j, j ≠ i → (s.holder = some j ↔ s.holder = some j) := fun _ _ ↦ Iff.rfl
  cases hm with
  | take hidle =>
    refine h.set hi ?_ hle hlocked same trivial (.inl rfl)
    simp [PgPhase.carries, hidle]
    omega
  | get hidle =>
    refine h.set hi ?_ hle hlocked same trivial (.inl rfl)
    simp [PgPhase.carries, hidle]
    omega
  | put c hroom =>
    refine h.set hi ?_ hle hlocked same trivial (.inl rfl)
    simp [PgPhase.carries]
    omega
  | increment value =>
    obtain ⟨rfl, hlt⟩ := hknown
    refine h.set hi ?_ (by simp only; omega) hlocked same trivial (.inr rfl)
    simp [PgPhase.carries]
  | decrement value =>
    obtain rfl : value = s.created := hknown
    refine h.set hi ?_ (by simp only; omega) hlocked same trivial (.inr rfl)
    simp [PgPhase.carries]
  | connectFailed =>
    refine h.set hi ?_ hle hlocked same trivial (.inl rfl)
    simp [PgPhase.carries]
    omega
  | lock hfree => exact h.keep hi rfl rfl rfl (by simp [PgPhase.locks]) (free hfree) trivial
  | lockClosed hfree => exact h.keep hi rfl rfl rfl (by simp [PgPhase.locks]) (free hfree) trivial
  | unlockConnected c =>
    exact h.keep hi rfl rfl rfl (by simp [PgPhase.locks]) (unlock rfl) trivial
  | unlockUnconnected =>
    exact h.keep hi rfl rfl rfl (by simp [PgPhase.locks]) (unlock rfl) trivial
  | unlockFull => exact h.keep hi rfl rfl rfl (by simp [PgPhase.locks]) (unlock rfl) trivial
  | unlockDecremented =>
    exact h.keep hi rfl rfl rfl (by simp [PgPhase.locks]) (unlock rfl) trivial
  | below hlt => exact h.keep hi rfl rfl rfl hlocked same hlt
  | read => exact h.keep hi rfl rfl rfl hlocked same ⟨rfl, hknown⟩
  | readClosed => exact h.keep hi rfl rfl rfl hlocked same rfl
  | atSize hge => exact h.keep hi rfl rfl rfl hlocked same (Int.not_lt.mp hge)
  | miss | connect | work | fail | commit | closeHolding | closeFailed | closeOverflow
  | closeCursor | putFull | closeCursorDone => exact h.keep hi rfl rfl rfl hlocked same trivial

/-! ### Connections -/

-- a phase that keeps its connection, with the queue as it is
private theorem Exclusive.keep (h : Exclusive s phases) (hi : phases[i]? = some p)
    (hq : q.connection? = p.connection? ∨ q.connection? = none) (hidle : s'.idle = s.idle)
    (hmade : s'.made = s.made) : Exclusive s' (phases.set i q) := by
  have old : ∀ (j : Nat) (r : PgPhase) (c : Connection), (phases.set i q)[j]? = some r →
      r.connection? = some c → ∃ r', phases[j]? = some r' ∧ r'.connection? = some c := by
    intro j r c hr hc
    obtain ⟨rfl, rfl⟩ | ⟨-, hr⟩ := getElem?_set_cases' hr
    · obtain hq | hq := hq
      · exact ⟨p, hi, hq.symm.trans hc⟩
      · rw [hq] at hc
        cases hc
    · exact ⟨r, hr, hc⟩
  refine ⟨by rw [hidle]; exact h.nodup, by rw [hidle, hmade]; exact h.made, ?_, ?_⟩
  · intro j r c hr hc
    obtain ⟨r', hr', hc'⟩ := old j r c hr hc
    rw [hidle, hmade]
    exact h.held j r' c hr' hc'
  · intro j k r t c hr ht hrc htc
    obtain ⟨r', hr', hrc'⟩ := old j r c hr hrc
    obtain ⟨t', ht', htc'⟩ := old k t c ht htc
    exact h.alone j k r' t' c hr' ht' hrc' htc'

-- a phase that gets a connection nobody else has
private theorem Exclusive.gain (h : Exclusive s phases) {c : Connection}
    (hq : q.connection? = some c) (hnodup : s'.idle.Nodup) (hsub : ∀ d ∈ s'.idle, d ∈ s.idle)
    (hmade : s.made ≤ s'.made) (hc : c < s'.made) (hnew : c ∉ s'.idle)
    (hfree : ∀ (j : Nat) (r : PgPhase), phases[j]? = some r → r.connection? ≠ some c) :
    Exclusive s' (phases.set i q) := by
  refine ⟨hnodup, fun d hd ↦ (h.made d (hsub d hd)).trans_le hmade, ?_, ?_⟩
  · intro j r d hr hd
    obtain ⟨rfl, rfl⟩ | ⟨-, hr⟩ := getElem?_set_cases' hr
    · rw [hq] at hd
      cases hd
      exact ⟨hc, hnew⟩
    · obtain ⟨hlt, hnot⟩ := h.held j r d hr hd
      exact ⟨hlt.trans_le hmade, fun hm ↦ hnot (hsub d hm)⟩
  · intro j k r t d hr ht hrd htd
    obtain ⟨rfl, rfl⟩ | ⟨hj, hr⟩ := getElem?_set_cases' hr
    · obtain ⟨rfl, rfl⟩ | ⟨hk, ht⟩ := getElem?_set_cases' ht
      · rfl
      · rw [hq] at hrd
        cases hrd
        exact absurd htd (hfree k t ht)
    · obtain ⟨hk, htq⟩ | ⟨hk, ht⟩ := getElem?_set_cases' ht
      · rw [htq, hq] at htd
        cases htd
        exact absurd hrd (hfree j r hr)
      · exact h.alone j k r t d hr ht hrd htd

-- the head of the queue goes to the operation
private theorem Exclusive.pop (h : Exclusive s phases) {c : Connection} {rest : List Connection}
    (hidle : s.idle = c :: rest) (hq : q.connection? = some c) :
    Exclusive { s with idle := rest } (phases.set i q) := by
  have hnodup := h.nodup
  rw [hidle, List.nodup_cons] at hnodup
  have hmem : c ∈ s.idle := by rw [hidle]; exact List.mem_cons_self
  refine h.gain hq hnodup.2 (fun d hd ↦ ?_) le_rfl (h.made c hmem) hnodup.1 fun j r hr hc ↦ ?_
  · rw [hidle]
    exact List.mem_cons_of_mem c hd
  · exact (h.held j r c hr hc).2 hmem

/-- Every move keeps connections apart. -/
theorem Exclusive.move (h : Exclusive s phases) (hi : phases[i]? = some p) {lost : Bool}
    (hm : Move size i s p s' q lost) : Exclusive s' (phases.set i q) := by
  cases hm with
  | take hidle => exact h.pop hidle rfl
  | get hidle => exact h.pop hidle rfl
  | connect =>
    refine h.gain rfl h.nodup (fun _ hd ↦ hd) (Nat.le_succ _) (Nat.lt_succ_self _) ?_ ?_
    · exact fun hm ↦ lt_irrefl _ (h.made _ hm)
    · exact fun j r hr hc ↦ lt_irrefl _ (h.held j r _ hr hc).1
  | put c hroom =>
    obtain ⟨hlt, hnot⟩ := h.held i _ c hi rfl
    refine ⟨?_, ?_, ?_, ?_⟩
    · refine List.nodup_append.mpr ⟨h.nodup, List.nodup_singleton c, fun a ha b hb ↦ ?_⟩
      rw [List.mem_singleton.mp hb]
      exact fun hac ↦ hnot (hac ▸ ha)
    · intro d hd
      obtain hd | hd := List.mem_append.mp hd
      · exact h.made d hd
      · rw [List.mem_singleton.mp hd]
        exact hlt
    · intro j r d hr hd
      obtain ⟨rfl, rfl⟩ | ⟨hj, hr⟩ := getElem?_set_cases' hr
      · cases hd
      · refine ⟨(h.held j r d hr hd).1, fun hm ↦ ?_⟩
        obtain hm | hm := List.mem_append.mp hm
        · exact (h.held j r d hr hd).2 hm
        · rw [List.mem_singleton.mp hm] at hd
          exact hj (h.alone j i r _ c hr hi hd rfl)
    · intro j k r t d hr ht hrd htd
      obtain ⟨rfl, rfl⟩ | ⟨-, hr⟩ := getElem?_set_cases' hr
      · cases hrd
      · obtain ⟨rfl, rfl⟩ | ⟨-, ht⟩ := getElem?_set_cases' ht
        · cases htd
        · exact h.alone j k r t d hr ht hrd htd
  | miss | lock | below | atSize | read | increment | connectFailed | unlockConnected
  | unlockUnconnected | unlockFull | work | fail | commit | closeCursor | putFull | lockClosed
  | readClosed | decrement | unlockDecremented | closeCursorDone =>
    exact h.keep hi (.inl rfl) rfl rfl
  | closeHolding | closeFailed | closeOverflow => exact h.keep hi (.inr rfl) rfl rfl

end Moves

/-! ### What goes back to the queue -/

section Returned

variable {Stmt Rows α : Type}

/-- A call of the driver in the transaction raised. -/
def transactionFailed : Event (PgOp Stmt) (PgOp.Res Rows) → Bool
  | ⟨.cursor _, .error _⟩ | ⟨.execute _ _, .error _⟩ | ⟨.commit _, .error _⟩ => true
  | _ => false

/-- The connection that a step offers to the queue. -/
def offered? : Event (PgOp Stmt) (PgOp.Res Rows) → Option Connection
  | ⟨.putNowait c, _⟩ => some c
  | _ => none

/-- The transaction on this connection was committed and nothing in it failed. -/
def CommittedIn (c : Connection) (log : List (Event (PgOp Stmt) (PgOp.Res Rows))) : Prop :=
  (⟨.commit c, .ok ()⟩ : Event (PgOp Stmt) (PgOp.Res Rows)) ∈ log ∧
    ∀ e ∈ log, transactionFailed e = false

/-- Nothing has failed yet. -/
def PgPhase.sound : PgPhase → Bool
  | .start | .empty | .locked | .checked | .incrementing _ | .reserved | .connected _ | .full
  | .waiting | .holding _ => true
  | .unconnected | .failed _ | .committed _ | .overflow _ | .closed | .closedLocked
  | .decrementing _ | .decremented | .done => false

/-- What the steps of an operation say about its phase. -/
structure Recorded (phase : PgPhase) (log : List (Event (PgOp Stmt) (PgOp.Res Rows))) : Prop where
  sound : phase.sound = true → ∀ e ∈ log, transactionFailed e = false
  committed : ∀ c, phase = .committed c → CommittedIn c log
  returned : ∀ e ∈ log, ∀ c, offered? e = some c → CommittedIn c log
  done : phase.sound = true → ∀ e ∈ log, offered? e = none

private theorem CommittedIn.snoc {c : Connection}
    {log : List (Event (PgOp Stmt) (PgOp.Res Rows))} (h : CommittedIn c log)
    {e : Event (PgOp Stmt) (PgOp.Res Rows)} (he : transactionFailed e = false) :
    CommittedIn c (log ++ [e]) := by
  refine ⟨List.mem_append_left _ h.1, fun e' he' ↦ ?_⟩
  obtain he' | he' := List.mem_append.mp he'
  · exact h.2 e' he'
  · rw [List.mem_singleton.mp he']
    exact he

namespace Recorded

variable {phase phase' : PgPhase} {log : List (Event (PgOp Stmt) (PgOp.Res Rows))}
  {e : Event (PgOp Stmt) (PgOp.Res Rows)}

-- a step that neither fails nor offers a connection
private theorem quiet (h : Recorded phase log) (he : transactionFailed e = false)
    (ho : offered? e = none) (hs : phase'.sound = true → phase.sound = true)
    (hc : ∀ c, phase' = .committed c → phase = .committed c) :
    Recorded phase' (log ++ [e]) where
  sound := by
    intro hsound e' he'
    obtain he' | he' := List.mem_append.mp he'
    · exact h.sound (hs hsound) e' he'
    · rw [List.mem_singleton.mp he']
      exact he
  committed := fun c hcc ↦ (h.committed c (hc c hcc)).snoc he
  returned := by
    intro e' he' c hoff
    obtain he' | he' := List.mem_append.mp he'
    · exact (h.returned e' he' c hoff).snoc he
    · rw [List.mem_singleton.mp he', ho] at hoff
      cases hoff
  done := by
    intro hsound e' he'
    obtain he' | he' := List.mem_append.mp he'
    · exact h.done (hs hsound) e' he'
    · rw [List.mem_singleton.mp he']
      exact ho

-- a failed call of the transaction
private theorem fail (h : Recorded phase log) (hsound : phase.sound = true)
    (ho : offered? e = none) (c : Connection) : Recorded (.failed c) (log ++ [e]) where
  sound := fun hf ↦ by cases hf
  committed := fun _ hf ↦ by cases hf
  returned := by
    intro e' he' c' hoff
    obtain he' | he' := List.mem_append.mp he'
    · rw [h.done hsound e' he'] at hoff
      cases hoff
    · rw [List.mem_singleton.mp he', ho] at hoff
      cases hoff
  done := fun hf ↦ by cases hf

private theorem commit {c : Connection} (h : Recorded (.holding c) log) :
    Recorded (.committed c) (log ++ [⟨.commit c, .ok ()⟩]) := by
  have hnot : transactionFailed (⟨.commit c, .ok ()⟩ : Event (PgOp Stmt) (PgOp.Res Rows)) = false :=
    rfl
  refine ⟨fun hf ↦ (by cases hf), fun c' hc ↦ ?_, fun e he c' hoff ↦ ?_, fun hf ↦ (by cases hf)⟩
  · cases hc
    refine ⟨List.mem_append_right _ (List.mem_singleton_self _), fun e he ↦ ?_⟩
    obtain he | he := List.mem_append.mp he
    · exact h.sound rfl e he
    · rw [List.mem_singleton.mp he]
      exact hnot
  · obtain he | he := List.mem_append.mp he
    · exact (h.returned e he c' hoff).snoc hnot
    · rw [List.mem_singleton.mp he] at hoff
      cases hoff

private theorem offer {c : Connection} (h : Recorded (.committed c) log) (kept : Bool)
    (hs : phase'.sound = false) (hc : ∀ c, phase' ≠ .committed c) :
    Recorded phase' (log ++ [⟨.putNowait c, kept⟩]) := by
  have hnot : transactionFailed (⟨.putNowait c, kept⟩ : Event (PgOp Stmt) (PgOp.Res Rows)) =
      false := rfl
  refine ⟨fun hf ↦ ?_, fun c' hcc ↦ absurd hcc (hc c'), fun e he c' hoff ↦ ?_, fun hf ↦ ?_⟩
  · rw [hs] at hf
    cases hf
  · obtain he | he := List.mem_append.mp he
    · exact (h.returned e he c' hoff).snoc hnot
    · rw [List.mem_singleton.mp he] at hoff
      cases hoff
      exact (h.committed c rfl).snoc hnot
  · rw [hs] at hf
    cases hf

/-- Every allowed step keeps the record. -/
theorem step {size : Nat} {o : PgOp Stmt} {r : o.Res Rows} (h : Recorded phase log)
    (ha : Allows phase o) : Recorded (nextPhase size phase ⟨o, r⟩) (log ++ [⟨o, r⟩]) := by
  cases ha with
  | getNowait =>
    cases r with
    | some c => exact h.quiet rfl rfl (fun _ ↦ rfl) fun _ hc ↦ by cases hc
    | none => exact h.quiet rfl rfl (fun _ ↦ rfl) fun _ hc ↦ by cases hc
  | readLocked =>
    change Recorded (if r < size then .checked else .full) _
    split
    · exact h.quiet rfl rfl (fun _ ↦ rfl) fun _ hc ↦ by cases hc
    · exact h.quiet rfl rfl (fun _ ↦ rfl) fun _ hc ↦ by cases hc
  | connect =>
    cases r with
    | ok c => exact h.quiet rfl rfl (fun _ ↦ rfl) fun _ hc ↦ by cases hc
    | error e => exact h.quiet rfl rfl (fun hs ↦ by cases hs) fun _ hc ↦ by cases hc
  | cursor c =>
    cases r with
    | ok _ => exact h.quiet rfl rfl (fun _ ↦ rfl) fun _ hc ↦ by cases hc
    | error e => exact h.fail rfl rfl c
  | execute c statement =>
    cases r with
    | ok rows => exact h.quiet rfl rfl (fun _ ↦ rfl) fun _ hc ↦ by cases hc
    | error e => exact h.fail rfl rfl c
  | commit c =>
    cases r with
    | ok _ => exact h.commit
    | error e => exact h.fail rfl rfl c
  | putNowait c =>
    cases r with
    | true => exact h.offer true rfl fun _ hc ↦ by cases hc
    | false => exact h.offer false rfl fun _ hc ↦ by cases hc
  | closeCursor c => exact h.quiet rfl rfl (fun hs ↦ hs) fun _ hc ↦ hc
  | lockEmpty | readChecked | increment | unlockConnected | unlockFull | get =>
    exact h.quiet rfl rfl (fun _ ↦ rfl) fun _ hc ↦ by cases hc
  | unlockUnconnected | closeHolding | closeFailed | closeOverflow | lockClosed | readClosed
  | decrement | unlockDecremented | closeCursorDone =>
    exact h.quiet rfl rfl (fun hs ↦ by cases hs) fun _ hc ↦ by cases hc

end Recorded

end Returned

end C3RSpec.Access.Pooling
