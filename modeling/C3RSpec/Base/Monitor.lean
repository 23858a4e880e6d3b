import C3RSpec.Base.Prog

/-!
# Monitors

Library `Base`. A monitor is an automaton that reads the events of one program. A program
obeys it when it performs only operations the current state allows and stops only with results
the state accepts, whatever possible answers it gets. Obedience is checked once on the program
text and then holds wherever a run of it has come, so a proof about many threads needs the
monitor states and not the programs.
-/

namespace C3RSpec.Base

/-- States move with events; operations, answers and results are classified. -/
structure Monitor (Op : Type) (Res : Op → Type) (α M : Type) where
  next : M → Event Op Res → M
  allows : M → Op → Prop
  possible : (o : Op) → Res o → Prop
  accepts : M → Except PyError α → Prop

namespace Monitor

variable {Op : Type} {Res : Op → Type} {α M : Type} (mon : Monitor Op Res α M)

/-- The program obeys the monitor from a state on. -/
def Obeys : M → Prog Op Res α → Prop
  | m, .ret a => mon.accepts m (.ok a)
  | m, .raise e => mon.accepts m (.error e)
  | m, .call o k => mon.allows m o ∧ ∀ r, mon.possible o r → Obeys (mon.next m ⟨o, r⟩) (k r)

/-- The state after reading events. -/
def track (m : M) (events : List (Event Op Res)) : M := events.foldl mon.next m

/-- One more event moves the state once more. -/
theorem track_snoc (m : M) (events : List (Event Op Res)) (e : Event Op Res) :
    mon.track m (events ++ [e]) = mon.next (mon.track m events) e := by
  simp [track]

/-- What is left of an obedient program is obedient. -/
theorem Obeys.runs {mon : Monitor Op Res α M} {m : M} {p q : Prog Op Res α}
    {events : List (Event Op Res)} (h : mon.Obeys m p) (hr : Prog.Runs p events q)
    (hp : ∀ e ∈ events, mon.possible e.op e.answer) : mon.Obeys (mon.track m events) q := by
  induction hr generalizing m with
  | nil p => exact h
  | call o k r events q _ ih =>
    exact ih (h.2 r (hp _ List.mem_cons_self)) fun e he ↦ hp e (List.mem_cons_of_mem _ he)

/-- What every allowed event keeps, of the state and the events so far, holds along a run. -/
theorem Obeys.invariant {mon : Monitor Op Res α M} {P : M → List (Event Op Res) → Prop}
    (keep : ∀ m events o r, P m events → mon.allows m o → P (mon.next m ⟨o, r⟩) (events ++ [⟨o, r⟩]))
    {m : M} {p q : Prog Op Res α} {events : List (Event Op Res)} (h : mon.Obeys m p)
    (hr : Prog.Runs p events q) (hp : ∀ e ∈ events, mon.possible e.op e.answer)
    {before : List (Event Op Res)} (hm : P m before) :
    P (mon.track m events) (before ++ events) := by
  induction hr generalizing m before with
  | nil p =>
    rw [List.append_nil]
    exact hm
  | call o k r events q _ ih =>
    have hnext := ih (h.2 r (hp _ List.mem_cons_self))
      (fun e he ↦ hp e (List.mem_cons_of_mem _ he)) (keep m before o r hm h.1)
    rwa [List.append_assoc, List.singleton_append] at hnext

/-- The same monitor with another reading of results. -/
def accepting {β : Type} (accepts : M → Except PyError β → Prop) : Monitor Op Res β M :=
  ⟨mon.next, mon.allows, mon.possible, accepts⟩

/-- A composition obeys when its first part ends where the second obeys. -/
theorem obeys_bind {β : Type} {p : Prog Op Res β} {f : β → Prog Op Res α} {m : M}
    (h : (mon.accepting fun m x ↦ (∀ b, x = .ok b → mon.Obeys m (f b)) ∧
      ∀ e, x = .error e → mon.accepts m (.error e)).Obeys m p) : mon.Obeys m (p >>= f) := by
  induction p generalizing m with
  | ret b => exact h.1 b rfl
  | raise e => exact h.2 e rfl
  | call o k ih => exact ⟨h.1, fun r hr ↦ ih r (h.2 r hr)⟩

section Threads

variable {L I S : Type} {prog : L → Prog Op Res α}
  {handle : S → Nat → I → (o : Op) → Option (Res o × S)} {m₀ : L → M}

/-- Where the monitor of a thread has come from the state its label starts in. -/
def phase (m₀ : L → M) (t : Thread Op Res L α) : M := mon.track (m₀ t.label) t.log

/-- The phases of all threads. -/
def phases (m₀ : L → M) (s : Pool Op Res L α S) : List M := s.threads.map (mon.phase m₀)

/-- What is left of a thread of a coherent pool obeys its monitor. -/
theorem obeys_rest {mon : Monitor Op Res α M}
    (hobeys : ∀ label, mon.Obeys (m₀ label) (prog label))
    (hpossible : ∀ o r, mon.possible o r) {s : Pool Op Res L α S} (hs : Pool.Coherent prog s)
    {i : Nat} {t : Thread Op Res L α} (ht : s.threads[i]? = some t) :
    mon.Obeys (mon.phase m₀ t) t.rest :=
  (hobeys t.label).runs (hs.runs i t ht) fun e _ ↦ hpossible e.op e.answer

/-- Everything a scheduling step can do, seen through the phases: a thread enters at the phase of
its label, or one thread performs an operation that its phase allows. -/
theorem step_cases {mon : Monitor Op Res α M}
    (hobeys : ∀ label, mon.Obeys (m₀ label) (prog label))
    (hpossible : ∀ o r, mon.possible o r) {s s' : Pool Op Res L α S} {a : PoolAction L I}
    (hs : Pool.Coherent prog s) (h : Pool.step prog handle s a = some s') :
    (∃ label, a = .spawn label ∧ s'.shared = s.shared ∧
      mon.phases m₀ s' = mon.phases m₀ s ++ [m₀ label] ∧ s'.history = s.history) ∨
    ∃ i input m o r, a = .advance i input ∧ (mon.phases m₀ s)[i]? = some m ∧ mon.allows m o ∧
      handle s.shared i input o = some (r, s'.shared) ∧
      mon.phases m₀ s' = (mon.phases m₀ s).set i (mon.next m ⟨o, r⟩) ∧
      s'.history = s.history ++ [(i, ⟨o, r⟩)] := by
  obtain ⟨label, rfl, rfl⟩ | ⟨i, input, t, o, k, r, shared, rfl, ht, hrest, hhandle, rfl⟩ :=
    Pool.step_cases _ _ h
  · refine .inl ⟨label, rfl, rfl, ?_, rfl⟩
    rw [phases, phases, List.map_append]
    rfl
  · have hobey := obeys_rest hobeys hpossible hs ht
    rw [hrest] at hobey
    refine .inr ⟨i, input, mon.phase m₀ t, o, r, rfl, ?_, hobey.1, hhandle, ?_, rfl⟩
    · rw [phases, List.getElem?_map, ht, Option.map_some]
    · rw [phases, phases, List.map_set, phase, mon.track_snoc]
      rfl

end Threads

end Monitor

end C3RSpec.Base
