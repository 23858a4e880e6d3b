import C3RSpec.Base.Monitor
import Mathlib.Data.List.Count

/-!
# Permits of a counting semaphore

Library `Base`. Threads take permits of a semaphore and give them back, and some of their operations
may only be performed under a permit. Where no thread gives back what it does not hold, the permits
that are held and those that are free are together never more than there were, under any schedule.
-/

namespace C3RSpec.Base

/-- What the operations of a program have to do with a semaphore. -/
structure Semaphore (Op : Type) (Res : Op → Type) where
  grants : Event Op Res → Bool
  releases : Op → Bool
  needs : Op → Bool

/-- Where a thread stands: whether it needs permits at all, and whether it holds one. -/
structure Permit where
  needed : Bool
  held : Bool

namespace Semaphore

variable {Op : Type} {Res : Op → Type} {L I S α : Type} (sem : Semaphore Op Res)

/-- Whether a permit is held after an event. -/
def after (held : Bool) (e : Event Op Res) : Bool :=
  if sem.grants e then true else if sem.releases e.op then false else held

/-- Whether a permit is held after these events. -/
def holds (es : List (Event Op Res)) : Bool := es.foldl sem.after false

/-- Whether an operation that needs a permit was performed and no permit given back since. -/
def busy (es : List (Event Op Res)) : Bool :=
  es.foldl (fun busy e ↦ if sem.releases e.op then false else if sem.needs e.op then true else busy)
    false

/-- A permit is given back only while it is held, and held where it is needed. -/
def monitor : Monitor Op Res α Permit where
  next m e := ⟨m.needed, sem.after m.held e⟩
  allows m o := (sem.releases o = true → m.held = true) ∧
    (sem.needs o = true → m.needed = true → m.held = true)
  possible _ _ := True
  accepts _ _ := True

/-- The shared state counts the free permits. -/
structure Counts (value : S → Nat) (handle : S → Nat → I → (o : Op) → Option (Res o × S)) :
    Prop where
  granted : ∀ {s i input o r s'}, handle s i input o = some (r, s') → sem.grants ⟨o, r⟩ = true →
    value s = value s' + 1
  released : ∀ {s i input o r s'}, handle s i input o = some (r, s') → sem.grants ⟨o, r⟩ = false →
    sem.releases o = true → value s' = value s + 1
  others : ∀ {s i input o r s'}, handle s i input o = some (r, s') → sem.grants ⟨o, r⟩ = false →
    sem.releases o = false → value s' = value s

variable {sem} {prog : L → Prog Op Res α} {handle : S → Nat → I → (o : Op) → Option (Res o × S)}
  {value : S → Nat} {needed : L → Bool}

private theorem track_eq (m : Permit) (es : List (Event Op Res)) :
    (sem.monitor (α := α)).track m es = ⟨m.needed, es.foldl sem.after m.held⟩ := by
  induction es generalizing m with
  | nil => rfl
  | cons e es ih => exact ih ⟨m.needed, sem.after m.held e⟩

variable (sem) in
/-- A thread that needs permits, after these events: it holds one where it is busy. -/
private def Tracks (m : Permit) (es : List (Event Op Res)) : Prop :=
  m = ⟨true, sem.holds es⟩ ∧ (sem.busy es = true → sem.holds es = true)

private theorem tracks_snoc (m : Permit) (es : List (Event Op Res)) (o : Op) (r : Res o)
    (h : sem.Tracks m es) (hallows : (sem.monitor (α := α)).allows m o) :
    sem.Tracks ((sem.monitor (α := α)).next m ⟨o, r⟩) (es ++ [⟨o, r⟩]) := by
  obtain ⟨rfl, hes⟩ := h
  have hholds : sem.holds (es ++ [⟨o, r⟩]) = sem.after (sem.holds es) ⟨o, r⟩ := by
    rw [holds, List.foldl_append]
    rfl
  refine ⟨by rw [hholds]; rfl, fun h ↦ ?_⟩
  rw [hholds, after]
  rw [busy, List.foldl_append] at h
  simp only [List.foldl_cons, List.foldl_nil] at h
  split
  · rfl
  · split
    · next hback =>
      rw [if_pos hback] at h
      cases h
    · next hback =>
      rw [if_neg hback] at h
      split at h
      · next hneed => exact hallows.2 hneed rfl
      · exact hes h

/-- A thread that needs permits holds one from the operation that needs it on, until it is given
back. -/
theorem holds_of_busy {p q : Prog Op Res α} (hobeys : sem.monitor.Obeys ⟨true, false⟩ p)
    {es : List (Event Op Res)} (hrun : Prog.Runs p es q) (hbusy : sem.busy es = true) :
    sem.holds es = true := by
  have hstart : sem.Tracks ⟨true, false⟩ [] := ⟨rfl, fun h ↦ by cases h⟩
  exact (hobeys.invariant tracks_snoc hrun (fun _ _ ↦ trivial) hstart).2 hbusy

private theorem countP_set_add {A : Type} {p : A → Bool} {l : List A} {i : Nat} {a b : A}
    (h : l[i]? = some a) : (l.set i b).countP p + (if p a then 1 else 0) =
      l.countP p + if p b then 1 else 0 := by
  obtain ⟨hi, rfl⟩ := List.getElem?_eq_some_iff.mp h
  have hpos : (if p l[i] then 1 else 0) ≤ l.countP p := by
    split
    · next hp => exact List.countP_pos_iff.mpr ⟨l[i], List.getElem_mem hi, hp⟩
    · exact Nat.zero_le _
  rw [List.countP_set hi]
  omega

/-- Threads that obey the semaphore, from an idle pool: the permits they hold and the free ones are
no more than were free at the start. -/
theorem held_le (hcounts : sem.Counts value handle)
    (hobeys : ∀ label, sem.monitor.Obeys ⟨needed label, false⟩ (prog label)) {init : S}
    {actions : List (PoolAction L I)} {s : Pool Op Res L α S}
    (hrun : runAll (Pool.step prog handle) (Pool.idle init) actions = some s) :
    s.threads.countP (fun t ↦ sem.holds t.log) + value s.shared ≤ value init := by
  have hphases : ∀ s : Pool Op Res L α S, s.threads.countP (fun t ↦ sem.holds t.log) =
      (sem.monitor.phases (α := α) (fun label ↦ ⟨needed label, false⟩) s).countP (·.held) := by
    intro s
    rw [Monitor.phases, List.countP_map]
    congr 1
    funext t
    rw [Function.comp_apply, Monitor.phase, track_eq]
    rfl
  have hkeep : ∀ (s : Pool Op Res L α S) (a : PoolAction L I) (s' : Pool Op Res L α S),
      (Pool.Coherent prog s ∧
        s.threads.countP (fun t ↦ sem.holds t.log) + value s.shared ≤ value init) →
      Pool.step prog handle s a = some s' → Pool.Coherent prog s' ∧
        s'.threads.countP (fun t ↦ sem.holds t.log) + value s'.shared ≤ value init := by
    rintro s a s' ⟨hs, hle⟩ hstep
    refine ⟨Pool.coherent_step prog handle s a s' hs hstep, ?_⟩
    rw [hphases] at hle ⊢
    obtain ⟨label, -, hshared, hphase, -⟩ |
        ⟨i, input, m, o, r, -, hm, hallows, hhandle, hphase, -⟩ :=
      Monitor.step_cases hobeys (fun _ _ ↦ trivial) hs hstep
    · rw [hphase, hshared, List.countP_append]
      exact hle
    · have hset := countP_set_add (p := (·.held)) (b := sem.monitor.next (α := α) m ⟨o, r⟩) hm
      rw [hphase]
      cases hgrants : sem.grants ⟨o, r⟩ with
      | true =>
        have hvalue := hcounts.granted hhandle hgrants
        split at hset <;> split at hset <;> omega
      | false =>
        cases hreleases : sem.releases o with
        | true =>
          -- the permit was held, and is not any more
          have hvalue := hcounts.released hhandle hgrants hreleases
          have hgone : (sem.monitor.next (α := α) m ⟨o, r⟩).held = false := by
            simp [monitor, after, hgrants, hreleases]
          rw [hgone, hallows.1 hreleases, if_pos rfl, if_neg Bool.false_ne_true] at hset
          omega
        | false =>
          have hvalue := hcounts.others hhandle hgrants hreleases
          have hsame : (sem.monitor.next (α := α) m ⟨o, r⟩).held = m.held := by
            simp [monitor, after, hgrants, hreleases]
          rw [hsame] at hset
          omega
  have hstart : Pool.Coherent prog (Pool.idle init : Pool Op Res L α S) ∧
      (Pool.idle init : Pool Op Res L α S).threads.countP (fun t ↦ sem.holds t.log) + value init ≤
        value init := by
    refine ⟨Pool.coherent_idle prog init, ?_⟩
    change ([] : List (Thread Op Res L α)).countP _ + value init ≤ value init
    rw [List.countP_nil, Nat.zero_add]
  exact (runAll_invariant hkeep hstart hrun).2

/-- At every moment, the threads that are busy under a permit and the permits that are free are
together no more than were free at the start. -/
theorem busy_le (hcounts : sem.Counts value handle)
    (hobeys : ∀ label, sem.monitor.Obeys ⟨needed label, false⟩ (prog label)) {init : S}
    {actions : List (PoolAction L I)} {s : Pool Op Res L α S}
    (hrun : runAll (Pool.step prog handle) (Pool.idle init) actions = some s) :
    s.threads.countP (fun t ↦ needed t.label && sem.busy t.log) + value s.shared ≤ value init := by
  have hcoherent := runAll_invariant (Pool.coherent_step prog handle)
    (Pool.coherent_idle prog init) hrun
  refine Nat.le_trans (Nat.add_le_add_right (List.countP_mono_left fun t ht hbusy ↦ ?_) _)
    (held_le hcounts hobeys hrun)
  obtain ⟨i, ht⟩ := List.mem_iff_getElem?.mp ht
  rw [Bool.and_eq_true] at hbusy
  have hthread := hobeys t.label
  rw [hbusy.1] at hthread
  exact holds_of_busy hthread (hcoherent.runs i t ht) hbusy.2

end Semaphore

end C3RSpec.Base
