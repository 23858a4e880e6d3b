import C3RSpec.Base.Monitor
import C3RSpec.Base.Transition

/-!
# Critical sections

Library `Base`. Threads whose programs take one lock, work under it and give it back take effect
one after another: under every schedule the history is a sequence of whole calls and at most one
call in progress, and the shared state is what these calls make of the first one when they run
alone. What is to be shown of such a pool is then shown of calls in sequence.
-/

namespace C3RSpec.Base

/-- Where a call is relative to its section. -/
inductive Section where
  | before
  | inside
  | after
  deriving DecidableEq

/-- Which operations take the lock and give it back, and whether it is held. -/
structure Lock (Op S : Type) where
  acquires : Op → Bool
  releases : Op → Bool
  held : S → Bool

namespace Lock

variable {Op S L I α : Type} {Res : Op → Type} (lock : Lock Op S)

/-- A call takes the lock first, does not take it again, and stops once it has given it back. -/
def monitor : Monitor Op Res α Section where
  next stage e :=
    if lock.acquires e.op then .inside else if lock.releases e.op then .after else stage
  allows stage o :=
    match stage with
    | .before => lock.acquires o = true
    | .inside => lock.acquires o = false
    | .after => False
  possible _ _ := True
  accepts stage _ := stage ≠ .inside

/-- Where the events of a call have brought it. -/
def stage (es : List (Event Op Res)) : Section := (lock.monitor (α := Unit)).track .before es

/-- One more event. -/
theorem stage_snoc (es : List (Event Op Res)) (e : Event Op Res) :
    lock.stage (es ++ [e]) = if lock.acquires e.op then .inside
      else if lock.releases e.op then .after else lock.stage es :=
  Monitor.track_snoc _ _ es e

/-- The host: the lock blocks while it is held, and nothing else moves it. -/
structure Guards (handle : S → Nat → I → (o : Op) → Option (Res o × S)) : Prop where
  acquire : ∀ {s i input o r s'}, handle s i input o = some (r, s') → lock.acquires o = true →
    lock.held s = false ∧ lock.held s' = true
  release : ∀ {s i input o r s'}, handle s i input o = some (r, s') → lock.acquires o = false →
    lock.releases o = true → lock.held s' = false
  other : ∀ {s i input o r s'}, handle s i input o = some (r, s') → lock.acquires o = false →
    lock.releases o = false → lock.held s' = lock.held s

end Lock

section Serial

variable {Op S L I α : Type} {Res : Op → Type} (prog : L → Prog Op Res α)
  (handle : S → Nat → I → (o : Op) → Option (Res o × S))

/-- The host answers the events of a thread from one state to another. -/
inductive Answers (i : Nat) : S → List (Event Op Res) → S → Prop
  | nil (s : S) : Answers i s [] s
  | cons {s t u : S} {o : Op} {r : Res o} {es : List (Event Op Res)} {input : I}
      (h : handle s i input o = some (r, t)) (hes : Answers i t es u) :
      Answers i s (⟨o, r⟩ :: es) u

/-- A call that has stopped. -/
structure Call (Op : Type) (Res : Op → Type) (L α : Type) where
  thread : Nat
  label : L
  events : List (Event Op Res)
  result : Except PyError α

/-- Whole calls one after another. -/
inductive Serial (init : S) : List (Call Op Res L α) → S → Prop
  | nil : Serial init [] init
  | snoc {s t : S} {calls : List (Call Op Res L α)} {c : Call Op Res L α}
      (h : Serial init calls s) (hanswers : Answers handle c.thread s c.events t)
      (hfinishes : Prog.Finishes (prog c.label) c.events c.result) :
      Serial init (calls ++ [c]) t

variable {handle} in
/-- One more answer. -/
theorem Answers.snoc {i : Nat} {s t u : S} {es : List (Event Op Res)} {o : Op} {r : Res o}
    {input : I} (h : Answers handle i s es t) (hstep : handle t i input o = some (r, u)) :
    Answers handle i s (es ++ [⟨o, r⟩]) u := by
  induction h with
  | nil s => exact .cons hstep (.nil u)
  | cons hfirst _ ih => exact .cons hfirst (ih hstep)

variable {handle} in
/-- The first operation of a call, and the rest of it. -/
theorem Answers.of_call {i : Nat} {s u : S} {es : List (Event Op Res)} {q : Prog Op Res α} {o : Op}
    {k : Res o → Prog Op Res α} (h : Answers handle i s es u) (hrun : Prog.Runs (.call o k) es q)
    (hq : q ≠ .call o k) :
    ∃ input r t es', handle s i input o = some (r, t) ∧ es = ⟨o, r⟩ :: es' ∧
      Answers handle i t es' u ∧ Prog.Runs (k r) es' q := by
  obtain ⟨-, hnow⟩ | ⟨r, es', rfl, hrest⟩ := Prog.runs_call.mp hrun
  · exact absurd hnow hq
  · cases h with
    | cons hstep hes => exact ⟨_, r, _, es', hstep, rfl, hes, hrest⟩

/-- The thread of a call that has stopped. -/
def Records (s : Pool Op Res L α S) (c : Call Op Res L α) : Prop :=
  ∃ t, s.threads[c.thread]? = some t ∧ t.label = c.label ∧ t.log = c.events ∧
    t.rest.result? = some c.result

/-- A pool whose calls took effect one after another: some have stopped, at most one is in
progress, and the others have done nothing. -/
structure SerialPool (lock : Lock Op S) (init : S) (s : Pool Op Res L α S)
    (calls : List (Call Op Res L α)) (current : Option Nat) : Prop where
  records : ∀ c ∈ calls, Records s c
  others : ∀ i t, s.threads[i]? = some t → t.log ≠ [] →
    current = some i ∨ ∃ c ∈ calls, c.thread = i
  distinct : (calls.map Call.thread).Nodup
  idle : current = none → lock.held s.shared = false ∧ Serial prog handle init calls s.shared
  busy : ∀ i, current = some i → lock.held s.shared = true ∧ i ∉ calls.map Call.thread ∧
    ∃ t mid, s.threads[i]? = some t ∧ lock.stage t.log = .inside ∧
      Serial prog handle init calls mid ∧ Answers handle i mid t.log s.shared

variable {prog handle} {lock : Lock Op S}

/-- A pool without threads is serial. -/
theorem serialPool_idle {init : S} (h : lock.held init = false) :
    SerialPool prog handle lock init (Pool.idle init : Pool Op Res L α S) [] none where
  records := by simp
  others := by simp [Pool.idle]
  distinct := List.nodup_nil
  idle _ := ⟨h, .nil⟩
  busy := by simp

/-- What is left of a call obeys the lock from the stage it has reached. -/
private theorem obeys_stage (hobeys : ∀ label, lock.monitor.Obeys .before (prog label))
    {s : Pool Op Res L α S} (hs : Pool.Coherent prog s) {i : Nat} {t : Thread Op Res L α}
    (ht : s.threads[i]? = some t) : lock.monitor.Obeys (lock.stage t.log) t.rest :=
  (hobeys t.label).runs (hs.runs i t ht) fun _ _ ↦ trivial

private theorem getElem?_append_of_eq_some {A : Type} {xs ys : List A} {i : Nat} {a : A}
    (h : xs[i]? = some a) : (xs ++ ys)[i]? = some a := by
  rw [List.getElem?_append_left (List.getElem?_eq_some_iff.mp h).1]
  exact h

private theorem records_set {s : Pool Op Res L α S} {i : Nat} {t u : Thread Op Res L α}
    (ht : s.threads[i]? = some t) (hrest : t.rest.result? = none) {shared : S}
    {history : List (Nat × Event Op Res)} {c : Call Op Res L α} (h : Records s c) :
    Records ⟨shared, s.threads.set i u, history⟩ c ∧ c.thread ≠ i := by
  obtain ⟨t', ht', hlabel, hlog, hresult⟩ := h
  have hne : c.thread ≠ i := by
    rintro rfl
    rw [ht] at ht'
    cases ht'
    rw [hrest] at hresult
    cases hresult
  refine ⟨⟨t', ?_, hlabel, hlog, hresult⟩, hne⟩
  rw [List.getElem?_set_ne hne.symm]
  exact ht'

section Steps

variable {init : S} {s : Pool Op Res L α S} {calls : List (Call Op Res L α)} {current : Option Nat}
  {i : Nat} {input : I} {t : Thread Op Res L α} {o : Op} {r : Res o} {rest : Prog Op Res α}
  {shared : S} {history : List (Nat × Event Op Res)}

private theorem others_set (h : SerialPool prog handle lock init s calls current)
    {u v : Thread Op Res L α} {j : Nat} (hv : (s.threads.set i u)[j]? = some v)
    (hlog : v.log ≠ []) : j = i ∨ current = some j ∨ ∃ c ∈ calls, c.thread = j := by
  rw [List.getElem?_set] at hv
  split at hv
  · next hij => exact .inl hij.symm
  · exact .inr (h.others j v hv hlog)

private theorem fresh_of_unfinished (h : SerialPool prog handle lock init s calls current)
    (ht : s.threads[i]? = some t) (hrest : t.rest.result? = none) : i ∉ calls.map Call.thread := by
  intro hmem
  obtain ⟨c, hc, hthread⟩ := List.mem_map.mp hmem
  have hrecord : Records ⟨s.shared, s.threads.set i t, s.history⟩ c ∧ c.thread ≠ i :=
    records_set ht hrest (h.records c hc)
  exact hrecord.2 hthread

/-- A new thread has done nothing. -/
theorem SerialPool.spawn (h : SerialPool prog handle lock init s calls current)
    {u : Thread Op Res L α} (hu : u.log = []) :
    SerialPool prog handle lock init ⟨s.shared, s.threads ++ [u], history⟩ calls current := by
  refine ⟨?_, ?_, h.distinct, h.idle, ?_⟩
  · rintro c hc
    obtain ⟨t, ht, hrecord⟩ := h.records c hc
    exact ⟨t, getElem?_append_of_eq_some ht, hrecord⟩
  · intro j t ht hlog
    rw [List.getElem?_append] at ht
    split at ht
    · exact h.others j t ht hlog
    · rw [List.getElem?_singleton] at ht
      split at ht
      · cases ht
        exact absurd hu hlog
      · cases ht
  · intro j hj
    obtain ⟨hheld, hnew, t, mid, ht, hrun⟩ := h.busy j hj
    exact ⟨hheld, hnew, t, mid, getElem?_append_of_eq_some ht, hrun⟩

/-- A call takes the lock. -/
theorem SerialPool.acquire (h : SerialPool prog handle lock init s calls none)
    (ht : s.threads[i]? = some t) (hunfinished : t.rest.result? = none) (hlog : t.log = [])
    (hhandle : handle s.shared i input o = some (r, shared)) (hacquires : lock.acquires o = true)
    (hheld : lock.held shared = true) : SerialPool prog handle lock init
      ⟨shared, s.threads.set i ⟨t.label, t.log ++ [⟨o, r⟩], rest⟩, history⟩ calls (some i) := by
  have hi : i < s.threads.length := (List.getElem?_eq_some_iff.mp ht).1
  obtain ⟨-, hserial⟩ := h.idle rfl
  refine ⟨fun c hc ↦ (records_set ht hunfinished (h.records c hc)).1, ?_, h.distinct, by simp, ?_⟩
  · intro j u hu hne
    obtain rfl | hj | hj := others_set h hu hne
    · exact .inl rfl
    · cases hj
    · exact .inr hj
  · rintro j hj
    cases hj
    refine ⟨hheld, fresh_of_unfinished h ht hunfinished, _, s.shared, List.getElem?_set_self hi, ?_,
      hserial, ?_⟩
    · rw [lock.stage_snoc, if_pos hacquires]
    · rw [hlog]
      exact .cons hhandle (.nil shared)

/-- The call in progress does something under the lock. -/
theorem SerialPool.work (h : SerialPool prog handle lock init s calls (some i))
    (ht : s.threads[i]? = some t) (hunfinished : t.rest.result? = none)
    (hhandle : handle s.shared i input o = some (r, shared)) (hacquires : lock.acquires o = false)
    (hreleases : lock.releases o = false) (hheld : lock.held shared = true) :
    SerialPool prog handle lock init
      ⟨shared, s.threads.set i ⟨t.label, t.log ++ [⟨o, r⟩], rest⟩, history⟩ calls (some i) := by
  have hi : i < s.threads.length := (List.getElem?_eq_some_iff.mp ht).1
  obtain ⟨-, hfresh, t', mid, ht', hinside, hserial, hanswers⟩ := h.busy i rfl
  rw [ht] at ht'
  cases ht'
  refine ⟨fun c hc ↦ (records_set ht hunfinished (h.records c hc)).1, ?_, h.distinct, by simp, ?_⟩
  · intro j u hu hne
    obtain rfl | hj | hj := others_set h hu hne
    · exact .inl rfl
    · exact .inl hj
    · exact .inr hj
  · rintro j hj
    cases hj
    refine ⟨hheld, hfresh, _, mid, List.getElem?_set_self hi, ?_, hserial, hanswers.snoc hhandle⟩
    rw [lock.stage_snoc, hacquires, hreleases, if_neg Bool.false_ne_true, if_neg Bool.false_ne_true]
    exact hinside

/-- The call in progress gives the lock back and has stopped. -/
theorem SerialPool.release (h : SerialPool prog handle lock init s calls (some i))
    (ht : s.threads[i]? = some t) (hunfinished : t.rest.result? = none)
    (hhandle : handle s.shared i input o = some (r, shared)) (hfree : lock.held shared = false)
    (hruns : Prog.Runs (prog t.label) (t.log ++ [⟨o, r⟩]) rest) {x : Except PyError α}
    (hx : rest.result? = some x) : SerialPool prog handle lock init
      ⟨shared, s.threads.set i ⟨t.label, t.log ++ [⟨o, r⟩], rest⟩, history⟩
      (calls ++ [⟨i, t.label, t.log ++ [⟨o, r⟩], x⟩]) none := by
  have hi : i < s.threads.length := (List.getElem?_eq_some_iff.mp ht).1
  obtain ⟨-, hfresh, t', mid, ht', -, hserial, hanswers⟩ := h.busy i rfl
  rw [ht] at ht'
  cases ht'
  refine ⟨?_, ?_, ?_, fun _ ↦ ⟨hfree, .snoc hserial (hanswers.snoc hhandle) ⟨rest, hruns, hx⟩⟩,
    by simp⟩
  · intro c hc
    obtain hc | hc := List.mem_append.mp hc
    · exact (records_set ht hunfinished (h.records c hc)).1
    · cases List.mem_singleton.mp hc
      exact ⟨_, List.getElem?_set_self hi, rfl, rfl, hx⟩
  · intro j u hu hne
    obtain rfl | hj | ⟨c, hc, hj⟩ := others_set h hu hne
    · exact .inr ⟨_, List.mem_append_right _ (List.mem_singleton_self _), rfl⟩
    · cases hj
      exact .inr ⟨_, List.mem_append_right _ (List.mem_singleton_self _), rfl⟩
    · exact .inr ⟨c, List.mem_append_left _ hc, hj⟩
  · rw [List.map_append, List.nodup_append]
    refine ⟨h.distinct, by simp, fun a ha b hb ↦ ?_⟩
    rw [List.mem_singleton.mp hb]
    rintro rfl
    exact hfresh ha

end Steps

/-- What obeys the lock after its section has stopped. -/
private theorem exists_result_of_after {q : Prog Op Res α}
    (h : (lock.monitor (α := α)).Obeys .after q) : ∃ x, q.result? = some x := by
  cases q with
  | ret a => exact ⟨_, rfl⟩
  | raise e => exact ⟨_, rfl⟩
  | call o k => exact h.1.elim

/-- Every scheduling step keeps a pool serial. -/
theorem SerialPool.step (hguards : lock.Guards handle)
    (hobeys : ∀ label, lock.monitor.Obeys .before (prog label)) {init : S}
    {s s' : Pool Op Res L α S} {a : PoolAction L I} {calls : List (Call Op Res L α)}
    {current : Option Nat} (hs : Pool.Coherent prog s)
    (h : SerialPool prog handle lock init s calls current)
    (hstep : Pool.step prog handle s a = some s') :
    ∃ calls' current', SerialPool prog handle lock init s' calls' current' := by
  have hs' := Pool.coherent_step prog handle s a s' hs hstep
  obtain ⟨label, -, rfl⟩ | ⟨i, input, t, o, k, r, shared, -, ht, hrest, hhandle, rfl⟩ :=
    Pool.step_cases prog handle hstep
  · exact ⟨calls, current, h.spawn rfl⟩
  · have hself := List.getElem?_set_self (a := (⟨t.label, t.log ++ [⟨o, r⟩], k r⟩ : Thread Op Res L α))
      (List.getElem?_eq_some_iff.mp ht).1
    have hunfinished : t.rest.result? = none := by rw [hrest]; rfl
    have hobey := obeys_stage hobeys hs ht
    rw [hrest] at hobey
    by_cases hlog : t.log = []
    · rw [hlog] at hobey
      have hacquires : lock.acquires o = true := hobey.1
      obtain ⟨hfree, hheld⟩ := hguards.acquire hhandle hacquires
      -- the lock was free, so no call was in progress
      cases current with
      | none => exact ⟨calls, some i, h.acquire ht hunfinished hlog hhandle hacquires hheld⟩
      | some j =>
        rw [(h.busy j rfl).1] at hfree
        cases hfree
    · obtain rfl | ⟨c, hc, hthread⟩ := h.others i t ht hlog
      · obtain ⟨hheld, -, t', -, ht', hinside, -⟩ := h.busy i rfl
        rw [ht] at ht'
        cases ht'
        rw [hinside] at hobey
        have hacquires : lock.acquires o = false := hobey.1
        cases hreleases : lock.releases o with
        | true =>
          have hstage : lock.stage (t.log ++ [⟨o, r⟩]) = .after := by
            rw [lock.stage_snoc, hacquires, hreleases]
            rfl
          have hstopped := obeys_stage hobeys hs' hself
          rw [hstage] at hstopped
          obtain ⟨x, hx⟩ := exists_result_of_after hstopped
          exact ⟨_, none, h.release ht hunfinished hhandle
            (hguards.release hhandle hacquires hreleases) (hs'.runs i _ hself) hx⟩
        | false =>
          have hheld' : lock.held shared = true := by
            rw [hguards.other hhandle hacquires hreleases, hheld]
          exact ⟨calls, some i, h.work ht hunfinished hhandle hacquires hreleases hheld'⟩
      · exact absurd (List.mem_map.mpr ⟨c, hc, hthread⟩) (fresh_of_unfinished h ht hunfinished)

/-- A call that has begun and not stopped is the one in progress. -/
theorem SerialPool.current_of_unfinished {init : S} {s : Pool Op Res L α S}
    {calls : List (Call Op Res L α)} {current : Option Nat}
    (h : SerialPool prog handle lock init s calls current) {i : Nat} {t : Thread Op Res L α}
    (ht : s.threads[i]? = some t) (hbegun : t.log ≠ []) (hrest : t.rest.result? = none) :
    current = some i := by
  obtain hcurrent | ⟨c, hc, rfl⟩ := h.others i t ht hbegun
  · exact hcurrent
  · obtain ⟨t', ht', -, -, hresult⟩ := h.records c hc
    rw [ht] at ht'
    cases ht'
    rw [hrest] at hresult
    cases hresult

/-- A call that has begun and stopped is one of the whole calls. -/
theorem SerialPool.recorded (hobeys : ∀ label, lock.monitor.Obeys .before (prog label)) {init : S}
    {s : Pool Op Res L α S} {calls : List (Call Op Res L α)} {current : Option Nat}
    (hs : Pool.Coherent prog s) (h : SerialPool prog handle lock init s calls current) {i : Nat}
    {t : Thread Op Res L α} (ht : s.threads[i]? = some t) (hbegun : t.log ≠ [])
    {x : Except PyError α} (hx : t.rest.result? = some x) :
    ∃ c ∈ calls, c.thread = i ∧ c.events = t.log ∧ c.result = x := by
  obtain hcurrent | ⟨c, hc, rfl⟩ := h.others i t ht hbegun
  · obtain ⟨-, -, t', mid, ht', hinside, -⟩ := h.busy i hcurrent
    rw [ht] at ht'
    cases ht'
    have hobey := obeys_stage hobeys hs ht
    rw [hinside] at hobey
    cases hrest : t.rest with
    | ret a =>
      rw [hrest] at hobey
      exact absurd rfl hobey
    | raise e =>
      rw [hrest] at hobey
      exact absurd rfl hobey
    | call o k =>
      rw [hrest] at hx
      cases hx
  · obtain ⟨t', ht', -, hlog, hresult⟩ := h.records c hc
    rw [ht] at ht'
    cases ht'
    rw [hx] at hresult
    exact ⟨c, hc, rfl, hlog.symm, (Option.some.inj hresult).symm⟩

/-- Under every schedule the calls of a pool take effect one after another. -/
theorem serial_of_run (hguards : lock.Guards handle)
    (hobeys : ∀ label, lock.monitor.Obeys .before (prog label)) {init : S}
    (hfree : lock.held init = false) {as : List (PoolAction L I)} {s : Pool Op Res L α S}
    (hrun : runAll (Pool.step prog handle) (Pool.idle init) as = some s) :
    Pool.Coherent prog s ∧ ∃ calls current, SerialPool prog handle lock init s calls current := by
  have keep : ∀ s a s', (Pool.Coherent prog s ∧
      ∃ calls current, SerialPool prog handle lock init s calls current) →
        Pool.step prog handle s a = some s' → Pool.Coherent prog s' ∧
          ∃ calls current, SerialPool prog handle lock init s' calls current := by
    rintro s a s' ⟨hs, calls, current, h⟩ hstep
    exact ⟨Pool.coherent_step prog handle s a s' hs hstep, h.step hguards hobeys hs hstep⟩
  exact runAll_invariant keep ⟨Pool.coherent_idle prog init, [], none, serialPool_idle hfree⟩ hrun

end Serial

end C3RSpec.Base
