import C3RSpec.Base.CriticalSection
import Mathlib.Algebra.Order.Ring.Rat
import Mathlib.Tactic.Linarith

/-!
# Coalesced readiness probes

`c3r/readiness.py:7–26`. Request threads share one cached probe. Under every schedule, with a clock
that does not go backwards and whatever the probe answers, the probe is never asked by two threads
at once nor before the last answer has expired, and what a call returns is the answer of a probe
that has not expired when the call reads the clock.
-/

namespace C3RSpec.Readiness

open Base

/-- `CachedReadiness`; the constructor checks the lifetime. -/
structure CachedReadiness where
  ttl : ℚ
  positive : 0 < ttl
  bounded : ttl ≤ 30

/-- The steps of a call. -/
inductive ReadinessOp where
  | acquire
  | release
  | clock
  | expires
  | value
  | probe
  | setValue (ready : Bool)
  | setExpires (time : ℚ)

/-- What each step returns; the expiry is minus infinity at first. -/
abbrev ReadinessOp.Res : ReadinessOp → Type
  | .acquire | .release | .setValue _ | .setExpires _ => Unit
  | .clock => ℚ
  | .expires => Option ℚ
  | .value => Bool
  | .probe => Except PyError Bool

/-- A program over these steps. -/
abbrev ReadinessProg := Prog ReadinessOp ReadinessOp.Res

/-- Perform one step. -/
def ask (o : ReadinessOp) : ReadinessProg o.Res := Prog.perform o

/-- What the `except` clause catches: the four host failures and `KeyError`. -/
def isProbeFailure (e : PyError) : Bool := e.isHostFailure || decide (e.kind = .keyError)

namespace CachedReadiness

variable (cache : CachedReadiness)

/-- The end of a call that asked the probe. -/
def renew (ready : Bool) : ReadinessProg Bool := do
  ask (.setValue ready)
  let now : ℚ ← ask .clock
  ask (.setExpires (now + cache.ttl))
  let value : Bool ← ask .value
  ask .release
  return value

/-- `__call__`; the lock is given back on every way out of the `with` block. -/
def call : ReadinessProg Bool := do
  ask .acquire
  let now : ℚ ← ask .clock
  let expires : Option ℚ ← ask .expires
  if expires.any fun time ↦ decide (now < time) then
    let value : Bool ← ask .value
    ask .release
    return value
  else
    match ← ask .probe with
    | .ok ready => cache.renew ready
    | .error e =>
      if isProbeFailure e then cache.renew false
      else
        ask .release
        throw e

end CachedReadiness

/-- What the threads share, and the last clock reading. -/
structure CacheState where
  locked : Bool := false
  value : Bool := false
  expires : Option ℚ := none
  reading : Option ℚ := none

/-- What the outside answers. -/
structure ReadinessInput where
  reading : ℚ
  answer : Except PyError Bool

/-- One step: a lock that blocks while it is held, and a clock that does not go backwards. -/
def handle (s : CacheState) (_ : Nat) (input : ReadinessInput) :
    (o : ReadinessOp) → Option (o.Res × CacheState)
  | .acquire => if s.locked then none else some ((), { s with locked := true })
  | .release => some ((), { s with locked := false })
  | .clock =>
    if s.reading.any fun last ↦ decide (input.reading < last) then none
    else some (input.reading, { s with reading := some input.reading })
  | .expires => some (s.expires, s)
  | .value => some (s.value, s)
  | .probe => some (input.answer, s)
  | .setValue ready => some ((), { s with value := ready })
  | .setExpires time => some ((), { s with expires := some time })

/-- The lock of the cache. -/
def cacheLock : Lock ReadinessOp CacheState where
  acquires
    | .acquire => true
    | .release | .clock | .expires | .value | .probe | .setValue _ | .setExpires _ => false
  releases
    | .release => true
    | .acquire | .clock | .expires | .value | .probe | .setValue _ | .setExpires _ => false
  held := CacheState.locked

/-- A thread that asks for readiness. -/
abbrev ReadinessThread := Thread ReadinessOp ReadinessOp.Res Unit Bool

/-- Threads that ask for readiness. -/
abbrev ReadinessPool := Pool ReadinessOp ReadinessOp.Res Unit Bool CacheState

/-- The events of a call. -/
abbrev Log := List (Event ReadinessOp ReadinessOp.Res)

/-- What a clock step answered. -/
def reading? : Event ReadinessOp ReadinessOp.Res → Option ℚ
  | ⟨.clock, now⟩ => some now
  | _ => none

/-- The expiry that a step stored. -/
def expiry? : Event ReadinessOp ReadinessOp.Res → Option ℚ
  | ⟨.setExpires time, _⟩ => some time
  | _ => none

/-- The first clock reading of a call. -/
def begins (log : Log) : Option ℚ := log.findSome? reading?

/-- The call asked the probe and stored its answer until a time that is a whole lifetime away. -/
structure Refreshed (ttl : ℚ) (log : Log) (began : ℚ) (ready : Bool) (expiry : ℚ) : Prop where
  began_eq : begins log = some began
  answered : ∃ answer : Except PyError Bool, ⟨.probe, answer⟩ ∈ log ∧
    (ready = true ↔ answer = .ok true)
  stored : ⟨.setExpires expiry, ()⟩ ∈ log
  lasts : began + ttl ≤ expiry

/-- What a refresh stored is among the expiries of the call. -/
theorem Refreshed.mem_expiries {ttl : ℚ} {log : Log} {began expiry : ℚ} {ready : Bool}
    (h : Refreshed ttl log began ready expiry) : expiry ∈ log.filterMap expiry? :=
  List.mem_filterMap.mpr ⟨_, h.stored, rfl⟩

/-! ### One call -/

theorem guards : cacheLock.Guards handle where
  acquire {s i input o r s'} h hacquires := by
    cases o with
    | acquire =>
      simp only [handle] at h
      split at h
      · cases h
      · next hfree =>
        cases h
        exact ⟨Bool.eq_false_iff.mpr hfree, rfl⟩
    | release | clock | expires | value | probe | setValue | setExpires => cases hacquires
  release {s i input o r s'} h _ hreleases := by
    cases o with
    | release =>
      cases h
      rfl
    | acquire | clock | expires | value | probe | setValue | setExpires => cases hreleases
  other {s i input o r s'} h hacquires hreleases := by
    cases o with
    | acquire => cases hacquires
    | release => cases hreleases
    | clock =>
      simp only [handle] at h
      split at h
      · cases h
      · cases h
        rfl
    | expires | value | probe | setValue | setExpires =>
      cases h
      rfl

private theorem obeys_renew (cache : CachedReadiness) (ready : Bool) :
    cacheLock.monitor.Obeys .inside (cache.renew ready) :=
  ⟨rfl, fun _ _ ↦ ⟨rfl, fun _ _ ↦ ⟨rfl, fun _ _ ↦ ⟨rfl, fun _ _ ↦ ⟨rfl, fun _ _ ↦
    (by decide : Section.after ≠ .inside)⟩⟩⟩⟩⟩

theorem obeys_call (cache : CachedReadiness) : cacheLock.monitor.Obeys .before cache.call := by
  refine ⟨rfl, fun _ _ ↦ ⟨rfl, fun now _ ↦ ⟨rfl, fun expires _ ↦ ?_⟩⟩⟩
  change cacheLock.monitor.Obeys .inside (if _ then _ else _)
  split
  · exact ⟨rfl, fun _ _ ↦ ⟨rfl, fun _ _ ↦ (by decide : Section.after ≠ .inside)⟩⟩
  · refine ⟨rfl, fun answer _ ↦ ?_⟩
    cases answer with
    | ok ready => exact obeys_renew cache ready
    | error e =>
      change cacheLock.monitor.Obeys .inside (if _ then _ else _)
      split
      · exact obeys_renew cache false
      · exact ⟨rfl, fun _ _ ↦ (by decide : Section.after ≠ .inside)⟩

/-- Everything a call can do when it runs alone. -/
inductive CallOutcome (ttl : ℚ) (s u : CacheState) (log : Log) (x : Except PyError Bool) : Prop
  | cached {now time : ℚ} (hbegins : begins log = some now) (hexpires : s.expires = some time)
      (hvalid : now < time) (hx : x = .ok s.value) (hvalue : u.value = s.value)
      (hkept : u.expires = s.expires) (hreading : u.reading = some now)
      (hnone : ∀ began ready expiry, ¬Refreshed ttl log began ready expiry)
  | renewed {now later : ℚ} {ready : Bool} (hbegins : begins log = some now)
      (hexpired : ∀ time, s.expires = some time → time ≤ now) (hlater : now ≤ later)
      (hrefreshed : Refreshed ttl log now ready (later + ttl)) (hx : x = .ok ready)
      (hvalue : u.value = ready) (hexpires : u.expires = some (later + ttl))
      (hreading : u.reading = some later)
      (honly : ∀ began ready' expiry, Refreshed ttl log began ready' expiry →
        began = now ∧ expiry = later + ttl)
  | escaped {now : ℚ} {e : PyError} (hbegins : begins log = some now) (hx : x = .error e)
      (hvalue : u.value = s.value) (hkept : u.expires = s.expires) (hreading : u.reading = some now)
      (hnone : ∀ began ready expiry, ¬Refreshed ttl log began ready expiry)

private theorem handle_clock {s t : CacheState} {i : Nat} {input : ReadinessInput} {now : ℚ}
    (h : handle s i input .clock = some (now, t)) :
    t = { s with reading := some now } ∧ ∀ last, s.reading = some last → last ≤ now := by
  simp only [handle] at h
  split at h
  · cases h
  · next hnot =>
    cases h
    refine ⟨rfl, fun last hlast ↦ ?_⟩
    rw [hlast, Option.any_some] at hnot
    exact not_lt.mp fun hlt ↦ hnot (decide_eq_true hlt)

private theorem not_call {α : Type} {q : ReadinessProg α} {x : Except PyError α}
    (h : q.result? = some x) {o : ReadinessOp} {k : o.Res → ReadinessProg α} : q ≠ .call o k := by
  rintro rfl
  cases h

private theorem renew_outcome {cache : CachedReadiness} {i : Nat} {s u : CacheState} {ready : Bool}
    {log : Log} {q : ReadinessProg Bool} {x : Except PyError Bool}
    (h : Answers handle i s log u) (hrun : Prog.Runs (cache.renew ready) log q)
    (hq : q.result? = some x) :
    ∃ later, (∀ last, s.reading = some last → last ≤ later) ∧ x = .ok ready ∧ u.value = ready ∧
      u.expires = some (later + cache.ttl) ∧ u.reading = some later ∧
      log = [⟨.setValue ready, ()⟩, ⟨.clock, later⟩, ⟨.setExpires (later + cache.ttl), ()⟩,
        ⟨.value, ready⟩, ⟨.release, ()⟩] := by
  obtain ⟨_, _, t, _, hstep, rfl, h, hrun⟩ := h.of_call hrun (not_call hq)
  cases hstep
  obtain ⟨_, later, t, _, hstep, rfl, h, hrun⟩ := h.of_call hrun (not_call hq)
  obtain ⟨rfl, hlater⟩ := handle_clock hstep
  obtain ⟨_, _, t, _, hstep, rfl, h, hrun⟩ := h.of_call hrun (not_call hq)
  cases hstep
  obtain ⟨_, _, t, _, hstep, rfl, h, hrun⟩ := h.of_call hrun (not_call hq)
  cases hstep
  obtain ⟨_, _, t, _, hstep, rfl, h, hrun⟩ := h.of_call hrun (not_call hq)
  cases hstep
  obtain ⟨rfl, rfl⟩ := Prog.runs_ret.mp hrun
  cases h
  cases hq
  exact ⟨later, hlater, rfl, rfl, rfl, rfl, rfl⟩

/-- A call that has come to its end. -/
theorem call_outcome {cache : CachedReadiness} {i : Nat} {s u : CacheState} {log : Log}
    {x : Except PyError Bool} (h : Answers handle i s log u)
    (hfinishes : Prog.Finishes cache.call log x) :
    (∀ last, s.reading = some last → ∃ now, begins log = some now ∧ last ≤ now) ∧
      CallOutcome cache.ttl s u log x := by
  obtain ⟨q, hrun, hq⟩ := hfinishes
  obtain ⟨_, _, t, _, hstep, rfl, h, hrun⟩ := h.of_call hrun (not_call hq)
  simp only [handle] at hstep
  split at hstep
  · cases hstep
  · cases hstep
    obtain ⟨_, now, t, _, hstep, rfl, h, hrun⟩ := h.of_call hrun (not_call hq)
    obtain ⟨rfl, hnow⟩ := handle_clock hstep
    refine ⟨fun last hlast ↦ ⟨now, rfl, hnow last hlast⟩, ?_⟩
    obtain ⟨_, _, t, _, hstep, rfl, h, hrun⟩ := h.of_call hrun (not_call hq)
    cases hstep
    change Prog.Runs (if (s.expires.any fun time ↦ decide (now < time)) = true then _ else _) _ _
      at hrun
    split at hrun
    · next hvalid =>
      -- the stored value has not expired
      obtain ⟨time, htime, hlt⟩ := (Option.any_eq_true _ _).mp hvalid
      obtain ⟨_, _, t, _, hstep, rfl, h, hrun⟩ := h.of_call hrun (not_call hq)
      cases hstep
      obtain ⟨_, _, t, _, hstep, rfl, h, hrun⟩ := h.of_call hrun (not_call hq)
      cases hstep
      obtain ⟨rfl, rfl⟩ := Prog.runs_ret.mp hrun
      cases h
      cases hq
      exact .cached rfl htime (of_decide_eq_true hlt) rfl rfl rfl rfl fun _ _ _ hr ↦
        List.not_mem_nil hr.mem_expiries
    · next hexpired =>
      have hexpired : ∀ time, s.expires = some time → time ≤ now := by
        intro time htime
        rw [htime, Option.any_some] at hexpired
        exact not_lt.mp fun hlt ↦ hexpired (decide_eq_true hlt)
      obtain ⟨⟨_, answer⟩, _, t, _, hstep, rfl, hrest, hrun⟩ := h.of_call hrun (not_call hq)
      clear h
      cases hstep
      have renewed : ∀ ready : Bool, (ready = true ↔ answer = .ok true) → ∀ {es : Log},
          Answers handle i { s with locked := true, reading := some now } es u →
          Prog.Runs (cache.renew ready) es q → CallOutcome cache.ttl s u (⟨.acquire, ()⟩ ::
            ⟨.clock, now⟩ :: ⟨.expires, s.expires⟩ :: ⟨.probe, answer⟩ :: es) x := by
        intro ready hready es h hrun
        obtain ⟨later, hlater, rfl, hvalue, hstored, hreading, rfl⟩ := renew_outcome h hrun hq
        have hlater : now ≤ later := hlater now rfl
        refine .renewed rfl hexpired hlater ⟨rfl, ⟨answer, by simp, hready⟩, by simp, ?_⟩ rfl hvalue
          hstored hreading ?_
        · exact add_le_add_left hlater _
        · intro began ready' expiry hr
          exact ⟨Option.some.inj hr.began_eq.symm, List.mem_singleton.mp hr.mem_expiries⟩
      cases answer with
      | ok ready => exact renewed ready (by simp) hrest hrun
      | error e =>
        change Prog.Runs (if isProbeFailure e = true then _ else _) _ _ at hrun
        split at hrun
        · exact renewed false (by simp) hrest hrun
        · obtain ⟨_, _, t, _, hstep, rfl, h, hrun⟩ := hrest.of_call hrun (not_call hq)
          cases hstep
          obtain ⟨rfl, rfl⟩ := Prog.runs_raise.mp hrun
          cases h
          cases hq
          exact .escaped rfl rfl rfl rfl rfl fun _ _ _ hr ↦ List.not_mem_nil hr.mem_expiries

/-! ### Calls in sequence -/

/-- What holds after whole calls, one after another. -/
structure Cached (ttl : ℚ) (calls : List (Call ReadinessOp ReadinessOp.Res Unit Bool))
    (s : CacheState) : Prop where
  read : ∀ c ∈ calls, ∃ began last, begins c.events = some began ∧ s.reading = some last ∧ began ≤ last
  latest : ∀ time, s.expires = some time →
    ∃ c ∈ calls, ∃ began, Refreshed ttl c.events began s.value time
  expired : ∀ c ∈ calls, ∀ began ready expiry, Refreshed ttl c.events began ready expiry →
    ∃ time, s.expires = some time ∧ expiry ≤ time
  disjoint : calls.Pairwise fun c d ↦ ∀ began ready expiry, Refreshed ttl c.events began ready expiry →
    ∀ began' ready' expiry', Refreshed ttl d.events began' ready' expiry' → expiry ≤ began'
  fresh : ∀ c ∈ calls, ∀ ready, c.result = .ok ready → ∃ now, begins c.events = some now ∧
    ∃ d ∈ calls, ∃ began expiry, Refreshed ttl d.events began ready expiry ∧ began ≤ now ∧ now < expiry

section Sequence

variable {ttl : ℚ} {calls : List (Call ReadinessOp ReadinessOp.Res Unit Bool)}
  {c : Call ReadinessOp ReadinessOp.Res Unit Bool} {s u : CacheState} {now : ℚ}

/-- What began by the last reading began before the next call reads the clock. -/
private theorem Cached.began_le (h : Cached ttl calls s)
    (hread : ∀ last, s.reading = some last → ∃ now, begins c.events = some now ∧ last ≤ now)
    (hbegins : begins c.events = some now) {d : Call ReadinessOp ReadinessOp.Res Unit Bool}
    (hd : d ∈ calls) : ∃ began, begins d.events = some began ∧ began ≤ now := by
  obtain ⟨began, last, hbegan, hlast, hle⟩ := h.read d hd
  obtain ⟨now', hnow', hle'⟩ := hread last hlast
  rw [hbegins] at hnow'
  cases hnow'
  exact ⟨began, hbegan, hle.trans hle'⟩

/-- A call that asked no probe. -/
private theorem Cached.kept (h : Cached ttl calls s)
    (hread : ∀ last, s.reading = some last → ∃ now, begins c.events = some now ∧ last ≤ now)
    (hbegins : begins c.events = some now) (hvalue : u.value = s.value)
    (hexpires : u.expires = s.expires) (hreading : u.reading = some now)
    (hnone : ∀ began ready expiry, ¬Refreshed ttl c.events began ready expiry)
    (hresult : ∀ ready, c.result = .ok ready → ready = s.value ∧
      ∃ time, s.expires = some time ∧ now < time) : Cached ttl (calls ++ [c]) u where
  read d hd := by
    obtain hd | hd := List.mem_append.mp hd
    · obtain ⟨began, hbegan, hle⟩ := h.began_le hread hbegins hd
      exact ⟨began, now, hbegan, hreading, hle⟩
    · rw [List.mem_singleton.mp hd]
      exact ⟨now, now, hbegins, hreading, le_refl now⟩
  latest time htime := by
    rw [hexpires] at htime
    rw [hvalue]
    obtain ⟨d, hd, hlatest⟩ := h.latest time htime
    exact ⟨d, List.mem_append_left _ hd, hlatest⟩
  expired d hd began ready expiry hr := by
    rw [hexpires]
    obtain hd | hd := List.mem_append.mp hd
    · exact h.expired d hd began ready expiry hr
    · rw [List.mem_singleton.mp hd] at hr
      exact absurd hr (hnone began ready expiry)
  disjoint := by
    refine List.pairwise_append.mpr ⟨h.disjoint, List.pairwise_singleton _ _, ?_⟩
    intro d _ e he began ready expiry _ began' ready' expiry' hr
    rw [List.mem_singleton.mp he] at hr
    exact absurd hr (hnone began' ready' expiry')
  fresh d hd ready hready := by
    obtain hd | hd := List.mem_append.mp hd
    · obtain ⟨now', hnow', e, he, hfresh⟩ := h.fresh d hd ready hready
      exact ⟨now', hnow', e, List.mem_append_left _ he, hfresh⟩
    · rw [List.mem_singleton.mp hd] at hready ⊢
      obtain ⟨rfl, time, htime, hlt⟩ := hresult ready hready
      obtain ⟨e, he, began, hr⟩ := h.latest time htime
      obtain ⟨began', hbegan', hle⟩ := h.began_le hread hbegins he
      rw [hr.began_eq] at hbegan'
      cases hbegan'
      exact ⟨now, hbegins, e, List.mem_append_left _ he, began, time, hr, hle, hlt⟩

/-- A call that asked the probe. -/
private theorem Cached.renewed (hpositive : 0 < ttl) (h : Cached ttl calls s)
    (hread : ∀ last, s.reading = some last → ∃ now, begins c.events = some now ∧ last ≤ now)
    {later : ℚ} {ready : Bool} (hbegins : begins c.events = some now)
    (hexpired : ∀ time, s.expires = some time → time ≤ now) (hlater : now ≤ later)
    (hrefreshed : Refreshed ttl c.events now ready (later + ttl)) (hresult : c.result = .ok ready)
    (hvalue : u.value = ready) (hexpires : u.expires = some (later + ttl))
    (hreading : u.reading = some later)
    (honly : ∀ began ready' expiry, Refreshed ttl c.events began ready' expiry →
      began = now ∧ expiry = later + ttl) : Cached ttl (calls ++ [c]) u where
  read d hd := by
    obtain hd | hd := List.mem_append.mp hd
    · obtain ⟨began, hbegan, hle⟩ := h.began_le hread hbegins hd
      exact ⟨began, later, hbegan, hreading, hle.trans hlater⟩
    · rw [List.mem_singleton.mp hd]
      exact ⟨now, later, hbegins, hreading, hlater⟩
  latest time htime := by
    rw [hexpires] at htime
    cases htime
    rw [hvalue]
    exact ⟨c, List.mem_append_right _ (List.mem_singleton_self c), now, hrefreshed⟩
  expired d hd began ready' expiry hr := by
    refine ⟨later + ttl, hexpires, ?_⟩
    obtain hd | hd := List.mem_append.mp hd
    · obtain ⟨time, htime, hle⟩ := h.expired d hd began ready' expiry hr
      have hold := hexpired time htime
      linarith
    · rw [List.mem_singleton.mp hd] at hr
      exact le_of_eq (honly began ready' expiry hr).2
  disjoint := by
    refine List.pairwise_append.mpr ⟨h.disjoint, List.pairwise_singleton _ _, ?_⟩
    intro d hd e he began ready' expiry hr began' ready'' expiry' hr'
    rw [List.mem_singleton.mp he] at hr'
    obtain ⟨time, htime, hle⟩ := h.expired d hd began ready' expiry hr
    rw [(honly began' ready'' expiry' hr').1]
    exact hle.trans (hexpired time htime)
  fresh d hd ready' hready := by
    obtain hd | hd := List.mem_append.mp hd
    · obtain ⟨now', hnow', e, he, hfresh⟩ := h.fresh d hd ready' hready
      exact ⟨now', hnow', e, List.mem_append_left _ he, hfresh⟩
    · rw [List.mem_singleton.mp hd, hresult] at hready
      cases hready
      rw [List.mem_singleton.mp hd]
      refine ⟨now, hbegins, c, List.mem_append_right _ (List.mem_singleton_self c), now, later + ttl,
        hrefreshed, le_refl now, ?_⟩
      linarith

end Sequence

/-- Calls that run one after another leave a cache whose value is its last refresh. -/
theorem cached_of_serial {cache : CachedReadiness}
    {calls : List (Call ReadinessOp ReadinessOp.Res Unit Bool)} {s : CacheState}
    (h : Serial (fun _ ↦ cache.call) handle {} calls s) : Cached cache.ttl calls s := by
  induction h with
  | nil => exact ⟨by simp, by simp, by simp, .nil, by simp⟩
  | snoc _ hanswers hfinishes ih =>
    obtain ⟨hread, houtcome⟩ := call_outcome hanswers hfinishes
    cases houtcome with
    | cached hbegins hexpires hvalid hx hvalue hkept hreading hnone =>
      refine ih.kept hread hbegins hvalue hkept hreading hnone fun ready hready ↦ ?_
      rw [hx] at hready
      cases hready
      exact ⟨rfl, _, hexpires, hvalid⟩
    | renewed hbegins hexpired hlater hrefreshed hx hvalue hexpires hreading honly =>
      exact ih.renewed cache.positive hread hbegins hexpired hlater hrefreshed hx hvalue hexpires
        hreading honly
    | escaped hbegins hx hvalue hkept hreading hnone =>
      refine ih.kept hread hbegins hvalue hkept hreading hnone fun ready hready ↦ ?_
      rw [hx] at hready
      cases hready

/-! ### Every schedule -/

/-- No thread asks the probe while another does or before the last answer has expired, the times
for which answers are kept do not overlap, and every returned value is the answer of a probe that
has not expired at the clock reading of the call. -/
structure Coalesced (cache : CachedReadiness) (s : ReadinessPool) : Prop where
  single : ∀ (i j : Nat) (t u : ReadinessThread) k k', s.threads[i]? = some t →
    s.threads[j]? = some u → t.rest = .call .probe k → u.rest = .call .probe k' → i = j
  spaced : ∀ (i : Nat) (t : ReadinessThread) k, s.threads[i]? = some t → t.rest = .call .probe k →
    ∃ now, begins t.log = some now ∧ ∀ (j : Nat) (u : ReadinessThread), s.threads[j]? = some u →
      u.rest.result? ≠ none →
      ∀ began ready expiry, Refreshed cache.ttl u.log began ready expiry → expiry ≤ now
  disjoint : ∀ (i j : Nat) (t u : ReadinessThread), i ≠ j → s.threads[i]? = some t →
    s.threads[j]? = some u → t.rest.result? ≠ none → u.rest.result? ≠ none →
    ∀ began ready expiry, Refreshed cache.ttl t.log began ready expiry →
    ∀ began' ready' expiry', Refreshed cache.ttl u.log began' ready' expiry' →
      expiry ≤ began' ∨ expiry' ≤ began
  fresh : ∀ (i : Nat) (t : ReadinessThread) ready, s.threads[i]? = some t → t.rest = .ret ready →
    ∃ now, begins t.log = some now ∧ ∃ j : Nat, ∃ u : ReadinessThread, ∃ began expiry,
      s.threads[j]? = some u ∧ Refreshed cache.ttl u.log began ready expiry ∧ began ≤ now ∧
      now < expiry

/-- A call that comes to the probe found the last answer expired. -/
private theorem expired_of_probing {cache : CachedReadiness} {i : Nat} {s u : CacheState} {log : Log}
    {k : Except PyError Bool → ReadinessProg Bool} (h : Answers handle i s log u)
    (hrun : Prog.Runs cache.call log (.call .probe k)) :
    ∃ now, begins log = some now ∧ ∀ time, s.expires = some time → time ≤ now := by
  obtain ⟨_, _, t, _, hstep, rfl, h, hrun⟩ := h.of_call hrun (by intro h; cases h)
  simp only [handle] at hstep
  split at hstep
  · cases hstep
  · cases hstep
    obtain ⟨_, now, t, _, hstep, rfl, h, hrun⟩ := h.of_call hrun (by intro h; cases h)
    obtain ⟨rfl, -⟩ := handle_clock hstep
    refine ⟨now, rfl, fun time htime ↦ ?_⟩
    obtain ⟨_, _, t, _, hstep, rfl, h, hrun⟩ := h.of_call hrun (by intro h; cases h)
    cases hstep
    change Prog.Runs (if (s.expires.any fun time ↦ decide (now < time)) = true then _ else _) _ _
      at hrun
    split at hrun
    · -- no probe follows
      obtain ⟨_, _, t, _, hstep, rfl, h, hrun⟩ := h.of_call hrun (by intro h; cases h)
      obtain ⟨_, _, t, _, hstep, rfl, h, hrun⟩ := h.of_call hrun (by intro h; cases h)
      cases (Prog.runs_ret.mp hrun).2
    · next hexpired =>
      rw [htime, Option.any_some] at hexpired
      exact not_lt.mp fun hlt ↦ hexpired (decide_eq_true hlt)

private theorem pairwise_total {A : Type} {R : A → A → Prop} {xs : List A} (h : xs.Pairwise R) {a b : A}
    (ha : a ∈ xs) (hb : b ∈ xs) (hne : a ≠ b) : R a b ∨ R b a := by
  induction h with
  | nil => cases ha
  | cons hall _ ih =>
    obtain rfl | hrest := List.mem_cons.mp ha
    · obtain rfl | hb := List.mem_cons.mp hb
      · exact absurd rfl hne
      · exact .inl (hall b hb)
    · obtain rfl | hb := List.mem_cons.mp hb
      · exact .inr (hall a hrest)
      · exact ih hrest hb

private theorem Refreshed.begun {ttl : ℚ} {log : Log} {began expiry : ℚ} {ready : Bool}
    (h : Refreshed ttl log began ready expiry) : log ≠ [] := by
  rintro rfl
  exact List.not_mem_nil h.stored

/-- Under every schedule, with a clock that does not go backwards and whatever the probe answers. -/
theorem coalesced_of_run (cache : CachedReadiness) {as : List (PoolAction Unit ReadinessInput)}
    {s : ReadinessPool}
    (hrun : runAll (Pool.step (fun _ ↦ cache.call) handle) (Pool.idle {}) as = some s) :
    Coalesced cache s := by
  have hobeys : ∀ label : Unit, cacheLock.monitor.Obeys .before cache.call := fun _ ↦ obeys_call cache
  obtain ⟨hs, calls, current, h⟩ := serial_of_run guards hobeys rfl hrun
  obtain ⟨mid, hserial⟩ : ∃ mid, Serial (fun _ ↦ cache.call) handle {} calls mid := by
    cases hcurrent : current with
    | none => exact ⟨_, (h.idle hcurrent).2⟩
    | some i =>
      obtain ⟨-, -, t, mid, -, -, hserial, -⟩ := h.busy i hcurrent
      exact ⟨mid, hserial⟩
  have hcached := cached_of_serial hserial
  have recorded : ∀ {i : Nat} {t : ReadinessThread} {began ready expiry}, s.threads[i]? = some t →
      t.rest.result? ≠ none → Refreshed cache.ttl t.log began ready expiry →
      ∃ c ∈ calls, c.thread = i ∧ c.events = t.log := by
    intro i t began ready expiry ht hstopped hr
    obtain ⟨x, hx⟩ := Option.ne_none_iff_exists'.mp hstopped
    obtain ⟨c, hc, hthread, hevents, -⟩ := h.recorded hobeys hs ht hr.begun hx
    exact ⟨c, hc, hthread, hevents⟩
  have probing : ∀ {i : Nat} {t : ReadinessThread} {k}, s.threads[i]? = some t →
      t.rest = .call .probe k → current = some i := by
    intro i t k ht hrest
    refine h.current_of_unfinished ht ?_ (by rw [hrest]; rfl)
    intro hlog
    have hruns := hs.runs i t ht
    rw [hlog, hrest] at hruns
    cases hruns
  refine ⟨?_, ?_, ?_, ?_⟩
  · intro i j t u k k' ht hu hk hk'
    exact Option.some.inj ((probing ht hk).symm.trans (probing hu hk'))
  · intro i t k ht hk
    obtain ⟨-, -, t', mid', ht', -, hserial', hanswers⟩ := h.busy i (probing ht hk)
    rw [ht] at ht'
    cases ht'
    have hruns := hs.runs i t ht
    rw [hk] at hruns
    obtain ⟨now, hbegins, hexpired⟩ := expired_of_probing hanswers hruns
    refine ⟨now, hbegins, fun j u hu hstopped began ready expiry hr ↦ ?_⟩
    obtain ⟨c, hc, -, hevents⟩ := recorded hu hstopped hr
    obtain ⟨time, htime, hle⟩ := (cached_of_serial hserial').expired c hc began ready expiry
      (hevents ▸ hr)
    exact hle.trans (hexpired time htime)
  · intro i j t u hne ht hu hstopped hstopped' began ready expiry hr began' ready' expiry' hr'
    obtain ⟨c, hc, hthread, hevents⟩ := recorded ht hstopped hr
    obtain ⟨d, hd, hthread', hevents'⟩ := recorded hu hstopped' hr'
    have hcd : c ≠ d := by
      rintro rfl
      exact hne (hthread.symm.trans hthread')
    obtain horder | horder := pairwise_total hcached.disjoint hc hd hcd
    · exact .inl (horder began ready expiry (hevents ▸ hr) began' ready' expiry' (hevents' ▸ hr'))
    · exact .inr (horder began' ready' expiry' (hevents' ▸ hr') began ready expiry (hevents ▸ hr))
  · intro i t ready ht hrest
    have hruns := hs.runs i t ht
    have hbegun : t.log ≠ [] := by
      intro hlog
      rw [hlog, hrest] at hruns
      cases hruns
    obtain ⟨c, hc, -, hevents, hresult⟩ := h.recorded hobeys hs ht hbegun (by rw [hrest]; rfl)
    obtain ⟨now, hnow, d, hd, began, expiry, hr, hle, hlt⟩ := hcached.fresh c hc ready hresult
    obtain ⟨u, hu, -, hlog, -⟩ := h.records d hd
    exact ⟨now, hevents ▸ hnow, d.thread, u, began, expiry, hu, hlog ▸ hr, hle, hlt⟩

/-- The default lifetime. -/
def defaultReadiness : CachedReadiness := ⟨15, by decide, by decide⟩

/-- Two calls: the first asks the probe at 0, the second reads the clock at 16. -/
def twoCalls : List (PoolAction Unit ReadinessInput) :=
  [.spawn (), .spawn ()] ++
    [0, 0, 0, 0, 0, 2, 2, 2, 2].map (fun now ↦ .advance 0 ⟨now, .ok true⟩) ++
    [16, 16, 16, 16, 16].map fun now ↦ .advance 1 ⟨now, .ok false⟩

/-- The second of two calls is answered from the first. -/
theorem coalesced_of_run_twoCalls : ∃ s : ReadinessPool,
    runAll (Pool.step (fun _ ↦ defaultReadiness.call) handle) (Pool.idle {}) twoCalls = some s ∧
      s.threads.map (fun t ↦ t.rest.result?.bind Except.toOption) = [some true, some true] ∧
      Coalesced defaultReadiness s := by
  have hresults : (runAll (Pool.step (fun _ ↦ defaultReadiness.call) handle) (Pool.idle {})
      twoCalls).map (fun s : ReadinessPool ↦ s.threads.map fun t ↦ t.rest.result?.bind Except.toOption) =
        some [some true, some true] := by decide +kernel
  obtain ⟨s, hs, hthreads⟩ := Option.map_eq_some_iff.mp hresults
  exact ⟨s, hs, hthreads, coalesced_of_run defaultReadiness hs⟩

end C3RSpec.Readiness
