import C3RSpec.Ingress.Operations

/-!
# Permits of the ingress

`_forward` takes a permit of the route and one of the server, and gives both back at the end of
its `finally` block. Two calls stand before the releases: a watcher thread that never started
cannot be joined, and closing the connection may fail. After either the permits are gone. Nothing
else of the request touches a semaphore, so the balance of many requests is the sum of theirs,
however their calls interleave.
-/

namespace C3RSpec.Ingress.Capacity

open Base

/-- A permit of the semaphore is granted. -/
def grants (slot : Slot) : Event IngressOp IngressOp.Res → Bool
  | ⟨.acquire x, granted⟩ => decide (x = slot) && granted
  | _ => false

/-- A permit of the semaphore is given back. -/
def releases (slot : Slot) : Event IngressOp IngressOp.Res → Bool
  | ⟨.release x, _⟩ => decide (x = slot)
  | _ => false

/-- The watcher could not be started, or the connection not be closed. -/
def disturbs : Event IngressOp IngressOp.Res → Bool
  | ⟨.startWatcher, .error _⟩ => true
  | ⟨.closeConnection, .error _⟩ => true
  | _ => false

/-- The permits granted in a run. -/
def granted (slot : Slot) (es : Log) : Nat := es.countP (grants slot)

/-- The permits given back in a run. -/
def released (slot : Slot) (es : Log) : Nat := es.countP (releases slot)

/-- Neither call failed in a run. -/
def Undisturbed (es : Log) : Prop := ∀ e ∈ es, disturbs e = false

/-- The permits of one semaphore so far, and whether something failed. -/
structure Balance (slot : Slot) (log : Log) (taken given : Nat) (disturbed : Bool) : Prop where
  granted : granted slot log = taken
  released : released slot log = given
  disturbed : log.any disturbs = disturbed

/-- Operations that touch no semaphore, thread or connection. -/
def quiet : IngressOp → Bool
  | .acquire _ | .release _ | .startWatcher | .closeConnection => false
  | _ => true

/-- The monitor that keeps the log of a call. -/
abbrev recording : Monitor IngressOp IngressOp.Res Unit Log :=
  Monitor.logging (fun _ _ ↦ True) fun _ _ ↦ True

section Counting

variable {slot : Slot} {log : Log} {taken given : Nat} {disturbed : Bool}

private theorem Balance.snoc (h : Balance slot log taken given disturbed)
    (e : Event IngressOp IngressOp.Res) :
    Balance slot (log ++ [e]) (taken + if grants slot e then 1 else 0)
      (given + if releases slot e then 1 else 0) (disturbed || disturbs e) := by
  refine ⟨?_, ?_, ?_⟩
  · rw [Capacity.granted, List.countP_append, List.countP_singleton]
    exact congrArg (· + _) h.granted
  · rw [Capacity.released, List.countP_append, List.countP_singleton]
    exact congrArg (· + _) h.released
  · rw [List.any_append, h.disturbed, List.any_cons, List.any_nil, Bool.or_false]

private theorem Balance.snoc_quiet (h : Balance slot log taken given disturbed) {o : IngressOp}
    (ho : quiet o = true) (r : o.Res) : Balance slot (log ++ [⟨o, r⟩]) taken given disturbed := by
  have hsnoc := h.snoc ⟨o, r⟩
  have hnone : grants slot ⟨o, r⟩ = false ∧ releases slot ⟨o, r⟩ = false ∧
      disturbs ⟨o, r⟩ = false := by
    cases o with
    | acquire | release | startWatcher | closeConnection => cases ho
    | _ => exact ⟨rfl, rfl, rfl⟩
  rw [hnone.1, hnone.2.1, hnone.2.2, Bool.or_false] at hsnoc
  exact hsnoc

/-- A part that touches no semaphore keeps the balance, and the watcher. -/
private theorem ensures_quiet {α : Type} {act : Handler α}
    (hq : act.Within (fun o ↦ quiet o = true) Session.watcher)
    (h : Balance slot log taken given disturbed) (s : Session) :
    recording.Ensures log s act fun log' _ s' ↦
      Balance slot log' taken given disturbed ∧ s'.watcher = s.watcher :=
  Monitor.ensures_of_within (P := fun log' ↦ Balance slot log' taken given disturbed) hq
    (fun _ _ hb ho ↦ ⟨trivial, fun r _ ↦ hb.snoc_quiet ho r⟩) h

end Counting

section Parts

variable [FloatText] {g : Gateway} {rq : Request} {slot : Slot} {log : Log} {taken given : Nat}
  {s : Session}

/-! ### The exchange -/

/-- The balance stands, and something failed exactly if the watcher was left unstarted. -/
def Steady (slot : Slot) (taken given : Nat) (log : Log) (s : Session) : Prop :=
  Balance slot log taken given (decide (s.watcher = .created))

omit [FloatText] in
private theorem ensures_steady {α : Type} {act : Handler α}
    (hq : act.Within (fun o ↦ quiet o = true) Session.watcher) (h : Steady slot taken given log s) :
    recording.Ensures log s act fun log' _ s' ↦ Steady slot taken given log' s' := by
  refine (ensures_quiet hq h s).mono ?_
  rintro log' r s' ⟨hb, hw⟩
  rw [Steady, hw]
  exact hb

omit [FloatText] in
private theorem ensures_openUpstream (h : Balance slot log taken given false)
    (hw : s.watcher = .none) :
    recording.Ensures log s openUpstream fun log' _ s' ↦ Steady slot taken given log' s' := by
  have hsteady : ∀ {log' s'}, Balance slot log' taken given false → s'.watcher ≠ .created →
      Steady slot taken given log' s' := by
    intro log' s' hb hne
    rw [Steady, decide_eq_false hne]
    exact hb
  have hnone : s.watcher ≠ .created := by
    rw [hw]
    decide
  refine Monitor.ensures_bind (Monitor.ensures_call trivial fun r _ ↦ Monitor.ensures_ofExcept ?_)
  have hb := h.snoc_quiet (o := .connect) rfl r
  refine ⟨fun hasSocket _ ↦ ?_, fun e _ ↦ hsteady hb hnone⟩
  split
  · refine Monitor.ensures_set (Monitor.ensures_bind (Monitor.ensures_call trivial fun r' _ ↦
      Monitor.ensures_ofExcept ⟨fun u hu ↦ Monitor.ensures_modify ?_, fun e he ↦ ?_⟩))
    · subst hu
      exact hsteady (hb.snoc ⟨.startWatcher, .ok u⟩) (fun h ↦ by cases h)
    · subst he
      exact hb.snoc ⟨.startWatcher, .error e⟩
  · exact Monitor.ensures_raise (hsteady hb hnone)

omit [FloatText] in
private theorem quiet_of_relays {o : IngressOp} (h : relays o = true) : quiet o = true := by
  cases o with
  | acquire | release | startWatcher | closeConnection => cases h
  | _ => rfl

omit [FloatText] in
private theorem dispatch_within :
    (dispatch g rq).Within (fun o ↦ quiet o = true) Session.watcher := by
  refine Act.within_read.bind fun s ↦ ?_
  split
  · split
    · exact within_raising (.dispatchEvent _ _) rfl
    · exact Act.within_pure ()
  · exact Act.within_pure ()

private theorem ensures_exchange (h : Balance slot log taken given false) (hw : s.watcher = .none)
    (body : Option Bytes) :
    recording.Ensures log s (exchange g rq body) fun log' _ s' ↦
      Steady slot taken given log' s' := by
  have hfailed : ∀ {log' s'}, Steady slot taken given log' s' → recording.Ensures log' s'
      (do exchangeFailed g rq; pure none : Handler (Option (Int × Bytes)))
      fun log'' _ s'' ↦ Steady slot taken given log'' s'' := fun hs ↦
    ensures_steady ((exchangeFailed_within g rq fun _ ↦ quiet_of_relays).bind fun _ ↦
      Act.within_pure _) hs
  have hreceive : Act.Within (fun o ↦ quiet o = true) Session.watcher
      (do sendRequest rq.method rq.path body (upstreamHeaders g rq body); receive g rq) :=
    Act.Within.bind (within_raising (.request _ _ _ _) rfl) fun _ ↦
      receive_within g rq fun _ ↦ quiet_of_relays
  refine Monitor.ensures_tryExcept (Monitor.ensures_bind ((ensures_quiet dispatch_within h s).mono ?_))
  rintro log₁ r₁ s₁ ⟨hb₁, hw₁⟩
  have hs₁ : Steady slot taken given log₁ s₁ := by
    rw [Steady, hw₁, hw]
    exact hb₁
  refine ⟨fun _ _ ↦ Monitor.ensures_bind ((ensures_openUpstream hb₁ (hw₁.trans hw)).mono ?_),
    fun e _ ↦ ⟨fun _ h ↦ (by cases h), fun _ _ _ ↦ hs₁, fun _ _ _ ↦ hfailed hs₁⟩⟩
  intro log₂ r₂ s₂ hs₂
  refine ⟨fun _ _ ↦ (ensures_steady hreceive hs₂).mono ?_,
    fun e _ ↦ ⟨fun _ h ↦ (by cases h), fun _ _ _ ↦ hs₂, fun _ _ _ ↦ hfailed hs₂⟩⟩
  exact fun log₃ r₃ s₃ hs₃ ↦ ⟨fun _ _ ↦ hs₃, fun _ _ _ ↦ hs₃, fun _ _ _ ↦ hfailed hs₃⟩

/-! ### Taking and giving back -/

/-- One if the permit is of this semaphore. -/
def share (slot : Slot) : Option Slot → Nat
  | some x => if x = slot then 1 else 0
  | none => 0

omit [FloatText] in
private theorem ensures_releaseRoute {disturbed : Bool} (h : Balance slot log taken given disturbed)
    (route : Option Slot) :
    recording.Ensures log s (releaseRoute route) fun log' r _ ↦
      Balance slot log' taken (given + share slot route) disturbed ∧ ∃ u, r = .ok u := by
  cases route with
  | none => exact Monitor.ensures_pure ⟨h, (), rfl⟩
  | some x =>
    refine Monitor.ensures_perform trivial fun u _ ↦ ⟨?_, u, rfl⟩
    have hsnoc := h.snoc ⟨.release x, u⟩
    simp only [releases, grants, disturbs, decide_eq_true_eq, Bool.or_false] at hsnoc
    exact hsnoc

omit [FloatText] in
/-- The end of the `finally` block gives every permit back, or something failed. -/
private theorem ensures_closing (h : Balance slot log taken given false) (route : Option Slot) :
    recording.Ensures log s
      (do closeConnection; ask (.release .inFlight); releaseRoute route : Handler Unit)
      fun log' _ _ ↦
        Balance slot log' taken (given + share slot (some .inFlight) + share slot route) false ∨
          Balance slot log' taken given true := by
  refine Monitor.ensures_bind (Monitor.ensures_call trivial fun r _ ↦ Monitor.ensures_ofExcept
    ⟨fun u hu ↦ ?_, fun e he ↦ .inr ?_⟩)
  · subst hu
    refine Monitor.ensures_bind ((ensures_releaseRoute (h.snoc ⟨.closeConnection, .ok u⟩)
      (some .inFlight)).mono ?_)
    rintro log' _ s' ⟨hb, u', rfl⟩
    exact ⟨fun _ _ ↦ (ensures_releaseRoute hb route).mono fun _ _ _ hq ↦ .inl hq.1,
      fun e he ↦ by cases he⟩
  · subst he
    exact h.snoc ⟨.closeConnection, .error e⟩

omit [FloatText] in
private theorem ensures_cleanUp (h : Steady slot taken given log s) (route : Option Slot) :
    recording.Ensures log s (cleanUp route) fun log' _ _ ↦
      Balance slot log' taken (given + share slot (some .inFlight) + share slot route) false ∨
        Balance slot log' taken given true := by
  rw [Steady] at h
  refine Monitor.ensures_bind (Monitor.ensures_get ?_)
  cases hw : s.watcher with
  | none =>
    rw [hw] at h
    exact Monitor.ensures_pure ⟨fun _ _ ↦ ensures_closing h route, fun e he ↦ by cases he⟩
  | created =>
    rw [hw] at h
    exact Monitor.ensures_raise ⟨fun _ h ↦ (by cases h), fun _ _ ↦ .inr h⟩
  | started =>
    rw [hw] at h
    exact Monitor.ensures_perform trivial fun u _ ↦
      ⟨fun _ _ ↦ ensures_closing (h.snoc_quiet (o := .joinWatcher) rfl u) route,
        fun e he ↦ by cases he⟩

omit [FloatText] in
private theorem ensures_acquire (h : Balance slot log taken given false) (x : Slot) :
    recording.Ensures log s (ask (.acquire x)) fun log' r s' ↦ s' = s ∧
      (r = .ok true ∧ Balance slot log' (taken + share slot (some x)) given false ∨
        r = .ok false ∧ Balance slot log' taken given false) := by
  refine Monitor.ensures_perform trivial fun held _ ↦ ⟨rfl, ?_⟩
  have hsnoc := h.snoc ⟨.acquire x, held⟩
  cases held with
  | true =>
    refine .inl ⟨rfl, ?_⟩
    simp only [releases, grants, disturbs, Bool.and_true, decide_eq_true_eq, Bool.or_false] at hsnoc
    exact hsnoc
  | false =>
    refine .inr ⟨rfl, ?_⟩
    simp only [releases, grants, disturbs, Bool.and_false, Bool.or_false] at hsnoc
    exact hsnoc

omit [FloatText] in
private theorem ensures_acquireRoute (h : Balance slot log taken given false) (route : Option Slot) :
    recording.Ensures log s (acquireRoute route) fun log' r s' ↦ s' = s ∧
      (r = .ok true ∧ Balance slot log' (taken + share slot route) given false ∨
        r = .ok false ∧ Balance slot log' taken given false) := by
  cases route with
  | none => exact Monitor.ensures_pure ⟨rfl, .inl ⟨rfl, h⟩⟩
  | some x => exact ensures_acquire h x

/-- How `_forward` leaves a semaphore: even, or with a permit of the server gone. -/
def Left (slot : Slot) (path : Text) (log : Log) : Prop :=
  (∃ n, n ≤ share slot (some .inFlight) + share slot (slotOf path) ∧ Balance slot log n n false) ∨
    Balance slot log (share slot (slotOf path) + share slot (some .inFlight)) 0 true

private theorem ensures_overCapacity {n : Nat} (h : Balance slot log n n false)
    (hn : n ≤ share slot (some .inFlight) + share slot (slotOf rq.path)) :
    recording.Ensures log s (overCapacity g rq) fun log' _ _ ↦ Left slot rq.path log' :=
  (ensures_quiet (sendError_within g rq (fun _ h ↦ quiet_of_relays (relays_of_replies h)) _ _) h
    s).mono fun _ _ _ hq ↦ .inl ⟨n, hn, hq.1⟩

omit [FloatText] in
private theorem Left.quiet {α : Type} {act : Handler α}
    (hq : act.Within (fun o ↦ quiet o = true) Session.watcher) (h : Left slot rq.path log) :
    recording.Ensures log s act fun log' _ _ ↦ Left slot rq.path log' := by
  obtain ⟨n, hn, hb⟩ | hb := h
  · exact (ensures_quiet hq hb s).mono fun _ _ _ hb' ↦ .inl ⟨n, hn, hb'.1⟩
  · exact (ensures_quiet hq hb s).mono fun _ _ _ hb' ↦ .inr hb'.1

private theorem ensures_finally (body : Option Bytes) (hw : s.watcher = .none)
    (h : Balance slot log (share slot (slotOf rq.path) + share slot (some .inFlight)) 0 false) :
    recording.Ensures log s (Act.finallyDo (exchange g rq body) (cleanUp (slotOf rq.path)))
      fun log' _ _ ↦ Left slot rq.path log' := by
  refine Monitor.ensures_finallyDo ((ensures_exchange h hw body).mono fun log' r s' hs ↦ ?_)
  refine (ensures_cleanUp hs (slotOf rq.path)).mono fun log'' r' s'' hb ↦ ?_
  have hleft : Left slot rq.path log'' := by
    refine hb.imp (fun hb ↦ ⟨_, le_rfl, ?_⟩) id
    rwa [Nat.zero_add, Nat.add_comm (share slot (slotOf rq.path))] at hb
  exact ⟨fun _ _ ↦ hleft, fun _ _ ↦ hleft⟩

/-- Every run of `_forward` leaves the semaphore so. -/
theorem ensures_forward (body : Option Bytes) (s : Session) :
    recording.Ensures [] s (forward g rq body) fun log' _ _ ↦ Left slot rq.path log' := by
  have hzero : Balance slot [] 0 0 false := ⟨rfl, rfl, rfl⟩
  refine Monitor.ensures_set (Monitor.ensures_bind ((ensures_acquireRoute hzero _).mono ?_))
  rintro log₁ r₁ s₁ ⟨rfl, ⟨rfl, hb₁⟩ | ⟨rfl, hb₁⟩⟩
  · rw [Nat.zero_add] at hb₁
    refine ⟨fun held hr ↦ ?_, fun e he ↦ by cases he⟩
    cases hr
    rw [if_pos rfl]
    refine Monitor.ensures_bind ((ensures_acquire hb₁ .inFlight).mono ?_)
    rintro log₂ r₂ s₂ ⟨rfl, ⟨rfl, hb₂⟩ | ⟨rfl, hb₂⟩⟩
    · refine ⟨fun held hr ↦ ?_, fun e he ↦ by cases he⟩
      cases hr
      rw [if_pos rfl]
      refine Monitor.ensures_bind ((ensures_finally body rfl hb₂).mono fun log₃ r₃ s₃ hleft ↦ ?_)
      refine ⟨fun reply _ ↦ ?_, fun _ _ ↦ hleft⟩
      cases reply with
      | none => exact Monitor.ensures_pure hleft
      | some reply => exact hleft.quiet (Act.Within.bind (within_raising (.sendHead _ _) rfl)
          fun _ ↦ within_raising (.write _) rfl)
    · refine ⟨fun held hr ↦ ?_, fun e he ↦ by cases he⟩
      cases hr
      rw [if_neg Bool.false_ne_true]
      refine Monitor.ensures_bind ((ensures_releaseRoute hb₂ _).mono ?_)
      rintro log₃ _ s₃ ⟨hb₃, u, rfl⟩
      rw [Nat.zero_add] at hb₃
      exact ⟨fun _ _ ↦ ensures_overCapacity hb₃ (Nat.le_add_left _ _), fun e he ↦ by cases he⟩
  · refine ⟨fun held hr ↦ ?_, fun e he ↦ by cases he⟩
    cases hr
    rw [if_neg Bool.false_ne_true]
    exact ensures_overCapacity hb₁ (Nat.zero_le _)

end Parts

/-! ### Whole calls -/

/-- A call of `_forward` with its events. -/
structure Call where
  request : Request
  body : Option Bytes
  session : Session
  events : Log

/-- The call returned or raised after these events. -/
def Call.Finished [FloatText] (g : Gateway) (c : Call) : Prop :=
  ∃ r s', Prog.Finishes (forward g c.request c.body c.session) c.events (.ok (r, s'))

/-- No route uses the semaphore of the server. -/
theorem slotOf_ne_inFlight (path : Text) : slotOf path ≠ some .inFlight := by
  intro h
  obtain ⟨pre, post, htable, -⟩ := List.lookup_eq_some_iff.mp h
  have hmem : (path, Slot.inFlight) ∈ slotTable := by
    rw [htable]
    exact List.mem_append_right pre List.mem_cons_self
  have hroutes : ∀ route ∈ slotTable, route.2 ≠ .inFlight := by decide
  exact hroutes _ hmem rfl

private theorem share_le (slot : Slot) (path : Text) :
    share slot (some .inFlight) + share slot (slotOf path) ≤ 1 := by
  have hne := slotOf_ne_inFlight path
  cases hroute : slotOf path with
  | none =>
    show (if Slot.inFlight = slot then 1 else 0) + 0 ≤ 1
    split <;> omega
  | some x =>
    rw [hroute] at hne
    show (if Slot.inFlight = slot then 1 else 0) + (if x = slot then 1 else 0) ≤ 1
    split
    · next h =>
      rw [if_neg fun hx ↦ hne (congrArg some (hx.trans h.symm))]
    · split <;> omega

section Calls

variable [FloatText] {g : Gateway}

/-- A finished call leaves every semaphore so. -/
private theorem Call.Finished.left {c : Call} (h : c.Finished g) (slot : Slot) :
    Left slot c.request.path c.events := by
  obtain ⟨r, s', hf⟩ := h
  exact (ensures_forward c.body c.session).of_finishes hf fun _ _ ↦ trivial

omit [FloatText] in
private theorem undisturbed_iff {es : Log} : Undisturbed es ↔ es.any disturbs = false := by
  rw [List.any_eq_false, Undisturbed]
  exact forall₂_congr fun e _ ↦ (Bool.not_eq_true _).symm ▸ Iff.rfl

/-- A call gives back at most what it was granted, which is at most one permit. -/
private theorem Call.Finished.bounds {c : Call} (h : c.Finished g) (slot : Slot) :
    granted slot c.events ≤ 1 ∧ released slot c.events ≤ granted slot c.events := by
  have hle := share_le slot c.request.path
  obtain ⟨n, hn, hb⟩ | hb := h.left slot
  · rw [hb.granted, hb.released]
    omega
  · rw [hb.granted, hb.released]
    omega

/-- A call gives back every permit, of the server and so of all semaphores, exactly if nothing
failed. -/
private theorem Call.Finished.even_iff {c : Call} (h : c.Finished g) :
    (∀ slot, released slot c.events = granted slot c.events) ↔ Undisturbed c.events := by
  rw [undisturbed_iff]
  refine ⟨fun heven ↦ ?_, fun hcalm slot ↦ ?_⟩
  · obtain ⟨n, -, hb⟩ | hb := h.left .inFlight
    · exact hb.disturbed
    · have hone := heven .inFlight
      rw [hb.granted, hb.released] at hone
      have hself : share .inFlight (some .inFlight) = 1 := rfl
      omega
  · obtain ⟨n, -, hb⟩ | hb := h.left slot
    · exact hb.released.trans hb.granted.symm
    · rw [hb.disturbed] at hcalm
      cases hcalm

omit [FloatText] in
private theorem flatten_even_iff {calls : List Call} {slot : Slot}
    (h : ∀ c ∈ calls, released slot c.events ≤ granted slot c.events) :
    released slot (calls.map Call.events).flatten ≤ granted slot (calls.map Call.events).flatten ∧
    (released slot (calls.map Call.events).flatten = granted slot (calls.map Call.events).flatten ↔
      ∀ c ∈ calls, released slot c.events = granted slot c.events) := by
  induction calls with
  | nil => exact ⟨le_rfl, fun _ c hc ↦ (by cases hc), fun _ ↦ rfl⟩
  | cons c calls ih =>
    obtain ⟨hle, hiff⟩ := ih fun c' hc' ↦ h c' (List.mem_cons_of_mem c hc')
    have hc := h c List.mem_cons_self
    have hg : granted slot ((c :: calls).map Call.events).flatten =
        granted slot c.events + granted slot (calls.map Call.events).flatten := by
      rw [List.map_cons, List.flatten_cons, granted, List.countP_append]
      rfl
    have hr : released slot ((c :: calls).map Call.events).flatten =
        released slot c.events + released slot (calls.map Call.events).flatten := by
      rw [List.map_cons, List.flatten_cons, released, List.countP_append]
      rfl
    rw [hg, hr, List.forall_mem_cons, ← hiff]
    omega

/-- Calls of `_forward`, with their events in any order: each gives back at most what it was
granted, at most one permit of each semaphore; every permit comes back, for each call and in sum,
if and only if in no call a watcher could not be started or a connection not be closed. -/
theorem conserved_iff {calls : List Call} (h : ∀ c ∈ calls, c.Finished g) {trace : Log}
    (htrace : trace.Perm (calls.map Call.events).flatten) :
    (∀ c ∈ calls, ∀ slot,
      granted slot c.events ≤ 1 ∧ released slot c.events ≤ granted slot c.events) ∧
    ((∀ c ∈ calls, ∀ slot, released slot c.events = granted slot c.events) ↔
      ∀ c ∈ calls, Undisturbed c.events) ∧
    ((∀ slot, released slot trace = granted slot trace) ↔ ∀ c ∈ calls, Undisturbed c.events) := by
  have hone : (∀ c ∈ calls, ∀ slot, released slot c.events = granted slot c.events) ↔
      ∀ c ∈ calls, Undisturbed c.events :=
    forall₂_congr fun c hc ↦ (h c hc).even_iff
  refine ⟨fun c hc ↦ (h c hc).bounds, hone, ?_⟩
  have hsum : ∀ slot, (released slot trace = granted slot trace ↔
      ∀ c ∈ calls, released slot c.events = granted slot c.events) := by
    intro slot
    have hg : granted slot trace = granted slot (calls.map Call.events).flatten :=
      htrace.countP_eq (grants slot)
    have hr : released slot trace = released slot (calls.map Call.events).flatten :=
      htrace.countP_eq (releases slot)
    rw [hg, hr]
    exact (flatten_even_iff fun c hc ↦ ((h c hc).bounds slot).2).2
  rw [← hone]
  exact ⟨fun heven c hc slot ↦ (hsum slot).mp (heven slot) c hc,
    fun heven slot ↦ (hsum slot).mpr fun c hc ↦ heven c hc slot⟩

end Calls

/-- A request for the list of models, with the events of a host. -/
def modelsCall (host : (o : IngressOp) → o.Res) : Call :=
  ⟨modelsRequest, none, .initial,
    (Prog.play host (@forward FloatText.fraction keyGateway modelsRequest none .initial)).1⟩

/-- Two requests on a host that works give their permits of the server back. -/
theorem conserved_iff_models :
    released .inFlight ((modelsCall calmHost).events ++ (modelsCall calmHost).events) =
      granted .inFlight ((modelsCall calmHost).events ++ (modelsCall calmHost).events) := by
  let _ := FloatText.fraction
  have hfinished : (modelsCall calmHost).Finished keyGateway :=
    ⟨.ok (), _, Prog.finishes_play calmHost (forward keyGateway modelsRequest none .initial)⟩
  have hcalm : Undisturbed (modelsCall calmHost).events := by
    intro e he
    obtain ⟨o, r⟩ := e
    have hr : r = calmHost o := Prog.answer_of_mem_play he
    subst hr
    cases o <;> rfl
  have hboth : ∀ c ∈ [modelsCall calmHost, modelsCall calmHost], c.Finished keyGateway := by
    intro c hc
    rw [show c = modelsCall calmHost by simpa using hc]
    exact hfinished
  refine (conserved_iff hboth (List.Perm.refl _)).2.2.mpr (fun c hc ↦ ?_) .inFlight
  rw [show c = modelsCall calmHost by simpa using hc]
  exact hcalm

/-- A host that cannot start another thread. -/
def crowdedHost : (o : IngressOp) → o.Res
  | .startWatcher => .error ⟨.runtimeError, "can't start new thread"⟩
  | o => calmHost o

/-- A watcher that could not be started: a permit of the server was granted and is gone. -/
theorem lost_of_unstarted :
    @Call.Finished FloatText.fraction keyGateway (modelsCall crowdedHost) ∧
    (∀ e ∈ (modelsCall crowdedHost).events, Documented e.op e.answer) ∧
    granted .inFlight (modelsCall crowdedHost).events = 1 ∧
    released .inFlight (modelsCall crowdedHost).events = 0 := by
  let _ := FloatText.fraction
  refine ⟨⟨.error ⟨.runtimeError, "cannot join thread before it is started"⟩, _,
    Prog.finishes_play crowdedHost (forward keyGateway modelsRequest none .initial)⟩,
    fun e he ↦ ?_, rfl, rfl⟩
  rw [Prog.answer_of_mem_play he]
  cases e.op with
  | startWatcher =>
    intro e he
    cases he
    decide
  | _ => exact documented_calmHost _

end C3RSpec.Ingress.Capacity
