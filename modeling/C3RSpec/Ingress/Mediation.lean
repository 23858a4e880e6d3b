import C3RSpec.Ingress.Operations

/-!
# Mediation of the loopback upstream

With an access store, the upstream is contacted only for a request whose key was authenticated,
has the scope of the path and was admitted, under permits that are held and after the dispatch
event is stored; and what is sent carries the gateway's own credential. `/health` alone is open.
-/

namespace C3RSpec.Ingress

open Base ApiAccess

/-- The upstream is connected to or sent a request. -/
def contacts : IngressOp → Bool
  | .connect | .request _ _ _ _ => true
  | _ => false

/-- The permit was taken and not given back since. -/
def Held (slot : Slot) (log : Log) : Prop :=
  ∃ pre post, log = pre ++ ⟨.acquire slot, true⟩ :: post ∧ ∀ e ∈ post, e.op ≠ .release slot

/-- The request carries one bearer key and nothing else that names a caller, and the store has
authenticated that key. -/
structure Authentic (rq : Request) (log : Log) (key : Text) (principal : Principal) : Prop where
  authorization : getAll rq.headers "Authorization" = [Text.ofString "Bearer " ++ key]
  token : getAll rq.headers "X-C3R-Token" = []
  overrides : ∀ name ∈ overrideHeaders, getAll rq.headers name = []
  authenticated : ⟨.authenticate key, .ok (some principal)⟩ ∈ log

/-- The key has the scope of the path and the request was admitted. -/
structure Entitled (rq : Request) (log : Log) (key : Text) (principal : Principal) : Prop
    extends Authentic rq log key principal where
  scope : ∃ scope, scopeOf rq.path = some scope ∧ scope ∈ principal.scopes
  admitted : ⟨.admitRequest principal, .ok true⟩ ∈ log

/-- The permits are held and the dispatch event is stored. -/
structure Mediated (rq : Request) (log : Log) (key : Text) (principal : Principal) : Prop
    extends Entitled rq log key principal where
  inFlight : Held .inFlight log
  route : ∀ slot, slotOf rq.path = some slot → Held slot log
  dispatched : ⟨.dispatchEvent principal rq.requestId, .ok ()⟩ ∈ log

/-- A header that the gateway itself chose. -/
def OwnHeader (g : Gateway) (rq : Request) (header : Text × Text) : Prop :=
  header = (Text.ofString "Authorization", Text.ofString "Bearer " ++ g.upstreamToken) ∨
    header = (Text.ofString "x-request-id", rq.requestId) ∨
    header = (Text.ofString "Content-Type", Text.ofString "application/json")

/-- The upstream may be contacted after these events, with this operation. -/
def Permitted (g : Gateway) (rq : Request) (log : Log) (o : IngressOp) : Prop :=
  contacts o = true → rq.path ≠ Text.ofString "/health" →
    (∃ key principal, Mediated rq log key principal) ∧
      ∀ method path body headers, o = .request method path body headers →
        path = rq.path ∧ ∀ header ∈ headers, OwnHeader g rq header

/-- The monitor of mediation. -/
abbrev mediating (g : Gateway) (rq : Request) : Monitor IngressOp IngressOp.Res Unit Log :=
  Monitor.logging (Permitted g rq) fun _ _ ↦ True

/-! ### Facts stay -/

section Facts

variable {rq : Request} {log : Log} {key : Text} {principal : Principal}

private theorem Held.append {slot : Slot} (h : Held slot log) {es : Log}
    (hes : ∀ e ∈ es, e.op ≠ .release slot) : Held slot (log ++ es) := by
  obtain ⟨pre, post, rfl, hpost⟩ := h
  refine ⟨pre, post ++ es, by rw [List.append_assoc, List.cons_append], fun e he ↦ ?_⟩
  obtain he | he := List.mem_append.mp he
  · exact hpost e he
  · exact hes e he

private theorem held_snoc (slot : Slot) (log : Log) :
    Held slot (log ++ [⟨.acquire slot, true⟩]) :=
  ⟨log, [], rfl, fun _ he ↦ by cases he⟩

private theorem Authentic.append (h : Authentic rq log key principal) (es : Log) :
    Authentic rq (log ++ es) key principal :=
  ⟨h.authorization, h.token, h.overrides, List.mem_append_left es h.authenticated⟩

private theorem Entitled.append (h : Entitled rq log key principal) (es : Log) :
    Entitled rq (log ++ es) key principal :=
  ⟨h.toAuthentic.append es, h.scope, List.mem_append_left es h.admitted⟩

private theorem Mediated.append (h : Mediated rq log key principal) {es : Log}
    (hes : ∀ e ∈ es, ∀ slot, e.op ≠ .release slot) : Mediated rq (log ++ es) key principal :=
  ⟨h.toEntitled.append es, h.inFlight.append fun e he ↦ hes e he _,
    fun slot hslot ↦ (h.route slot hslot).append fun e he ↦ hes e he _,
    List.mem_append_left es h.dispatched⟩

private theorem permitted_local {g : Gateway} {o : IngressOp} (h : contacts o = false) :
    Permitted g rq log o := by
  intro hc
  rw [h] at hc
  cases hc

private theorem permitted_of_relays {g : Gateway} (log : Log) (o : IngressOp)
    (h : relays o = true) : Permitted g rq log o := by
  cases o with
  | connect | request => cases h
  | _ => exact permitted_local rfl

end Facts

section Parts

variable [FloatText] {g : Gateway} {rq : Request}

omit [FloatText] in
-- a part that only relays may run at any time
private theorem ensures_relay {α : Type} {act : Handler α}
    (h : act.Within (fun o ↦ relays o = true) Session.watcher) (log : Log) (s : Session) :
    (mediating g rq).Ensures log s act fun _ _ _ ↦ True :=
  (Monitor.ensures_log_of_within h permitted_of_relays log s).mono fun _ _ _ _ ↦ trivial

private theorem ensures_sendError (status : Int) (code : Text) (log : Log) (s : Session) :
    (mediating g rq).Ensures log s (sendError g rq status code) fun _ _ _ ↦ True :=
  ensures_relay (sendError_within g rq (fun _ h ↦ relays_of_replies h) status code) log s

/-! ### Forwarding -/

omit [FloatText] in
private theorem ownHeader_of_mem {body : Option Bytes} {header : Text × Text}
    (h : header ∈ upstreamHeaders g rq body) : OwnHeader g rq header := by
  rw [upstreamHeaders, List.mem_cons, List.mem_cons] at h
  obtain h | h | h := h
  · exact .inl h
  · exact .inr (.inl h)
  · split at h
    · exact .inr (.inr (List.mem_singleton.mp h))
    · cases h

omit [FloatText] in
private theorem ensures_openUpstream {log : Log} (s : Session)
    (hready : rq.path ≠ Text.ofString "/health" → ∃ key principal, Mediated rq log key principal) :
    (mediating g rq).Ensures log s openUpstream fun log' _ _ ↦
      ∃ es, log' = log ++ es ∧ ∀ e ∈ es, ∀ slot, e.op ≠ .release slot := by
  refine Monitor.ensures_bind (Monitor.ensures_call (fun _ hpath ↦ ?_) fun r _ ↦ ?_)
  · exact ⟨hready hpath, fun _ _ _ _ h ↦ by cases h⟩
  · have hone : ∀ e ∈ ([⟨.connect, r⟩] : Log), ∀ slot, e.op ≠ .release slot := by
      intro e he slot
      rw [List.mem_singleton.mp he]
      exact fun h ↦ by cases h
    refine Monitor.ensures_ofExcept ⟨fun hasSocket _ ↦ ?_, fun _ _ ↦ ⟨_, rfl, hone⟩⟩
    split
    · refine Monitor.ensures_set (Monitor.ensures_bind (Monitor.ensures_call
        (permitted_local rfl) fun r' _ ↦ Monitor.ensures_ofExcept ?_))
      have htwo : ∀ e ∈ ([⟨.connect, r⟩, ⟨.startWatcher, r'⟩] : Log), ∀ slot,
          e.op ≠ .release slot := by
        intro e he slot
        obtain rfl | he := List.mem_cons.mp he
        · exact fun h ↦ by cases h
        · rw [List.mem_singleton.mp he]
          exact fun h ↦ by cases h
      have hlog : log ++ [⟨.connect, r⟩] ++ [⟨.startWatcher, r'⟩] =
          log ++ [⟨.connect, r⟩, ⟨.startWatcher, r'⟩] := List.append_assoc _ _ _
      exact ⟨fun _ _ ↦ Monitor.ensures_modify ⟨_, hlog, htwo⟩, fun _ _ ↦ ⟨_, hlog, htwo⟩⟩
    · exact Monitor.ensures_raise ⟨_, rfl, hone⟩

-- connect, start the watcher, send and receive, once everything is in place
private theorem ensures_upstream {log : Log} (s : Session) (body : Option Bytes)
    (hready : rq.path ≠ Text.ofString "/health" → ∃ key principal, Mediated rq log key principal) :
    (mediating g rq).Ensures log s (do
      openUpstream
      sendRequest rq.method rq.path body (upstreamHeaders g rq body)
      receive g rq) fun _ _ _ ↦ True := by
  refine Monitor.ensures_bind ((ensures_openUpstream s hready).mono ?_)
  · rintro log' r s' ⟨es, rfl, hes⟩
    refine ⟨fun _ _ ↦ ?_, fun _ _ ↦ trivial⟩
    refine Monitor.ensures_bind (Monitor.ensures_call (fun _ hpath ↦ ?_) fun r _ ↦ ?_)
    · obtain ⟨key, principal, hm⟩ := hready hpath
      refine ⟨⟨key, principal, hm.append hes⟩, ?_⟩
      rintro _ _ _ _ ⟨⟩
      exact ⟨rfl, fun header ↦ ownHeader_of_mem⟩
    · refine Monitor.ensures_ofExcept ⟨fun _ _ ↦ ?_, fun _ _ ↦ trivial⟩
      exact ensures_relay (receive_within g rq fun _ h ↦ h) _ _

private theorem ensures_exchange {log : Log} {s : Session} (body : Option Bytes)
    (hstore : g.hasStore = true) (hin : Held .inFlight log)
    (hroute : ∀ slot, slotOf rq.path = some slot → Held slot log)
    (hready : rq.path ≠ Text.ofString "/health" →
      ∃ key principal, s.principal = some principal ∧ Entitled rq log key principal) :
    (mediating g rq).Ensures log s (exchange g rq body) fun _ _ _ ↦ True := by
  refine Monitor.ensures_tryExcept (Monitor.Ensures.mono (P := fun _ _ _ ↦ True) ?_ ?_)
  · refine Monitor.ensures_bind (Monitor.ensures_get ?_)
    split
    · next principal hprincipal =>
      rw [if_pos hstore]
      refine Monitor.ensures_call (permitted_local rfl) fun r _ ↦ Monitor.ensures_ofExcept
        ⟨fun u hu ↦ ?_, fun _ _ ↦ trivial⟩
      refine ensures_upstream s body fun hpath ↦ ?_
      obtain ⟨key, principal', hs, hentitled⟩ := hready hpath
      obtain rfl : principal = principal' := Option.some.inj (hprincipal.symm.trans hs)
      subst hu
      refine ⟨key, principal, hentitled.append _, hin.append ?_, fun slot hslot ↦
        (hroute slot hslot).append ?_, List.mem_append_right _ (List.mem_singleton_self _)⟩
      · intro e he
        rw [List.mem_singleton.mp he]
        exact fun h ↦ by cases h
      · intro e he
        rw [List.mem_singleton.mp he]
        exact fun h ↦ by cases h
    · next hnone =>
      refine Monitor.ensures_pure ⟨fun _ _ ↦ ensures_upstream s body fun hpath ↦ ?_, fun _ _ ↦
        trivial⟩
      obtain ⟨key, principal, hs, -⟩ := hready hpath
      rw [hs] at hnone
      cases hnone
  · intro log' r s' _
    refine ⟨fun _ _ ↦ trivial, fun _ _ _ ↦ trivial, fun e _ _ ↦ ensures_relay ?_ log' s'⟩
    exact (exchangeFailed_within g rq fun _ h ↦ h).bind fun _ ↦ Act.within_pure _

omit [FloatText] in
private theorem ensures_cleanUp (slot : Option Slot) (log : Log) (s : Session) :
    (mediating g rq).Ensures log s (cleanUp slot) fun _ _ _ ↦ True := by
  have hlocal : (cleanUp slot).Within (fun o ↦ contacts o = false) Session.watcher := by
    refine Act.Within.bind ?_ fun _ ↦ Act.Within.bind (within_raising .closeConnection rfl) fun _ ↦
      Act.Within.bind (Act.within_perform rfl) fun _ ↦ ?_
    · refine Act.within_read.bind fun s ↦ ?_
      split
      · exact Act.within_pure ()
      · exact Act.within_raise _
      · exact Act.within_perform rfl
    · cases slot with
      | none => exact Act.within_pure ()
      | some slot => exact Act.within_perform rfl
  exact (Monitor.ensures_log_of_within hlocal (fun _ _ h ↦ permitted_local h) log s).mono
    fun _ _ _ _ ↦ trivial

omit [FloatText] in
-- the permit of the route, if the path has one
private theorem ensures_acquireRoute {log : Log} {s : Session} {slot : Option Slot}
    {Q : Log → Except PyError Bool → Session → Prop}
    (h : ∀ es granted, (granted = true → ∀ x, slot = some x → Held x (log ++ es)) →
      (∀ e ∈ es, ∀ x, e.op ≠ .release x) → Q (log ++ es) (.ok granted) s) :
    (mediating g rq).Ensures log s (acquireRoute slot) Q := by
  cases slot with
  | none =>
    have hnone := h [] true (fun _ x hx ↦ by cases hx) fun e he ↦ by cases he
    rw [List.append_nil] at hnone
    exact Monitor.ensures_pure hnone
  | some x =>
    refine Monitor.ensures_perform (permitted_local rfl) fun granted _ ↦
      h [⟨.acquire x, granted⟩] granted ?_ fun e he y ↦ ?_
    · rintro rfl y hy
      cases hy
      exact held_snoc x log
    · rw [List.mem_singleton.mp he]
      exact fun hr ↦ by cases hr

private theorem ensures_forward {log : Log} {s : Session} (body : Option Bytes)
    (hstore : g.hasStore = true)
    (hready : rq.path ≠ Text.ofString "/health" →
      ∃ key principal, s.principal = some principal ∧ Entitled rq log key principal) :
    (mediating g rq).Ensures log s (forward g rq body) fun _ _ _ ↦ True := by
  refine Monitor.ensures_set (Monitor.ensures_bind (ensures_acquireRoute fun es granted hheld hes ↦
    ⟨fun b hb ↦ ?_, fun _ _ ↦ trivial⟩))
  cases hb
  split
  · next hgranted =>
    refine Monitor.ensures_call (permitted_local rfl) fun inFlight _ ↦ ?_
    split
    · next hin =>
      obtain rfl : inFlight = true := hin
      refine Monitor.ensures_bind (Monitor.ensures_finallyDo ((ensures_exchange body hstore
        (held_snoc _ _) ?_ ?_).mono fun log' r s' _ ↦ (ensures_cleanUp _ log' s').mono ?_))
      · intro slot hslot
        refine (hheld hgranted slot hslot).append fun e he ↦ ?_
        rw [List.mem_singleton.mp he]
        exact fun hr ↦ by cases hr
      · intro hpath
        obtain ⟨key, principal, hs, hentitled⟩ := hready hpath
        exact ⟨key, principal, hs, (hentitled.append es).append _⟩
      · intro log'' x s'' _
        refine ⟨fun _ _ ↦ ⟨fun reply _ ↦ ?_, fun _ _ ↦ trivial⟩, fun _ _ ↦ ⟨?_, fun _ _ ↦ trivial⟩⟩
        · cases reply with
          | none => exact Monitor.ensures_pure trivial
          | some reply =>
            exact ensures_relay (Act.Within.bind (within_raising (.sendHead _ _) rfl) fun _ ↦
              within_raising (.write _) rfl) _ _
        · exact fun _ h ↦ by cases h
    · refine Monitor.ensures_bind ?_
      refine Monitor.Ensures.mono (P := fun _ _ _ ↦ True) ?_ fun _ _ _ _ ↦
        ⟨fun _ _ ↦ ensures_sendError _ _ _ _, fun _ _ ↦ trivial⟩
      cases slotOf rq.path with
      | none => exact Monitor.ensures_pure trivial
      | some slot => exact Monitor.ensures_perform (permitted_local rfl) fun _ _ ↦ trivial
  · exact ensures_sendError _ _ _ _

/-! ### Authorization and admission -/

omit [FloatText] in
private theorem bearer?_eq_some {value key : Text} (h : bearer? value = some key) :
    value = Text.ofString "Bearer " ++ key := by
  rw [bearer?] at h
  split at h
  · next hp =>
    obtain ⟨rest, rfl⟩ := List.isPrefixOf_iff_prefix.mp hp
    cases h
    rfl
  · cases h

omit [FloatText] in
private theorem ensures_authorized (hstore : g.hasStore = true) (log : Log) (s : Session) :
    (mediating g rq).Ensures log s (authorized g rq) fun log' r s' ↦ r = .ok true →
      ∃ key principal, s'.principal = some principal ∧ Authentic rq log' key principal := by
  rw [authorized]
  split
  · exact Monitor.ensures_pure fun h ↦ by cases h
  · next hover =>
    have hnone : ∀ name ∈ overrideHeaders, getAll rq.headers name = [] := by
      intro name hname
      rw [Bool.not_eq_true, List.any_eq_false] at hover
      simpa using hover name hname
    dsimp only
    split
    · exact Monitor.ensures_pure fun h ↦ by cases h
    · unfold authorizedKey
      split
      · next value htoken hauth =>
        split
        · exact Monitor.ensures_pure fun h ↦ by cases h
        · next key hkey =>
          refine Monitor.ensures_bind (Monitor.ensures_call (permitted_local rfl) fun r _ ↦
            Monitor.ensures_ofExcept ⟨fun answer hr ↦ ?_, fun _ _ h ↦ by cases h⟩)
          cases answer with
          | none => exact Monitor.ensures_pure fun h ↦ by cases h
          | some principal =>
            refine Monitor.ensures_set (Monitor.ensures_pure fun _ ↦ ⟨key, principal, rfl, ?_,
              htoken, hnone, ?_⟩)
            · rw [hauth, bearer?_eq_some hkey]
            · subst hr
              exact List.mem_append_right _ (List.mem_singleton_self _)
      · exact Monitor.ensures_pure fun h ↦ by cases h

omit [FloatText] in
private theorem ensures_scopeAllowed (hstore : g.hasStore = true) (log : Log) (s : Session) :
    (mediating g rq).Ensures log s (scopeAllowed g rq) fun log' r s' ↦ log' = log ∧ s' = s ∧
      (r = .ok true → ∀ principal, s.principal = some principal →
        ∃ scope, scopeOf rq.path = some scope ∧ scope ∈ principal.scopes) := by
  rw [scopeAllowed, if_pos hstore]
  refine Monitor.ensures_get ?_
  split
  · next principal scope hs hscope =>
    refine Monitor.ensures_pure ⟨rfl, rfl, fun h principal' hs' ↦ ⟨scope, hscope, ?_⟩⟩
    obtain rfl : principal = principal' := Option.some.inj (hs.symm.trans hs')
    exact of_decide_eq_true (Except.ok.inj h)
  · exact Monitor.ensures_pure ⟨rfl, rfl, fun h ↦ by cases h⟩

omit [FloatText] in
private theorem ensures_admitted (hstore : g.hasStore = true) (log : Log) (s : Session) :
    (mediating g rq).Ensures log s (admitted g) fun log' r s' ↦ s' = s ∧
      (∃ es, log' = log ++ es) ∧ (r = .ok true → ∀ principal, s.principal = some principal →
        ⟨.admitRequest principal, .ok true⟩ ∈ log') := by
  rw [admitted, if_pos hstore]
  refine Monitor.ensures_get ?_
  split
  · next principal hs =>
    refine Monitor.ensures_call (permitted_local rfl) fun r _ ↦ Monitor.ensures_ofExcept
      ⟨rfl, ⟨_, rfl⟩, fun h principal' hs' ↦ ?_⟩
    obtain rfl : principal = principal' := Option.some.inj (hs.symm.trans hs')
    subst h
    exact List.mem_append_right _ (List.mem_singleton_self _)
  · exact Monitor.ensures_pure ⟨rfl, ⟨[], (List.append_nil log).symm⟩, fun h ↦ by cases h⟩

-- what stands between an authenticated request and what follows its admission
private theorem ensures_guarded (hstore : g.hasStore = true) {log : Log} {s : Session}
    {next : Handler Unit}
    (hnext : ∀ log' s' key principal, s'.principal = some principal →
      Entitled rq log' key principal →
        (mediating g rq).Ensures log' s' next fun _ _ _ ↦ True)
    {key : Text} {principal : Principal} (hs : s.principal = some principal)
    (hauth : Authentic rq log key principal)
    (hscope : ∃ scope, scopeOf rq.path = some scope ∧ scope ∈ principal.scopes) :
    (mediating g rq).Ensures log s (do
      if ← admitted g then next else sendError g rq 429 "rate_limited") fun _ _ _ ↦ True := by
  refine Monitor.ensures_bind ((ensures_admitted hstore log s).mono ?_)
  rintro log' r s' ⟨rfl, ⟨es, rfl⟩, hadmit⟩
  refine ⟨fun passed hp ↦ ?_, fun _ _ ↦ trivial⟩
  split
  · next hpassed =>
    refine hnext _ _ key principal hs ⟨hauth.append es, hscope, hadmit ?_ principal hs⟩
    rw [hp, hpassed]
  · exact ensures_sendError _ _ _ _

private theorem ensures_guardedGet (hstore : g.hasStore = true) (log : Log) (s : Session) :
    (mediating g rq).Ensures log s (guardedGet g rq) fun _ _ _ ↦ True := by
  refine Monitor.ensures_bind ((ensures_authorized hstore log s).mono fun log' r s' hauth ↦
    ⟨fun allowed ha ↦ ?_, fun _ _ ↦ trivial⟩)
  split
  · next hallowed =>
    obtain ⟨key, principal, hs, hauthentic⟩ := hauth (by rw [ha, hallowed])
    refine Monitor.ensures_bind ((ensures_scopeAllowed hstore log' s').mono ?_)
    rintro _ r' _ ⟨rfl, rfl, hscope⟩
    refine ⟨fun inScope hi ↦ ?_, fun _ _ ↦ trivial⟩
    split
    · next hin =>
      refine ensures_guarded hstore (fun log'' s'' key' principal' hs'' hentitled ↦ ?_) hs
        hauthentic (hscope (by rw [hi, hin]) principal hs)
      exact ensures_forward none hstore fun _ ↦ ⟨key', principal', hs'', hentitled⟩
    · exact ensures_sendError _ _ _ _
  · exact ensures_sendError _ _ _ _

private theorem ensures_guardedPost (hstore : g.hasStore = true) (log : Log) (s : Session) :
    (mediating g rq).Ensures log s (guardedPost g rq) fun _ _ _ ↦ True := by
  refine Monitor.ensures_bind ((ensures_authorized hstore log s).mono fun log' r s' hauth ↦
    ⟨fun allowed ha ↦ ?_, fun _ _ ↦ trivial⟩)
  split
  · next hallowed =>
    obtain ⟨key, principal, hs, hauthentic⟩ := hauth (by rw [ha, hallowed])
    refine Monitor.ensures_bind ((ensures_scopeAllowed hstore log' s').mono ?_)
    rintro _ r' _ ⟨rfl, rfl, hscope⟩
    refine ⟨fun inScope hi ↦ ?_, fun _ _ ↦ trivial⟩
    split
    · next hin =>
      split
      · exact ensures_sendError _ _ _ _
      · split
        · exact ensures_sendError _ _ _ _
        · refine ensures_guarded hstore (fun log'' s'' key' principal' hs'' hentitled ↦ ?_) hs
            hauthentic (hscope (by rw [hi, hin]) principal hs)
          rw [postBody]
          split
          · exact ensures_sendError _ _ _ _
          · refine Monitor.ensures_bind (Monitor.ensures_call (permitted_local rfl) fun body _ ↦
              Monitor.ensures_ofExcept ⟨fun _ _ ↦ ?_, fun _ _ ↦ trivial⟩)
            exact ensures_forward _ hstore fun _ ↦ ⟨key', principal', hs'', hentitled.append _⟩
    · exact ensures_sendError _ _ _ _
  · exact ensures_sendError _ _ _ _

omit [FloatText] in
private theorem ensures_begin {α : Type} {next : Handler α}
    (h : ∀ log s, (mediating g rq).Ensures log s next fun _ _ _ ↦ True) (log : Log) (s : Session) :
    (mediating g rq).Ensures log s (do beginRequest; next) fun _ _ _ ↦ True :=
  Monitor.ensures_bind (Monitor.ensures_call (permitted_local rfl) fun _ _ ↦
    Monitor.ensures_modify ⟨fun _ _ ↦ h _ _, fun _ _ ↦ trivial⟩)

/-- Every run of the handler contacts the upstream only where it is permitted. -/
theorem ensures_handle (hstore : g.hasStore = true) (malformed : Option Int) (log : Log)
    (s : Session) : (mediating g rq).Ensures log s (handle g rq malformed) fun _ _ _ ↦ True := by
  have hrefuse : ∀ code log s, (mediating g rq).Ensures log s (refuse g rq code) fun _ _ _ ↦ True := by
    intro code
    refine ensures_begin fun log s ↦ ?_
    split
    · exact ensures_sendError _ _ _ _
    · exact ensures_sendError _ _ _ _
  have hanswer : ∀ {method : Handler Unit}, ((mediating g rq).Ensures log s method
      fun _ _ _ ↦ True) → (mediating g rq).Ensures log s (answering g rq method) fun _ _ _ ↦ True :=
    fun h ↦ Monitor.ensures_tryExcept (h.mono fun _ _ _ _ ↦ ⟨fun _ _ ↦ trivial, fun _ _ _ ↦ trivial,
      fun _ _ _ ↦ ensures_sendError _ _ _ _⟩)
  unfold handle
  split
  · exact hrefuse _ _ _
  · split
    · refine hanswer (ensures_begin (fun log s ↦ ?_) log s)
      split
      · exact ensures_sendError _ _ _ _
      · split
        · next hpath => exact ensures_forward none hstore fun hne ↦ absurd hpath hne
        · exact ensures_guardedGet hstore log s
    · refine hanswer (ensures_begin (fun log s ↦ ?_) log s)
      split
      · exact ensures_sendError _ _ _ _
      · exact ensures_guardedPost hstore log s
    · exact hrefuse _ _ _
    · exact hrefuse _ _ _

/-- With a store, whenever the upstream is contacted for another path than `/health`, the request
was authenticated, in scope and admitted, its permits are held, its dispatch event is stored and
what is sent carries only the gateway's own headers. -/
theorem mediated_of_contact (hstore : g.hasStore = true) (malformed : Option Int) (s : Session)
    {pre post : Log} {e : Event IngressOp IngressOp.Res}
    {q : Prog IngressOp IngressOp.Res (Except PyError Unit × Session)}
    (hrun : Prog.Runs (handle g rq malformed s) (pre ++ e :: post) q)
    (hcontact : contacts e.op = true) (hpath : rq.path ≠ Text.ofString "/health") :
    (∃ key principal, Mediated rq pre key principal) ∧
      ∀ method path body headers, e.op = .request method path body headers →
        path = rq.path ∧ ∀ header ∈ headers, OwnHeader g rq header := by
  have h := (ensures_handle hstore malformed [] s).allows_of_runs hrun fun _ _ ↦ trivial
  rw [List.nil_append] at h
  exact h hcontact hpath

end Parts

/-- A request for the list of models reaches the upstream, and everything stands before it. -/
theorem mediated_of_contact_models : ∃ pre post,
    (Prog.play calmHost (@handle FloatText.fraction keyGateway modelsRequest none .initial)).1 =
      pre ++ ⟨.connect, .ok true⟩ :: post ∧
    ∃ key principal, Mediated modelsRequest pre key principal := by
  let _ := FloatText.fraction
  obtain ⟨q, hrun, -⟩ := Prog.finishes_play calmHost (handle keyGateway modelsRequest none .initial)
  have hconnect : (Prog.play calmHost (handle keyGateway modelsRequest none .initial)).1[5]? =
      some ⟨.connect, .ok true⟩ := rfl
  obtain ⟨pre, post, hsplit, -⟩ := split_at_position hconnect
  rw [hsplit] at hrun
  exact ⟨pre, post, hsplit, (mediated_of_contact rfl none .initial hrun rfl (by decide)).1⟩

end C3RSpec.Ingress
