import C3RSpec.Base.Permits
import C3RSpec.Ingress.Capacity
import C3RSpec.Ingress.Mediation

/-!
# Permits are held while the upstream is contacted

`c3r/ingress_proxy.py:206–320`. Of each semaphore a request gives back only a permit that it holds,
and it contacts the upstream only under the permit of the server and that of its route.
-/

namespace C3RSpec.Ingress

open Base

/-- Giving back a permit of the semaphore. -/
def givesBack (slot : Slot) : IngressOp → Bool
  | .release x => decide (x = slot)
  | _ => false

/-- A semaphore of the server. -/
def semaphore (slot : Slot) : Semaphore IngressOp IngressOp.Res :=
  ⟨Capacity.grants slot, givesBack slot, contacts⟩

/-- The request contacts the upstream under a permit of the semaphore. -/
def Request.isUnder (rq : Request) (slot : Slot) : Bool :=
  decide (slot = .inFlight ∨ slotOf rq.path = some slot)

/-- Operations that neither touch a semaphore nor contact the upstream. -/
def calm : IngressOp → Bool
  | .acquire _ | .release _ | .connect | .request _ _ _ _ => false
  | _ => true

/-- The monitor of one semaphore. -/
abbrev permits (slot : Slot) : Monitor IngressOp IngressOp.Res Unit Permit :=
  (semaphore slot).monitor

/-- From any session, this part neither takes nor gives, and needs no more than is held. -/
def Keeps {α : Type} (slot : Slot) (m : Permit) (act : Handler α) : Prop :=
  ∀ s, (permits slot).Ensures m s act fun m' _ _ ↦ m' = m

/-- The part does as the semaphore demands. -/
def Orderly {α : Type} (slot : Slot) (m : Permit) (act : Handler α) : Prop :=
  ∀ s, (permits slot).Ensures m s act fun _ _ _ ↦ True

section Rules

variable {slot : Slot} {m : Permit} {α β : Type}

theorem Keeps.orderly {act : Handler α} (h : Keeps slot m act) : Orderly slot m act := fun s ↦
  (h s).mono fun _ _ _ _ ↦ trivial

theorem keeps_pure (a : α) : Keeps slot m (pure a : Handler α) := fun _ ↦ Monitor.ensures_pure rfl

theorem keeps_ofExcept (x : Except PyError α) : Keeps slot m (Act.ofExcept x : Handler α) := fun _ ↦
  Monitor.ensures_ofExcept rfl

theorem keeps_modify (f : Session → Session) : Keeps slot m (Act.modify f : Handler Unit) := fun _ ↦
  Monitor.ensures_modify rfl

theorem keeps_read : Keeps slot m (Act.read : Handler Session) := fun _ ↦ Monitor.ensures_read rfl

theorem Keeps.bind {act : Handler α} {f : α → Handler β} (h : Keeps slot m act)
    (hf : ∀ a, Keeps slot m (f a)) : Keeps slot m (act >>= f) := fun s ↦
  Monitor.ensures_bind ((h s).mono fun _ _ s' hm ↦ ⟨fun a _ ↦ hm ▸ hf a s', fun _ _ ↦ hm⟩)

/-- What follows a part that keeps the permit starts where that part did. -/
theorem Keeps.orderly_bind {act : Handler α} {f : α → Handler β} (h : Keeps slot m act)
    (hf : ∀ a, Orderly slot m (f a)) : Orderly slot m (act >>= f) := fun s ↦
  Monitor.ensures_bind ((h s).mono fun _ _ s' hm ↦ ⟨fun a _ ↦ hm ▸ hf a s', fun _ _ ↦ trivial⟩)

theorem Keeps.tryExcept {act : Handler α} {catches : PyError → Bool} {handler : PyError → Handler α}
    (h : Keeps slot m act) (hh : ∀ e, Keeps slot m (handler e)) :
    Keeps slot m (act.tryExcept catches handler) := fun s ↦
  Monitor.ensures_tryExcept ((h s).mono fun _ _ s' hm ↦
    ⟨fun _ _ ↦ hm, fun _ _ _ ↦ hm, fun e _ _ ↦ hm ▸ hh e s'⟩)

private theorem next_of_untouched (m : Permit) {o : IngressOp} (h : (calm o || contacts o) = true)
    (r : o.Res) : (permits slot).next m ⟨o, r⟩ = m := by
  cases o with
  | acquire | release => cases h
  | _ => rfl

private theorem allows_of_calm (m : Permit) {o : IngressOp} (h : calm o = true) :
    (permits slot).allows m o := by
  cases o with
  | acquire | release | connect | request => cases h
  | _ => exact ⟨fun hback ↦ Bool.noConfusion hback, fun hneeds ↦ Bool.noConfusion hneeds⟩

/-- One operation that leaves the semaphores alone and does not contact the upstream. -/
theorem keeps_ask {o : IngressOp} (h : calm o = true) : Keeps slot m (ask o) := fun _ ↦
  Monitor.ensures_perform (allows_of_calm m h) fun r _ ↦
    next_of_untouched m (by rw [h, Bool.true_or]) r

/-- One contact of the upstream, once the permit is held where it is needed. -/
theorem keeps_contact {o : IngressOp} (h : contacts o = true)
    (hready : m.needed = true → m.held = true) : Keeps slot m (ask o) := fun s ↦ by
  refine Monitor.ensures_perform ?_ fun r _ ↦ next_of_untouched m (by rw [h, Bool.or_true]) r
  cases o with
  | connect | request => exact ⟨fun hback ↦ Bool.noConfusion hback, fun _ ↦ hready⟩
  | _ => cases h

/-- A part that only relays. -/
theorem keeps_relay {act : Handler α} (h : act.Within (fun o ↦ relays o = true) Session.watcher) :
    Keeps slot m act := fun s ↦ by
  refine (Monitor.ensures_of_within (P := fun m' ↦ m' = m) h ?_ rfl).mono fun _ _ _ hm ↦ hm.1
  rintro _ o rfl ho
  have hcalm : calm o = true := by
    cases o with
    | acquire | release | connect | request => cases ho
    | _ => rfl
  exact ⟨allows_of_calm _ hcalm, fun r _ ↦ next_of_untouched _ (by rw [hcalm, Bool.true_or]) r⟩

end Rules

section Parts

variable [FloatText] {g : Gateway} {rq : Request} {slot : Slot} {m : Permit}

/-! ### Around the exchange -/

private theorem keeps_sendError (status : Int) (code : Text) :
    Keeps slot m (sendError g rq status code) :=
  keeps_relay (sendError_within g rq (fun _ h ↦ relays_of_replies h) status code)

omit [FloatText] in
private theorem keeps_authorized : Keeps slot m (authorized g rq) := by
  rw [authorized]
  split
  · exact keeps_pure _
  · dsimp only
    split
    · exact keeps_pure _
    · split
      · unfold authorizedKey
        split
        · split
          · exact keeps_pure _
          · refine ((keeps_ask rfl).bind fun _ ↦ keeps_ofExcept _).bind fun principal ↦ ?_
            cases principal with
            | none => exact keeps_pure _
            | some principal => exact (keeps_modify _).bind fun _ ↦ keeps_pure _
        · exact keeps_pure _
      · split
        · exact keeps_ofExcept _
        · exact keeps_ofExcept _
        · exact keeps_pure _

omit [FloatText] in
private theorem keeps_scopeAllowed : Keeps slot m (scopeAllowed g rq) := by
  rw [scopeAllowed]
  split
  · refine keeps_read.bind fun s ↦ ?_
    split
    · exact keeps_pure _
    · exact keeps_pure _
  · exact keeps_pure _

omit [FloatText] in
private theorem keeps_admitted : Keeps slot m (admitted g) := by
  rw [admitted]
  split
  · refine keeps_read.bind fun s ↦ ?_
    split
    · exact (keeps_ask rfl).bind fun _ ↦ keeps_ofExcept _
    · exact keeps_pure _
  · exact keeps_ask rfl

omit [FloatText] in
private theorem keeps_dispatch : Keeps slot m (dispatch g rq) := by
  refine keeps_read.bind fun s ↦ ?_
  split
  · split
    · exact (keeps_ask rfl).bind fun _ ↦ keeps_ofExcept _
    · exact keeps_pure _
  · exact keeps_pure _

omit [FloatText] in
private theorem keeps_openUpstream (hready : m.needed = true → m.held = true) :
    Keeps slot m openUpstream := by
  refine ((keeps_contact rfl hready).bind fun _ ↦ keeps_ofExcept _).bind fun hasSocket ↦ ?_
  split
  · refine (keeps_modify _).bind fun _ ↦ ?_
    exact ((keeps_ask rfl).bind fun _ ↦ keeps_ofExcept _).bind fun _ ↦ keeps_modify _
  · exact keeps_ofExcept _

/-- The exchange with the upstream, under the permits of the request. -/
private theorem keeps_exchange (body : Option Bytes) (hready : m.needed = true → m.held = true) :
    Keeps slot m (exchange g rq body) := by
  refine Keeps.tryExcept ?_ fun _ ↦
    (keeps_relay (exchangeFailed_within g rq fun _ h ↦ h)).bind fun _ ↦ keeps_pure _
  refine keeps_dispatch.bind fun _ ↦ (keeps_openUpstream hready).bind fun _ ↦ ?_
  exact ((keeps_contact rfl hready).bind fun _ ↦ keeps_ofExcept _).bind fun _ ↦
    keeps_relay (receive_within g rq fun _ h ↦ h)

/-! ### Taking and giving back -/

omit [FloatText] in
private theorem decide_route_some (x : Slot) : decide (some x = some slot) = decide (x = slot) :=
  decide_eq_decide.mpr Option.some_inj

omit [FloatText] in
private theorem decide_route_none : decide ((none : Option Slot) = some slot) = false :=
  decide_eq_false (Option.some_ne_none slot).symm

omit [FloatText] in
private theorem permit_acquireRoute (route : Option Slot) (s : Session) :
    (permits slot).Ensures m s (acquireRoute route) fun m' r _ ↦ ∃ granted, r = .ok granted ∧
      m' = ⟨m.needed, m.held || (granted && decide (route = some slot))⟩ := by
  cases route with
  | none =>
    refine Monitor.ensures_pure ⟨true, rfl, ?_⟩
    rw [decide_route_none, Bool.and_false, Bool.or_false]
  | some x =>
    refine Monitor.ensures_perform ⟨fun h ↦ Bool.noConfusion h, fun h ↦ Bool.noConfusion h⟩
      fun granted _ ↦ ⟨granted, rfl, ?_⟩
    change Permit.mk m.needed (if (decide (x = slot) && granted) = true then true else m.held) = _
    rw [decide_route_some x]
    cases granted <;> cases decide (x = slot) <;> cases m.held <;> rfl

omit [FloatText] in
private theorem permit_releaseRoute (route : Option Slot)
    (h : route = some slot → m.held = true) (s : Session) :
    (permits slot).Ensures m s (releaseRoute route) fun m' r _ ↦ ∃ u, r = .ok u ∧
      m' = ⟨m.needed, m.held && !decide (route = some slot)⟩ := by
  cases route with
  | none =>
    refine Monitor.ensures_pure ⟨(), rfl, ?_⟩
    rw [decide_route_none, Bool.not_false, Bool.and_true]
  | some x =>
    refine Monitor.ensures_perform ⟨fun hback ↦ h (congrArg some (of_decide_eq_true hback)),
      fun hneeds ↦ Bool.noConfusion hneeds⟩ fun u _ ↦ ⟨u, rfl, ?_⟩
    change Permit.mk m.needed (if decide (x = slot) = true then false else m.held) = _
    rw [decide_route_some x]
    cases decide (x = slot) <;> cases m.held <;> rfl

omit [FloatText] in
/-- At the end both permits are given back, the one of the server first. -/
private theorem orderly_cleanUp (hserver : slot = .inFlight → m.held = true)
    (hroute : slotOf rq.path = some slot → m.held = true) :
    Orderly slot m (cleanUp (slotOf rq.path)) := by
  have hjoin : Keeps slot m joinWatcher := by
    refine keeps_read.bind fun s ↦ ?_
    split
    · exact keeps_pure _
    · exact keeps_ofExcept _
    · exact keeps_ask rfl
  have hback : Orderly slot m (do ask (.release .inFlight); releaseRoute (slotOf rq.path)
      : Handler Unit) := fun s ↦ by
    refine Monitor.ensures_bind ((permit_releaseRoute (some .inFlight)
      (fun h ↦ hserver (Option.some.inj h).symm) s).mono ?_)
    rintro _ r s' ⟨u, rfl, rfl⟩
    refine ⟨fun _ _ ↦ (permit_releaseRoute _ (fun h ↦ ?_) s').mono fun _ _ _ _ ↦ trivial,
      fun _ _ ↦ trivial⟩
    have hne : some Slot.inFlight ≠ some slot := fun heq ↦
      Capacity.slotOf_ne_inFlight rq.path (h.trans heq.symm)
    rw [hroute h, decide_eq_false hne]
    rfl
  exact hjoin.orderly_bind fun _ ↦
    ((keeps_ask rfl).bind fun _ ↦ keeps_ofExcept _).orderly_bind fun _ ↦ hback

private theorem orderly_forward (body : Option Bytes) :
    Orderly slot ⟨rq.isUnder slot, false⟩ (forward g rq body) := fun s ↦ by
  refine Monitor.ensures_set (Monitor.ensures_bind ((permit_acquireRoute _ _).mono ?_))
  rintro _ _ s₁ ⟨granted, rfl, rfl⟩
  refine ⟨fun ok hok ↦ ?_, fun _ _ ↦ trivial⟩
  cases hok
  cases granted with
  | false =>
    rw [if_neg Bool.false_ne_true]
    exact (keeps_sendError _ _).orderly s₁
  | true =>
    rw [if_pos rfl]
    refine Monitor.ensures_bind ((permit_acquireRoute (some .inFlight) s₁).mono ?_)
    rintro _ _ s₂ ⟨granted, rfl, rfl⟩
    refine ⟨fun ok hok ↦ ?_, fun _ _ ↦ trivial⟩
    cases hok
    dsimp only
    cases granted with
    | false =>
      rw [if_neg Bool.false_ne_true]
      refine Monitor.ensures_bind ((permit_releaseRoute _ (fun h ↦ ?_) s₂).mono fun _ _ s' _ ↦
        ⟨fun _ _ ↦ (keeps_sendError _ _).orderly s', fun _ _ ↦ trivial⟩)
      rw [decide_eq_true h, Bool.true_and, Bool.or_true, Bool.true_or]
    | true =>
      rw [if_pos rfl]
      have hheld : slot = .inFlight ∨ slotOf rq.path = some slot →
          (false || (true && decide (slotOf rq.path = some slot)) ||
            (true && decide (some Slot.inFlight = some slot))) = true := by
        rintro (h | h)
        · rw [decide_eq_true (congrArg some h.symm), Bool.and_self, Bool.or_true]
        · rw [decide_eq_true h, Bool.and_self, Bool.or_true, Bool.true_or]
      refine Monitor.ensures_bind (Monitor.ensures_finallyDo ((keeps_exchange body
        (fun h ↦ hheld (of_decide_eq_true h)) s₂).mono ?_))
      rintro _ r s' rfl
      refine (orderly_cleanUp (fun h ↦ hheld (.inl h)) (fun h ↦ hheld (.inr h)) s').mono
        fun _ _ s'' _ ↦
        ⟨fun _ _ ↦ ⟨fun reply _ ↦ ?_, fun _ _ ↦ trivial⟩, fun _ _ ↦ ⟨?_, fun _ _ ↦ trivial⟩⟩
      · cases reply with
        | none => exact (keeps_pure _).orderly s''
        | some reply => exact (keeps_relay (Act.Within.bind (within_raising (.sendHead _ _) rfl)
            fun _ ↦ within_raising (.write _) rfl)).orderly s''
      · exact fun _ h ↦ by cases h

/-! ### Entry points -/

private theorem orderly_guarded {next : Handler Unit}
    (h : Orderly slot ⟨rq.isUnder slot, false⟩ next) :
    Orderly slot ⟨rq.isUnder slot, false⟩ (do
      if ← admitted g then next else sendError g rq 429 "rate_limited") := by
  refine keeps_admitted.orderly_bind fun passed ↦ ?_
  split
  · exact h
  · exact (keeps_sendError _ _).orderly

private theorem orderly_guardedGet :
    Orderly slot ⟨rq.isUnder slot, false⟩ (guardedGet g rq) := by
  refine keeps_authorized.orderly_bind fun allowed ↦ ?_
  split
  · refine keeps_scopeAllowed.orderly_bind fun inScope ↦ ?_
    split
    · split
      · exact orderly_guarded (orderly_forward none)
      · refine (keeps_pure _).orderly_bind fun passed ↦ ?_
        dsimp only
        split
        · exact orderly_forward none
        · exact (keeps_sendError _ _).orderly
    · exact (keeps_sendError _ _).orderly
  · exact (keeps_sendError _ _).orderly

private theorem orderly_guardedPost :
    Orderly slot ⟨rq.isUnder slot, false⟩ (guardedPost g rq) := by
  refine keeps_authorized.orderly_bind fun allowed ↦ ?_
  split
  · refine keeps_scopeAllowed.orderly_bind fun inScope ↦ ?_
    split
    · split
      · exact (keeps_sendError _ _).orderly
      · split
        · exact (keeps_sendError _ _).orderly
        · refine orderly_guarded ?_
          rw [postBody]
          split
          · exact (keeps_sendError _ _).orderly
          · exact ((keeps_ask rfl).bind fun _ ↦ keeps_ofExcept _).orderly_bind fun body ↦
              orderly_forward (some body)
    · exact (keeps_sendError _ _).orderly
  · exact (keeps_sendError _ _).orderly

omit [FloatText] in
private theorem keeps_beginRequest : Keeps slot m beginRequest :=
  (keeps_ask rfl).bind fun _ ↦ keeps_modify _

/-- A whole request does as every semaphore demands. -/
theorem orderly_handle (malformed : Option Int) :
    Orderly slot ⟨rq.isUnder slot, false⟩ (handle g rq malformed) := by
  have hrefuse : ∀ code, Orderly slot ⟨rq.isUnder slot, false⟩ (refuse g rq code) := fun code ↦ by
    refine keeps_beginRequest.orderly_bind fun _ ↦ ?_
    split
    · exact (keeps_sendError _ _).orderly
    · exact (keeps_sendError _ _).orderly
  have hanswer : ∀ {method : Handler Unit}, Orderly slot ⟨rq.isUnder slot, false⟩ method →
      Orderly slot ⟨rq.isUnder slot, false⟩ (answering g rq method) := fun h s ↦
    Monitor.ensures_tryExcept ((h s).mono fun _ _ s' _ ↦ ⟨fun _ _ ↦ trivial, fun _ _ _ ↦ trivial,
      fun _ _ _ ↦ (keeps_sendError _ _).orderly s'⟩)
  unfold handle
  split
  · exact hrefuse _
  · split
    · refine hanswer (keeps_beginRequest.orderly_bind fun _ ↦ ?_)
      split
      · exact (keeps_sendError _ _).orderly
      · split
        · exact orderly_forward none
        · exact orderly_guardedGet
    · refine hanswer (keeps_beginRequest.orderly_bind fun _ ↦ ?_)
      split
      · exact (keeps_sendError _ _).orderly
      · exact orderly_guardedPost
    · exact hrefuse _
    · exact hrefuse _

end Parts

end C3RSpec.Ingress
