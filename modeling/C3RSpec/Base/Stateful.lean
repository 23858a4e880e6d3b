import C3RSpec.Base.Monitor

/-!
# Programs with a state that survives exceptions

Library `Base`. The attributes of an object and the variables of an enclosing function keep what
was assigned to them when an exception passes, so `except` and `finally` blocks see it. An `Act`
is a program over host operations that threads such a state through both ways of ending. What all
its runs ensure is proved rule by rule, one for each construct.
-/

namespace C3RSpec.Base

/-- A program that ends in a value or an exception, in either case with a state. -/
def Act (Op : Type) (Res : Op → Type) (S α : Type) := S → Prog Op Res (Except PyError α × S)

namespace Act

variable {Op : Type} {Res : Op → Type} {S α β : Type}

/-- Sequential composition; an exception skips the continuation. -/
def bind (act : Act Op Res S α) (f : α → Act Op Res S β) : Act Op Res S β := fun s ↦
  act s >>= fun x ↦ match x with
    | (.ok a, s) => f a s
    | (.error e, s) => .ret (.error e, s)

instance : Monad (Act Op Res S) where
  pure a := fun s ↦ .ret (.ok a, s)
  bind := bind

/-- Perform one operation. -/
def perform (o : Op) : Act Op Res S (Res o) := fun s ↦ .call o fun r ↦ .ret (.ok r, s)

/-- A computation that needs no operation. -/
def ofExcept (x : Except PyError α) : Act Op Res S α := fun s ↦ .ret (x, s)

/-- `raise`. -/
def raise (e : PyError) : Act Op Res S α := ofExcept (.error e)

/-- The state. -/
def read : Act Op Res S S := fun s ↦ .ret (.ok s, s)

/-- An assignment to the state. -/
def modify (f : S → S) : Act Op Res S Unit := fun s ↦ .ret (.ok (), f s)

/-- `try: … except (…): …`. -/
def tryExcept (act : Act Op Res S α) (catches : PyError → Bool)
    (handler : PyError → Act Op Res S α) : Act Op Res S α := fun s ↦
  act s >>= fun x ↦ match x with
    | (.ok a, s) => .ret (.ok a, s)
    | (.error e, s) => if catches e then handler e s else .ret (.error e, s)

/-- `try: … finally: …`; an exception of the last block replaces the outcome. -/
def finallyDo (act : Act Op Res S α) (cleanup : Act Op Res S Unit) : Act Op Res S α := fun s ↦
  act s >>= fun x ↦ cleanup x.2 >>= fun y ↦ match y with
    | (.ok _, s) => .ret (x.1, s)
    | (.error e, s) => .ret (.error e, s)

end Act

/-! ### The operations of a program -/

/-- Every operation that a run may perform satisfies `p`, and every run ends in a value with
`q`. -/
def Prog.Within {Op : Type} {Res : Op → Type} {α : Type} (p : Op → Prop) (q : α → Prop) :
    Prog Op Res α → Prop
  | .ret a => q a
  | .raise _ => False
  | .call o k => p o ∧ ∀ r, Within p q (k r)

/-- Compositions perform what their parts do. -/
theorem Prog.Within.bind {Op : Type} {Res : Op → Type} {α β : Type} {p : Op → Prop} {q : α → Prop}
    {q' : β → Prop} {prog : Prog Op Res α} {f : α → Prog Op Res β} (h : prog.Within p q)
    (hf : ∀ a, q a → (f a).Within p q') : (prog >>= f).Within p q' := by
  induction prog with
  | ret a => exact hf a h
  | raise e => exact h.elim
  | call o k ih => exact ⟨h.1, fun r ↦ ih r (h.2 r)⟩

namespace Act

variable {Op : Type} {Res : Op → Type} {S κ α β : Type} {p : Op → Prop} {kept : S → κ}

/-- From any state, every operation that a run may perform satisfies `p`, and the run leaves what
`kept` reads of the state as it was. -/
def Within (p : Op → Prop) (kept : S → κ) (act : Act Op Res S α) : Prop :=
  ∀ s, (act s).Within p fun x ↦ kept x.2 = kept s

/-- No operation. -/
@[simp] theorem within_pure (a : α) : (pure a : Act Op Res S α).Within p kept := fun _ ↦ rfl

/-- No operation. -/
@[simp] theorem within_ofExcept (x : Except PyError α) :
    (ofExcept x : Act Op Res S α).Within p kept := fun _ ↦ rfl

/-- No operation. -/
@[simp] theorem within_raise (e : PyError) : (raise e : Act Op Res S α).Within p kept :=
  fun _ ↦ rfl

/-- No operation. -/
@[simp] theorem within_read : (read : Act Op Res S S).Within p kept := fun _ ↦ rfl

/-- An assignment to something else. -/
theorem within_modify {f : S → S} (h : ∀ s, kept (f s) = kept s) :
    (modify f : Act Op Res S Unit).Within p kept := h

/-- One operation. -/
theorem within_perform {o : Op} (h : p o) : (perform o : Act Op Res S (Res o)).Within p kept :=
  fun _ ↦ ⟨h, fun _ ↦ rfl⟩

/-- A composition. -/
theorem Within.bind {act : Act Op Res S α} {f : α → Act Op Res S β} (h : act.Within p kept)
    (hf : ∀ a, (f a).Within p kept) : (act >>= f).Within p kept := by
  intro s
  refine Prog.Within.bind (h s) ?_
  rintro ⟨x, s'⟩ hs
  cases x with
  | ok a =>
    have hnext := hf a s'
    rwa [show kept s' = kept s from hs] at hnext
  | error e => exact hs

/-- A handler. -/
theorem Within.tryExcept {act : Act Op Res S α} {catches : PyError → Bool}
    {handler : PyError → Act Op Res S α} (h : act.Within p kept)
    (hh : ∀ e, (handler e).Within p kept) : (act.tryExcept catches handler).Within p kept := by
  intro s
  refine Prog.Within.bind (h s) ?_
  rintro ⟨x, s'⟩ hs
  cases x with
  | ok a => exact hs
  | error e =>
    dsimp only
    split
    · have hnext := hh e s'
      rwa [show kept s' = kept s from hs] at hnext
    · exact hs

/-- A last block. -/
theorem Within.finallyDo {act : Act Op Res S α} {cleanup : Act Op Res S Unit}
    (h : act.Within p kept) (hc : cleanup.Within p kept) :
    (act.finallyDo cleanup).Within p kept := by
  intro s
  refine Prog.Within.bind (h s) ?_
  rintro ⟨x, s'⟩ hs
  refine Prog.Within.bind (hc s') ?_
  rintro ⟨y, s''⟩ hs'
  cases y with
  | ok u => exact hs'.trans hs
  | error e => exact hs'.trans hs

end Act

namespace Monitor

variable {Op : Type} {Res : Op → Type} {S α β γ M : Type} {mon : Monitor Op Res γ M}
  {m : M} {s : S}

/-- From this monitor state and program state on, the program takes only allowed steps and every
run of it ends as `Q` says. -/
def Ensures (mon : Monitor Op Res γ M) (m : M) (s : S) (act : Act Op Res S α)
    (Q : M → Except PyError α → S → Prop) : Prop :=
  (mon.accepting fun m x ↦ ∃ r s', x = .ok (r, s') ∧ Q m r s').Obeys m (act s)

private theorem obeys_accepting_mono {P Q : M → Except PyError β → Prop}
    (h : ∀ m x, P m x → Q m x) {p : Prog Op Res β} {m : M}
    (hp : (mon.accepting P).Obeys m p) : (mon.accepting Q).Obeys m p := by
  induction p generalizing m with
  | ret a => exact h _ _ hp
  | raise e => exact h _ _ hp
  | call o k ih => exact ⟨hp.1, fun r hr ↦ ih r (hp.2 r hr)⟩

/-- A weaker postcondition. -/
theorem Ensures.mono {act : Act Op Res S α} {P Q : M → Except PyError α → S → Prop}
    (h : mon.Ensures m s act P) (hq : ∀ m' r s', P m' r s' → Q m' r s') :
    mon.Ensures m s act Q :=
  obeys_accepting_mono (fun _ _ ⟨r, s', hx, hp⟩ ↦ ⟨r, s', hx, hq _ r s' hp⟩) h

private theorem obeys_accepting_and {P Q : M → Except PyError β → Prop} {p : Prog Op Res β} {m : M}
    (hp : (mon.accepting P).Obeys m p) (hq : (mon.accepting Q).Obeys m p) :
    (mon.accepting fun m x ↦ P m x ∧ Q m x).Obeys m p := by
  induction p generalizing m with
  | ret a => exact ⟨hp, hq⟩
  | raise e => exact ⟨hp, hq⟩
  | call o k ih => exact ⟨hp.1, fun r hr ↦ ih r (hp.2 r hr) (hq.2 r hr)⟩

/-- Two postconditions at once. -/
theorem Ensures.and {act : Act Op Res S α} {P Q : M → Except PyError α → S → Prop}
    (h : mon.Ensures m s act P) (h' : mon.Ensures m s act Q) :
    mon.Ensures m s act fun m' r s' ↦ P m' r s' ∧ Q m' r s' := by
  refine obeys_accepting_mono ?_ (obeys_accepting_and h h')
  rintro m' x ⟨⟨r, s', rfl, hp⟩, ⟨r', s'', hx, hq⟩⟩
  cases hx
  exact ⟨r, s', rfl, hp, hq⟩

/-- A value. -/
theorem ensures_pure {a : α} {Q : M → Except PyError α → S → Prop} (h : Q m (.ok a) s) :
    mon.Ensures m s (pure a) Q := ⟨.ok a, s, rfl, h⟩

/-- A computation without operations. -/
theorem ensures_ofExcept {x : Except PyError α} {Q : M → Except PyError α → S → Prop}
    (h : Q m x s) : mon.Ensures m s (Act.ofExcept x) Q := ⟨x, s, rfl, h⟩

/-- An exception. -/
theorem ensures_raise {e : PyError} {Q : M → Except PyError α → S → Prop} (h : Q m (.error e) s) :
    mon.Ensures m s (Act.raise e) Q := ⟨.error e, s, rfl, h⟩

/-- Reading the state. -/
theorem ensures_read {Q : M → Except PyError S → S → Prop} (h : Q m (.ok s) s) :
    mon.Ensures m s Act.read Q := ⟨.ok s, s, rfl, h⟩

/-- An assignment. -/
theorem ensures_modify {f : S → S} {Q : M → Except PyError Unit → S → Prop}
    (h : Q m (.ok ()) (f s)) : mon.Ensures m s (Act.modify f) Q := ⟨.ok (), f s, rfl, h⟩

/-- One operation. -/
theorem ensures_perform {o : Op} {Q : M → Except PyError (Res o) → S → Prop}
    (ha : mon.allows m o) (h : ∀ r, mon.possible o r → Q (mon.next m ⟨o, r⟩) (.ok r) s) :
    mon.Ensures m s (Act.perform o) Q :=
  ⟨ha, fun r hr ↦ ⟨.ok r, s, rfl, h r hr⟩⟩

/-- An operation and what follows it. -/
theorem ensures_call {o : Op} {f : Res o → Act Op Res S α} {Q : M → Except PyError α → S → Prop}
    (ha : mon.allows m o)
    (h : ∀ r, mon.possible o r → mon.Ensures (mon.next m ⟨o, r⟩) s (f r) Q) :
    mon.Ensures m s (Act.perform o >>= f) Q := ⟨ha, h⟩

/-- Reading the state and what follows it. -/
theorem ensures_get {f : S → Act Op Res S α} {Q : M → Except PyError α → S → Prop}
    (h : mon.Ensures m s (f s) Q) : mon.Ensures m s (Act.read >>= f) Q := h

/-- An assignment and what follows it. -/
theorem ensures_set {g : S → S} {f : Unit → Act Op Res S α} {Q : M → Except PyError α → S → Prop}
    (h : mon.Ensures m (g s) (f ()) Q) : mon.Ensures m s (Act.modify g >>= f) Q := h

/-- A value and what follows it. -/
theorem ensures_let {x : Except PyError β} {f : β → Act Op Res S α}
    {Q : M → Except PyError α → S → Prop} (hok : ∀ a, x = .ok a → mon.Ensures m s (f a) Q)
    (herror : ∀ e, x = .error e → Q m (.error e) s) :
    mon.Ensures m s (Act.ofExcept x >>= f) Q := by
  cases x with
  | ok a => exact hok a rfl
  | error e => exact ⟨.error e, s, rfl, herror e rfl⟩

private theorem ensures_then {act : Act Op Res S α}
    {f : Except PyError α × S → Prog Op Res (Except PyError β × S)}
    {Q : M → Except PyError β → S → Prop}
    (h : mon.Ensures m s act fun m' r s' ↦
      (mon.accepting fun m x ↦ ∃ r s', x = .ok (r, s') ∧ Q m r s').Obeys m' (f (r, s'))) :
    (mon.accepting fun m x ↦ ∃ r s', x = .ok (r, s') ∧ Q m r s').Obeys m (act s >>= f) := by
  refine obeys_bind _ (obeys_accepting_mono ?_ h)
  rintro m' x ⟨r, s', rfl, hx⟩
  refine ⟨fun b hb ↦ ?_, fun e he ↦ by cases he⟩
  cases hb
  exact hx

/-- A composition: the second part from where the first one ends. -/
theorem ensures_bind {act : Act Op Res S α} {f : α → Act Op Res S β}
    {Q : M → Except PyError β → S → Prop}
    (h : mon.Ensures m s act fun m' r s' ↦ (∀ a, r = .ok a → mon.Ensures m' s' (f a) Q) ∧
      ∀ e, r = .error e → Q m' (.error e) s') : mon.Ensures m s (act >>= f) Q := by
  refine ensures_then (h.mono ?_)
  intro m' r s' hr
  cases r with
  | ok a => exact hr.1 a rfl
  | error e => exact ⟨.error e, s', rfl, hr.2 e rfl⟩

/-- An operation whose answer may be an exception, and what follows it. -/
theorem ensures_raising {o : Op} {conv : Res o → Except PyError α} {f : α → Act Op Res S β}
    {Q : M → Except PyError β → S → Prop} (ha : mon.allows m o)
    (hok : ∀ r a, mon.possible o r → conv r = .ok a →
      mon.Ensures (mon.next m ⟨o, r⟩) s (f a) Q)
    (herror : ∀ r e, mon.possible o r → conv r = .error e → Q (mon.next m ⟨o, r⟩) (.error e) s) :
    mon.Ensures m s ((Act.perform o >>= fun r ↦ Act.ofExcept (conv r)) >>= f) Q :=
  ensures_bind (ensures_call ha fun r hr ↦
    ensures_ofExcept ⟨fun a he ↦ hok r a hr he, fun e he ↦ herror r e hr he⟩)

/-- A handler: values of the body, exceptions it lets pass, and the handler's own ends. -/
theorem ensures_tryExcept {act : Act Op Res S α} {catches : PyError → Bool}
    {handler : PyError → Act Op Res S α} {Q : M → Except PyError α → S → Prop}
    (h : mon.Ensures m s act fun m' r s' ↦ (∀ a, r = .ok a → Q m' (.ok a) s') ∧
      (∀ e, r = .error e → catches e = false → Q m' (.error e) s') ∧
      ∀ e, r = .error e → catches e = true → mon.Ensures m' s' (handler e) Q) :
    mon.Ensures m s (act.tryExcept catches handler) Q := by
  refine ensures_then (h.mono ?_)
  intro m' r s' hr
  cases r with
  | ok a => exact ⟨.ok a, s', rfl, hr.1 a rfl⟩
  | error e =>
    dsimp only
    split
    · next hc => exact hr.2.2 e rfl hc
    · next hc => exact ⟨.error e, s', rfl, hr.2.1 e rfl (Bool.not_eq_true _ ▸ hc)⟩

/-- A last block, whatever the outcome of the first. -/
theorem ensures_finallyDo {act : Act Op Res S α} {cleanup : Act Op Res S Unit}
    {Q : M → Except PyError α → S → Prop}
    (h : mon.Ensures m s act fun m' r s' ↦ mon.Ensures m' s' cleanup fun m'' x s'' ↦
      (∀ u, x = .ok u → Q m'' r s'') ∧ ∀ e, x = .error e → Q m'' (.error e) s'') :
    mon.Ensures m s (act.finallyDo cleanup) Q := by
  refine ensures_then (h.mono ?_)
  intro m' r s' hr
  refine ensures_then (hr.mono ?_)
  intro m'' x s'' hx
  cases x with
  | ok u => exact ⟨r, s'', rfl, hx.1 u rfl⟩
  | error e => exact ⟨.error e, s'', rfl, hx.2 e rfl⟩

/-- A program whose ends are all accepted obeys the monitor. -/
theorem Ensures.obeys {mon : Monitor Op Res (Except PyError α × S) M} {act : Act Op Res S α}
    {Q : M → Except PyError α → S → Prop} (h : mon.Ensures m s act Q)
    (hq : ∀ m' r s', Q m' r s' → mon.accepts m' (.ok (r, s'))) : mon.Obeys m (act s) := by
  refine obeys_accepting_mono (Q := mon.accepts) ?_ h
  rintro m' x ⟨r, s', rfl, hx⟩
  exact hq m' r s' hx

/-- A finished run ends as the postcondition says about the monitor state it leads to. -/
theorem Ensures.of_track {act : Act Op Res S α} {es : List (Event Op Res)}
    {Q : M → Except PyError α → S → Prop} {r : Except PyError α} {s' : S}
    (h : mon.Ensures m s act Q) (hf : Prog.Finishes (act s) es (.ok (r, s')))
    (hp : ∀ e ∈ es, mon.possible e.op e.answer) : Q (mon.track m es) r s' := by
  obtain ⟨q, hr, hq⟩ := hf
  have hobeys := Obeys.runs h hr hp
  cases q with
  | ret x =>
    cases hq
    obtain ⟨r', t, hx, hQ⟩ := hobeys
    cases hx
    exact hQ
  | raise e => cases hq
  | call o k => cases hq

private theorem obeys_of_within {p : Op → Prop} {q : S → Prop} {P : M → Prop}
    {prog : Prog Op Res (Except PyError α × S)} (h : prog.Within p fun x ↦ q x.2)
    (hkeep : ∀ m o, P m → p o →
      mon.allows m o ∧ ∀ r, mon.possible o r → P (mon.next m ⟨o, r⟩)) (hm : P m) :
    (mon.accepting fun m x ↦ ∃ r s', x = .ok (r, s') ∧ P m ∧ q s').Obeys m prog := by
  induction prog generalizing m with
  | ret x => exact ⟨x.1, x.2, rfl, hm, h⟩
  | raise e => exact h.elim
  | call o k ih =>
    obtain ⟨ha, hnext⟩ := hkeep m o hm h.1
    exact ⟨ha, fun r hr ↦ ih r (h.2 r) (hnext r hr)⟩

/-- What the operations of a program keep of the monitor state, its runs keep. -/
theorem ensures_of_within {κ : Type} {p : Op → Prop} {kept : S → κ} {P : M → Prop}
    {act : Act Op Res S α} (h : act.Within p kept)
    (hkeep : ∀ m o, P m → p o →
      mon.allows m o ∧ ∀ r, mon.possible o r → P (mon.next m ⟨o, r⟩)) (hm : P m) :
    mon.Ensures m s act fun m' _ s' ↦ P m' ∧ kept s' = kept s :=
  obeys_of_within (q := fun s' ↦ kept s' = kept s) (h s) hkeep hm

/-! ### Logs -/

/-- The monitor that remembers every event. -/
def logging (allows : List (Event Op Res) → Op → Prop) (possible : (o : Op) → Res o → Prop) :
    Monitor Op Res Unit (List (Event Op Res)) :=
  ⟨fun log e ↦ log ++ [e], allows, possible, fun _ _ ↦ True⟩

variable {allows : List (Event Op Res) → Op → Prop} {possible : (o : Op) → Res o → Prop}

private theorem track_logging (log events : List (Event Op Res)) :
    (logging allows possible).track log events = log ++ events := by
  induction events generalizing log with
  | nil => exact (List.append_nil log).symm
  | cons e events ih =>
    change (logging allows possible).track (log ++ [e]) events = _
    rw [ih, List.append_assoc, List.singleton_append]

/-- A program of allowed operations extends the log by them. -/
theorem ensures_log_of_within {κ : Type} {p : Op → Prop} {kept : S → κ} {act : Act Op Res S α}
    (h : act.Within p kept) (ha : ∀ log o, p o → allows log o) (log : List (Event Op Res)) (s : S) :
    (logging allows possible).Ensures log s act fun log' _ _ ↦
      ∃ es, log' = log ++ es ∧ ∀ e ∈ es, p e.op := by
  refine (ensures_of_within (P := fun log' ↦ ∃ es, log' = log ++ es ∧ ∀ e ∈ es, p e.op) h ?_
    ⟨[], (List.append_nil log).symm, fun _ he ↦ by cases he⟩).mono fun _ _ _ hq ↦ hq.1
  rintro _ o ⟨es, rfl, hes⟩ ho
  refine ⟨ha _ o ho, fun r _ ↦ ⟨es ++ [⟨o, r⟩], List.append_assoc .., fun e he ↦ ?_⟩⟩
  obtain he | he := List.mem_append.mp he
  · exact hes e he
  · rw [List.mem_singleton.mp he]
    exact ho

/-- A finished run ends as the postcondition says about its events. -/
theorem Ensures.of_finishes {act : Act Op Res S α} {log es : List (Event Op Res)}
    {Q : List (Event Op Res) → Except PyError α → S → Prop} {r : Except PyError α} {s' : S}
    (h : (logging allows possible).Ensures log s act Q)
    (hf : Prog.Finishes (act s) es (.ok (r, s')))
    (hp : ∀ e ∈ es, possible e.op e.answer) : Q (log ++ es) r s' := by
  have hQ := h.of_track hf hp
  rwa [track_logging] at hQ

/-- Every step of every run was allowed after the events before it. -/
theorem Ensures.allows_of_runs {act : Act Op Res S α} {log pre post : List (Event Op Res)}
    {e : Event Op Res} {q : Prog Op Res (Except PyError α × S)}
    {Q : List (Event Op Res) → Except PyError α → S → Prop}
    (h : (logging allows possible).Ensures log s act Q)
    (hr : Prog.Runs (act s) (pre ++ e :: post) q)
    (hp : ∀ x ∈ pre, possible x.op x.answer) : allows (log ++ pre) e.op := by
  obtain ⟨mid, hpre, hpost⟩ := hr.split
  have hobeys := Obeys.runs h hpre hp
  cases hpost with
  | call o k r _ _ _ =>
    have hallows : allows ((logging allows possible).track log pre) o := hobeys.1
    rwa [track_logging] at hallows

end Monitor

end C3RSpec.Base
