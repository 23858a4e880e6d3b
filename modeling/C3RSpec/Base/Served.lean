import C3RSpec.Base.Stateful

/-!
# Hosts with a state

Library `Base`. A host that keeps a state of its own answers every operation of a program and moves
on: a connection with bytes still to be read, a file that was written. Under such a host a program
has one outcome, and it is computed rule by rule.
-/

namespace C3RSpec.Base

variable {Op : Type} {Res : Op → Type} {S H α β : Type}

/-- The run of a program under a host with a state. -/
def Prog.served (host : H → (o : Op) → Res o × H) : H → Prog Op Res α → Except PyError α × H
  | h, .ret a => (.ok a, h)
  | h, .raise e => (.error e, h)
  | h, .call o k => served host (host h o).2 (k (host h o).1)

/-- The run of a composition. -/
theorem Prog.served_bind (host : H → (o : Op) → Res o × H) (h : H) (p : Prog Op Res α)
    (f : α → Prog Op Res β) : Prog.served host h (p >>= f) =
      match Prog.served host h p with
      | (.ok a, h') => Prog.served host h' (f a)
      | (.error e, h') => (.error e, h') := by
  induction p generalizing h with
  | ret a => rfl
  | raise e => rfl
  | call o k ih => exact ih (host h o).1 (host h o).2

namespace Act

variable {V : Type} (host : H → (o : Op) → Res o × H) (view : H → V)

/-- From the states `s` and `h` the program comes to the outcome `x`, leaving `s'` and a state of
the host that shows `v`. -/
def Leads (act : Act Op Res S α) (s : S) (h : H) (x : Except PyError α) (s' : S) (v : V) : Prop :=
  ∃ h', Prog.served host h (act s) = (.ok (x, s'), h') ∧ view h' = v

variable {host view} {act : Act Op Res S α} {s s' s'' : S} {h : H} {v v' : V}

/-- A value. -/
theorem leads_pure (a : α) (hv : view h = v) :
    Leads host view (pure a : Act Op Res S α) s h (.ok a) s v := ⟨h, rfl, hv⟩

/-- An assignment. -/
theorem leads_assign (g : S → S) (hv : view h = v) :
    Leads host view (modify g : Act Op Res S Unit) s h (.ok ()) (g s) v := ⟨h, rfl, hv⟩

/-- An operation that does not raise. -/
theorem leads_answer {o : Op} {conv : Res o → Except PyError α} {a : α}
    (ha : conv (host h o).1 = .ok a) (hv : view (host h o).2 = v) :
    Leads host view (perform o >>= fun r ↦ ofExcept (conv r) : Act Op Res S α) s h (.ok a) s v := by
  refine ⟨(host h o).2, ?_, hv⟩
  rw [← ha]
  rfl

/-- A composition goes on from where its first part came. -/
theorem leads_of_served {f : α → Act Op Res S β} {a : α} {h' : H} {x : Except PyError β}
    (hact : Prog.served host h (act s) = (.ok (.ok a, s'), h'))
    (hf : Leads host view (f a) s' h' x s'' v) : Leads host view (act >>= f) s h x s'' v := by
  obtain ⟨h'', hf, hv⟩ := hf
  refine ⟨h'', ?_, hv⟩
  change Prog.served host h (act s >>= _) = _
  rw [Prog.served_bind, hact]
  exact hf

/-- A composition goes on from wherever its first part may have come. -/
theorem Leads.bind {f : α → Act Op Res S β} {a : α} {x : Except PyError β}
    (hact : Leads host view act s h (.ok a) s' v)
    (hf : ∀ h', view h' = v → Leads host view (f a) s' h' x s'' v') :
    Leads host view (act >>= f) s h x s'' v' := by
  obtain ⟨h', hact, hv⟩ := hact
  exact leads_of_served hact (hf h' hv)

/-- A body that ends in a value is not handled. -/
theorem Leads.tryExcept {a : α} {catches : PyError → Bool} {handler : PyError → Act Op Res S α}
    (hact : Leads host view act s h (.ok a) s' v) :
    Leads host view (tryExcept act catches handler) s h (.ok a) s' v := by
  obtain ⟨h', hact, hv⟩ := hact
  refine ⟨h', ?_, hv⟩
  change Prog.served host h (act s >>= _) = _
  rw [Prog.served_bind, hact]
  rfl

/-- The state is read first. -/
theorem leads_read {f : S → Act Op Res S α} {x : Except PyError α}
    (hf : Leads host view (f s) s h x s' v) : Leads host view (read >>= f) s h x s' v := hf

/-- An assignment comes first. -/
theorem leads_modify {g : S → S} {f : Unit → Act Op Res S α} {x : Except PyError α}
    (hf : Leads host view (f ()) (g s) h x s' v) : Leads host view (modify g >>= f) s h x s' v := hf

/-- An operation comes first. -/
theorem leads_perform {o : Op} {f : Res o → Act Op Res S α} {x : Except PyError α}
    (hf : Leads host view (f (host h o).1) s (host h o).2 x s' v) :
    Leads host view (perform o >>= f) s h x s' v := hf

/-- A computation without operations comes first. -/
theorem leads_ofExcept {y : Except PyError β} {b : β} {f : β → Act Op Res S α}
    {x : Except PyError α} (hy : y = .ok b) (hf : Leads host view (f b) s h x s' v) :
    Leads host view (ofExcept y >>= f) s h x s' v := by
  rw [hy]
  exact hf

/-- An operation that does not raise comes first. -/
theorem leads_raising {o : Op} {conv : Res o → Except PyError β} {b : β} {f : β → Act Op Res S α}
    {x : Except PyError α} (hb : conv (host h o).1 = .ok b)
    (hf : Leads host view (f b) s (host h o).2 x s' v) :
    Leads host view ((perform o >>= fun r ↦ ofExcept (conv r)) >>= f) s h x s' v := by
  obtain ⟨h', hf, hv⟩ := hf
  refine ⟨h', ?_, hv⟩
  change Prog.served host (host h o).2 (match (conv (host h o).1, s) with
    | (.ok a, s) => f a s
    | (.error e, s) => .ret (.error e, s)) = _
  rw [hb]
  exact hf

end Act

end C3RSpec.Base
