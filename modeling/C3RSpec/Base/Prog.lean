import C3RSpec.Base.Text
import C3RSpec.Base.Transition

/-!
# Programs that call host operations

Library `Base`. A `Prog` is a program whose only contact with the outside is a sequence of
operations, each answered by the host: a resumption tree that ends in a value or in a raised
error. One program is reasoned about through every possible sequence of answers (`All`); many
programs share a state through a thread pool in which every operation is one atomic step and
any thread may move next.
-/

namespace C3RSpec.Base

/-- A program over operations `Op`, where operation `o` is answered by a `Res o`. -/
inductive Prog (Op : Type) (Res : Op → Type) (α : Type) where
  | ret (a : α)
  | raise (e : PyError)
  | call (o : Op) (k : Res o → Prog Op Res α)

/-- One operation together with the answer it received. -/
structure Event (Op : Type) (Res : Op → Type) where
  op : Op
  answer : Res op

namespace Prog

variable {Op : Type} {Res : Op → Type} {α β : Type}

/-- Sequential composition; a raised error skips the continuation. -/
def bind : Prog Op Res α → (α → Prog Op Res β) → Prog Op Res β
  | .ret a, f => f a
  | .raise e, _ => .raise e
  | .call o k, f => .call o fun r ↦ bind (k r) f

/-- `try`/`except`: a raised error continues in the handler. -/
def catchError : Prog Op Res α → (PyError → Prog Op Res α) → Prog Op Res α
  | .ret a, _ => .ret a
  | .raise e, f => f e
  | .call o k, f => .call o fun r ↦ catchError (k r) f

instance : Monad (Prog Op Res) where
  pure := .ret
  bind := bind

instance : MonadExceptOf PyError (Prog Op Res) where
  throw := .raise
  tryCatch := catchError

/-- Perform one operation and return its answer. -/
def perform (o : Op) : Prog Op Res (Res o) := .call o .ret

/-- A computation that needs no operation. -/
def ofExcept : Except PyError α → Prog Op Res α
  | .ok a => .ret a
  | .error e => .raise e

@[simp] theorem pure_eq (a : α) : (pure a : Prog Op Res α) = .ret a := rfl

@[simp] theorem throw_eq (e : PyError) : (throw e : Prog Op Res α) = .raise e := rfl

@[simp] theorem bind_ret (a : α) (f : α → Prog Op Res β) : (Prog.ret a >>= f) = f a := rfl

@[simp] theorem bind_raise (e : PyError) (f : α → Prog Op Res β) :
    (Prog.raise e >>= f) = .raise e := rfl

@[simp] theorem bind_call (o : Op) (k : Res o → Prog Op Res α) (f : α → Prog Op Res β) :
    (Prog.call o k >>= f) = .call o fun r ↦ k r >>= f := rfl

@[simp] theorem bind_perform (o : Op) (f : Res o → Prog Op Res β) :
    (perform o >>= f) = .call o f := rfl

@[simp] theorem bind_ofExcept_ok (a : α) (f : α → Prog Op Res β) :
    (ofExcept (.ok a) >>= f) = f a := rfl

@[simp] theorem bind_ofExcept_error (e : PyError) (f : α → Prog Op Res β) :
    ((ofExcept (.error e) : Prog Op Res α) >>= f) = .raise e := rfl

/-- `Runs p es q`: after the operations and answers `es`, program `p` has become `q`. -/
inductive Runs : Prog Op Res α → List (Event Op Res) → Prog Op Res α → Prop
  | nil (p : Prog Op Res α) : Runs p [] p
  | call (o : Op) (k : Res o → Prog Op Res α) (r : Res o) (es : List (Event Op Res))
      (q : Prog Op Res α) (h : Runs (k r) es q) : Runs (.call o k) (⟨o, r⟩ :: es) q

/-- A value is where a run ends. -/
@[simp] theorem runs_ret {a : α} {es : List (Event Op Res)} {q : Prog Op Res α} :
    Runs (.ret a) es q ↔ es = [] ∧ q = .ret a := by
  constructor
  · rintro ⟨⟩
    exact ⟨rfl, rfl⟩
  · rintro ⟨rfl, rfl⟩
    exact .nil _

/-- An error is where a run ends. -/
@[simp] theorem runs_raise {e : PyError} {es : List (Event Op Res)} {q : Prog Op Res α} :
    Runs (.raise e) es q ↔ es = [] ∧ q = .raise e := by
  constructor
  · rintro ⟨⟩
    exact ⟨rfl, rfl⟩
  · rintro ⟨rfl, rfl⟩
    exact .nil _

/-- An operation waits, or is answered and the run goes on. -/
theorem runs_call {o : Op} {k : Res o → Prog Op Res α} {es : List (Event Op Res)}
    {q : Prog Op Res α} : Runs (.call o k) es q ↔
      (es = [] ∧ q = .call o k) ∨ ∃ r es', es = ⟨o, r⟩ :: es' ∧ Runs (k r) es' q := by
  constructor
  · intro h
    cases h with
    | nil => exact .inl ⟨rfl, rfl⟩
    | call _ _ r es' _ h => exact .inr ⟨r, es', rfl, h⟩
  · rintro (⟨rfl, rfl⟩ | ⟨r, es', rfl, h⟩)
    · exact .nil _
    · exact .call o k r es' q h

/-- The result of a program that has stopped. -/
def result? : Prog Op Res α → Option (Except PyError α)
  | .ret a => some (.ok a)
  | .raise e => some (.error e)
  | .call _ _ => none

/-- `Finishes p es x`: with the answers in `es` the program stops with `x`. -/
def Finishes (p : Prog Op Res α) (es : List (Event Op Res)) (x : Except PyError α) : Prop :=
  ∃ q, Runs p es q ∧ q.result? = some x

/-- `All Q p`: whatever the host answers, the program stops with events and a result in `Q`. -/
def All (Q : List (Event Op Res) → Except PyError α → Prop) : Prog Op Res α → Prop
  | .ret a => Q [] (.ok a)
  | .raise e => Q [] (.error e)
  | .call o k => ∀ r, All (fun es x ↦ Q (⟨o, r⟩ :: es) x) (k r)

/-- A run that stops satisfies what all runs satisfy. -/
theorem All.of_finishes {Q : List (Event Op Res) → Except PyError α → Prop}
    {p : Prog Op Res α} (h : All Q p) {es : List (Event Op Res)} {x : Except PyError α}
    (hf : Finishes p es x) : Q es x := by
  obtain ⟨q, hr, hx⟩ := hf
  induction hr generalizing Q with
  | nil p =>
    cases p with
    | ret a => cases hx; exact h
    | raise e => cases hx; exact h
    | call o k => cases hx
  | call o k r es q _ ih => exact ih (h r) hx

/-- All runs satisfy a weaker postcondition. -/
theorem All.mono {Q Q' : List (Event Op Res) → Except PyError α → Prop}
    (hq : ∀ es x, Q es x → Q' es x) {p : Prog Op Res α} (h : All Q p) : All Q' p := by
  induction p generalizing Q Q' with
  | ret a => exact hq _ _ h
  | raise e => exact hq _ _ h
  | call o k ih => exact fun r ↦ ih r (fun es x hx ↦ hq _ _ hx) (h r)

/-- All runs of a program are runs of it that stop. -/
theorem all_finishes (p : Prog Op Res α) : All (fun es x ↦ Finishes p es x) p := by
  induction p with
  | ret a => exact ⟨_, .nil _, rfl⟩
  | raise e => exact ⟨_, .nil _, rfl⟩
  | call o k ih =>
    intro r
    refine (ih r).mono fun es x hx ↦ ?_
    obtain ⟨q, hq, hx⟩ := hx
    exact ⟨q, .call _ _ _ _ _ hq, hx⟩

/-- All runs satisfy what holds of everything. -/
theorem All.of_forall {Q : List (Event Op Res) → Except PyError α → Prop} (p : Prog Op Res α)
    (h : ∀ es x, Q es x) : All Q p := by
  induction p generalizing Q with
  | ret a => exact h _ _
  | raise e => exact h _ _
  | call o k ih => exact fun r ↦ ih r fun es x ↦ h _ _

/-- All runs of a composition satisfy `Q` when the first part ends where all runs of the second
satisfy what is left of `Q`. -/
theorem All.bind {Q : List (Event Op Res) → Except PyError β → Prop} {p : Prog Op Res α}
    {f : α → Prog Op Res β}
    (h : All (fun es x ↦ (∀ a, x = .ok a → All (fun es' y ↦ Q (es ++ es') y) (f a)) ∧
      ∀ e, x = .error e → Q es (.error e)) p) : All Q (p >>= f) := by
  induction p generalizing Q with
  | ret a => exact h.1 a rfl
  | raise e => exact h.2 e rfl
  | call o k ih => exact fun r ↦ ih r (h r)

/-- All runs under a handler satisfy `Q` when the values of the body do and all runs of the
handler satisfy what is left of `Q`. -/
theorem All.tryCatch {Q : List (Event Op Res) → Except PyError α → Prop} {p : Prog Op Res α}
    {f : PyError → Prog Op Res α}
    (h : All (fun es x ↦ (∀ a, x = .ok a → Q es (.ok a)) ∧
      ∀ e, x = .error e → All (fun es' y ↦ Q (es ++ es') y) (f e)) p) :
    All Q (MonadExcept.tryCatch p f) := by
  induction p generalizing Q with
  | ret a => exact h.1 a rfl
  | raise e => exact h.2 e rfl
  | call o k ih => exact fun r ↦ ih r (h r)

/-- All runs satisfy both of two postconditions. -/
theorem All.and {Q Q' : List (Event Op Res) → Except PyError α → Prop} {p : Prog Op Res α}
    (h : All Q p) (h' : All Q' p) : All (fun es x ↦ Q es x ∧ Q' es x) p := by
  induction p generalizing Q Q' with
  | ret a => exact ⟨h, h'⟩
  | raise e => exact ⟨h, h'⟩
  | call o k ih => exact fun r ↦ ih r (h r) (h' r)

/-- A computation without operations. -/
theorem All.ofExcept {Q : List (Event Op Res) → Except PyError α → Prop} {x : Except PyError α}
    (h : Q [] x) : All Q (ofExcept x) := by
  cases x with
  | ok a => exact h
  | error e => exact h

/-- The run in which a fixed host answers every operation. -/
def play (host : (o : Op) → Res o) : Prog Op Res α → List (Event Op Res) × Except PyError α
  | .ret a => ([], .ok a)
  | .raise e => ([], .error e)
  | .call o k => (⟨o, host o⟩ :: (play host (k (host o))).1, (play host (k (host o))).2)

/-- A fixed host lets every program finish. -/
theorem finishes_play (host : (o : Op) → Res o) (p : Prog Op Res α) :
    Finishes p (play host p).1 (play host p).2 := by
  induction p with
  | ret a => exact ⟨.ret a, .nil _, rfl⟩
  | raise e => exact ⟨.raise e, .nil _, rfl⟩
  | call o k ih =>
    obtain ⟨q, hr, hq⟩ := ih (host o)
    exact ⟨q, .call o k (host o) _ q hr, hq⟩

/-- Every answer of such a run is the host's. -/
theorem answer_of_mem_play {host : (o : Op) → Res o} {p : Prog Op Res α} {e : Event Op Res}
    (h : e ∈ (play host p).1) : e.answer = host e.op := by
  induction p with
  | ret a => cases h
  | raise e => cases h
  | call o k ih =>
    obtain rfl | h := List.mem_cons.mp h
    · rfl
    · exact ih (host o) h

/-- The result of a program under a fixed host. -/
def value (host : (o : Op) → Res o) (p : Prog Op Res α) : Except PyError α := (play host p).2

section Value

variable (host : (o : Op) → Res o)

@[simp] theorem value_ret (a : α) : value host (.ret a : Prog Op Res α) = .ok a := rfl

@[simp] theorem value_raise (e : PyError) : value host (.raise e : Prog Op Res α) = .error e := rfl

@[simp] theorem value_perform (o : Op) : value host (perform o) = .ok (host o) := rfl

@[simp] theorem value_ofExcept (x : Except PyError α) :
    value host (ofExcept x : Prog Op Res α) = x := by
  cases x <;> rfl

@[simp] theorem value_monadExcept_ofExcept (x : Except PyError α) :
    value host (MonadExcept.ofExcept x : Prog Op Res α) = x := by
  cases x <;> rfl

/-- The results of a composition compose. -/
@[simp] theorem value_bind (p : Prog Op Res α) (f : α → Prog Op Res β) :
    value host (p >>= f) = value host p >>= fun a ↦ value host (f a) := by
  induction p with
  | ret a => rfl
  | raise e => rfl
  | call o k ih => exact ih (host o)

/-- A handler is applied to the result of its body. -/
@[simp] theorem value_tryCatch (p : Prog Op Res α) (f : PyError → Prog Op Res α) :
    value host (tryCatch p f) = tryCatch (value host p) fun e ↦ value host (f e) := by
  induction p with
  | ret a => rfl
  | raise e => rfl
  | call o k ih => exact ih (host o)

/-- The events of a composition under a fixed host. -/
theorem play_bind_of_ok {p : Prog Op Res α} {a : α} (h : value host p = .ok a)
    (f : α → Prog Op Res β) :
    play host (p >>= f) = ((play host p).1 ++ (play host (f a)).1, (play host (f a)).2) := by
  induction p with
  | ret b =>
    cases h
    rfl
  | raise e => cases h
  | call o k ih =>
    have hk := ih (host o) h
    change (⟨o, host o⟩ :: (play host (k (host o) >>= f)).1, (play host (k (host o) >>= f)).2) = _
    rw [hk]
    rfl

/-- A composition stops where its first part raises. -/
theorem play_bind_of_error {p : Prog Op Res α} {e : PyError} (h : value host p = .error e)
    (f : α → Prog Op Res β) : play host (p >>= f) = ((play host p).1, .error e) := by
  induction p with
  | ret b => cases h
  | raise e' =>
    cases h
    rfl
  | call o k ih =>
    have hk := ih (host o) h
    change (⟨o, host o⟩ :: (play host (k (host o) >>= f)).1, (play host (k (host o) >>= f)).2) = _
    rw [hk]
    rfl

end Value

/-- A run passes through the program it has become after its first events. -/
theorem Runs.split {p q : Prog Op Res α} {pre post : List (Event Op Res)}
    (h : Runs p (pre ++ post) q) : ∃ mid, Runs p pre mid ∧ Runs mid post q := by
  induction pre generalizing p with
  | nil => exact ⟨p, .nil p, h⟩
  | cons e pre ih =>
    cases h with
    | call o k r _ _ h =>
      obtain ⟨mid, hpre, hpost⟩ := ih h
      exact ⟨mid, .call o k r pre mid hpre, hpost⟩

/-- One more answer extends a run. -/
theorem Runs.snoc {p : Prog Op Res α} {es : List (Event Op Res)} {o : Op}
    {k : Res o → Prog Op Res α} (h : Runs p es (.call o k)) (r : Res o) :
    Runs p (es ++ [⟨o, r⟩]) (k r) := by
  generalize hq : Prog.call o k = q at h
  induction h with
  | nil p =>
    subst hq
    exact .call o k r [] (k r) (.nil _)
  | call o' k' r' es q _ ih => exact .call o' k' r' _ _ (ih hq)

/-! ### What precedes a call -/

section Guarded

variable {G : List (Event Op Res) → Op → Prop}

/-- `Guarded G es p`: after the events `es`, whenever `p` comes to an operation, `G` holds of the
events before it and of the operation. -/
def Guarded (G : List (Event Op Res) → Op → Prop) :
    List (Event Op Res) → Prog Op Res α → Prop
  | _, .ret _ => True
  | _, .raise _ => True
  | es, .call o k => G es o ∧ ∀ r, Guarded G (es ++ [⟨o, r⟩]) (k r)

/-- A guard is a property of every call that a run comes to. -/
theorem guarded_iff {es : List (Event Op Res)} {p : Prog Op Res α} :
    Guarded G es p ↔ ∀ es' o k, Runs p es' (.call o k) → G (es ++ es') o := by
  induction p generalizing es with
  | ret a => simp [Guarded]
  | raise e => simp [Guarded]
  | call o k ih =>
    simp only [Guarded, ih]
    constructor
    · rintro ⟨hg, hrest⟩ es' o' k' hr
      cases hr with
      | nil =>
        rw [List.append_nil]
        exact hg
      | call _ _ r es' _ hr =>
        have := hrest r es' o' k' hr
        rwa [List.append_assoc] at this
    · intro h
      refine ⟨?_, fun r es' o' k' hr ↦ ?_⟩
      · have := h [] o k (.nil _)
        rwa [List.append_nil] at this
      · rw [List.append_assoc]
        exact h (⟨o, r⟩ :: es') o' k' (.call o k r es' _ hr)

/-- The events of a run have been guarded. -/
theorem Guarded.of_mem {p q : Prog Op Res α} {es : List (Event Op Res)} {e : Event Op Res}
    (hp : Guarded G [] p) (hrun : Runs p es q) (he : e ∈ es) :
    ∃ pre post, es = pre ++ e :: post ∧ G pre e.op := by
  obtain ⟨pre, post, rfl⟩ := List.append_of_mem he
  obtain ⟨mid, hpre, hpost⟩ := hrun.split
  cases hpost with
  | call o k r _ _ _ => exact ⟨pre, post, rfl, guarded_iff.mp hp pre o k hpre⟩

/-- Every program is guarded by what holds of every call. -/
theorem Guarded.of_forall (es : List (Event Op Res)) (p : Prog Op Res α) (h : ∀ es o, G es o) :
    Guarded G es p :=
  guarded_iff.mpr fun es' o _ _ ↦ h (es ++ es') o

/-- A composition is guarded when its second part is after every run of the first. -/
theorem Guarded.bind {es : List (Event Op Res)} {p : Prog Op Res α} {f : α → Prog Op Res β}
    (hp : Guarded G es p)
    (hf : All (fun es' x ↦ ∀ a, x = .ok a → Guarded G (es ++ es') (f a)) p) :
    Guarded G es (p >>= f) := by
  induction p generalizing es with
  | ret a =>
    have := hf a rfl
    rwa [List.append_nil] at this
  | raise e => trivial
  | call o k ih =>
    refine ⟨hp.1, fun r ↦ ih r (hp.2 r) ((hf r).mono fun es' x h a ha ↦ ?_)⟩
    rw [List.append_assoc]
    exact h a ha

/-- A program under a handler is guarded when the handler is after every run that raised. -/
theorem Guarded.tryCatch {es : List (Event Op Res)} {p : Prog Op Res α}
    {f : PyError → Prog Op Res α} (hp : Guarded G es p)
    (hf : All (fun es' x ↦ ∀ e, x = .error e → Guarded G (es ++ es') (f e)) p) :
    Guarded G es (MonadExcept.tryCatch p f) := by
  induction p generalizing es with
  | ret a => trivial
  | raise e =>
    have := hf e rfl
    rwa [List.append_nil] at this
  | call o k ih =>
    refine ⟨hp.1, fun r ↦ ih r (hp.2 r) ((hf r).mono fun es' x h e he ↦ ?_)⟩
    rw [List.append_assoc]
    exact h e he

/-- A computation without operations is guarded. -/
theorem guarded_ofExcept {es : List (Event Op Res)} (x : Except PyError α) :
    Guarded G es (Prog.ofExcept x) := by
  cases x <;> trivial

end Guarded

/-! ### Runs of a composition -/

/-- A run of the first part to its value is continued by one of the second. -/
theorem Runs.bind {p : Prog Op Res α} {f : α → Prog Op Res β} {es es' : List (Event Op Res)}
    {a : α} {q : Prog Op Res β} (hp : Runs p es (.ret a)) (hf : Runs (f a) es' q) :
    Runs (p >>= f) (es ++ es') q := by
  generalize hr : (Prog.ret a : Prog Op Res α) = r at hp
  induction hp with
  | nil p =>
    subst hr
    exact hf
  | call o k answer es r _ ih => exact .call o _ answer _ q (ih hr)

/-- A run of the first part is one of the composition. -/
theorem Runs.bind_left {p q : Prog Op Res α} {es : List (Event Op Res)} (hp : Runs p es q)
    (f : α → Prog Op Res β) : Runs (p >>= f) es (q >>= f) := by
  induction hp with
  | nil p => exact .nil _
  | call o k r es q _ ih => exact .call o _ r es _ ih

/-- A run of the body is one under its handler. -/
theorem Runs.tryCatch {p q : Prog Op Res α} {es : List (Event Op Res)} (hp : Runs p es q)
    (f : PyError → Prog Op Res α) :
    Runs (MonadExcept.tryCatch p f) es (MonadExcept.tryCatch q f) := by
  induction hp with
  | nil p => exact .nil _
  | call o k r es q _ ih => exact .call o _ r es _ ih

/-- What is left after one answer. -/
inductive Below : Prog Op Res α → Prog Op Res α → Prop
  | answer (o : Op) (k : Res o → Prog Op Res α) (r : Res o) : Below (k r) (.call o k)

/-- A program comes to its end. -/
theorem below_wf : WellFounded (Below : Prog Op Res α → Prog Op Res α → Prop) := by
  refine ⟨fun p ↦ ?_⟩
  induction p with
  | ret a => exact ⟨_, fun _ h ↦ by cases h⟩
  | raise e => exact ⟨_, fun _ h ↦ by cases h⟩
  | call o k ih =>
    refine ⟨_, fun q h ↦ ?_⟩
    cases h with
    | answer _ _ r => exact ih r

end Prog

/-! ### Thread pools -/

/-- A thread: the label it was started with, the events so far and what is left to do. -/
structure Thread (Op : Type) (Res : Op → Type) (L α : Type) where
  label : L
  log : List (Event Op Res)
  rest : Prog Op Res α

/-- Threads over a shared state, with the global order of their events. -/
structure Pool (Op : Type) (Res : Op → Type) (L α S : Type) where
  shared : S
  threads : List (Thread Op Res L α)
  history : List (Nat × Event Op Res)

/-- Start another thread, or let one perform its next operation under a host input. -/
inductive PoolAction (L I : Type) where
  | spawn (label : L)
  | advance (index : Nat) (input : I)

namespace Pool

variable {Op : Type} {Res : Op → Type} {L I S α : Type}

/-- A pool without threads. -/
def idle (shared : S) : Pool Op Res L α S := ⟨shared, [], []⟩

/-- The events of one thread, in order. -/
def project (i : Nat) (history : List (Nat × Event Op Res)) : List (Event Op Res) :=
  (history.filter (fun e ↦ decide (e.1 = i))).map Prod.snd

/-- The events of one thread in a longer history. -/
theorem project_append (i : Nat) (a b : List (Nat × Event Op Res)) :
    project i (a ++ b) = project i a ++ project i b := by
  simp [project]

/-- An event of a thread is in its projection. -/
theorem mem_project {i : Nat} {e : Event Op Res} {history : List (Nat × Event Op Res)} :
    e ∈ project i history ↔ (i, e) ∈ history := by
  simp only [project, List.mem_map, List.mem_filter, decide_eq_true_eq]
  constructor
  · rintro ⟨⟨j, e'⟩, ⟨hm, rfl⟩, rfl⟩
    exact hm
  · intro hm
    exact ⟨(i, e), ⟨hm, rfl⟩, rfl⟩

/-- Where no thread has two marked events, each thread is marked once. -/
theorem nodup_marked {marked : Event Op Res → Bool} {history : List (Nat × Event Op Res)}
    (h : ∀ i, ((project i history).filter marked).length ≤ 1) :
    ((history.filter fun e ↦ marked e.2).map Prod.fst).Nodup := by
  induction history with
  | nil => exact List.nodup_nil
  | cons e history ih =>
    have hcons : ∀ i, project i (e :: history) = project i [e] ++ project i history := fun i ↦
      project_append i [e] history
    have htail : ∀ i, ((project i history).filter marked).length ≤ 1 := by
      intro i
      have := h i
      rw [hcons, List.filter_append, List.length_append] at this
      omega
    rw [List.filter_cons]
    split
    · next hm =>
      rw [List.map_cons, List.nodup_cons]
      refine ⟨fun hmem ↦ ?_, ih htail⟩
      -- a second marked event of the same thread
      obtain ⟨e', he', hi⟩ := List.mem_map.mp hmem
      obtain ⟨hin, hm'⟩ := List.mem_filter.mp he'
      have hproj : e'.2 ∈ (project e.1 history).filter marked :=
        List.mem_filter.mpr ⟨mem_project.mpr (by rw [← hi]; exact hin), hm'⟩
      have hpos := List.length_pos_of_mem hproj
      have hone : (project e.1 [e]).filter marked = [e.2] := by simp [project, hm]
      have := h e.1
      rw [hcons, List.filter_append, List.length_append, hone, List.length_singleton] at this
      omega
    · exact ih htail

section Step

variable (prog : L → Prog Op Res α)
  (handle : S → Nat → I → (o : Op) → Option (Res o × S))

/-- One scheduling step. `handle` answers an operation or blocks it. -/
def step (s : Pool Op Res L α S) : PoolAction L I → Option (Pool Op Res L α S)
  | .spawn label => some { s with threads := s.threads ++ [⟨label, [], prog label⟩] }
  | .advance i input =>
    match s.threads[i]? with
    | none => none
    | some t =>
      match t.rest with
      | .ret _ => none
      | .raise _ => none
      | .call o k =>
        match handle s.shared i input o with
        | none => none
        | some (r, shared) => some
            { shared
              threads := s.threads.set i ⟨t.label, t.log ++ [⟨o, r⟩], k r⟩
              history := s.history ++ [(i, ⟨o, r⟩)] }

/-- Everything a scheduling step can do. -/
theorem step_cases {s s' : Pool Op Res L α S} {a : PoolAction L I}
    (h : step prog handle s a = some s') :
    (∃ label, a = .spawn label ∧
      s' = { s with threads := s.threads ++ [⟨label, [], prog label⟩] }) ∨
    (∃ i input t o k r shared, a = .advance i input ∧ s.threads[i]? = some t ∧
      t.rest = .call o k ∧ handle s.shared i input o = some (r, shared) ∧
      s' = { shared
             threads := s.threads.set i ⟨t.label, t.log ++ [⟨o, r⟩], k r⟩
             history := s.history ++ [(i, ⟨o, r⟩)] }) := by
  cases a with
  | spawn label =>
    refine .inl ⟨label, rfl, ?_⟩
    simpa [step] using h.symm
  | advance i input =>
    simp only [step] at h
    cases ht : s.threads[i]? with
    | none => simp [ht] at h
    | some t =>
      simp only [ht] at h
      cases hr : t.rest with
      | ret a => simp [hr] at h
      | raise e => simp [hr] at h
      | call o k =>
        simp only [hr] at h
        cases hh : handle s.shared i input o with
        | none => simp [hh] at h
        | some p =>
          obtain ⟨r, shared⟩ := p
          simp only [hh, Option.some.injEq] at h
          exact .inr ⟨i, input, t, o, k, r, shared, rfl, ht, hr, hh, h.symm⟩

/-- A thread whose next operation is answered can move. -/
theorem exists_step {s : Pool Op Res L α S} {i : Nat} {t : Thread Op Res L α} {o : Op}
    {k : Res o → Prog Op Res α} {input : I} {x : Res o × S} (ht : s.threads[i]? = some t)
    (hr : t.rest = .call o k) (hx : handle s.shared i input o = some x) :
    ∃ s', step prog handle s (.advance i input) = some s' := by
  simp only [step, ht, hr, hx]
  exact ⟨_, rfl⟩

end Step

/-- Each thread has run its own program, and the history is the interleaving of the logs. -/
structure Coherent (prog : L → Prog Op Res α) (s : Pool Op Res L α S) : Prop where
  runs : ∀ (i : Nat) (t : Thread Op Res L α), s.threads[i]? = some t →
    Prog.Runs (prog t.label) t.log t.rest
  logs : ∀ (i : Nat) (t : Thread Op Res L α), s.threads[i]? = some t →
    t.log = project i s.history
  bound : ∀ e ∈ s.history, e.1 < s.threads.length

/-- An idle pool is coherent. -/
theorem coherent_idle (prog : L → Prog Op Res α) (shared : S) :
    Coherent prog (idle shared : Pool Op Res L α S) where
  runs := by simp [idle]
  logs := by simp [idle]
  bound := by simp [idle]

private theorem project_snoc (i j : Nat) (history : List (Nat × Event Op Res))
    (e : Event Op Res) :
    project i (history ++ [(j, e)]) = if j = i then project i history ++ [e]
      else project i history := by
  by_cases h : j = i <;> simp [project, h]

private theorem project_fresh {history : List (Nat × Event Op Res)} {n : Nat}
    (h : ∀ e ∈ history, e.1 < n) : project n history = [] := by
  simp only [project, List.map_eq_nil_iff, List.filter_eq_nil_iff, decide_eq_true_eq]
  intro e he
  exact Nat.ne_of_lt (h e he)

/-- Every scheduling step keeps the pool coherent. -/
theorem coherent_step (prog : L → Prog Op Res α)
    (handle : S → Nat → I → (o : Op) → Option (Res o × S))
    (s : Pool Op Res L α S) (a : PoolAction L I) (s' : Pool Op Res L α S)
    (hs : Coherent prog s) (h : step prog handle s a = some s') : Coherent prog s' := by
  obtain ⟨label, -, rfl⟩ | ⟨i, input, t, o, k, r, shared, -, ht, hr, -, rfl⟩ :=
    step_cases prog handle h
  · refine ⟨?_, ?_, ?_⟩
    · intro j u hu
      rw [List.getElem?_append] at hu
      split at hu
      · exact hs.runs j u hu
      · rw [List.getElem?_singleton] at hu
        split at hu
        · cases hu
          exact .nil _
        · cases hu
    · intro j u hu
      rw [List.getElem?_append] at hu
      split at hu
      · exact hs.logs j u hu
      · next hj =>
        rw [List.getElem?_singleton] at hu
        split at hu
        · next hz =>
          cases hu
          have hje : j = s.threads.length := by omega
          subst hje
          exact (project_fresh hs.bound).symm
        · cases hu
    · intro e he
      have := hs.bound e he
      simp only [List.length_append, List.length_singleton]
      omega
  · have hi : i < s.threads.length := (List.getElem?_eq_some_iff.mp ht).1
    refine ⟨?_, ?_, ?_⟩
    · intro j u hu
      rw [List.getElem?_set] at hu
      split at hu
      · cases hu
        have := hs.runs i t ht
        rw [hr] at this
        exact this.snoc r
      · exact hs.runs j u hu
    · intro j u hu
      rw [List.getElem?_set] at hu
      simp only [project_snoc]
      split at hu
      · next hij =>
        cases hu
        rw [if_pos hij, hs.logs i t ht, hij]
      · next hij =>
        rw [if_neg hij]
        exact hs.logs j u hu
    · intro e he
      simp only [List.length_set]
      rcases List.mem_append.mp he with he | he
      · exact hs.bound e he
      · rw [List.mem_singleton] at he
        subst he
        exact hi

end Pool

end C3RSpec.Base
