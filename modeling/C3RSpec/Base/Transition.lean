import Mathlib.Data.List.Basic

/-!
# Runs of partial transition functions

Library `Base`. A system is a partial step function on states; a run is a list of actions
taken one after another. An invariant that every step keeps holds after every run, and so
does one that every step keeps only while a side condition on that step is met.
-/

namespace C3RSpec.Base

variable {S A : Type}

/-- The state after taking every action in order, if none is refused. -/
def runAll (step : S → A → Option S) : S → List A → Option S
  | s, [] => some s
  | s, a :: rest => (step s a).bind fun s' ↦ runAll step s' rest

/-- Every step of the run meets the side condition in the state before it. -/
def RunMeets (step : S → A → Option S) (ok : S → A → Prop) : S → List A → Prop
  | _, [] => True
  | s, a :: rest => ok s a ∧ ∀ s', step s a = some s' → RunMeets step ok s' rest

/-- Whether a run meets a decidable side condition. -/
instance RunMeets.decidable (step : S → A → Option S) (ok : S → A → Prop)
    [∀ s a, Decidable (ok s a)] : ∀ s as, Decidable (RunMeets step ok s as)
  | _, [] => .isTrue trivial
  | s, a :: rest =>
    match h : step s a with
    | none => decidable_of_iff (ok s a)
        ⟨fun hok ↦ ⟨hok, fun _ hs ↦ by rw [h] at hs; cases hs⟩, fun hm ↦ hm.1⟩
    | some t =>
      have := RunMeets.decidable step ok t rest
      decidable_of_iff (ok s a ∧ RunMeets step ok t rest)
        ⟨fun hm ↦ ⟨hm.1, fun _ hs ↦ by rw [h] at hs; cases hs; exact hm.2⟩,
          fun hm ↦ ⟨hm.1, hm.2 t h⟩⟩

/-- A nonempty run is one step and the rest. -/
theorem runAll_cons_eq_some {step : S → A → Option S} {s s' : S} {a : A} {rest : List A} :
    runAll step s (a :: rest) = some s' ↔
      ∃ t, step s a = some t ∧ runAll step t rest = some s' := by
  simp [runAll, Option.bind_eq_some_iff]

/-- Consecutive runs compose. -/
theorem runAll_append {step : S → A → Option S} (s : S) (as bs : List A) :
    runAll step s (as ++ bs) = (runAll step s as).bind fun t ↦ runAll step t bs := by
  induction as generalizing s with
  | nil => rfl
  | cons a as ih =>
    simp only [List.cons_append, runAll]
    cases step s a with
    | none => rfl
    | some t => exact ih t

/-- What every step keeps under its side condition holds after every run that meets it. -/
theorem runAll_invariant_of_meets {step : S → A → Option S} {ok : S → A → Prop}
    {Inv : S → Prop}
    (keep : ∀ s a s', Inv s → ok s a → step s a = some s' → Inv s')
    {s s' : S} {as : List A} (hs : Inv s) (hm : RunMeets step ok s as)
    (hr : runAll step s as = some s') : Inv s' := by
  induction as generalizing s with
  | nil =>
    cases hr
    exact hs
  | cons a as ih =>
    obtain ⟨t, ht, hr⟩ := runAll_cons_eq_some.mp hr
    exact ih (keep s a t hs hm.1 ht) (hm.2 t ht) hr

/-- What every step keeps holds after every run. -/
theorem runAll_invariant {step : S → A → Option S} {Inv : S → Prop}
    (keep : ∀ s a s', Inv s → step s a = some s' → Inv s')
    {s s' : S} {as : List A} (hs : Inv s) (hr : runAll step s as = some s') : Inv s' := by
  induction as generalizing s with
  | nil =>
    cases hr
    exact hs
  | cons a as ih =>
    obtain ⟨t, ht, hr⟩ := runAll_cons_eq_some.mp hr
    exact ih (keep s a t hs ht) hr

/-- A relation that is reflexive, transitive and contains every step relates the two ends
of every run. -/
theorem runAll_relation {step : S → A → Option S} {R : S → S → Prop}
    (one : ∀ s a s', step s a = some s' → R s s')
    (refl : ∀ s, R s s) (trans : ∀ s t u, R s t → R t u → R s u)
    {s s' : S} {as : List A} (hr : runAll step s as = some s') : R s s' := by
  induction as generalizing s with
  | nil =>
    cases hr
    exact refl _
  | cons a as ih =>
    obtain ⟨t, ht, hr⟩ := runAll_cons_eq_some.mp hr
    exact trans s t s' (one s a t ht) (ih hr)

/-! ### Progress -/

/-- Whatever is done next, `P` comes to hold: it holds already, or something can be done and `P`
is inevitable after everything that can be. -/
inductive Inevitable (step : S → A → Option S) (P : S → Prop) : S → Prop
  | now {s : S} (h : P s) : Inevitable step P s
  | later {s : S} (hgo : ∃ a s', step s a = some s')
      (h : ∀ a s', step s a = some s' → Inevitable step P s') : Inevitable step P s

/-- Where runs are finite and only stop where `P` holds, `P` is inevitable. -/
theorem inevitable_of_acc {step : S → A → Option S} {P Inv : S → Prop}
    (keep : ∀ s a s', Inv s → step s a = some s' → Inv s')
    (progress : ∀ s, Inv s → ¬P s → ∃ a s', step s a = some s') {s : S}
    (hacc : Acc (fun t s ↦ ∃ a, step s a = some t) s) (hs : Inv s) : Inevitable step P s := by
  induction hacc with
  | intro s _ ih =>
    by_cases hP : P s
    · exact .now hP
    · exact .later (progress s hs hP) fun a t ht ↦ ih t ⟨a, ht⟩ (keep s a t hs ht)

/-! ### Positions in a history -/

/-- A position splits a history around its event. -/
theorem split_at_position {l : List A} {p : Nat} {a : A} (h : l[p]? = some a) :
    ∃ pre post, l = pre ++ a :: post ∧ pre.length = p := by
  obtain ⟨hp, ha⟩ := List.getElem?_eq_some_iff.mp h
  refine ⟨l.take p, l.drop (p + 1), ?_, List.length_take_of_le (Nat.le_of_lt hp)⟩
  rw [← ha, ← List.drop_eq_getElem_cons hp, List.take_append_drop]

/-- Marks that never repeat are found at one position. -/
theorem position_unique {B : Type} {f : A → Option B} {l : List A} (h : (l.filterMap f).Nodup)
    {p q : Nat} {a b : A} {x : B} (hp : l[p]? = some a) (hq : l[q]? = some b)
    (ha : f a = some x) (hb : f b = some x) : p = q := by
  induction l generalizing p q with
  | nil => cases hp
  | cons c l ih =>
    -- a mark at the head is not repeated further down
    have head : ∀ {d : A} {n : Nat}, f c = some x → l[n]? = some d → f d = some x → False := by
      intro d n hc hd hx
      rw [List.filterMap_cons_some hc, List.nodup_cons] at h
      exact h.1 (List.mem_filterMap.mpr ⟨d, List.mem_of_getElem? hd, hx⟩)
    have tail : (l.filterMap f).Nodup := by
      cases hc : f c with
      | none => rwa [List.filterMap_cons_none hc] at h
      | some y =>
        rw [List.filterMap_cons_some hc] at h
        exact h.of_cons
    cases p with
    | zero =>
      cases hp
      cases q with
      | zero => rfl
      | succ q => exact (head ha hq hb).elim
    | succ p =>
      cases q with
      | zero =>
        cases hq
        exact (head hb hp ha).elim
      | succ q => rw [ih tail hp hq]

end C3RSpec.Base
