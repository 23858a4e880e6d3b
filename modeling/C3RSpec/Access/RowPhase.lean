import C3RSpec.Base.RowStore
import Mathlib.Data.List.Count
import Mathlib.Order.Lattice

/-!
# One quota row and the calls around it

Library `Access`. A call is outside a row until it has read it, then passed below the limit or
found it full, then has written, then is closed. `RowInv` relates the phases of all calls to the
state of the row: at most one call is between its read and its end, what it read is still
committed, and what closed calls admitted is covered by the committed count. Every transition of
one call keeps it, provided a call that reads a missing row is alone with it.
-/

namespace C3RSpec.Access

open Base

/-- Where a call stands with respect to one row; `seen` is what its locking read returned. -/
inductive RowPhase where
  | outside
  | passed (seen : Option Nat)
  | wrote (seen : Option Nat)
  | full
  | closed (admitted : Bool)
  deriving DecidableEq, Repr

namespace RowPhase

/-- Between passing the check and the end of the transaction. -/
def Active : RowPhase → Prop
  | .passed _ | .wrote _ => True
  | .outside | .full | .closed _ => False

/-- In a transaction that has read the row. -/
def Inside : RowPhase → Prop
  | .passed _ | .wrote _ | .full => True
  | .outside | .closed _ => False

/-- The transaction is over. -/
def isClosed : RowPhase → Bool
  | .closed _ => true
  | .outside | .passed _ | .wrote _ | .full => false

/-- The call has written the row. -/
def isWrote : RowPhase → Bool
  | .wrote _ => true
  | .outside | .passed _ | .full | .closed _ => false

end RowPhase

/-- How a row and the phases of all calls hang together, for a limit and an initial count. -/
structure RowInv (limit initial : Nat) (row : RowState Nat) (phases : List RowPhase) : Prop where
  passed : ∀ (i : Nat) seen, phases[i]? = some (.passed seen) →
    row.committed = seen ∧ (seen.isSome → row.holder = some i)
  wrote : ∀ (i : Nat) seen, phases[i]? = some (.wrote seen) →
    row.committed = seen ∧ row.holder = some i ∧ row.pending = some (some (seen.getD 0 + 1))
  below : ∀ seen, .passed seen ∈ phases ∨ .wrote seen ∈ phases → seen.getD 0 < limit
  unique : ∀ (i j : Nat) p q, phases[i]? = some p → phases[j]? = some q → p.Active → q.Active →
    i = j
  holder : ∀ i, row.holder = some i → ∃ p, phases[i]? = some p ∧ p.Inside
  pending : row.pending ≠ none → ∃ (i : Nat) (seen : Option Nat), phases[i]? = some (.wrote seen)
  counted : phases.countP (· == .closed true) + initial ≤ row.committed.getD 0
  bounded : row.committed.getD 0 ≤ max initial limit

namespace RowInv

variable {limit initial : Nat} {row : RowState Nat} {phases : List RowPhase}

/-- Admissions that have ended never exceed the limit. -/
theorem admitted_le (h : RowInv limit initial row phases) :
    phases.countP (· == .closed true) ≤ limit := by
  have hc := h.counted
  have hb := h.bounded
  omega

/-- A free row without calls. -/
theorem init {row : RowState Nat} (hh : row.holder = none) (hp : row.pending = none) :
    RowInv limit (row.committed.getD 0) row [] where
  passed := by simp
  wrote := by simp
  below := by simp
  unique := by simp
  holder := by simp [hh]
  pending := by simp [hp]
  counted := by simp
  bounded := le_max_left _ _

/-- Another call starts outside. -/
theorem spawn (h : RowInv limit initial row phases) :
    RowInv limit initial row (phases ++ [.outside]) := by
  have old : ∀ {i : Nat} {p : RowPhase}, (phases ++ [.outside])[i]? = some p → p ≠ .outside →
      phases[i]? = some p := by
    intro i p hi hp
    rw [List.getElem?_append] at hi
    split at hi
    · exact hi
    · rw [List.getElem?_singleton] at hi
      split at hi
      · exact absurd (Option.some.inj hi).symm hp
      · cases hi
  refine ⟨fun i seen hi ↦ h.passed i seen (old hi (by simp)),
    fun i seen hi ↦ h.wrote i seen (old hi (by simp)), ?_, ?_, ?_, ?_, ?_, h.bounded⟩
  · intro seen hm
    apply h.below seen
    simpa using hm
  · intro i j p q hi hj hp hq
    refine h.unique i j p q (old hi ?_) (old hj ?_) hp hq
    · rintro rfl
      exact hp
    · rintro rfl
      exact hq
  · intro i hi
    obtain ⟨p, hp, hin⟩ := h.holder i hi
    exact ⟨p, by rw [List.getElem?_append_left (List.getElem?_eq_some_iff.mp hp).1, hp], hin⟩
  · intro hp
    obtain ⟨i, seen, hi⟩ := h.pending hp
    exact ⟨i, seen, by rw [List.getElem?_append_left (List.getElem?_eq_some_iff.mp hi).1, hi]⟩
  · have hc := h.counted
    simpa [List.countP_append] using hc

end RowInv

/-- What the transition of call `i` from `old` to `new` must respect, with the row going from
`row` to `row'`. -/
structure RowMove (limit initial : Nat) (row row' : RowState Nat) (phases : List RowPhase)
    (i : Nat) (old new : RowPhase) : Prop where
  others : ∀ (j : Nat) q, j ≠ i → phases[j]? = some q → q.Active →
    row'.committed = row.committed ∧
      (row.holder = some j → row'.holder = some j ∧ row'.pending = row.pending)
  alone : new.Active → ∀ (j : Nat) q, j ≠ i → phases[j]? = some q → ¬ q.Active
  passed : ∀ seen, new = .passed seen →
    row'.committed = seen ∧ (seen.isSome → row'.holder = some i) ∧ seen.getD 0 < limit
  wrote : ∀ seen, new = .wrote seen → row'.committed = seen ∧ row'.holder = some i ∧
    row'.pending = some (some (seen.getD 0 + 1)) ∧ seen.getD 0 < limit
  holder : ∀ j, row'.holder = some j → (j = i ∧ new.Inside) ∨ (j ≠ i ∧ row.holder = some j)
  pending : row'.pending ≠ none →
    (∃ seen, new = .wrote seen) ∨ (old.isWrote = false ∧ row.pending ≠ none)
  notClosed : old.isClosed = false
  counted : (if new = .closed true then 1 else 0) + row.committed.getD 0 ≤ row'.committed.getD 0
  bounded : row'.committed.getD 0 ≤ max initial limit

namespace RowInv

variable {limit initial : Nat} {row row' : RowState Nat} {phases : List RowPhase} {i : Nat}
  {old new : RowPhase}

private theorem getElem?_set_cases (hi : phases[i]? = some old) {j : Nat} {p : RowPhase}
    (hj : (phases.set i new)[j]? = some p) :
    (j = i ∧ p = new) ∨ (j ≠ i ∧ phases[j]? = some p) := by
  rw [List.getElem?_set] at hj
  split at hj
  · next hij =>
    subst hij
    rw [if_pos (List.getElem?_eq_some_iff.mp hi).1] at hj
    exact .inl ⟨rfl, (Option.some.inj hj).symm⟩
  · next hij => exact .inr ⟨fun he ↦ hij he.symm, hj⟩

private theorem getElem?_set_self' (hi : phases[i]? = some old) :
    (phases.set i new)[i]? = some new := by
  rw [List.getElem?_set_self (List.getElem?_eq_some_iff.mp hi).1]

private theorem countP_closed_set (hi : phases[i]? = some old) (ho : old.isClosed = false) :
    (phases.set i new).countP (· == .closed true) =
      phases.countP (· == .closed true) + if new = .closed true then 1 else 0 := by
  obtain ⟨hlt, hget⟩ := List.getElem?_eq_some_iff.mp hi
  have hne : (old == RowPhase.closed true) = false := by
    rw [beq_eq_false_iff_ne]
    rintro rfl
    cases ho
  rw [List.countP_set hlt, hget, hne]
  simp

/-- Every transition that respects the row keeps the invariant. -/
theorem move (h : RowInv limit initial row phases) (hi : phases[i]? = some old)
    (m : RowMove limit initial row row' phases i old new) :
    RowInv limit initial row' (phases.set i new) where
  passed := by
    intro j seen hj
    obtain ⟨rfl, hp⟩ | ⟨hji, hj⟩ := getElem?_set_cases hi hj
    · obtain ⟨hc, hh, -⟩ := m.passed seen hp.symm
      exact ⟨hc, hh⟩
    · obtain ⟨hc, hh⟩ := h.passed j seen hj
      obtain ⟨hc', hh'⟩ := m.others j _ hji hj trivial
      exact ⟨hc'.trans hc, fun hs ↦ (hh' (hh hs)).1⟩
  wrote := by
    intro j seen hj
    obtain ⟨rfl, hp⟩ | ⟨hji, hj⟩ := getElem?_set_cases hi hj
    · obtain ⟨hc, hh, hw, -⟩ := m.wrote seen hp.symm
      exact ⟨hc, hh, hw⟩
    · obtain ⟨hc, hh, hw⟩ := h.wrote j seen hj
      obtain ⟨hc', hh'⟩ := m.others j _ hji hj trivial
      exact ⟨hc'.trans hc, (hh' hh).1, (hh' hh).2.trans hw⟩
  below := by
    intro seen hm
    obtain hm | hm := hm
    · obtain hm | rfl := List.mem_or_eq_of_mem_set hm
      · exact h.below seen (.inl hm)
      · exact (m.passed seen rfl).2.2
    · obtain hm | rfl := List.mem_or_eq_of_mem_set hm
      · exact h.below seen (.inr hm)
      · exact (m.wrote seen rfl).2.2.2
  unique := by
    intro j k p q hj hk hp hq
    obtain ⟨rfl, rfl⟩ | ⟨hji, hj'⟩ := getElem?_set_cases hi hj
    · obtain ⟨rfl, -⟩ | ⟨hki, hk'⟩ := getElem?_set_cases hi hk
      · rfl
      · exact absurd hq (m.alone hp k q hki hk')
    · obtain ⟨rfl, rfl⟩ | ⟨hki, hk'⟩ := getElem?_set_cases hi hk
      · exact absurd hp (m.alone hq j p hji hj')
      · exact h.unique j k p q hj' hk' hp hq
  holder := by
    intro j hj
    obtain ⟨rfl, hin⟩ | ⟨hji, hj⟩ := m.holder j hj
    · exact ⟨new, getElem?_set_self' hi, hin⟩
    · obtain ⟨p, hp, hin⟩ := h.holder j hj
      exact ⟨p, by rw [List.getElem?_set_ne (Ne.symm hji), hp], hin⟩
  pending := by
    intro hp
    obtain ⟨seen, rfl⟩ | ⟨how, hrow⟩ := m.pending hp
    · exact ⟨i, seen, getElem?_set_self' hi⟩
    · obtain ⟨j, seen, hj⟩ := h.pending hrow
      have hji : j ≠ i := by
        rintro rfl
        cases hi.symm.trans hj
        cases how
      exact ⟨j, seen, by rw [List.getElem?_set_ne (Ne.symm hji), hj]⟩
  counted := by
    have hc := h.counted
    have hm := m.counted
    rw [countP_closed_set hi m.notClosed]
    omega
  bounded := m.bounded

/-! ### The transitions of one call -/

private theorem active_cases {p : RowPhase} (h : p.Active) :
    ∃ seen, p = .passed seen ∨ p = .wrote seen := by
  cases p with
  | passed seen => exact ⟨seen, .inl rfl⟩
  | wrote seen => exact ⟨seen, .inr rfl⟩
  | outside => exact h.elim
  | full => exact h.elim
  | closed admitted => exact h.elim

/-- What an active call read is what is committed. -/
theorem committed_of_active (h : RowInv limit initial row phases) {j : Nat} {p : RowPhase}
    (hj : phases[j]? = some p) (hp : p.Active) :
    p = .passed row.committed ∨ p = .wrote row.committed := by
  obtain ⟨seen, rfl | rfl⟩ := active_cases hp
  · exact .inl (by rw [(h.passed j seen hj).1])
  · exact .inr (by rw [(h.wrote j seen hj).1])

/-- Nobody is active around a row that exists and is free for a call that is not active. -/
theorem alone_of_free (h : RowInv limit initial row phases) {v : Nat}
    (hv : row.committed = some v) (hf : row.freeFor i = true) {j : Nat} {q : RowPhase}
    (hji : j ≠ i) (hj : phases[j]? = some q) : ¬ q.Active := by
  intro hq
  have hholder : row.holder = some j := by
    obtain rfl | rfl := h.committed_of_active hj hq
    · exact (h.passed j _ hj).2 (by rw [hv]; rfl)
    · exact (h.wrote j _ hj).2.1
  rw [RowState.freeFor, hholder] at hf
  simp [hji] at hf

/-- A call outside the row does not hold it. -/
theorem not_holder_of_outside (h : RowInv limit initial row phases)
    (hi : phases[i]? = some .outside) : row.holder ≠ some i := by
  intro hh
  obtain ⟨p, hp, hin⟩ := h.holder i hh
  cases hi.symm.trans hp
  exact hin

/-- Uncommitted values belong to a call that wrote them. -/
theorem pending_of_not_wrote (h : RowInv limit initial row phases) (hi : phases[i]? = some old)
    (ho : old.isWrote = false) (hh : row.holder = some i) : row.pending = none := by
  by_contra hp
  obtain ⟨j, seen, hj⟩ := h.pending hp
  have := (h.wrote j seen hj).2.1
  cases hh.symm.trans this
  cases hi.symm.trans hj
  cases ho

/-- A call reads a missing row that no active call has found missing. -/
theorem read_missing (h : RowInv limit initial row phases) (hi : phases[i]? = some .outside)
    (hl : 0 < limit) (hc : row.committed = none)
    (hfirst : ∀ (j : Nat) q, j ≠ i → phases[j]? = some q →
      q ≠ .passed none ∧ q ≠ .wrote none) :
    RowInv limit initial row (phases.set i (.passed none)) := by
  refine h.move hi ⟨fun j q _ _ _ ↦ ⟨rfl, fun hh ↦ ⟨hh, rfl⟩⟩, ?_, ?_, by simp, ?_, ?_, rfl,
    by simp, h.bounded⟩
  · intro _ j q hji hj hq
    have hcases := h.committed_of_active hj hq
    rw [hc] at hcases
    obtain hcases | hcases := hcases
    · exact (hfirst j q hji hj).1 hcases
    · exact (hfirst j q hji hj).2 hcases
  · intro seen hs
    cases hs
    exact ⟨hc, by simp, hl⟩
  · intro j hj
    refine .inr ⟨?_, hj⟩
    rintro rfl
    exact h.not_holder_of_outside hi hj
  · exact fun hp ↦ .inr ⟨rfl, hp⟩

/-- A call reads and locks an existing row. -/
theorem read_present (h : RowInv limit initial row phases) (hi : phases[i]? = some .outside)
    {v : Nat} (hv : row.committed = some v) (hf : row.freeFor i = true) :
    RowInv limit initial { row with holder := some i }
      (phases.set i (if v < limit then .passed (some v) else .full)) := by
  have halone : ∀ (j : Nat) q, j ≠ i → phases[j]? = some q → ¬ q.Active :=
    fun j q hji hj ↦ h.alone_of_free hv hf hji hj
  refine h.move hi ⟨fun j q hji hj hq ↦ absurd hq (halone j q hji hj), fun _ ↦ halone, ?_, ?_, ?_,
    fun hp ↦ .inr ⟨rfl, hp⟩, rfl, ?_, h.bounded⟩
  · intro seen hs
    split at hs
    · next hlt =>
      cases hs
      exact ⟨hv, fun _ ↦ rfl, hlt⟩
    · cases hs
  · intro seen hs
    split at hs <;> cases hs
  · intro j hj
    cases hj
    refine .inl ⟨rfl, ?_⟩
    split <;> trivial
  · split <;> simp

/-- A call that passed writes the row. -/
theorem write (h : RowInv limit initial row phases) {seen : Option Nat}
    (hi : phases[i]? = some (.passed seen)) :
    row.visible i = seen ∧
    RowInv limit initial { row with
      holder := some i
      pending := some (some (seen.getD 0 + 1)) } (phases.set i (.wrote seen)) := by
  have hc := (h.passed i seen hi).1
  have hbelow := h.below seen (.inl (List.mem_of_getElem? hi))
  have halone : ∀ (j : Nat) q, j ≠ i → phases[j]? = some q → ¬ q.Active :=
    fun j q hji hj hq ↦ hji (h.unique j i q _ hj hi hq trivial)
  refine ⟨?_, h.move hi ⟨fun j q hji hj hq ↦ absurd hq (halone j q hji hj), fun _ ↦ halone,
    by simp, ?_, ?_, fun _ ↦ .inl ⟨seen, rfl⟩, rfl, by simp, h.bounded⟩⟩
  · unfold RowState.visible
    split
    · next hh => rw [h.pending_of_not_wrote hi rfl hh, Option.getD_none, hc]
    · exact hc
  · intro seen' hs
    cases hs
    exact ⟨hc, rfl, rfl, hbelow⟩
  · intro j hj
    cases hj
    exact .inl ⟨rfl, trivial⟩

private theorem released_others (hc : row'.committed = row.committed)
    (hh : row.holder = some i) : ∀ (j : Nat) q, j ≠ i → phases[j]? = some q → q.Active →
      row'.committed = row.committed ∧
      (row.holder = some j → row'.holder = some j ∧ row'.pending = row.pending) := by
  intro j q hji _ _
  refine ⟨hc, fun hj ↦ ?_⟩
  rw [hh] at hj
  exact absurd (Option.some.inj hj).symm hji

/-- The transaction ends and what the call wrote, if anything, is dropped. -/
theorem close_rollback (h : RowInv limit initial row phases) (hi : phases[i]? = some old)
    (ho : old.isClosed = false) :
    RowInv limit initial (row.rollback i) (phases.set i (.closed false)) := by
  have hinactive : (RowPhase.closed false).Active → False := id
  unfold RowState.rollback
  by_cases hh : row.holder = some i
  · rw [if_pos hh]
    exact h.move hi ⟨released_others rfl hh, fun ha ↦ (hinactive ha).elim, by simp, by simp,
      by simp, by simp, ho, by simp, h.bounded⟩
  · rw [if_neg hh]
    refine h.move hi ⟨fun j q _ _ _ ↦ ⟨rfl, fun hj ↦ ⟨hj, rfl⟩⟩, fun ha ↦ (hinactive ha).elim,
      by simp, by simp, ?_, ?_, ho, by simp, h.bounded⟩
    · intro j hj
      refine .inr ⟨?_, hj⟩
      rintro rfl
      exact hh hj
    · intro hp
      refine .inr ⟨?_, hp⟩
      cases old with
      | wrote seen => exact absurd (h.wrote i seen hi).2.1 hh
      | outside => rfl
      | passed seen => rfl
      | full => rfl
      | closed admitted => rfl

/-- The transaction ends and what the call wrote is committed; only such a call is admitted. -/
theorem close_commit (h : RowInv limit initial row phases) (hi : phases[i]? = some old)
    (ho : old.isClosed = false) {admitted : Bool} (ha : admitted = true → old.isWrote = true) :
    RowInv limit initial (row.commit i) (phases.set i (.closed admitted)) := by
  by_cases hw : old.isWrote = true
  · obtain ⟨seen, rfl⟩ : ∃ seen, old = .wrote seen := by
      cases old with
      | wrote seen => exact ⟨seen, rfl⟩
      | outside => cases hw
      | passed seen => cases hw
      | full => cases hw
      | closed admitted => cases hw
    obtain ⟨hc, hh, hp⟩ := h.wrote i seen hi
    have hbelow := h.below seen (.inr (List.mem_of_getElem? hi))
    have halone : ∀ (j : Nat) q, j ≠ i → phases[j]? = some q → ¬ q.Active :=
      fun j q hji hj hq ↦ hji (h.unique j i q _ hj hi hq trivial)
    rw [RowState.commit, if_pos hh, hp]
    refine h.move hi ⟨fun j q hji hj hq ↦ absurd hq (halone j q hji hj), fun _ ↦ halone,
      by simp, by simp, by simp, by simp, ho, ?_, ?_⟩
    · rw [hc]
      simp only [Option.getD_some]
      split <;> omega
    · simp only [Option.getD_some]
      omega
  · -- nothing was written: committing releases the row as a rollback does
    have hfalse : admitted = false := by
      by_contra hne
      exact hw (ha (by simpa using hne))
    have hsame : row.commit i = row.rollback i := by
      unfold RowState.commit RowState.rollback
      split
      · next hh => rw [h.pending_of_not_wrote hi (by simpa using hw) hh, Option.getD_none]
      · rfl
    rw [hfalse, hsame]
    exact h.close_rollback hi ho

/-- A closed call holds nothing any more. -/
theorem rollback_of_closed (h : RowInv limit initial row phases) {admitted : Bool}
    (hi : phases[i]? = some (.closed admitted)) : row.rollback i = row := by
  refine if_neg fun hh ↦ ?_
  obtain ⟨p, hp, hin⟩ := h.holder i hh
  cases hi.symm.trans hp
  exact hin

end RowInv

end C3RSpec.Access
