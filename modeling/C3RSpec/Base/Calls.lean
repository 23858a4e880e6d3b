import Mathlib.Data.List.Perm.Subperm
import C3RSpec.Base.Prog

/-!
# The calls of a program

Library `Base`. Which calls a program makes and in what order, whatever it is answered. A program
whose every call and every value meets a condition is built from parts that do (`Only`). Where
operations are given ranks, a program whose calls rise in rank performs each rank at most once and
in one order; the parts of a composition take adjoining intervals of ranks (`Rising`).
-/

namespace C3RSpec.Base

variable {Op : Type} {Res : Op → Type} {α β : Type} {rank : Op → Nat} {lo mid hi : Nat}
  {es es' : List (Event Op Res)}

/-! ### Calls and values -/

namespace Prog

variable {P : Op → Prop} {R : α → Prop} {R' : β → Prop}

/-- Every call meets `P` and every value meets `R`. -/
def Only (P : Op → Prop) (R : α → Prop) : Prog Op Res α → Prop
  | .ret a => R a
  | .raise _ => True
  | .call o k => P o ∧ ∀ r, Only P R (k r)

/-- A computation makes no call. -/
theorem only_ofExcept {x : Except PyError α} (h : ∀ a, x = .ok a → R a) :
    Only P R (ofExcept x : Prog Op Res α) := by
  cases x with
  | ok a => exact h a rfl
  | error e => trivial

/-- Weaker conditions. -/
theorem Only.mono {P' : Op → Prop} {S : α → Prop} {p : Prog Op Res α} (h : Only P R p)
    (hP : ∀ o, P o → P' o) (hR : ∀ a, R a → S a) : Only P' S p := by
  induction p with
  | ret a => exact hR a h
  | raise e => trivial
  | call o k ih => exact ⟨hP o h.1, fun r ↦ ih r (h.2 r)⟩

/-- What the second part does may rest on the value of the first. -/
theorem Only.bind {p : Prog Op Res α} {f : α → Prog Op Res β} (hp : Only P R p)
    (hf : ∀ a, R a → Only P R' (f a)) : Only P R' (p >>= f) := by
  induction p with
  | ret a => exact hf a hp
  | raise e => trivial
  | call o k ih => exact ⟨hp.1, fun r ↦ ih r (hp.2 r)⟩

/-- A handler meets the same conditions. -/
theorem Only.tryCatch {p : Prog Op Res α} {f : PyError → Prog Op Res α} (hp : Only P R p)
    (hf : ∀ e, Only P R (f e)) : Only P R (MonadExcept.tryCatch p f) := by
  induction p with
  | ret a => exact hp
  | raise e => exact hf e
  | call o k ih => exact ⟨hp.1, fun r ↦ ih r (hp.2 r)⟩

/-- The calls and the value of every run. -/
theorem Only.all {p : Prog Op Res α} (h : Only P R p) :
    All (fun es x ↦ (∀ e ∈ es, P e.op) ∧ ∀ a, x = .ok a → R a) p := by
  induction p with
  | ret a =>
    refine ⟨by simp, ?_⟩
    rintro b hb
    cases hb
    exact h
  | raise e => exact ⟨by simp, fun a ha ↦ by cases ha⟩
  | call o k ih =>
    intro r
    refine (ih r (h.2 r)).mono ?_
    rintro es x ⟨hes, hx⟩
    refine ⟨fun e he ↦ ?_, hx⟩
    obtain rfl | he := List.mem_cons.mp he
    · exact h.1
    · exact hes e he

end Prog

/-! ### Order -/

/-- The events rise in rank, from `lo` on and below `hi`. -/
structure Rising (rank : Op → Nat) (lo hi : Nat) (es : List (Event Op Res)) : Prop where
  sorted : es.Pairwise fun a b ↦ rank a.op < rank b.op
  lower : ∀ e ∈ es, lo ≤ rank e.op
  upper : ∀ e ∈ es, rank e.op < hi

namespace Rising

/-- No event. -/
theorem nil : Rising rank lo hi ([] : List (Event Op Res)) := by
  constructor <;> simp

/-- One event. -/
theorem singleton {e : Event Op Res} (hlo : lo ≤ rank e.op) (hhi : rank e.op < hi) :
    Rising rank lo hi [e] := by
  constructor <;> simp [hlo, hhi]

/-- Adjoining intervals. -/
theorem append (h : Rising rank lo mid es) (h' : Rising rank mid hi es') (hlo : lo ≤ mid)
    (hhi : mid ≤ hi) : Rising rank lo hi (es ++ es') := by
  refine ⟨List.pairwise_append.mpr ⟨h.sorted, h'.sorted, fun a ha b hb ↦ ?_⟩, fun e he ↦ ?_,
    fun e he ↦ ?_⟩
  · exact lt_of_lt_of_le (h.upper a ha) (h'.lower b hb)
  · obtain he | he := List.mem_append.mp he
    · exact h.lower e he
    · exact hlo.trans (h'.lower e he)
  · obtain he | he := List.mem_append.mp he
    · exact lt_of_lt_of_le (h.upper e he) hhi
    · exact h'.upper e he

/-- A wider interval. -/
theorem mono {lo' hi' : Nat} (h : Rising rank lo hi es) (hlo : lo' ≤ lo) (hhi : hi ≤ hi') :
    Rising rank lo' hi' es :=
  ⟨h.sorted, fun e he ↦ hlo.trans (h.lower e he), fun e he ↦ lt_of_lt_of_le (h.upper e he) hhi⟩

/-- There are no more events than ranks. -/
theorem length_le (h : Rising rank lo hi es) : es.length ≤ hi - lo := by
  have hnodup : (es.map fun e ↦ rank e.op).Nodup :=
    List.pairwise_map.mpr (h.sorted.imp fun hab ↦ ne_of_lt hab)
  have hsub : (es.map fun e ↦ rank e.op) ⊆ List.range' lo (hi - lo) := by
    intro r hr
    obtain ⟨e, he, rfl⟩ := List.mem_map.mp hr
    have hlo := h.lower e he
    have hhi := h.upper e he
    exact List.mem_range'_1.mpr (by omega)
  have hle := (List.subperm_of_subset hnodup hsub).length_le
  rwa [List.length_map, List.length_range'] at hle

end Rising

namespace Prog

/-- The calls of a composition rise when those of its parts do, in adjoining intervals. -/
theorem All.rising_bind {p : Prog Op Res α} {f : α → Prog Op Res β}
    (hp : All (fun es _ ↦ Rising rank lo mid es) p)
    (hf : ∀ a, All (fun es _ ↦ Rising rank mid hi es) (f a)) (hlo : lo ≤ mid) (hhi : mid ≤ hi) :
    All (fun es _ ↦ Rising rank lo hi es) (p >>= f) := by
  refine All.bind (hp.mono fun es x hes ↦ ⟨fun a _ ↦ ?_, fun e _ ↦ hes.mono le_rfl hhi⟩)
  exact (hf a).mono fun es' _ hes' ↦ hes.append hes' hlo hhi

/-- A handler without calls adds none. -/
theorem All.rising_tryCatch {p : Prog Op Res α} {f : PyError → Prog Op Res α}
    (hp : All (fun es _ ↦ Rising rank lo hi es) p) (hf : ∀ e, All (fun es _ ↦ es = []) (f e)) :
    All (fun es _ ↦ Rising rank lo hi es) (MonadExcept.tryCatch p f) := by
  refine All.tryCatch (hp.mono fun es x hes ↦ ⟨fun _ _ ↦ hes, fun e _ ↦ ?_⟩)
  refine (hf e).mono fun es' _ hes' ↦ ?_
  rw [hes', List.append_nil]
  exact hes

end Prog

end C3RSpec.Base
