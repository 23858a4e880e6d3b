import C3RSpec.Base.Sorting
import C3RSpec.Candidates.Compiler
import Mathlib.Data.Prod.Lex

/-!
# The ranking of finite utilities

`c3r/progressive_widening.py:19–28` and `c3r/candidate_compiler.py:126–134`, where no utility and
no cost is NaN or infinite. The sort key is then a linear order, so what is selected depends only
on what is ranked, and the best comes first.
-/

namespace C3RSpec.Candidates

open Base

/-- A skeleton with a finite utility. -/
def HasFiniteUtility (c : ActionCandidate) : Prop := c.optimisticUtility.isFinite = true

/-- A definition with a finite utility and a finite cost. -/
def HasFiniteValue (d : ActionDefinition) : Prop :=
  d.optimisticUtility.isFinite = true ∧ d.estimatedCost.isFinite = true

/-- `(-item.optimistic_utility, item.id)`. -/
def rankKey (c : ActionCandidate) : ℚ ×ₗ Text := toLex (-c.optimisticUtility.toRat, c.id)

private theorem rankedBefore_eq_false_iff {a b : ActionCandidate} (ha : HasFiniteUtility a)
    (hb : HasFiniteUtility b) : rankedBefore b a = false ↔ rankKey a ≤ rankKey b := by
  obtain ⟨p, hp⟩ := PyFloat.exists_of_isFinite ha
  obtain ⟨q, hq⟩ := PyFloat.exists_of_isFinite hb
  rw [rankedBefore, rankKey, rankKey, Prod.Lex.toLex_le_toLex, hp, hq]
  simp only [PyFloat.neg, PyFloat.beq_fin, PyFloat.lt_fin, PyFloat.toRat, neg_inj, neg_lt_neg_iff]
  by_cases h : q = p
  · simp [h]
  · simp [h, Ne.symm h, lt_iff_le_and_ne]

/-- Finite utilities are ordered by the key. -/
theorem orderCandidates_eq {ranked : List ActionCandidate}
    (h : ∀ c ∈ ranked, HasFiniteUtility c) : orderCandidates ranked = sortOn rankKey ranked :=
  insertionSort_eq_sortOn fun a ha b hb ↦ rankedBefore_eq_false_iff (h a ha) (h b hb)

/-- What is selected does not depend on the order, when ids are distinct. -/
theorem widen_eq_of_perm {xs ys : List ActionCandidate} (hperm : xs.Perm ys)
    (hfinite : ∀ c ∈ xs, HasFiniteUtility c) (hids : (xs.map ActionCandidate.id).Nodup)
    (initialWidth maximumWidth : Int) (margin : PyFloat) :
    widenWhenMarginIsSmall xs initialWidth maximumWidth margin =
      widenWhenMarginIsSmall ys initialWidth maximumWidth margin := by
  have hnil : xs = [] ↔ ys = [] := by
    constructor
    · rintro rfl
      exact hperm.nil_eq.symm
    · rintro rfl
      exact hperm.eq_nil
  have horder : orderCandidates xs = orderCandidates ys := by
    rw [orderCandidates_eq hfinite, orderCandidates_eq fun c hc ↦ hfinite c (hperm.mem_iff.mpr hc)]
    apply sortOn_eq_of_perm hperm
    intro a ha b hb hkey
    exact List.inj_on_of_nodup_map hids ha hb (congrArg (fun k ↦ (ofLex k).2) hkey)
  unfold widenWhenMarginIsSmall
  simp only [hnil, horder]

/-- The widths that `widen_when_margin_is_small` takes. -/
def AcceptsWidths (initialWidth maximumWidth : Int) : Prop :=
  1 ≤ initialWidth ∧ initialWidth ≤ maximumWidth

instance (initialWidth maximumWidth : Int) : Decidable (AcceptsWidths initialWidth maximumWidth) :=
  inferInstanceAs (Decidable (_ ∧ _))

/-- Accepted widths always select, and the first of the order is always selected. -/
theorem exists_widen {initialWidth maximumWidth : Int}
    (h : AcceptsWidths initialWidth maximumWidth) (ranked : List ActionCandidate)
    (margin : PyFloat) :
    ∃ selected, widenWhenMarginIsSmall ranked initialWidth maximumWidth margin = .ok selected ∧
      selected.head? = (orderCandidates ranked).head? := by
  obtain ⟨hone, hle⟩ := h
  unfold widenWhenMarginIsSmall
  rw [if_neg (by omega)]
  by_cases hnil : ranked = []
  · rw [if_pos hnil, hnil]
    exact ⟨[], rfl, rfl⟩
  · rw [if_neg hnil]
    refine ⟨_, rfl, ?_⟩
    have hlen : 0 < (orderCandidates ranked).length := by
      rw [orderCandidates, List.length_insertionSort]
      exact List.length_pos_of_ne_nil hnil
    rw [List.head?_take, if_neg]
    have hwidth := le_widenWidth margin (orderCandidates ranked)
      (min maximumWidth.toNat (orderCandidates ranked).length)
      (min maximumWidth.toNat (orderCandidates ranked).length)
      (min initialWidth.toNat (orderCandidates ranked).length)
    omega

/-! ### Skeletons of finite definitions -/

section Skeletons

variable {d : ActionDefinition} {items items' : List ActionDefinition} {family : ActionFamily}
  {subgroup : Text}

/-- The net utility of finite values is finite. -/
theorem isFinite_netUtility (h : HasFiniteValue d) : (netUtility d).isFinite = true := by
  obtain ⟨u, hu⟩ := PyFloat.exists_of_isFinite h.1
  obtain ⟨k, hk⟩ := PyFloat.exists_of_isFinite h.2
  rw [netUtility, hu, hk]
  rfl

private theorem lt_eq_of_isFinite {x y : PyFloat} (hx : x.isFinite = true)
    (hy : y.isFinite = true) : PyFloat.lt x y = decide (x.toRat < y.toRat) := by
  obtain ⟨p, rfl⟩ := PyFloat.exists_of_isFinite hx
  obtain ⟨q, rfl⟩ := PyFloat.exists_of_isFinite hy
  rfl

private theorem eq_of_toRat_eq {x y : PyFloat} (hx : x.isFinite = true) (hy : y.isFinite = true)
    (h : x.toRat = y.toRat) : x = y := by
  obtain ⟨p, rfl⟩ := PyFloat.exists_of_isFinite hx
  obtain ⟨q, rfl⟩ := PyFloat.exists_of_isFinite hy
  exact congrArg PyFloat.fin h

private theorem isFinite_of_mem_map (h : ∀ d ∈ items, HasFiniteValue d) :
    ∀ x ∈ items.map netUtility, x.isFinite = true := by
  intro x hx
  obtain ⟨d, hd, rfl⟩ := List.mem_map.mp hx
  exact isFinite_netUtility (h d hd)

/-- The utility of a subgroup is the greatest net utility in it. -/
theorem subgroupSkeleton_utility (h : ∀ d ∈ items, HasFiniteValue d) (hne : items ≠ []) :
    (subgroupSkeleton family subgroup items).optimisticUtility ∈ items.map netUtility ∧
      ∀ d ∈ items, (netUtility d).toRat ≤
        (subgroupSkeleton family subgroup items).optimisticUtility.toRat := by
  cases items with
  | nil => exact absurd rfl hne
  | cons e es =>
    have hfinite := isFinite_of_mem_map h
    refine ⟨firstMax_mem PyFloat.lt (netUtility e) (es.map netUtility), fun d hd ↦ ?_⟩
    exact key_le_firstMax PyFloat.lt PyFloat.toRat
      (fun x hx y hy ↦ lt_eq_of_isFinite (hfinite x hx) (hfinite y hy)) (List.mem_map_of_mem hd)

/-- A subgroup of finite definitions has a finite utility. -/
theorem hasFiniteUtility_subgroupSkeleton (h : ∀ d ∈ items, HasFiniteValue d)
    (hne : items ≠ []) : HasFiniteUtility (subgroupSkeleton family subgroup items) :=
  isFinite_of_mem_map h _ (subgroupSkeleton_utility h hne).1

private theorem value_injective {a b : RiskClass} (h : a.value = b.value) : a = b := by
  cases a <;> cases b <;> first | rfl | exact absurd h (by decide)

/-- The skeleton of a subgroup does not depend on the order of its definitions. -/
theorem subgroupSkeleton_eq_of_perm (hperm : items.Perm items')
    (h : ∀ d ∈ items, HasFiniteValue d) :
    subgroupSkeleton family subgroup items = subgroupSkeleton family subgroup items' := by
  cases items with
  | nil => rw [hperm.nil_eq]
  | cons e es =>
    cases items' with
    | nil => exact absurd hperm.length_eq (by simp)
    | cons e' es' =>
      have hfinite := isFinite_of_mem_map h
      have hfinite' := isFinite_of_mem_map fun d hd ↦ h d (hperm.mem_iff.mpr hd)
      have hutility : firstMax PyFloat.lt (netUtility e) (es.map netUtility) =
          firstMax PyFloat.lt (netUtility e') (es'.map netUtility) := by
        apply eq_of_toRat_eq (hfinite _ (firstMax_mem _ _ _)) (hfinite' _ (firstMax_mem _ _ _))
        exact key_firstMax_eq_of_perm PyFloat.lt PyFloat.toRat (hperm.map netUtility) fun x hx y hy ↦
          lt_eq_of_isFinite (hfinite x hx) (hfinite y hy)
      have hrisk := key_firstMax_eq_of_perm
        (fun a b : ActionDefinition ↦ decide (b.riskClass.value < a.riskClass.value))
        (fun d ↦ OrderDual.toDual d.riskClass.value) hperm
        fun a _ b _ ↦ decide_eq_decide.mpr OrderDual.toDual_lt_toDual.symm
      have hrisk := value_injective (OrderDual.toDual_inj.mp hrisk)
      change ActionCandidate.mk _ _ (firstMin _ e es).riskClass _ _ _ =
        ActionCandidate.mk _ _ (firstMin _ e' es').riskClass _ _ _
      rw [hutility]
      exact congrArg (fun r ↦ ActionCandidate.mk _ _ r _ _ _) hrisk

end Skeletons

end C3RSpec.Candidates
