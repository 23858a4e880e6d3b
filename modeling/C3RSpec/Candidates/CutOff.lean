import C3RSpec.Candidates.Ranking
import Mathlib.Order.Bounds.Basic

/-!
# Where widening stops

`c3r/progressive_widening.py:10–29`, where no utility is NaN or infinite. The selection is cut off
at the least width from the initial one on where the next candidate is too far behind, or at the
greatest width.
-/

namespace C3RSpec.Candidates

open Base

/-- The gap after the first `width` candidates is above the margin. -/
def GapExceeds (margin : PyFloat) (ordered : List ActionCandidate) (width : Nat) : Prop :=
  ∃ a b, ordered[width - 1]? = some a ∧ ordered[width]? = some b ∧
    PyFloat.lt margin (.fin (a.optimisticUtility.toRat - b.optimisticUtility.toRat)) = true

/-- The widths at which a selection may be cut off. -/
def cutOffs (initialWidth maximumWidth : Int) (margin : PyFloat) (ordered : List ActionCandidate) :
    Set Nat :=
  {w | min initialWidth.toNat ordered.length ≤ w ∧
    (w = min maximumWidth.toNat ordered.length ∨ GapExceeds margin ordered w)}

/-- The loop ends at `w`: any number of rounds from the greatest width on leads there. -/
def LoopEnds (initialWidth maximumWidth : Int) (margin : PyFloat) (ordered : List ActionCandidate)
    (w : Nat) : Prop :=
  ∀ rounds, min maximumWidth.toNat ordered.length ≤ rounds →
    widenWidth margin ordered (min maximumWidth.toNat ordered.length) rounds
      (min initialWidth.toNat ordered.length) = w

/-- `widen_when_margin_is_small`, by what it selects. -/
structure Widened (ranked : List ActionCandidate) (initialWidth maximumWidth : Int)
    (margin : PyFloat) (selected : List ActionCandidate) : Prop where
  cut : ∃ w, LoopEnds initialWidth maximumWidth margin (sortOn rankKey ranked) w ∧
    IsLeast (cutOffs initialWidth maximumWidth margin (sortOn rankKey ranked)) w ∧
    selected = (sortOn rankKey ranked).take w
  best : ∀ c ∈ selected, ∀ d ∈ ranked, d ∉ selected →
    d.optimisticUtility.toRat ≤ c.optimisticUtility.toRat

/-! ### The loop -/

private theorem sub_of_finite {a b : ActionCandidate} (ha : HasFiniteUtility a)
    (hb : HasFiniteUtility b) : PyFloat.sub a.optimisticUtility b.optimisticUtility =
      .fin (a.optimisticUtility.toRat - b.optimisticUtility.toRat) := by
  obtain ⟨p, hp⟩ := PyFloat.exists_of_isFinite ha
  obtain ⟨q, hq⟩ := PyFloat.exists_of_isFinite hb
  rw [hp, hq]
  rfl

/-- The loop ends at the least width from the current one on where it may. As many rounds as there
are widths left suffice. -/
theorem isLeast_widenWidth {margin : PyFloat} {ordered : List ActionCandidate}
    (hfinite : ∀ c ∈ ordered, HasFiniteUtility c) {bound fuel width : Nat}
    (hbound : bound ≤ ordered.length) (hwidth : width ≤ bound) (hfuel : bound ≤ fuel + width) :
    IsLeast {w | width ≤ w ∧ (w = bound ∨ GapExceeds margin ordered w)}
      (widenWidth margin ordered bound fuel width) := by
  induction fuel generalizing width with
  | zero => exact ⟨⟨Nat.le_refl width, .inl (by rw [widenWidth]; omega)⟩, fun w hw ↦ hw.1⟩
  | succ fuel ih =>
    rw [widenWidth]
    by_cases hlt : width < bound
    · have ha : ordered[width - 1]? = some ordered[width - 1] := List.getElem?_eq_getElem (by omega)
      have hb : ordered[width]? = some ordered[width] := List.getElem?_eq_getElem (by omega)
      rw [if_pos hlt, ha, hb]
      dsimp only
      rw [sub_of_finite (hfinite _ (List.getElem_mem _)) (hfinite _ (List.getElem_mem _))]
      split
      · next hgap => exact ⟨⟨Nat.le_refl width, .inr ⟨_, _, ha, hb, hgap⟩⟩, fun w hw ↦ hw.1⟩
      · next hgap =>
        obtain ⟨⟨hle, hstop⟩, hleast⟩ := ih hlt (by omega)
        refine ⟨⟨Nat.le_of_succ_le hle, hstop⟩, fun w hw ↦ hleast ⟨?_, hw.2⟩⟩
        -- the loop did not stop at its width, so nothing else stops there
        apply Nat.lt_of_le_of_ne hw.1
        rintro rfl
        obtain hend | ⟨a, b, ha', hb', hexceeds⟩ := hw.2
        · exact absurd hend (Nat.ne_of_lt hlt)
        · cases ha.symm.trans ha'
          cases hb.symm.trans hb'
          exact hgap hexceeds
    · rw [if_neg hlt]
      exact ⟨⟨Nat.le_refl width, .inl (by omega)⟩, fun w hw ↦ hw.1⟩

/-! ### What is selected -/

private theorem finite_sortOn {ranked : List ActionCandidate}
    (hfinite : ∀ c ∈ ranked, HasFiniteUtility c) :
    ∀ c ∈ sortOn rankKey ranked, HasFiniteUtility c :=
  fun c hc ↦ hfinite c ((sortOn_perm rankKey ranked).mem_iff.mp hc)

/-- What comes first has at least the utility of what comes later. -/
private theorem best_of_take {ranked : List ActionCandidate} {w : Nat} {c d : ActionCandidate}
    (hc : c ∈ (sortOn rankKey ranked).take w) (hd : d ∈ ranked)
    (hout : d ∉ (sortOn rankKey ranked).take w) :
    d.optimisticUtility.toRat ≤ c.optimisticUtility.toRat := by
  have hsorted := pairwise_sortOn rankKey ranked
  rw [← List.take_append_drop w (sortOn rankKey ranked), List.pairwise_append] at hsorted
  have hmem := (sortOn_perm rankKey ranked).mem_iff.mpr hd
  rw [← List.take_append_drop w (sortOn rankKey ranked), List.mem_append] at hmem
  have hkey := hsorted.2.2 c hc d (hmem.resolve_left hout)
  rw [rankKey, rankKey, Prod.Lex.toLex_le_toLex] at hkey
  obtain hlt | ⟨heq, -⟩ := hkey
  · exact (neg_lt_neg_iff.mp hlt).le
  · exact (neg_inj.mp heq).ge

/-- A least cut-off is below another one with a larger margin and a larger greatest width. -/
private theorem isLeast_le {ordered : List ActionCandidate}
    {initialWidth maximumWidth maximumWidth' : Int} {margin margin' : PyFloat} {w w' : Nat} (hmaximum : maximumWidth ≤ maximumWidth')
    (hmargin : PyFloat.le margin margin' = true) (hinitial : initialWidth ≤ maximumWidth)
    (h : IsLeast (cutOffs initialWidth maximumWidth margin ordered) w)
    (h' : IsLeast (cutOffs initialWidth maximumWidth' margin' ordered) w') : w ≤ w' := by
  obtain ⟨hle, hend | ⟨a, b, ha, hb, hexceeds⟩⟩ := h'.1
  · -- the width that ends the longer list of candidates is a cut-off of the shorter one, or beyond
    have hbound : min maximumWidth.toNat ordered.length ∈
        cutOffs initialWidth maximumWidth margin ordered := ⟨by omega, .inl rfl⟩
    have hleast := h.2 hbound
    omega
  · apply h.2
    exact ⟨hle, .inr ⟨a, b, ha, hb, PyFloat.lt_of_le_of_lt hmargin hexceeds⟩⟩

/-- From accepted widths the loop ends, at the least cut-off. -/
private theorem exists_loopEnds {ordered : List ActionCandidate}
    (hfinite : ∀ c ∈ ordered, HasFiniteUtility c) {initialWidth maximumWidth : Int}
    (haccepts : AcceptsWidths initialWidth maximumWidth) (margin : PyFloat) :
    ∃ w, LoopEnds initialWidth maximumWidth margin ordered w ∧
      IsLeast (cutOffs initialWidth maximumWidth margin ordered) w := by
  obtain ⟨hone, hle⟩ := haccepts
  have hleast : ∀ rounds, min maximumWidth.toNat ordered.length ≤ rounds →
      IsLeast (cutOffs initialWidth maximumWidth margin ordered)
        (widenWidth margin ordered (min maximumWidth.toNat ordered.length) rounds
          (min initialWidth.toNat ordered.length)) := by
    intro rounds hrounds
    apply isLeast_widenWidth hfinite (Nat.min_le_right _ _)
    · omega
    · omega
  refine ⟨_, fun rounds hrounds ↦ ?_, hleast _ (Nat.le_refl _)⟩
  exact (hleast rounds hrounds).unique (hleast _ (Nat.le_refl _))

/-- What a call selects. -/
private theorem widened_of_eq {ranked selected : List ActionCandidate}
    (hfinite : ∀ c ∈ ranked, HasFiniteUtility c) {initialWidth maximumWidth : Int}
    {margin : PyFloat} (haccepts : AcceptsWidths initialWidth maximumWidth)
    (h : widenWhenMarginIsSmall ranked initialWidth maximumWidth margin = .ok selected) :
    Widened ranked initialWidth maximumWidth margin selected := by
  have hcut : ∃ w, LoopEnds initialWidth maximumWidth margin (sortOn rankKey ranked) w ∧
      IsLeast (cutOffs initialWidth maximumWidth margin (sortOn rankKey ranked)) w ∧
      selected = (sortOn rankKey ranked).take w := by
    obtain ⟨w, hends, hleast⟩ := exists_loopEnds (finite_sortOn hfinite) haccepts margin
    refine ⟨w, hends, hleast, ?_⟩
    obtain ⟨hone, hle⟩ := haccepts
    rw [widenWhenMarginIsSmall, if_neg (by omega)] at h
    by_cases hnil : ranked = []
    · rw [if_pos hnil] at h
      cases h
      rw [hnil]
      exact List.take_nil.symm
    · rw [if_neg hnil, orderCandidates_eq hfinite] at h
      dsimp only at h
      rw [hends _ (Nat.le_refl _)] at h
      exact (Except.ok.inj h).symm
  refine ⟨hcut, fun c hc d hd hout ↦ ?_⟩
  obtain ⟨w, -, -, rfl⟩ := hcut
  exact best_of_take hc hd hout

/-- For every list of candidates with finite utilities and distinct ids, accepted widths and any
margin: the call returns, it cuts the ranking off at the least width where it may, nothing that is
left out is better than something selected, the order of the input plays no part, and a larger
margin with a larger greatest width selects an extension. -/
theorem widening_cuts_off {ranked : List ActionCandidate}
    (hfinite : ∀ c ∈ ranked, HasFiniteUtility c) (hids : (ranked.map ActionCandidate.id).Nodup)
    {initialWidth maximumWidth : Int} (haccepts : AcceptsWidths initialWidth maximumWidth)
    (margin : PyFloat) :
    ∃ selected, widenWhenMarginIsSmall ranked initialWidth maximumWidth margin = .ok selected ∧
      Widened ranked initialWidth maximumWidth margin selected ∧
      (∀ ranked', ranked.Perm ranked' →
        widenWhenMarginIsSmall ranked' initialWidth maximumWidth margin = .ok selected) ∧
      ∀ maximumWidth' margin', maximumWidth ≤ maximumWidth' → PyFloat.le margin margin' = true →
        ∃ selected', widenWhenMarginIsSmall ranked initialWidth maximumWidth' margin' =
          .ok selected' ∧ selected <+: selected' := by
  obtain ⟨selected, hselected, -⟩ := exists_widen haccepts ranked margin
  have hwidened := widened_of_eq hfinite haccepts hselected
  refine ⟨selected, hselected, hwidened, fun ranked' hperm ↦ ?_, ?_⟩
  · rw [← widen_eq_of_perm hperm hfinite hids, hselected]
  · intro maximumWidth' margin' hmaximum hmargin
    have haccepts' : AcceptsWidths initialWidth maximumWidth' :=
      ⟨haccepts.1, le_trans haccepts.2 hmaximum⟩
    obtain ⟨selected', hselected', -⟩ := exists_widen haccepts' ranked margin'
    obtain ⟨w, -, hleast, rfl⟩ := hwidened.cut
    obtain ⟨w', -, hleast', rfl⟩ := (widened_of_eq hfinite haccepts' hselected').cut
    refine ⟨_, hselected', List.take_prefix_take_left ?_⟩
    exact isLeast_le hmaximum hmargin haccepts.2 hleast hleast'

/-- A candidate with a utility. -/
private def ratedCandidate (id : Text) (utility : ℚ) : ActionCandidate :=
  { id, family := .tool, riskClass := .readOnly, optimisticUtility := .fin utility }

/-- Two close leaders, and one that is behind. -/
def closeLeaders : List ActionCandidate :=
  [ratedCandidate "c" 1, ratedCandidate "b" (29 / 10), ratedCandidate "a" 3]

/-- The two leaders are selected. -/
theorem widening_cuts_off_leaders : ∃ selected,
    widenWhenMarginIsSmall closeLeaders 1 3 (.fin (1 / 2)) = .ok selected ∧
      Widened closeLeaders 1 3 (.fin (1 / 2)) selected ∧
      selected.map ActionCandidate.id = ["a", "b"] := by
  have hfinite : ∀ c ∈ closeLeaders, HasFiniteUtility c := by
    unfold HasFiniteUtility
    decide +kernel
  have haccepts : AcceptsWidths 1 3 := by decide
  obtain ⟨selected, hselected, hwidened, -⟩ :=
    widening_cuts_off hfinite (by decide +kernel) haccepts (.fin (1 / 2))
  refine ⟨selected, hselected, hwidened, ?_⟩
  have hids : (widenWhenMarginIsSmall closeLeaders 1 3 (.fin (1 / 2))).toOption.map
      (List.map ActionCandidate.id) = some [Text.ofString "a", Text.ofString "b"] := by
    decide +kernel
  rw [hselected] at hids
  exact Option.some.inj hids

end C3RSpec.Candidates
