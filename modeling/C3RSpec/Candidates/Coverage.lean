import C3RSpec.Candidates.Reference

/-!
# No family is starved

`c3r/candidate_compiler.py:121–216`. Whatever the widths and the cap, a family with a surviving
definition has a candidate, and its first one has the greatest net utility of the family: the
maximum goes through the skeleton of its subgroup, through both widenings and through the
expansion, which is never empty for a definition that was not masked.
-/

namespace C3RSpec.Candidates

open Base

section Head

variable {cap : Nat} {adm : Admission} {w : Widths}

private theorem toRat_le_of_rankKey_le {a b : ActionCandidate} (h : rankKey a ≤ rankKey b) :
    b.optimisticUtility.toRat ≤ a.optimisticUtility.toRat := by
  rw [rankKey, rankKey, Prod.Lex.toLex_le_toLex] at h
  obtain h | h := h
  · exact (neg_lt_neg_iff.mp h).le
  · exact (neg_inj.mp h.1).symm.le

/-- The first of what is chosen is the best of what was offered. -/
theorem exists_head_chosen (hw : AcceptsWidths w.initialWidth (boundedWidth cap w))
    {skeletons : List ActionCandidate} (hfinite : ∀ c ∈ skeletons, HasFiniteUtility c)
    (hne : skeletons ≠ []) :
    ∃ c rest, chosen cap w skeletons = c :: rest ∧ c ∈ skeletons ∧
      ∀ x ∈ skeletons, x.optimisticUtility.toRat ≤ c.optimisticUtility.toRat := by
  obtain ⟨selected, hsel, hhead⟩ := exists_widen hw skeletons w.wideningMargin
  have hchosen : chosen cap w skeletons = selected := by
    rw [chosen, hsel]
    rfl
  rw [orderCandidates_eq hfinite] at hhead
  cases hsort : sortOn rankKey skeletons with
  | nil =>
    have hperm := sortOn_perm rankKey skeletons
    rw [hsort] at hperm
    exact absurd hperm.nil_eq.symm hne
  | cons c sorted =>
    rw [hsort, List.head?_cons] at hhead
    obtain ⟨rest, hrest⟩ := List.head?_eq_some_iff.mp hhead
    refine ⟨c, rest, hchosen.trans hrest, ?_, fun x hx ↦ ?_⟩
    · apply (sortOn_perm rankKey skeletons).mem_iff.mp
      rw [hsort]
      exact List.mem_cons_self
    · exact toRat_le_of_rankKey_le (head_sortOn_le hsort hx)

/-- Every definition has a placement. -/
theorem exists_placement (e : ActionDefinition) : ∃ placement, placement ∈ placements e := by
  apply List.exists_mem_of_ne_nil
  rw [placements]
  split
  · exact List.cons_ne_nil _ _
  · next hne => exact hne

/-- A definition that is not masked has an allowed verifier. -/
theorem exists_verifier {policy : AuthorityPolicy} {e : ActionDefinition}
    (h : passesMasks policy adm e = true) : ∃ verifier, verifier ∈ verifiers adm e := by
  unfold passesMasks at h
  rw [Bool.and_eq_true, List.any_eq_true] at h
  obtain ⟨v, hv, hv'⟩ := h.2
  rw [decide_eq_true_eq] at hv'
  exact ⟨v, List.mem_filter.mpr ⟨hv', decide_eq_true hv⟩⟩

/-- A definition that is not masked expands to something. -/
theorem expandAll_ne_nil {policy : AuthorityPolicy} {e : ActionDefinition}
    (h : passesMasks policy adm e = true) (skeleton : ActionCandidate) :
    expandAll adm skeleton e ≠ [] := by
  obtain ⟨variant, hvariant⟩ : ∃ v, v ∈ (variants e).zipIdx := by
    apply List.exists_mem_of_ne_nil
    rw [ne_eq, List.zipIdx_eq_nil_iff, variants]
    split
    · exact List.cons_ne_nil _ _
    · next hne => exact hne
  obtain ⟨placement, hplacement⟩ := exists_placement e
  obtain ⟨verifier, hverifier⟩ := exists_verifier h
  apply List.ne_nil_of_mem
  exact mem_expandAll.mpr ⟨variant, hvariant, placement, hplacement, verifier, hverifier, rfl⟩

private theorem flatMap_eq_cons {A B : Type} {f : A → List B} {a : A} {as rest : List A} {b : B}
    {bs : List B} (hl : as = a :: rest) (hf : f a = b :: bs) : ∃ tail, as.flatMap f = b :: tail := by
  rw [hl, List.flatMap_cons, hf]
  exact ⟨_, rfl⟩

/-- The best net utility among definitions. -/
def IsBest (items : List ActionDefinition) (x : PyFloat) : Prop :=
  x ∈ items.map netUtility ∧ ∀ d ∈ items, PyFloat.le (netUtility d) x = true

private theorem isBest_of_toRat_le {items : List ActionDefinition}
    (hfinite : ∀ d ∈ items, HasFiniteValue d) {x : PyFloat} (hx : x ∈ items.map netUtility)
    (h : ∀ d ∈ items, (netUtility d).toRat ≤ x.toRat) : IsBest items x := by
  refine ⟨hx, fun d hd ↦ ?_⟩
  obtain ⟨e, he, rfl⟩ := List.mem_map.mp hx
  obtain ⟨p, hp⟩ := PyFloat.exists_of_isFinite (isFinite_netUtility (hfinite d hd))
  obtain ⟨q, hq⟩ := PyFloat.exists_of_isFinite (isFinite_netUtility (hfinite e he))
  have hle := h d hd
  rw [hp, hq] at hle ⊢
  rw [PyFloat.le_fin]
  exact decide_eq_true hle

private theorem exists_head_expandSubgroup {policy : AuthorityPolicy}
    (hw : AcceptsWidths w.initialWidth (boundedWidth cap w)) {items : List ActionDefinition}
    (hfinite : ∀ d ∈ items, HasFiniteValue d)
    (hmasks : ∀ d ∈ items, passesMasks policy adm d = true) (hne : items ≠ []) :
    ∃ c rest, expandSubgroup cap adm w items = c :: rest ∧
      c.optimisticUtility ∈ items.map netUtility ∧
      ∀ d ∈ items, (netUtility d).toRat ≤ c.optimisticUtility.toRat := by
  have hskeletons : ∀ s ∈ items.map operationSkeleton, HasFiniteUtility s := by
    intro s hs
    obtain ⟨d, hd, rfl⟩ := List.mem_map.mp hs
    exact isFinite_netUtility (hfinite d hd)
  obtain ⟨s, rest, hchosen, hs, hbest⟩ := exists_head_chosen hw hskeletons (by simpa using hne)
  obtain ⟨d, hd, rfl⟩ := List.mem_map.mp hs
  -- the dictionary leads to some definition of the subgroup, and that one is not masked
  obtain ⟨e, he⟩ := exists_definitionsById (List.mem_map_of_mem hd)
  have hmem : e ∈ items := by
    rw [definitionsById_get?] at he
    exact List.mem_reverse.mp (List.mem_of_find?_eq_some he)
  obtain ⟨c, tail, hexpand⟩ :=
    List.exists_cons_of_ne_nil (expandAll_ne_nil (hmasks e hmem) (operationSkeleton d))
  have hutility : c.optimisticUtility = netUtility d := by
    have hc : c ∈ expandAll adm (operationSkeleton d) e := by
      rw [hexpand]
      exact List.mem_cons_self
    obtain ⟨v, -, placement, -, verifier, -, rfl⟩ := mem_expandAll.mp hc
    rfl
  obtain ⟨tail', heq⟩ := flatMap_eq_cons (f := expandById adm (definitionsById items)) hchosen
    (show _ = c :: tail by rw [expandById, he, Option.map_some, Option.getD_some, hexpand])
  refine ⟨c, tail', heq, ?_, fun d' hd' ↦ ?_⟩
  · rw [hutility]
    exact List.mem_map_of_mem hd
  · rw [hutility]
    exact hbest _ (List.mem_map_of_mem hd')

/-- The first expansion of a family has its best net utility. -/
theorem exists_head_expandFamily {policy : AuthorityPolicy}
    (hw : AcceptsWidths w.initialWidth (boundedWidth cap w)) (family : ActionFamily)
    {items : List ActionDefinition} (hfinite : ∀ d ∈ items, HasFiniteValue d)
    (hmasks : ∀ d ∈ items, passesMasks policy adm d = true) (hne : items ≠ []) :
    ∃ c rest, expandFamily cap adm w family items = c :: rest ∧
      IsBest items c.optimisticUtility := by
  have hperm := skeletons_perm family items
  obtain ⟨s, rest, hchosen, hs, hbest⟩ := exists_head_chosen hw
    (fun c hc ↦ hasFiniteUtility_of_mem_skeletons hfinite (hperm.mem_iff.mp hc)) (by
      obtain ⟨d, hd⟩ := List.exists_mem_of_ne_nil items hne
      intro hnil
      rw [hnil] at hperm
      have hmem : d.subgroup ∈ (items.map ActionDefinition.subgroup).dedup :=
        List.mem_dedup.mpr (List.mem_map_of_mem hd)
      exact List.ne_nil_of_mem (List.mem_map_of_mem hmem) hperm.nil_eq.symm)
  obtain ⟨subgroup, hsubgroup, rfl⟩ := List.mem_map.mp (hperm.mem_iff.mp hs)
  obtain ⟨d₀, hd₀, rfl⟩ := List.mem_map.mp (List.mem_dedup.mp hsubgroup)
  have hsub : ∀ {subgroup d}, d ∈ ofSubgroup subgroup items → d ∈ items :=
    fun hd ↦ List.mem_of_mem_filter hd
  have hgroup : ∀ {d}, d ∈ items → d ∈ ofSubgroup d.subgroup items := by
    intro d hd
    simp [ofSubgroup, hd]
  obtain ⟨c, tail, hexpand, hmem, hmax⟩ := exists_head_expandSubgroup hw
    (fun d hd ↦ hfinite d (hsub hd)) (fun d hd ↦ hmasks d (hsub hd))
    (List.ne_nil_of_mem (hgroup hd₀))
  obtain ⟨tail', heq⟩ := flatMap_eq_cons (f := fun s ↦ expandSubgroup cap adm w
    (((Dict.groupBy ActionDefinition.subgroup items).get? s.id).getD [])) hchosen
    (show _ = c :: tail by rw [Dict.getD_groupBy, subgroupSkeleton_id]; exact hexpand)
  refine ⟨c, tail', heq, isBest_of_toRat_le hfinite ?_ fun d hd ↦ ?_⟩
  · obtain ⟨d, hd, hcd⟩ := List.mem_map.mp hmem
    exact List.mem_map.mpr ⟨d, hsub hd, hcd⟩
  · -- through the skeleton of the subgroup of `d` and the skeleton that was chosen
    have hown := (@subgroupSkeleton_utility (ofSubgroup d.subgroup items) family d.subgroup
      (fun e he ↦ hfinite e (hsub he)) (List.ne_nil_of_mem (hgroup hd))).2 d (hgroup hd)
    have hchosen := hbest (subgroupSkeleton family d.subgroup (ofSubgroup d.subgroup items))
      (hperm.mem_iff.mpr (List.mem_map.mpr
        ⟨d.subgroup, List.mem_dedup.mpr (List.mem_map_of_mem hd), rfl⟩))
    obtain ⟨e, he, heq⟩ := List.mem_map.mp
      (@subgroupSkeleton_utility (ofSubgroup d₀.subgroup items) family d₀.subgroup
        (fun e he ↦ hfinite e (hsub he)) (List.ne_nil_of_mem (hgroup hd₀))).1
    exact (hown.trans hchosen).trans (heq ▸ hmax e he)

end Head

private theorem survivors_eq_nil_iff {policy : AuthorityPolicy} {adm : Admission}
    {definitions : List ActionDefinition} : survivors policy adm definitions = [] ↔
      ∀ d ∈ definitions, passesMasks policy adm d = false ∨ withinBounds adm d = false := by
  rw [survivors, List.filter_eq_nil_iff]
  simp only [Bool.not_eq_true, Bool.and_eq_false_iff]

/-- A compilation reports that nothing is safe exactly when every definition was masked or pruned;
otherwise every family with a survivor has a candidate, and its first one has the best net utility
of the family. -/
theorem no_family_starved (compiler : CandidateCompiler) (definitions : List ActionDefinition)
    (policy : AuthorityPolicy) (adm : Admission) (w : Widths)
    (hfinite : ∀ d ∈ definitions, HasFiniteValue d) (compilation : CandidateCompilation)
    (h : compiler.compileHierarchical definitions policy adm w = .ok compilation) :
    (compilation.noSafeAction = true ↔
      ∀ d ∈ definitions, passesMasks policy adm d = false ∨ withinBounds adm d = false) ∧
    ∀ family, ofFamily family (survivors policy adm definitions) ≠ [] →
      ∃ c rest, (compilation.candidates.filter fun c ↦ decide (c.family = family)) = c :: rest ∧
        IsBest (ofFamily family (survivors policy adm definitions)) c.optimisticUtility := by
  obtain ⟨-, -, r, hr, rfl⟩ := compileHierarchical_eq_ok.mp h
  have hfirst : ∀ family, ofFamily family (survivors policy adm definitions) ≠ [] →
      ∃ c rest, (r.1.filter fun c ↦ decide (c.family = family)) = c :: rest ∧
        IsBest (ofFamily family (survivors policy adm definitions)) c.optimisticUtility := by
    intro family hne
    have hkept : ∀ {d}, d ∈ ofFamily family (survivors policy adm definitions) →
        d ∈ survivors policy adm definitions := fun hd ↦ List.mem_of_mem_filter hd
    obtain hw | hnil := compileFamilies_ok_iff.mp ⟨r, hr⟩
    · obtain ⟨c, rest, hexpand, hbest⟩ := exists_head_expandFamily hw family
        (fun d hd ↦ hfinite d (List.mem_of_mem_filter (hkept hd)))
        (fun d hd ↦ (Bool.and_eq_true_iff.mp (List.mem_filter.mp (hkept hd)).2).1) hne
      obtain ⟨n, hn⟩ := Nat.exists_eq_add_of_le' compiler.positive
      rw [candidates_ofFamily compiler.positive hr, hexpand, hn, List.take_succ_cons]
      exact ⟨c, _, rfl, hbest⟩
    · rw [hnil] at hne
      exact absurd rfl hne
  refine ⟨?_, hfirst⟩
  change decide (r.1 = []) = true ↔ _
  rw [decide_eq_true_eq, ← survivors_eq_nil_iff]
  constructor
  · intro hnil
    by_contra hne
    obtain ⟨d, hd⟩ := List.exists_mem_of_ne_nil _ hne
    obtain ⟨c, rest, hcons, -⟩ := hfirst d.family
      (List.ne_nil_of_mem (List.mem_filter.mpr ⟨hd, decide_eq_true rfl⟩))
    rw [hnil] at hcons
    cases hcons
  · intro hnil
    rw [hnil] at hr
    cases hr
    rfl

/-- The catalog of two file operations keeps its family. -/
theorem no_family_starved_files : ∃ compilation c rest,
    CandidateCompiler.compileHierarchical ⟨8, by decide⟩ fileCatalog openPolicy openAdmission =
      .ok compilation ∧
    (compilation.candidates.filter fun c ↦ decide (c.family = .tool)) = c :: rest ∧
    IsBest (ofFamily .tool (survivors openPolicy openAdmission fileCatalog))
      c.optimisticUtility := by
  obtain ⟨r, hr⟩ := (@compileFamilies_ok_iff 8 openAdmission {}
    (survivors openPolicy openAdmission fileCatalog)).mpr (.inl (by decide))
  have h := (@compileHierarchical_eq_ok ⟨8, by decide⟩ fileCatalog openPolicy openAdmission {}
    _).mpr ⟨rfl, by decide, r, hr, rfl⟩
  obtain ⟨c, rest, hcons, hbest⟩ := (no_family_starved ⟨8, by decide⟩ fileCatalog openPolicy
    openAdmission {} finite_fileCatalog _ h).2 .tool (by decide)
  exact ⟨_, c, rest, h, hcons, hbest⟩

end C3RSpec.Candidates
