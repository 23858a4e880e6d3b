import C3RSpec.Candidates.Origin
import Mathlib.Data.List.Dedup

/-!
# A plain reference for the candidate compiler

`c3r/candidate_compiler.py:121–216` without its dictionaries, accumulators and breaks: families in
the order of their names, in each the selected subgroups, their selected operations, and for each
operation its argument variants, placements and allowed verifiers. The compiler returns the first
`per_family_cap` of each family.
-/

namespace C3RSpec.Candidates

open Base

/-- The families in the order of their names. -/
def familiesByName : List ActionFamily :=
  [.askUser, .deliberate, .directTypedAction, .frontierModel, .localModel, .retrieval, .stop,
    .tool, .verify]

/-- The definitions of a family. -/
def ofFamily (family : ActionFamily) (kept : List ActionDefinition) : List ActionDefinition :=
  kept.filter fun d ↦ decide (d.family = family)

/-- The definitions of a subgroup. -/
def ofSubgroup (subgroup : Text) (items : List ActionDefinition) : List ActionDefinition :=
  items.filter fun d ↦ decide (d.subgroup = subgroup)

section Reference

variable (cap : Nat) (adm : Admission) (w : Widths)

/-- The selected subgroups of a family, in widening order. -/
def selectedSubgroups (family : ActionFamily) (items : List ActionDefinition) : List Text :=
  (chosen cap w ((items.map ActionDefinition.subgroup).dedup.map fun subgroup ↦
    subgroupSkeleton family subgroup (ofSubgroup subgroup items))).map ActionCandidate.id

/-- The selected operations of a subgroup, in widening order. -/
def selectedOperations (items : List ActionDefinition) : List ActionDefinition :=
  (chosen cap w (items.map operationSkeleton)).filterMap fun skeleton ↦
    items.find? fun d ↦ decide (d.id = skeleton.id)

/-- Everything a family expands to. -/
def familyExpansion (family : ActionFamily) (items : List ActionDefinition) :
    List ActionCandidate :=
  (selectedSubgroups cap w family items).flatMap fun subgroup ↦
    (selectedOperations cap w (ofSubgroup subgroup items)).flatMap fun d ↦
      expandAll adm (operationSkeleton d) d

/-- The first `cap` expansions of every family. -/
def referenceCandidates (kept : List ActionDefinition) : List ActionCandidate :=
  familiesByName.flatMap fun family ↦
    (familyExpansion cap adm w family (ofFamily family kept)).take cap

end Reference

/-! ### Families -/

private theorem mem_familiesByName (family : ActionFamily) : family ∈ familiesByName := by
  cases family <;> decide

private theorem family_value_injective {a b : ActionFamily} (h : a.value = b.value) : a = b := by
  have hall : ∀ a ∈ familiesByName, ∀ b ∈ familiesByName, a.value = b.value → a = b := by decide
  exact hall a (mem_familiesByName a) b (mem_familiesByName b) h

private theorem pairwise_familiesByName :
    familiesByName.Pairwise fun a b ↦ a.value ≤ b.value := by
  decide

/-- The families that occur, in the order of their names. -/
theorem sortedFamilies_eq {families : List ActionFamily} (h : families.Nodup) :
    sortedFamilies families = familiesByName.filter fun family ↦ decide (family ∈ families) := by
  have hsort : sortedFamilies families = sortOn ActionFamily.value families := rfl
  have hnodup : familiesByName.Nodup := by decide
  rw [hsort]
  apply List.Perm.eq_of_pairwise ?_ (pairwise_sortOn _ _) (pairwise_familiesByName.filter _) ?_
  · intro a b _ _ hab hba
    exact family_value_injective (le_antisymm hab hba)
  · apply (sortOn_perm _ _).trans
    rw [List.perm_ext_iff_of_nodup h (hnodup.filter _)]
    intro family
    simp [mem_familiesByName]

/-! ### Subgroups and operations -/

section Expansion

variable {cap : Nat} {adm : Admission} {w : Widths}

@[simp] theorem chosen_nil : chosen cap w [] = [] := by
  unfold chosen widenWhenMarginIsSmall
  split <;> rfl

/-- What is chosen does not depend on the order, when ids are distinct and utilities finite. -/
theorem chosen_eq_of_perm {xs ys : List ActionCandidate} (hperm : xs.Perm ys)
    (hfinite : ∀ c ∈ xs, HasFiniteUtility c) (hids : (xs.map ActionCandidate.id).Nodup) :
    chosen cap w xs = chosen cap w ys := by
  rw [chosen, chosen, widen_eq_of_perm hperm hfinite hids]

private theorem find?_id_eq {items : List ActionDefinition} {d : ActionDefinition}
    (hids : (items.map ActionDefinition.id).Nodup) (hd : d ∈ items) :
    items.find? (fun e ↦ decide (e.id = d.id)) = some d := by
  cases hfind : items.find? fun e ↦ decide (e.id = d.id) with
  | none => exact absurd (List.find?_eq_none.mp hfind d hd) (by simp)
  | some e =>
    have hid := List.find?_some hfind
    rw [decide_eq_true_eq] at hid
    exact congrArg some (List.inj_on_of_nodup_map hids (List.mem_of_find?_eq_some hfind) hd hid)

/-- With distinct ids, the dictionary leads each skeleton back to its own definition. -/
theorem definitionsById_eq {items : List ActionDefinition} {d : ActionDefinition}
    (hids : (items.map ActionDefinition.id).Nodup) (hd : d ∈ items) :
    (definitionsById items).get? d.id = some d := by
  rw [definitionsById_get?]
  apply find?_id_eq
  · rw [List.map_reverse, List.nodup_reverse]
    exact hids
  · exact List.mem_reverse.mpr hd

/-- With distinct ids, a skeleton is expanded through its own definition. -/
theorem expandById_eq {items : List ActionDefinition} {d : ActionDefinition}
    (hids : (items.map ActionDefinition.id).Nodup) (hd : d ∈ items) :
    expandById adm (definitionsById items) (operationSkeleton d) =
      expandAll adm (operationSkeleton d) d := by
  have hget : (definitionsById items).get? (operationSkeleton d).id = some d :=
    definitionsById_eq hids hd
  rw [expandById, hget, Option.map_some, Option.getD_some]

private theorem expandSubgroup_eq {items : List ActionDefinition}
    (hids : (items.map ActionDefinition.id).Nodup) :
    expandSubgroup cap adm w items = (selectedOperations cap w items).flatMap fun d ↦
      expandAll adm (operationSkeleton d) d := by
  have hall : ∀ skeletons : List ActionCandidate,
      (∀ s ∈ skeletons, s ∈ items.map operationSkeleton) →
      skeletons.flatMap (expandById adm (definitionsById items)) =
        (skeletons.filterMap fun s ↦ items.find? fun d ↦ decide (d.id = s.id)).flatMap fun d ↦
          expandAll adm (operationSkeleton d) d := by
    intro skeletons
    induction skeletons with
    | nil => exact fun _ ↦ rfl
    | cons s rest ih =>
      intro hmem
      obtain ⟨d, hd, rfl⟩ := List.mem_map.mp (hmem s List.mem_cons_self)
      have hfind : items.find? (fun e ↦ decide (e.id = (operationSkeleton d).id)) = some d :=
        find?_id_eq hids hd
      simp only [List.filterMap_cons, hfind, List.flatMap_cons]
      rw [expandById_eq hids hd, ih fun t ht ↦ hmem t (List.mem_cons_of_mem _ ht)]
  exact hall _ fun s hs ↦ mem_chosen hs

/-- The dictionary of subgroups only arranges the subgroups. -/
theorem skeletons_perm (family : ActionFamily) (items : List ActionDefinition) :
    ((Dict.groupBy ActionDefinition.subgroup items).entries.map fun e ↦
      subgroupSkeleton family e.1 e.2).Perm
    ((items.map ActionDefinition.subgroup).dedup.map fun subgroup ↦
      subgroupSkeleton family subgroup (ofSubgroup subgroup items)) := by
  rw [Dict.entries_groupBy, List.map_map]
  exact (Dict.keys_groupBy_perm ActionDefinition.subgroup items).map _

/-- The skeletons of the subgroups are finite. -/
theorem hasFiniteUtility_of_mem_skeletons {family : ActionFamily} {items : List ActionDefinition}
    (hfinite : ∀ d ∈ items, HasFiniteValue d) {c : ActionCandidate}
    (hc : c ∈ (items.map ActionDefinition.subgroup).dedup.map fun subgroup ↦
      subgroupSkeleton family subgroup (ofSubgroup subgroup items)) : HasFiniteUtility c := by
  obtain ⟨subgroup, hs, rfl⟩ := List.mem_map.mp hc
  obtain ⟨d, hd, rfl⟩ := List.mem_map.mp (List.mem_dedup.mp hs)
  apply hasFiniteUtility_subgroupSkeleton
  · exact fun e he ↦ hfinite e (List.mem_of_mem_filter he)
  · apply List.ne_nil_of_mem (a := d)
    simp [ofSubgroup, hd]

/-- The skeletons of the subgroups have distinct ids. -/
theorem nodup_ids_skeletons (family : ActionFamily) (items : List ActionDefinition) :
    (((items.map ActionDefinition.subgroup).dedup.map fun subgroup ↦
      subgroupSkeleton family subgroup (ofSubgroup subgroup items)).map
        ActionCandidate.id).Nodup := by
  rw [List.map_map]
  have hid : (ActionCandidate.id ∘ fun subgroup ↦
      subgroupSkeleton family subgroup (ofSubgroup subgroup items)) = id := by
    funext subgroup
    exact subgroupSkeleton_id family subgroup _
  rw [hid, List.map_id]
  exact List.nodup_dedup _

private theorem expandFamily_eq {family : ActionFamily} {items : List ActionDefinition}
    (hids : (items.map ActionDefinition.id).Nodup) (hfinite : ∀ d ∈ items, HasFiniteValue d) :
    expandFamily cap adm w family items = familyExpansion cap adm w family items := by
  have hchosen : chosen cap w _ = chosen cap w _ :=
    chosen_eq_of_perm (skeletons_perm family items).symm
      (fun c ↦ hasFiniteUtility_of_mem_skeletons hfinite) (nodup_ids_skeletons family items)
  rw [expandFamily, familyExpansion, selectedSubgroups, hchosen, List.flatMap_map]
  congr 1
  funext s
  rw [Dict.getD_groupBy, expandSubgroup_eq]
  · rfl
  · exact hids.sublist (List.filter_sublist.map _)

/-! ### All families -/

private theorem flatMap_filter_eq {p : ActionFamily → Bool}
    {f : ActionFamily → List ActionCandidate} {families : List ActionFamily}
    (h : ∀ family, p family = false → f family = []) :
    (families.filter p).flatMap f = families.flatMap f := by
  induction families with
  | nil => rfl
  | cons family rest ih =>
    cases hp : p family with
    | true => rw [List.filter_cons_of_pos hp, List.flatMap_cons, List.flatMap_cons, ih]
    | false =>
      rw [List.filter_cons_of_neg (by simp [hp]), List.flatMap_cons, h family hp, List.nil_append,
        ih]

private theorem expandFamily_nil (family : ActionFamily) :
    expandFamily cap adm w family [] = [] := by
  change (chosen cap w []).flatMap _ = []
  rw [chosen_nil, List.flatMap_nil]

variable {kept : List ActionDefinition} {r : List ActionCandidate × List ActionFamily}

/-- The candidates, family by family in the order of the names. -/
theorem compileFamilies_byName (hcap : 1 ≤ cap) (h : compileFamilies cap adm w kept = .ok r) :
    r.1 = familiesByName.flatMap fun family ↦
      (expandFamily cap adm w family (ofFamily family kept)).take cap := by
  have hkeys : (Dict.groupBy ActionDefinition.family kept).keys.Nodup :=
    (Dict.groupBy ActionDefinition.family kept).nodup
  rw [compileFamilies_eq hcap h, sortedFamilies_eq hkeys]
  apply flatMap_filter_eq
  intro family hfamily
  rw [decide_eq_false_iff_not] at hfamily
  have hnil : (kept.filter fun d ↦ decide (d.family = family)) = [] := by
    rw [List.filter_eq_nil_iff]
    intro d hd hd'
    rw [decide_eq_true_eq] at hd'
    exact hfamily (hd' ▸ Dict.mem_keys_groupBy hd)
  rw [hnil, expandFamily_nil, List.take_nil]

private theorem family_of_mem_expandFamily {family : ActionFamily} {c : ActionCandidate}
    (h : c ∈ expandFamily cap adm w family (ofFamily family kept)) : c.family = family := by
  obtain ⟨d, -, hfamily, e, -, hc⟩ := exists_of_mem_expandFamily h
  obtain ⟨v, -, placement, -, verifier, -, rfl⟩ := mem_expandAll.mp hc
  exact hfamily

/-- The candidates of a family are the first expansions of its definitions. -/
theorem candidates_ofFamily (hcap : 1 ≤ cap) (h : compileFamilies cap adm w kept = .ok r)
    (family : ActionFamily) :
    (r.1.filter fun c ↦ decide (c.family = family)) =
      (expandFamily cap adm w family (ofFamily family kept)).take cap := by
  have hone : ∀ f : ActionFamily → List ActionCandidate,
      (familiesByName.flatMap fun x ↦ if x = family then f x else []) = f family := by
    intro f
    cases family <;> simp [familiesByName]
  rw [compileFamilies_byName hcap h, List.filter_flatMap]
  refine Eq.trans ?_ (hone fun family ↦
    (expandFamily cap adm w family (ofFamily family kept)).take cap)
  congr 1
  funext x
  split
  · next hx =>
    subst hx
    rw [List.filter_eq_self]
    intro c hc
    exact decide_eq_true (family_of_mem_expandFamily (List.mem_of_mem_take hc))
  · next hx =>
    rw [List.filter_eq_nil_iff]
    intro c hc hc'
    rw [decide_eq_true_eq] at hc'
    exact hx ((family_of_mem_expandFamily (List.mem_of_mem_take hc)).symm.trans hc')

/-- The families are compiled exactly when the widths are accepted or there is nothing to
compile. -/
theorem compileFamilies_ok_iff : (∃ r, compileFamilies cap adm w kept = .ok r) ↔
    AcceptsWidths w.initialWidth (boundedWidth cap w) ∨ kept = [] := by
  constructor
  · rintro ⟨r, hr⟩
    by_cases hw : AcceptsWidths w.initialWidth (boundedWidth cap w)
    · exact .inl hw
    · right
      by_contra hne
      obtain ⟨d, hd⟩ := List.exists_mem_of_ne_nil kept hne
      have hmem : d.family ∈ sortedFamilies (Dict.groupBy ActionDefinition.family kept).keys :=
        (List.mem_insertionSort _).mpr (Dict.mem_keys_groupBy hd)
      rw [compileFamilies] at hr
      obtain ⟨family, rest, hcons⟩ := List.exists_cons_of_ne_nil (List.ne_nil_of_mem hmem)
      rw [hcons, familyLoop, compileFamily, widenWhenMarginIsSmall, if_pos] at hr
      · cases hr
      · unfold AcceptsWidths at hw
        omega
  · rintro (hw | rfl)
    · exact familyLoop_ok hw _ _ _
    · exact ⟨_, rfl⟩

end Expansion

/-- The compiler computes the plain reference: it returns exactly when its numbers are accepted,
and then the candidates are the first expansions of each family, the masked and the pruned ids are
those of the definitions that fail, in the order of the input, and no family has more than its
share. -/
theorem compileHierarchical_eq_reference (compiler : CandidateCompiler)
    (definitions : List ActionDefinition) (policy : AuthorityPolicy) (adm : Admission)
    (w : Widths) (hids : (definitions.map ActionDefinition.id).Nodup)
    (hfinite : ∀ d ∈ definitions, HasFiniteValue d)
    (hbudget : PyFloat.lt adm.remainingBudget (.fin 0) = false) :
    ((∃ compilation, compiler.compileHierarchical definitions policy adm w = .ok compilation) ↔
      1 ≤ w.initialWidth ∧ (w.initialWidth ≤ boundedWidth compiler.perFamilyCap w ∨
        survivors policy adm definitions = [])) ∧
    ∀ compilation, compiler.compileHierarchical definitions policy adm w = .ok compilation →
      compilation.candidates =
        referenceCandidates compiler.perFamilyCap adm w (survivors policy adm definitions) ∧
      compilation.maskedIds =
        (definitions.filter fun d ↦ !passesMasks policy adm d).map ActionDefinition.id ∧
      compilation.prunedIds =
        (definitions.filter fun d ↦ passesMasks policy adm d && !withinBounds adm d).map
          ActionDefinition.id ∧
      ∀ family, (compilation.candidates.filter fun c ↦ decide (c.family = family)).length ≤
        compiler.perFamilyCap := by
  refine ⟨?_, ?_⟩
  · constructor
    · rintro ⟨compilation, h⟩
      obtain ⟨-, hwidth, r, hr, -⟩ := compileHierarchical_eq_ok.mp h
      refine ⟨hwidth, ?_⟩
      obtain hw | hnil := compileFamilies_ok_iff.mp ⟨r, hr⟩
      · exact .inl hw.2
      · exact .inr hnil
    · rintro ⟨hwidth, hw⟩
      obtain ⟨r, hr⟩ := compileFamilies_ok_iff.mpr
        (hw.imp (fun hle ↦ (⟨hwidth, hle⟩ : AcceptsWidths _ _)) id)
      exact ⟨_, compileHierarchical_eq_ok.mpr ⟨hbudget, hwidth, r, hr, rfl⟩⟩
  · intro compilation h
    obtain ⟨-, -, r, hr, rfl⟩ := compileHierarchical_eq_ok.mp h
    refine ⟨?_, rfl, rfl, fun family ↦ ?_⟩
    · change r.1 = _
      rw [compileFamilies_byName compiler.positive hr, referenceCandidates]
      congr 1
      funext family
      rw [expandFamily_eq]
      · exact hids.sublist ((List.filter_sublist.trans List.filter_sublist).map _)
      · exact fun d hd ↦ hfinite d (List.mem_of_mem_filter (List.mem_of_mem_filter hd))
    · change (r.1.filter fun c ↦ decide (c.family = family)).length ≤ _
      rw [candidates_ofFamily compiler.positive hr]
      exact List.length_take_le _ _

/-- A catalog of two operations on files with distinct ids. -/
def fileCatalog : List ActionDefinition :=
  [readFiles, { wipeFiles with id := Text.ofString "wipe" }]

/-- Its values are finite. -/
theorem finite_fileCatalog : ∀ d ∈ fileCatalog, HasFiniteValue d := by
  intro d hd
  simp only [fileCatalog, List.mem_cons, List.not_mem_nil, or_false] at hd
  obtain rfl | rfl := hd
  · exact ⟨rfl, rfl⟩
  · exact ⟨rfl, rfl⟩

/-- The catalog is compiled as the reference says. -/
theorem compileHierarchical_eq_reference_files : ∃ compilation,
    CandidateCompiler.compileHierarchical ⟨8, by decide⟩ fileCatalog openPolicy openAdmission =
      .ok compilation ∧
    compilation.candidates =
      referenceCandidates 8 openAdmission {} (survivors openPolicy openAdmission fileCatalog) := by
  obtain ⟨hok, heq⟩ := compileHierarchical_eq_reference ⟨8, by decide⟩ fileCatalog openPolicy
    openAdmission {} (by decide) finite_fileCatalog rfl
  obtain ⟨compilation, h⟩ := hok.mpr ⟨by decide, .inl (by decide)⟩
  exact ⟨compilation, h, (heq compilation h).1⟩

end C3RSpec.Candidates
