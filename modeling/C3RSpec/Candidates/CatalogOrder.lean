import C3RSpec.Candidates.Reference
import C3RSpec.Runtime.Cvoc

/-!
# The order of the catalog

`c3r/candidate_compiler.py:88–216` on two arrangements of one catalog with distinct ids. Each
dictionary then holds the same values up to the order inside a group, and every list that leaves a
group is sorted by a key that tells its elements apart.
-/

namespace C3RSpec.Candidates

open Base

section Loops

variable {cap : Nat} {adm : Admission} {w : Widths}

/-- Two arrangements of definitions with distinct ids and finite values. -/
structure Rearranged (items items' : List ActionDefinition) : Prop where
  perm : items.Perm items'
  ids : (items.map ActionDefinition.id).Nodup
  finite : ∀ d ∈ items, HasFiniteValue d

/-- A part of a catalog is rearranged with it. -/
theorem Rearranged.filter {items items' : List ActionDefinition} (h : Rearranged items items')
    (p : ActionDefinition → Bool) : Rearranged (items.filter p) (items'.filter p) where
  perm := h.perm.filter p
  ids := h.ids.sublist (List.filter_sublist.map _)
  finite d hd := h.finite d (List.mem_of_mem_filter hd)

private theorem definitionsById_eq_of_perm {items items' : List ActionDefinition}
    (h : Rearranged items items') (id : Text) :
    (definitionsById items).get? id = (definitionsById items').get? id := by
  have hentries : ∀ {ds : List ActionDefinition}, (ds.map ActionDefinition.id).Nodup →
      (definitionsById ds).entries = ds.map fun d ↦ (d.id, d) := by
    intro ds hds
    apply Dict.entries_ofList
    rw [List.map_map]
    exact hds
  apply Dict.get?_of_perm
  rw [hentries h.ids, hentries ((h.perm.map _).nodup_iff.mp h.ids)]
  exact h.perm.map _

private theorem operationLoop_congr {byId byId' : Dict Text ActionDefinition}
    (h : ∀ id, byId.get? id = byId'.get? id) (skeletons acc : List ActionCandidate) :
    operationLoop cap adm byId skeletons acc = operationLoop cap adm byId' skeletons acc := by
  induction skeletons generalizing acc with
  | nil => rfl
  | cons s rest ih =>
    rw [operationLoop, operationLoop, h]
    simp only [ih]

private theorem widen_operations_eq {items items' : List ActionDefinition}
    (h : Rearranged items items') (initialWidth maximumWidth : Int) (margin : PyFloat) :
    widenWhenMarginIsSmall (items.map operationSkeleton) initialWidth maximumWidth margin =
      widenWhenMarginIsSmall (items'.map operationSkeleton) initialWidth maximumWidth margin := by
  apply widen_eq_of_perm (h.perm.map _)
  · intro c hc
    obtain ⟨d, hd, rfl⟩ := List.mem_map.mp hc
    exact isFinite_netUtility (h.finite d hd)
  · rw [List.map_map]
    exact h.ids

private theorem subgroupLoop_congr {family : ActionFamily}
    {bySubgroup bySubgroup' : Dict Text (List ActionDefinition)}
    (h : ∀ s, Rearranged ((bySubgroup.get? s).getD []) ((bySubgroup'.get? s).getD []))
    (subgroups : List ActionCandidate) (st : List ActionCandidate × List ActionFamily) :
    subgroupLoop cap adm w family bySubgroup subgroups st =
      subgroupLoop cap adm w family bySubgroup' subgroups st := by
  induction subgroups generalizing st with
  | nil => rfl
  | cons s rest ih =>
    rw [subgroupLoop, subgroupLoop]
    simp only [List.length_map]
    rw [widen_operations_eq (h s.id), (h s.id).perm.length_eq]
    congr 1
    funext selected
    change (operationLoop cap adm (definitionsById _) selected st.1 >>= _) =
      (operationLoop cap adm (definitionsById _) selected st.1 >>= _)
    rw [operationLoop_congr (definitionsById_eq_of_perm (h s.id))]
    simp only [ih]

private theorem skeletons_eq_of_perm {items items' : List ActionDefinition}
    (h : Rearranged items items') (family : ActionFamily) :
    ((Dict.groupBy ActionDefinition.subgroup items).entries.map fun e ↦
      subgroupSkeleton family e.1 e.2).Perm
    ((Dict.groupBy ActionDefinition.subgroup items').entries.map fun e ↦
      subgroupSkeleton family e.1 e.2) := by
  apply (skeletons_perm family items).trans
  apply List.Perm.trans ?_ (skeletons_perm family items').symm
  have hskeleton : ∀ subgroup, subgroupSkeleton family subgroup (ofSubgroup subgroup items) =
      subgroupSkeleton family subgroup (ofSubgroup subgroup items') := fun subgroup ↦
    subgroupSkeleton_eq_of_perm (h.filter _).perm (h.filter _).finite
  simp only [hskeleton]
  exact (h.perm.map _).dedup.map _

/-- A family is compiled alike from both arrangements. -/
theorem compileFamily_eq_of_perm {items items' : List ActionDefinition}
    (h : Rearranged items items') (family : ActionFamily) (widened : List ActionFamily) :
    compileFamily cap adm w family items widened = compileFamily cap adm w family items' widened := by
  have hperm := skeletons_eq_of_perm h family
  have hreference := skeletons_perm family items
  have hwiden := widen_eq_of_perm hperm
    (fun c hc ↦ hasFiniteUtility_of_mem_skeletons h.finite (hreference.mem_iff.mp hc))
    ((hreference.map _).nodup_iff.mpr (nodup_ids_skeletons family items))
    w.initialWidth (boundedWidth cap w) w.wideningMargin
  have hlength := hperm.length_eq
  simp only [List.length_map] at hlength
  unfold compileFamily
  simp only [List.length_map, hlength, hwiden]
  congr 1
  funext selected
  apply subgroupLoop_congr
  intro s
  rw [Dict.getD_groupBy, Dict.getD_groupBy]
  exact h.filter _

private theorem familyLoop_congr {feasible feasible' : Dict ActionFamily (List ActionDefinition)}
    (h : ∀ family, Rearranged ((feasible.get? family).getD []) ((feasible'.get? family).getD []))
    (families : List ActionFamily) (st : List ActionCandidate × List ActionFamily) :
    familyLoop cap adm w feasible families st = familyLoop cap adm w feasible' families st := by
  induction families generalizing st with
  | nil => rfl
  | cons family rest ih =>
    rw [familyLoop, familyLoop, compileFamily_eq_of_perm (h family)]
    simp only [ih]

/-- All families are compiled alike from both arrangements. -/
theorem compileFamilies_eq_of_perm {kept kept' : List ActionDefinition}
    (h : Rearranged kept kept') :
    compileFamilies cap adm w kept = compileFamilies cap adm w kept' := by
  have hkeys : ∀ ds : List ActionDefinition, (Dict.groupBy ActionDefinition.family ds).keys.Nodup :=
    fun ds ↦ (Dict.groupBy ActionDefinition.family ds).nodup
  have hmem : ∀ family, family ∈ (Dict.groupBy ActionDefinition.family kept).keys ↔
      family ∈ (Dict.groupBy ActionDefinition.family kept').keys := by
    intro family
    rw [(Dict.keys_groupBy_perm _ kept).mem_iff, (Dict.keys_groupBy_perm _ kept').mem_iff,
      List.mem_dedup, List.mem_dedup, (h.perm.map _).mem_iff]
  rw [compileFamilies, compileFamilies, sortedFamilies_eq (hkeys kept),
    sortedFamilies_eq (hkeys kept')]
  simp only [hmem]
  apply familyLoop_congr
  intro family
  rw [Dict.getD_groupBy, Dict.getD_groupBy]
  exact h.filter _

end Loops

/-- Two arrangements of a catalog are compiled to the same candidates in the same order, with the
same report on safety and the same widened families, or refused with the same error; so the value
controller selects the same candidate. -/
theorem catalog_order_irrelevant [FloatRound] (compiler : CandidateCompiler)
    (definitions definitions' : List ActionDefinition) (policy : AuthorityPolicy)
    (adm : Admission) (w : Widths) (hperm : definitions.Perm definitions')
    (hids : (definitions.map ActionDefinition.id).Nodup)
    (hfinite : ∀ d ∈ definitions, HasFiniteValue d) :
    (compiler.compileHierarchical definitions policy adm w).map (fun compilation ↦
        (compilation.candidates, compilation.noSafeAction, compilation.widenedFamilies)) =
      (compiler.compileHierarchical definitions' policy adm w).map (fun compilation ↦
        (compilation.candidates, compilation.noSafeAction, compilation.widenedFamilies)) ∧
    ∀ compilation compilation',
      compiler.compileHierarchical definitions policy adm w = .ok compilation →
      compiler.compileHierarchical definitions' policy adm w = .ok compilation' →
      ∀ (cvoc : Runtime.RobustCvocController) (estimates : Dict Text ValueEstimate),
        (cvoc.select compilation.candidates estimates).selected =
          (cvoc.select compilation'.candidates estimates).selected := by
  have hkept : Rearranged (survivors policy adm definitions) (survivors policy adm definitions') :=
    (Rearranged.mk hperm hids hfinite).filter _
  have hfamilies : compileFamilies compiler.perFamilyCap adm w (survivors policy adm definitions) =
      compileFamilies compiler.perFamilyCap adm w (survivors policy adm definitions') :=
    compileFamilies_eq_of_perm hkept
  refine ⟨?_, ?_⟩
  · rw [compileHierarchical_eq, compileHierarchical_eq, hfamilies]
    split
    · rfl
    · split
      · rfl
      · cases compileFamilies compiler.perFamilyCap adm w (survivors policy adm definitions') <;>
          rfl
  · intro compilation compilation' h h' cvoc estimates
    obtain ⟨-, -, r, hr, rfl⟩ := compileHierarchical_eq_ok.mp h
    obtain ⟨-, -, r', hr', rfl⟩ := compileHierarchical_eq_ok.mp h'
    rw [hfamilies, hr'] at hr
    cases hr
    rfl

/-- The two arrangements of the file catalog. -/
theorem catalog_order_irrelevant_files :
    fileCatalog.Perm fileCatalog.reverse ∧
    (CandidateCompiler.compileHierarchical ⟨8, by decide⟩ fileCatalog openPolicy
      openAdmission).map (fun compilation ↦
        (compilation.candidates, compilation.noSafeAction, compilation.widenedFamilies)) =
    (CandidateCompiler.compileHierarchical ⟨8, by decide⟩ fileCatalog.reverse openPolicy
      openAdmission).map (fun compilation ↦
        (compilation.candidates, compilation.noSafeAction, compilation.widenedFamilies)) :=
  ⟨(List.reverse_perm _).symm, (@catalog_order_irrelevant .exact ⟨8, by decide⟩ fileCatalog
    fileCatalog.reverse openPolicy openAdmission {} (List.reverse_perm _).symm (by decide)
    finite_fileCatalog).1⟩

end C3RSpec.Candidates
