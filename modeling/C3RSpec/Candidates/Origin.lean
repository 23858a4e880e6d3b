import C3RSpec.Candidates.Ranking
import Mathlib.Algebra.Order.BigOperators.Group.List
import Mathlib.Data.List.Perm.Basic

/-!
# Where a compiled candidate comes from

`c3r/candidate_compiler.py:145–197`. The unbounded expansion of a family, of which the compiler
returns a prefix, and from it the definitions behind each candidate: a surviving definition `d`
for the skeleton, and the last surviving definition of the same family, subgroup and id for
everything else. The two need not be the same definition.
-/

namespace C3RSpec.Candidates

open Base

/-- Every expansion of an operation, without a cap. -/
def expandAll (adm : Admission) (skeleton : ActionCandidate) (d : ActionDefinition) :
    List ActionCandidate :=
  (variants d).zipIdx.flatMap fun v ↦ (placements d).flatMap fun placement ↦
    (verifiers adm d).flatMap fun verifier ↦ [expansion skeleton d v.2 v.1 placement verifier]

/-- The expansions of a skeleton through the dictionary of its subgroup. -/
def expandById (adm : Admission) (byId : Dict Text ActionDefinition) (skeleton : ActionCandidate) :
    List ActionCandidate :=
  ((byId.get? skeleton.id).map (expandAll adm skeleton)).getD []

/-- `definitions_by_id` of a list of definitions. -/
def definitionsById (items : List ActionDefinition) : Dict Text ActionDefinition :=
  Dict.ofList (items.map fun d ↦ (d.id, d))

/-- What widening selects from a list, nothing when it raises. -/
def chosen (cap : Nat) (w : Widths) (skeletons : List ActionCandidate) : List ActionCandidate :=
  (widenWhenMarginIsSmall skeletons w.initialWidth (boundedWidth cap w)
    w.wideningMargin).toOption.getD []

/-- Every expansion of a subgroup. -/
def expandSubgroup (cap : Nat) (adm : Admission) (w : Widths) (items : List ActionDefinition) :
    List ActionCandidate :=
  (chosen cap w (items.map operationSkeleton)).flatMap (expandById adm (definitionsById items))

/-- Every expansion of a family. -/
def expandFamily (cap : Nat) (adm : Admission) (w : Widths) (family : ActionFamily)
    (items : List ActionDefinition) : List ActionCandidate :=
  let bySubgroup := Dict.groupBy ActionDefinition.subgroup items
  (chosen cap w (bySubgroup.entries.map fun e ↦ subgroupSkeleton family e.1 e.2)).flatMap
    fun s ↦ expandSubgroup cap adm w ((bySubgroup.get? s.id).getD [])

section Prefix

variable {cap : Nat} {adm : Admission} {w : Widths}

private theorem expandOperation_eq {acc : List ActionCandidate} (hacc : acc.length < cap)
    (skeleton : ActionCandidate) (d : ActionDefinition) :
    expandOperation cap adm acc skeleton d = (acc ++ expandAll adm skeleton d).take cap :=
  forBreak_eq_take (fillsUpTo_forBreak fun _ ↦ fillsUpTo_forBreak fun _ ↦
    fillsUpTo_singleton cap _) _ acc hacc

private theorem chosen_eq {skeletons selected : List ActionCandidate}
    (h : widenWhenMarginIsSmall skeletons w.initialWidth (boundedWidth cap w)
      w.wideningMargin = .ok selected) : chosen cap w skeletons = selected := by
  rw [chosen, h]
  rfl

private theorem take_take_append {xs ys : List ActionCandidate} (h : cap ≤ xs.length) :
    xs.take cap = (xs ++ ys).take cap := by
  rw [List.take_append_of_le_length h]

/-- The operation loop returns a prefix of the expansions of its skeletons. -/
theorem operationLoop_eq {byId : Dict Text ActionDefinition}
    {skeletons acc result : List ActionCandidate} (hacc : acc.length < cap)
    (h : operationLoop cap adm byId skeletons acc = .ok result) :
    result = (acc ++ skeletons.flatMap (expandById adm byId)).take cap := by
  induction skeletons generalizing acc with
  | nil =>
    cases h
    rw [List.flatMap_nil, List.append_nil, List.take_of_length_le hacc.le]
  | cons skeleton rest ih =>
    rw [operationLoop] at h
    split at h
    · cases h
    · next d hd =>
      have hexp : expandById adm byId skeleton = expandAll adm skeleton d := by
        rw [expandById, hd]
        rfl
      have heq := @expandOperation_eq cap adm acc hacc skeleton d
      rw [List.flatMap_cons, hexp, ← List.append_assoc]
      split at h
      · next hfull =>
        cases h
        rw [heq, List.length_take] at hfull
        rw [heq]
        exact take_take_append (by omega)
      · next hfull =>
        rw [heq, List.length_take] at hfull
        rw [heq, List.take_of_length_le (by omega)] at h
        exact ih (by omega) h

/-- The subgroup loop returns a prefix of the expansions of its subgroups. -/
theorem subgroupLoop_eq {family : ActionFamily} {bySubgroup : Dict Text (List ActionDefinition)}
    {subgroups acc : List ActionCandidate} {widened : List ActionFamily}
    {result : List ActionCandidate × List ActionFamily} (hacc : acc.length < cap)
    (h : subgroupLoop cap adm w family bySubgroup subgroups (acc, widened) = .ok result) :
    result.1 = (acc ++ subgroups.flatMap fun s ↦
      expandSubgroup cap adm w ((bySubgroup.get? s.id).getD [])).take cap := by
  induction subgroups generalizing acc widened with
  | nil =>
    cases h
    rw [List.flatMap_nil, List.append_nil, List.take_of_length_le hacc.le]
  | cons subgroup rest ih =>
    rw [subgroupLoop] at h
    obtain ⟨selected, hsel, h⟩ := bind_eq_ok.mp h
    obtain ⟨acc', hop, h⟩ := bind_eq_ok.mp h
    have hacc' := operationLoop_eq hacc hop
    have hexp : expandSubgroup cap adm w ((bySubgroup.get? subgroup.id).getD []) =
        selected.flatMap (expandById adm
          (definitionsById ((bySubgroup.get? subgroup.id).getD []))) := by
      rw [expandSubgroup, chosen_eq hsel]
    rw [List.flatMap_cons, hexp, ← List.append_assoc]
    change acc' = (acc ++ selected.flatMap (expandById adm
      (definitionsById ((bySubgroup.get? subgroup.id).getD [])))).take cap at hacc'
    split at h
    · next hfull =>
      cases h
      rw [hacc', List.length_take] at hfull
      rw [hacc']
      exact take_take_append (by omega)
    · next hfull =>
      rw [hacc', List.length_take] at hfull
      rw [List.take_of_length_le (by omega)] at hacc'
      subst hacc'
      exact ih (by omega) h

/-- The candidates of a family are a prefix of its expansions. -/
theorem compileFamily_eq (hcap : 1 ≤ cap) {family : ActionFamily} {items : List ActionDefinition}
    {widened : List ActionFamily} {result : List ActionCandidate × List ActionFamily}
    (h : compileFamily cap adm w family items widened = .ok result) :
    result.1 = (expandFamily cap adm w family items).take cap := by
  unfold compileFamily at h
  obtain ⟨selected, hsel, h⟩ := bind_eq_ok.mp h
  rw [subgroupLoop_eq (by rw [List.length_nil]; omega) h, List.nil_append, expandFamily, chosen_eq hsel]

/-- The candidates of all families, one after the other. -/
theorem familyLoop_eq (hcap : 1 ≤ cap) {feasible : Dict ActionFamily (List ActionDefinition)}
    {families : List ActionFamily} {compiled : List ActionCandidate} {widened : List ActionFamily}
    {result : List ActionCandidate × List ActionFamily}
    (h : familyLoop cap adm w feasible families (compiled, widened) = .ok result) :
    result.1 = compiled ++ families.flatMap fun family ↦
      (expandFamily cap adm w family ((feasible.get? family).getD [])).take cap := by
  induction families generalizing compiled widened with
  | nil =>
    cases h
    rw [List.flatMap_nil, List.append_nil]
  | cons family rest ih =>
    rw [familyLoop] at h
    obtain ⟨r, hr, h⟩ := bind_eq_ok.mp h
    rw [ih h, compileFamily_eq hcap hr, List.flatMap_cons, List.append_assoc]

end Prefix

/-! ### Soundness of the prefix -/

/-- The surviving definitions of a subgroup. -/
def peers (kept : List ActionDefinition) (d : ActionDefinition) : List ActionDefinition :=
  (kept.filter fun e ↦ decide (e.family = d.family)).filter fun e ↦
    decide (e.subgroup = d.subgroup)

/-- The definition that `definitions_by_id` holds for `d`: the last survivor of its family,
subgroup and id. -/
def resolve (kept : List ActionDefinition) (d : ActionDefinition) : Option ActionDefinition :=
  (peers kept d).reverse.find? fun e ↦ decide (e.id = d.id)

/-- The dictionary holds the last definition of an id. -/
theorem definitionsById_get? (items : List ActionDefinition) (id : Text) :
    (definitionsById items).get? id = items.reverse.find? fun e ↦ decide (e.id = id) := by
  rw [definitionsById, Dict.get?_ofList, ← List.map_reverse, List.find?_map, Option.map_map]
  exact congrFun Option.map_id _

section Soundness

variable {cap : Nat} {adm : Admission} {w : Widths} {kept : List ActionDefinition}

/-- Whatever is chosen was offered. -/
theorem mem_chosen {skeletons : List ActionCandidate} {c : ActionCandidate}
    (h : c ∈ chosen cap w skeletons) : c ∈ skeletons := by
  unfold chosen at h
  cases hw : widenWhenMarginIsSmall skeletons w.initialWidth (boundedWidth cap w)
      w.wideningMargin with
  | error e =>
    rw [hw] at h
    cases h
  | ok selected =>
    rw [hw] at h
    exact mem_of_mem_widen hw h

@[simp] theorem subgroupSkeleton_id (family : ActionFamily) (subgroup : Text)
    (items : List ActionDefinition) : (subgroupSkeleton family subgroup items).id = subgroup := by
  cases items <;> rfl

/-- An expansion of a family pairs a survivor with the definition its id resolves to. -/
theorem exists_of_mem_expandFamily {family : ActionFamily} {c : ActionCandidate}
    (h : c ∈ expandFamily cap adm w family
      (kept.filter fun e ↦ decide (e.family = family))) :
    ∃ d ∈ kept, d.family = family ∧ ∃ e, resolve kept d = some e ∧
      c ∈ expandAll adm (operationSkeleton d) e := by
  unfold expandFamily at h
  obtain ⟨s, hs, hc⟩ := List.mem_flatMap.mp h
  obtain ⟨entry, hentry, rfl⟩ := List.mem_map.mp (mem_chosen hs)
  rw [subgroupSkeleton_id, (Dict.get?_eq_some_iff _ _ _).mpr hentry, Option.getD_some] at hc
  obtain ⟨hgroup, -⟩ := Dict.mem_entries_groupBy hentry
  unfold expandSubgroup at hc
  obtain ⟨skeleton, hskeleton, hc⟩ := List.mem_flatMap.mp hc
  obtain ⟨d, hd, rfl⟩ := List.mem_map.mp (mem_chosen hskeleton)
  have hd' := hd
  rw [hgroup, List.mem_filter, List.mem_filter, decide_eq_true_eq, decide_eq_true_eq] at hd'
  obtain ⟨⟨hkept, rfl⟩, hsub⟩ := hd'
  have hpeers : entry.2 = peers kept d := by rw [hgroup, peers, hsub]
  rw [expandById, definitionsById_get?, hpeers] at hc
  change c ∈ ((resolve kept d).map (expandAll adm (operationSkeleton d))).getD [] at hc
  cases hr : resolve kept d with
  | none =>
    rw [hr] at hc
    cases hc
  | some e =>
    rw [hr] at hc
    exact ⟨d, hkept, rfl, e, hr, hc⟩

/-- What an expansion is made of. -/
theorem mem_expandAll {skeleton c : ActionCandidate} {e : ActionDefinition} :
    c ∈ expandAll adm skeleton e ↔ ∃ v ∈ (variants e).zipIdx, ∃ placement ∈ placements e,
      ∃ verifier ∈ verifiers adm e, c = expansion skeleton e v.2 v.1 placement verifier := by
  simp only [expandAll, List.mem_flatMap, List.mem_singleton]

end Soundness

/-! ### Completeness of a wide compilation -/

section Completeness

variable {adm : Admission} {kept : List ActionDefinition}

/-- Widths that cover every list of at most `n` skeletons. -/
def wide (n : Nat) : Widths := { initialWidth := n }

private theorem chosen_wide {n : Nat} (hpos : 1 ≤ n) {skeletons : List ActionCandidate}
    (h : skeletons.length ≤ n) : (chosen n (wide n) skeletons).Perm skeletons := by
  obtain ⟨selected, hsel, hperm⟩ := widen_all hpos h (wide n).wideningMargin
  rw [chosen_eq hsel]
  exact hperm

/-- Every expansion of a family when nothing is left out by widening. -/
def expandWide (adm : Admission) (family : ActionFamily) (items : List ActionDefinition) :
    List ActionCandidate :=
  let bySubgroup := Dict.groupBy ActionDefinition.subgroup items
  (bySubgroup.entries.map fun e ↦ subgroupSkeleton family e.1 e.2).flatMap fun s ↦
    (((bySubgroup.get? s.id).getD []).map operationSkeleton).flatMap
      (expandById adm (definitionsById ((bySubgroup.get? s.id).getD [])))

private theorem length_group_le {items : List ActionDefinition} (k : Text) :
    (((Dict.groupBy ActionDefinition.subgroup items).get? k).getD []).length ≤ items.length := by
  rw [Dict.get?_groupBy]
  split
  · exact Nat.zero_le _
  · exact List.length_filter_le _ _

private theorem length_entries_le (items : List ActionDefinition) :
    (Dict.groupBy ActionDefinition.subgroup items).entries.length ≤ items.length := by
  have hsub : (Dict.groupBy ActionDefinition.subgroup items).keys ⊆
      items.map ActionDefinition.subgroup := by
    intro k hk
    obtain ⟨entry, hentry, rfl⟩ := List.mem_map.mp hk
    obtain ⟨hgroup, hne⟩ := Dict.mem_entries_groupBy hentry
    obtain ⟨d, hd⟩ := List.exists_mem_of_ne_nil _ hne
    rw [hgroup, List.mem_filter, decide_eq_true_eq] at hd
    exact List.mem_map.mpr ⟨d, hd.1, hd.2⟩
  have hle := ((Dict.groupBy ActionDefinition.subgroup items).nodup.subperm hsub).length_le
  simpa using hle

/-- Wide enough, a family is expanded completely. -/
theorem expandFamily_wide {n : Nat} {family : ActionFamily} {items : List ActionDefinition}
    (hpos : 1 ≤ n) (h : items.length ≤ n) :
    (expandFamily n adm (wide n) family items).Perm (expandWide adm family items) := by
  unfold expandFamily expandWide
  refine List.Perm.flatMap (chosen_wide hpos ?_) fun s _ ↦ ?_
  · rw [List.length_map]
    exact Nat.le_trans (length_entries_le items) h
  · unfold expandSubgroup
    refine (chosen_wide hpos ?_).flatMap_right _
    rw [List.length_map]
    exact Nat.le_trans (length_group_le s.id) h

/-- Each survivor is expanded through the definition its id resolves to. -/
theorem mem_expandWide {d e : ActionDefinition} (hd : d ∈ kept) (hr : resolve kept d = some e)
    {c : ActionCandidate} (hc : c ∈ expandAll adm (operationSkeleton d) e) :
    c ∈ expandWide adm d.family (kept.filter fun e ↦ decide (e.family = d.family)) := by
  have hfamily : d ∈ kept.filter fun e ↦ decide (e.family = d.family) := by simp [hd]
  have hgroup : (Dict.groupBy ActionDefinition.subgroup
      (kept.filter fun e ↦ decide (e.family = d.family))).get? d.subgroup =
        some (peers kept d) := by
    rw [Dict.get?_groupBy, if_neg]
    · rfl
    · intro hnil
      have : d ∈ (kept.filter fun e ↦ decide (e.family = d.family)).filter fun e ↦
          decide (e.subgroup = d.subgroup) := by simp [hd]
      rw [hnil] at this
      cases this
  have hpeer : d ∈ peers kept d := by simp [peers, hd]
  refine List.mem_flatMap.mpr ⟨subgroupSkeleton d.family d.subgroup (peers kept d),
    List.mem_map.mpr ⟨(d.subgroup, peers kept d), (Dict.get?_eq_some_iff _ _ _).mp hgroup, rfl⟩, ?_⟩
  rw [subgroupSkeleton_id, hgroup, Option.getD_some]
  refine List.mem_flatMap.mpr ⟨operationSkeleton d, List.mem_map.mpr ⟨d, hpeer, rfl⟩, ?_⟩
  rw [expandById, definitionsById_get?]
  change c ∈ ((resolve kept d).map (expandAll adm (operationSkeleton d))).getD []
  rw [hr]
  exact hc

private theorem operationLoop_ok {cap : Nat} {byId : Dict Text ActionDefinition}
    {skeletons : List ActionCandidate}
    (h : ∀ s ∈ skeletons, ∃ d, byId.get? s.id = some d) (acc : List ActionCandidate) :
    ∃ r, operationLoop cap adm byId skeletons acc = .ok r := by
  induction skeletons generalizing acc with
  | nil => exact ⟨acc, rfl⟩
  | cons s rest ih =>
    obtain ⟨d, hd⟩ := h s List.mem_cons_self
    rw [operationLoop, hd]
    simp only
    split
    · exact ⟨_, rfl⟩
    · exact ih (fun t ht ↦ h t (List.mem_cons_of_mem s ht)) _

/-- Every skeleton has an entry in the dictionary of its subgroup. -/
theorem exists_definitionsById {items : List ActionDefinition} {s : ActionCandidate}
    (h : s ∈ items.map operationSkeleton) : ∃ d, (definitionsById items).get? s.id = some d := by
  obtain ⟨d, hd, rfl⟩ := List.mem_map.mp h
  rw [definitionsById_get?]
  cases hf : items.reverse.find? fun e ↦ decide (e.id = (operationSkeleton d).id) with
  | some e => exact ⟨e, rfl⟩
  | none => exact absurd (List.find?_eq_none.mp hf d (List.mem_reverse.mpr hd)) (by
      simp [operationSkeleton])

private theorem subgroupLoop_ok {cap : Nat} {w : Widths}
    (hw : AcceptsWidths w.initialWidth (boundedWidth cap w)) (family : ActionFamily)
    (bySubgroup : Dict Text (List ActionDefinition)) (subgroups : List ActionCandidate)
    (st : List ActionCandidate × List ActionFamily) :
    ∃ r, subgroupLoop cap adm w family bySubgroup subgroups st = .ok r := by
  induction subgroups generalizing st with
  | nil => exact ⟨st, rfl⟩
  | cons s rest ih =>
    obtain ⟨selected, hsel, -⟩ := exists_widen hw
      (((bySubgroup.get? s.id).getD []).map operationSkeleton) w.wideningMargin
    obtain ⟨acc, hacc⟩ := operationLoop_ok
      (fun t ht ↦ exists_definitionsById (mem_of_mem_widen hsel ht)) st.1
    rw [subgroupLoop]
    refine exists_bind_ok hsel (exists_bind_ok hacc ?_)
    split
    · exact ⟨_, rfl⟩
    · exact ih _

/-- Accepted widths let every family be compiled. -/
theorem familyLoop_ok {cap : Nat} {w : Widths}
    (hw : AcceptsWidths w.initialWidth (boundedWidth cap w))
    (feasible : Dict ActionFamily (List ActionDefinition)) (families : List ActionFamily)
    (st : List ActionCandidate × List ActionFamily) :
    ∃ r, familyLoop cap adm w feasible families st = .ok r := by
  induction families generalizing st with
  | nil => exact ⟨st, rfl⟩
  | cons family rest ih =>
    obtain ⟨selected, hsel, -⟩ := exists_widen hw
      ((Dict.groupBy ActionDefinition.subgroup ((feasible.get? family).getD [])).entries.map
        fun e ↦ subgroupSkeleton family e.1 e.2) w.wideningMargin
    obtain ⟨r, hr⟩ : ∃ r, compileFamily cap adm w family ((feasible.get? family).getD [])
        st.2 = .ok r := by
      unfold compileFamily
      exact exists_bind_ok hsel (subgroupLoop_ok hw family _ selected _)
    rw [familyLoop]
    exact exists_bind_ok hr (ih _)

private theorem acceptsWidths_wide {n : Nat} (hpos : 1 ≤ n) :
    AcceptsWidths (wide n).initialWidth (boundedWidth n (wide n)) := by
  simp only [AcceptsWidths, wide, boundedWidth]
  omega

end Completeness

/-! ### One source for every candidate -/

/-- Everything the candidate carries comes from `d`: family, risk, net utility, subgroup,
operation, one placement, one argument variant and one allowed verifier. -/
def OriginatesFrom (adm : Admission) (c : ActionCandidate) (d : ActionDefinition) : Prop :=
  c.family = d.family ∧ c.riskClass = d.riskClass ∧ c.optimisticUtility = netUtility d ∧
    ∃ placement ∈ placements d, ∃ arguments ∈ variants d, ∃ verifier ∈ verifiers adm d,
      c.requestedVerifier = some verifier ∧ c.payload = expansionPayload d placement arguments

/-- Every candidate of every compilation of these definitions has one surviving source. -/
def SingleSource (definitions : List ActionDefinition) (policy : AuthorityPolicy)
    (adm : Admission) : Prop :=
  ∀ (compiler : CandidateCompiler) (w : Widths) (compilation : CandidateCompilation),
    compiler.compileHierarchical definitions policy adm w = .ok compilation →
    ∀ c ∈ compilation.candidates,
      ∃ d ∈ survivors policy adm definitions, OriginatesFrom adm c d

/-- Whatever the definition that `d`'s id resolves to offers, some survivor with `d`'s family,
subgroup, risk class and net utility offers too. -/
def RepeatsAgree (adm : Admission) (kept : List ActionDefinition) : Prop :=
  ∀ d ∈ kept, ∀ e, resolve kept d = some e → ∀ placement ∈ placements e,
    ∀ arguments ∈ variants e, ∀ verifier ∈ verifiers adm e, ∃ d' ∈ kept,
      d'.family = d.family ∧ d'.subgroup = d.subgroup ∧ d'.riskClass = d.riskClass ∧
      netUtility d' = netUtility d ∧ d'.operation = e.operation ∧ placement ∈ placements d' ∧
      arguments ∈ variants d' ∧ verifier ∈ verifiers adm d'

/-- The resolved definition is a peer. -/
theorem resolve_eq_some {kept : List ActionDefinition} {d e : ActionDefinition}
    (h : resolve kept d = some e) :
    e ∈ kept ∧ e.family = d.family ∧ e.subgroup = d.subgroup ∧ e.id = d.id := by
  have hm := List.mem_of_find?_eq_some h
  have hid := List.find?_some h
  rw [decide_eq_true_eq] at hid
  rw [List.mem_reverse, peers, List.mem_filter, List.mem_filter, decide_eq_true_eq,
    decide_eq_true_eq] at hm
  exact ⟨hm.1.1, hm.1.2, hm.2, hid⟩

/-- The candidates are a prefix of the expansions of each family, in the order of the families. -/
theorem compileFamilies_eq {cap : Nat} (hcap : 1 ≤ cap) {adm : Admission} {w : Widths}
    {kept : List ActionDefinition} {r : List ActionCandidate × List ActionFamily}
    (h : compileFamilies cap adm w kept = .ok r) :
    r.1 = (sortedFamilies (Dict.groupBy ActionDefinition.family kept).keys).flatMap fun family ↦
      (expandFamily cap adm w family (kept.filter fun d ↦ decide (d.family = family))).take cap := by
  rw [familyLoop_eq hcap h, List.nil_append]
  congr 1
  funext family
  rw [Dict.getD_groupBy]

/-- The candidates of a compilation pair survivors with what their ids resolve to. -/
theorem exists_of_mem_candidates {compiler : CandidateCompiler}
    {definitions : List ActionDefinition} {policy : AuthorityPolicy} {adm : Admission}
    {w : Widths} {compilation : CandidateCompilation}
    (h : compiler.compileHierarchical definitions policy adm w = .ok compilation)
    {c : ActionCandidate} (hc : c ∈ compilation.candidates) :
    ∃ d ∈ survivors policy adm definitions, ∃ e,
      resolve (survivors policy adm definitions) d = some e ∧
      c ∈ expandAll adm (operationSkeleton d) e := by
  obtain ⟨-, -, r, hr, rfl⟩ := compileHierarchical_eq_ok.mp h
  change c ∈ r.1 at hc
  rw [compileFamilies_eq compiler.positive hr] at hc
  obtain ⟨family, -, hc⟩ := List.mem_flatMap.mp hc
  obtain ⟨d, hd, -, e, he, hc⟩ := exists_of_mem_expandFamily (List.mem_of_mem_take hc)
  exact ⟨d, hd, e, he, hc⟩

/-- Some compilation is wide enough for every pairing of a survivor with what its id resolves
to. -/
theorem exists_compilation {definitions : List ActionDefinition} {policy : AuthorityPolicy}
    {adm : Admission} (hbudget : PyFloat.lt adm.remainingBudget (.fin 0) = false) :
    ∃ compiler w compilation,
      CandidateCompiler.compileHierarchical compiler definitions policy adm w = .ok compilation ∧
      ∀ d ∈ survivors policy adm definitions, ∀ e,
        resolve (survivors policy adm definitions) d = some e →
        ∀ c ∈ expandAll adm (operationSkeleton d) e, c ∈ compilation.candidates := by
  set kept := survivors policy adm definitions with hkept
  let items (family : ActionFamily) := kept.filter fun e ↦ decide (e.family = family)
  let sizes := kept.map fun d ↦ (expandWide adm d.family (items d.family)).length
  let n := 1 + kept.length + sizes.sum
  have hpos : 1 ≤ n := by omega
  obtain ⟨r, hr⟩ := @familyLoop_ok adm n _ (acceptsWidths_wide hpos)
    (Dict.groupBy ActionDefinition.family kept)
    (sortedFamilies (Dict.groupBy ActionDefinition.family kept).keys) ([], [])
  refine ⟨⟨n, hpos⟩, wide n, _,
    compileHierarchical_eq_ok.mpr ⟨hbudget, (acceptsWidths_wide hpos).1, r, hr, rfl⟩, ?_⟩
  intro d hd e he c hc
  change c ∈ r.1
  rw [compileFamilies_eq hpos hr]
  have hfamily : d.family ∈ sortedFamilies (Dict.groupBy ActionDefinition.family kept).keys :=
    (List.mem_insertionSort _).mpr (Dict.mem_keys_groupBy hd)
  have hlength : (items d.family).length ≤ n := by
    have hle : (items d.family).length ≤ kept.length := List.length_filter_le _ kept
    omega
  have hperm := @expandFamily_wide adm n d.family (items d.family) hpos hlength
  refine List.mem_flatMap.mpr ⟨d.family, hfamily, ?_⟩
  rw [List.take_of_length_le]
  · exact hperm.mem_iff.mpr (mem_expandWide hd he hc)
  · have hsize : (expandWide adm d.family (items d.family)).length ≤ sizes.sum :=
      List.single_le_sum (fun _ _ ↦ Nat.zero_le _) _ (List.mem_map_of_mem hd)
    rw [hperm.length_eq]
    omega

/-- A payload names its subgroup, its operation, its placement and its arguments. -/
theorem expansionPayload_inj {d d' : ActionDefinition} {placement placement' : Text}
    {arguments arguments' : List (Text × Text)}
    (h : expansionPayload d placement arguments = expansionPayload d' placement' arguments') :
    d.subgroup = d'.subgroup ∧ d.operation = d'.operation ∧ placement = placement' ∧
      arguments = arguments' := by
  simpa [expansionPayload] using h

/-- Candidates have one source exactly when repeated ids agree; distinct ids always do. -/
theorem singleSource_iff (definitions : List ActionDefinition) (policy : AuthorityPolicy)
    (adm : Admission) :
    (SingleSource definitions policy adm ↔
      (PyFloat.lt adm.remainingBudget (.fin 0) = true ∨
        RepeatsAgree adm (survivors policy adm definitions))) ∧
    ((∀ d ∈ survivors policy adm definitions, ∀ e ∈ survivors policy adm definitions,
        d.family = e.family → d.subgroup = e.subgroup → d.id = e.id → d = e) →
      SingleSource definitions policy adm) := by
  have hsound : RepeatsAgree adm (survivors policy adm definitions) →
      SingleSource definitions policy adm := by
    intro hagree compiler w compilation hcompile c hc
    obtain ⟨d, hd, e, he, hc⟩ := exists_of_mem_candidates hcompile hc
    obtain ⟨v, hv, placement, hplacement, verifier, hverifier, rfl⟩ := mem_expandAll.mp hc
    obtain ⟨d', hd', hfamily, hsubgroup, hrisk, hnet, hoperation, hp, ha, hver⟩ :=
      hagree d hd e he placement hplacement v.1
        (List.mem_iff_getElem?.mpr ⟨v.2, List.mem_zipIdx_iff_getElem?.mp hv⟩) verifier hverifier
    refine ⟨d', hd', hfamily.symm, hrisk.symm, hnet.symm, placement, hp, v.1, ha, verifier, hver,
      rfl, ?_⟩
    change expansionPayload e placement v.1 = expansionPayload d' placement v.1
    rw [expansionPayload, expansionPayload, hoperation, hsubgroup, (resolve_eq_some he).2.2.1]
  refine ⟨⟨?_, ?_⟩, ?_⟩
  · intro hsingle
    cases hbudget : PyFloat.lt adm.remainingBudget (.fin 0) with
    | true => exact .inl rfl
    | false =>
      refine .inr fun d hd e he placement hplacement arguments harguments verifier hverifier ↦ ?_
      obtain ⟨i, hi⟩ := List.mem_iff_getElem?.mp harguments
      have hexpanded : expansion (operationSkeleton d) e i arguments placement verifier ∈
          expandAll adm (operationSkeleton d) e :=
        mem_expandAll.mpr ⟨(arguments, i), List.mem_zipIdx_iff_getElem?.mpr hi, placement,
          hplacement, verifier, hverifier, rfl⟩
      obtain ⟨compiler, w, compilation, hcompile, hall⟩ :=
        @exists_compilation definitions policy adm hbudget
      have hc := hall d hd e he _ hexpanded
      obtain ⟨d', hd', hfamily, hrisk, hnet, placement', hp, arguments', ha, verifier', hver, hv,
        hpayload⟩ := hsingle compiler w compilation hcompile _ hc
      obtain ⟨hsub, hop, rfl, rfl⟩ := expansionPayload_inj hpayload
      cases hv
      exact ⟨d', hd', hfamily.symm, hsub.symm.trans (resolve_eq_some he).2.2.1, hrisk.symm,
        hnet.symm, hop.symm, hp, ha, hver⟩
  · rintro (hneg | hagree)
    · intro compiler w compilation hcompile
      rw [CandidateCompiler.compileHierarchical, if_pos hneg] at hcompile
      cases hcompile
    · exact hsound hagree
  · intro hdistinct
    refine hsound fun d hd e he placement hplacement arguments harguments verifier hverifier ↦ ?_
    obtain ⟨hek, hef, hes, hei⟩ := resolve_eq_some he
    cases hdistinct d hd e hek hef.symm hes.symm hei.symm
    exact ⟨d, hd, rfl, rfl, rfl, rfl, rfl, hplacement, harguments, hverifier⟩

/-! ### A destructive operation under a read-only skeleton -/

/-- A read-only definition. -/
def readFiles : ActionDefinition where
  id := Text.ofString "files"
  family := .tool
  subgroup := Text.ofString "fs"
  operation := Text.ofString "read"
  riskClass := .readOnly
  argumentVariants := []
  placements := []
  verifierIds := [Text.ofString "checker"]
  optimisticUtility := .fin 2
  estimatedCost := .fin 1

/-- A destructive definition under the same id and subgroup. -/
def wipeFiles : ActionDefinition :=
  { readFiles with
    operation := Text.ofString "wipe"
    riskClass := .destructive
    estimatedCost := .fin 2 }

/-- A policy that permits both. -/
def openPolicy : AuthorityPolicy :=
  { allowedFamilies := [.tool], allowedRisks := [.readOnly, .destructive] }

/-- A budget and a verifier that admit both. -/
def openAdmission : Admission :=
  { remainingBudget := .fin 10, allowedVerifiers := [Text.ofString "checker"] }

/-- The candidate that pairs the read-only skeleton with the destructive operation. -/
def launderedCandidate : ActionCandidate where
  id := Text.ofString "files:0:default:checker"
  family := .tool
  riskClass := .readOnly
  optimisticUtility := .fin 1
  requestedVerifier := some (Text.ofString "checker")
  payload := expansionPayload wipeFiles (Text.ofString "default") []

/-- The compiler returns the laundered candidate, and no definition is its source. -/
theorem not_singleSource_repeated_id :
    ¬ SingleSource [readFiles, wipeFiles] openPolicy openAdmission := by
  intro h
  have hcompile : (CandidateCompiler.compileHierarchical ⟨8, by decide⟩ [readFiles, wipeFiles]
      openPolicy openAdmission).toOption.map CandidateCompilation.candidates =
        some [launderedCandidate] := by decide +kernel
  obtain ⟨compilation, hsome, hcandidates⟩ := Option.map_eq_some_iff.mp hcompile
  have hok := toOption_eq_some.mp hsome
  obtain ⟨d, hd, -, hrisk, -, placement, -, arguments, -, verifier, -, -, hpayload⟩ :=
    h _ _ compilation hok launderedCandidate (by rw [hcandidates]; exact List.mem_singleton_self _)
  have hop := (expansionPayload_inj hpayload).2.1
  have hmem := List.mem_of_mem_filter hd
  simp only [List.mem_cons, List.not_mem_nil, or_false] at hmem
  obtain rfl | rfl := hmem
  · exact absurd hop (by decide)
  · cases hrisk

end C3RSpec.Candidates
