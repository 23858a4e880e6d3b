import C3RSpec.Base.Fields
import C3RSpec.Candidates.Payload
import Mathlib.Data.List.Sigma

/-!
# Candidate ids

`c3r/candidate_compiler.py:169–197`. The id of a candidate joins the id of its definition, the
index of its argument variant, its placement and its verifier with `:`, and none of the texts is
escaped. Two candidates share an id exactly when one definition id, with its `:`, goes on after
another definition id and one of its indexes, or one placement goes on after another of the same
definition, and what is left over is made up by the texts behind it.
-/

namespace C3RSpec.Candidates

open Base

/-- The separator `:`. -/
def colon : CodePoint := 58

/-- `f"{definition.id}:{variant_index}:{placement}:{verifier}"`. -/
def expansionId (d : ActionDefinition) (index : Nat) (placement verifier : Text) : Text :=
  d.id ++ colon :: (decimal index ++ colon :: (placement ++ colon :: verifier))

/-- Every compilation of these definitions has candidates with distinct ids. -/
def DistinctIds (definitions : List ActionDefinition) (policy : AuthorityPolicy)
    (adm : Admission) : Prop :=
  ∀ (compiler : CandidateCompiler) (w : Widths) (compilation : CandidateCompilation),
    compiler.compileHierarchical definitions policy adm w = .ok compilation →
    (compilation.candidates.map ActionCandidate.id).Nodup

/-- No placement of a definition goes on after another one with a text that, in front of an allowed
verifier, is an allowed verifier too. -/
def PlacementsApart (adm : Admission) (d : ActionDefinition) : Prop :=
  ∀ p ∈ placements d, ∀ p' ∈ placements d, ∀ t, Text.Continues colon p p' t →
    ∀ v ∈ verifiers adm d, t ++ v ∉ verifiers adm d

/-- Where the id of `d'` goes on with `t` after the id and an index of `d`, no placement and
verifier of `d` spell `t` in front of the rest of an id of `d'`. -/
def DefinitionsApart (adm : Admission) (d d' : ActionDefinition) : Prop :=
  ∀ i < (variants d).length, ∀ t, d'.id ++ [colon] = d.id ++ colon :: (decimal i ++ colon :: t) →
    ∀ i' < (variants d').length, ∀ p ∈ placements d, ∀ p' ∈ placements d', ∀ v ∈ verifiers adm d,
      ∀ v' ∈ verifiers adm d',
        p ++ colon :: v ≠ t ++ (decimal i' ++ colon :: (p' ++ colon :: v'))

/-- Neither placements nor definitions run into each other. -/
def Apart (adm : Admission) (kept : List ActionDefinition) : Prop :=
  (∀ d ∈ kept, PlacementsApart adm d) ∧ ∀ d ∈ kept, ∀ d' ∈ kept, DefinitionsApart adm d d'

section Injective

variable {adm : Admission} {kept : List ActionDefinition}

private theorem colon_notMem_decimal (n : Nat) : colon ∉ decimal n := by
  intro h
  have hdigit := List.all_eq_true.mp (all_isDigit_decimal n) colon h
  exact absurd hdigit (by decide)

private theorem placement_eq {d : ActionDefinition} (h : PlacementsApart adm d) {p p' v v' : Text}
    (hp : p ∈ placements d) (hp' : p' ∈ placements d) (hv : v ∈ verifiers adm d)
    (hv' : v' ∈ verifiers adm d) (heq : p ++ colon :: v = p' ++ colon :: v') : p = p' ∧ v = v' := by
  obtain heq | ⟨t, ht, rfl⟩ | ⟨t, ht, rfl⟩ := Text.field_cases heq
  · exact heq
  · exact absurd hv (h p hp p' hp' t ht v' hv')
  · exact absurd hv' (h p' hp' p hp t ht v hv)

private theorem not_continues {d d' : ActionDefinition} (h : DefinitionsApart adm d d')
    {i i' : Nat} (hi : i < (variants d).length) (hi' : i' < (variants d').length)
    {p p' v v' t : Text} (hp : p ∈ placements d) (hp' : p' ∈ placements d')
    (hv : v ∈ verifiers adm d) (hv' : v' ∈ verifiers adm d')
    (ht : Text.Continues colon d.id d'.id t) :
    decimal i ++ colon :: (p ++ colon :: v) ≠
      t ++ (decimal i' ++ colon :: (p' ++ colon :: v')) := by
  obtain ⟨s, hid, rfl⟩ := ht
  intro heq
  rw [List.append_assoc, List.singleton_append] at heq
  obtain ⟨rfl, hrest⟩ | ⟨u, ⟨s', rfl, rfl⟩, hrest⟩ | ⟨u, hu, -⟩ := Text.field_cases heq
  · exact h i hi [] (by simp [hid]) i' hi' p hp p' hp' v hv v' hv' hrest
  · exact h i hi (s' ++ [colon]) (by simp [hid]) i' hi' p hp p' hp' v hv v' hv' hrest
  · exact colon_notMem_decimal i hu.mem

/-- Definitions that keep apart are told apart by the ids of their candidates, and so is everything
else that an id is made of. -/
theorem expansionId_inj (h : Apart adm kept) (hids : (kept.map ActionDefinition.id).Nodup)
    {d d' : ActionDefinition} (hd : d ∈ kept) (hd' : d' ∈ kept) {i i' : Nat}
    (hi : i < (variants d).length) (hi' : i' < (variants d').length) {p p' v v' : Text}
    (hp : p ∈ placements d) (hp' : p' ∈ placements d') (hv : v ∈ verifiers adm d)
    (hv' : v' ∈ verifiers adm d') (heq : expansionId d i p v = expansionId d' i' p' v') :
    d = d' ∧ i = i' ∧ p = p' ∧ v = v' := by
  obtain ⟨hid, hrest⟩ | ⟨t, ht, hrest⟩ | ⟨t, ht, hrest⟩ := Text.field_cases heq
  · obtain rfl := List.inj_on_of_nodup_map hids hd hd' hid
    obtain ⟨hindex, hrest⟩ :=
      Text.field_inj (colon_notMem_decimal i) (colon_notMem_decimal i') hrest
    have hi : i = i' := by
      rw [← decimalValue_decimal i, hindex, decimalValue_decimal]
    exact ⟨rfl, hi, placement_eq (h.1 d hd) hp hp' hv hv' hrest⟩
  · exact absurd hrest (not_continues (h.2 d hd d' hd') hi hi' hp hp' hv hv' ht)
  · exact absurd hrest (not_continues (h.2 d' hd' d hd) hi' hi hp' hp hv' hv ht)

end Injective

/-! ### Distinct ids, loop by loop -/

private theorem nodup_map_flatMap {A B C : Type} {f : A → List B} {g : B → C} {xs : List A}
    (hxs : xs.Nodup) (hin : ∀ x ∈ xs, ((f x).map g).Nodup)
    (hout : ∀ x ∈ xs, ∀ y ∈ xs, ∀ b ∈ f x, ∀ c ∈ f y, g b = g c → x = y) :
    ((xs.flatMap f).map g).Nodup := by
  induction xs with
  | nil => exact List.nodup_nil
  | cons x xs ih =>
    obtain ⟨hx, hxs⟩ := List.nodup_cons.mp hxs
    rw [List.flatMap_cons, List.map_append, List.nodup_append']
    refine ⟨hin x List.mem_cons_self, ih hxs (fun y hy ↦ hin y (List.mem_cons_of_mem x hy))
      (fun y hy z hz ↦ hout y (List.mem_cons_of_mem x hy) z (List.mem_cons_of_mem x hz)), ?_⟩
    intro i hi hi'
    obtain ⟨b, hb, rfl⟩ := List.mem_map.mp hi
    obtain ⟨c, hc, hbc⟩ := List.mem_map.mp hi'
    obtain ⟨y, hy, hc⟩ := List.mem_flatMap.mp hc
    exact hx (hout x List.mem_cons_self y (List.mem_cons_of_mem x hy) b hb c hc hbc.symm ▸ hy)

section Nodup

variable {cap : Nat} {adm : Admission} {w : Widths} {kept : List ActionDefinition}

/-- The id of a candidate is put together from texts of `d`. -/
def MadeFrom (adm : Admission) (d : ActionDefinition) (c : ActionCandidate) : Prop :=
  ∃ i < (variants d).length, ∃ p ∈ placements d, ∃ v ∈ verifiers adm d,
    c.id = expansionId d i p v

private theorem lt_of_mem_zipIdx {A : Type} {xs : List A} {x : A × Nat} (h : x ∈ xs.zipIdx) :
    x.2 < xs.length :=
  (List.getElem?_eq_some_iff.mp (List.mem_zipIdx_iff_getElem?.mp h)).1

private theorem madeFrom_of_mem {skeleton c : ActionCandidate} {d : ActionDefinition}
    (h : c ∈ expandAll adm skeleton d) : MadeFrom adm d c := by
  obtain ⟨v, hv, placement, hplacement, verifier, hverifier, rfl⟩ := mem_expandAll.mp h
  exact ⟨v.2, lt_of_mem_zipIdx hv, placement, hplacement, verifier, hverifier, rfl⟩

/-- Candidates with one id come from one definition. -/
theorem MadeFrom.eq (h : Apart adm kept) (hids : (kept.map ActionDefinition.id).Nodup)
    {d d' : ActionDefinition} (hd : d ∈ kept) (hd' : d' ∈ kept) {c c' : ActionCandidate}
    (hc : MadeFrom adm d c) (hc' : MadeFrom adm d' c') (heq : c.id = c'.id) : d = d' := by
  obtain ⟨i, hi, p, hp, v, hv, hc⟩ := hc
  obtain ⟨i', hi', p', hp', v', hv', hc'⟩ := hc'
  exact (expansionId_inj h hids hd hd' hi hi' hp hp' hv hv' (hc ▸ hc' ▸ heq)).1

private theorem nodup_ids_expandAll (h : Apart adm kept)
    (hids : (kept.map ActionDefinition.id).Nodup) {d : ActionDefinition} (hd : d ∈ kept)
    (hplacements : d.placements.Nodup) (hverifiers : d.verifierIds.Nodup)
    (skeleton : ActionCandidate) :
    ((expandAll adm skeleton d).map ActionCandidate.id).Nodup := by
  have hp : (placements d).Nodup := by
    rw [placements]
    split
    · exact List.nodup_singleton _
    · exact hplacements
  have hv : (verifiers adm d).Nodup := hverifiers.filter _
  have hindexes : (variants d).zipIdx.Nodup :=
    List.Nodup.of_map Prod.snd (List.nodup_zipIdx_map_snd _)
  -- each loop variable is read back from the id
  have hinj : ∀ {x y : List (Text × Text) × Nat} {p p' v v' : Text}, x ∈ (variants d).zipIdx →
      y ∈ (variants d).zipIdx → p ∈ placements d → p' ∈ placements d → v ∈ verifiers adm d →
      v' ∈ verifiers adm d → expansionId d x.2 p v = expansionId d y.2 p' v' →
      x.2 = y.2 ∧ p = p' ∧ v = v' := fun hx hy hp hp' hv hv' heq ↦
    (expansionId_inj h hids hd hd (lt_of_mem_zipIdx hx) (lt_of_mem_zipIdx hy) hp hp' hv hv' heq).2
  unfold expandAll
  apply nodup_map_flatMap hindexes
  · intro x hx
    apply nodup_map_flatMap hp
    · intro p hp
      apply nodup_map_flatMap hv
      · intro v _
        exact List.nodup_singleton _
      · intro v hv v' hv' b hb c hc heq
        rw [List.mem_singleton] at hb hc
        subst hb hc
        exact (hinj hx hx hp hp hv hv' heq).2.2
    · intro p hp p' hp' b hb c hc heq
      simp only [List.mem_flatMap, List.mem_singleton] at hb hc
      obtain ⟨v, hv, rfl⟩ := hb
      obtain ⟨v', hv', rfl⟩ := hc
      exact (hinj hx hx hp hp' hv hv' heq).2.1
  · intro x hx y hy b hb c hc heq
    simp only [List.mem_flatMap, List.mem_singleton] at hb hc
    obtain ⟨p, hp, v, hv, rfl⟩ := hb
    obtain ⟨p', hp', v', hv', rfl⟩ := hc
    exact List.inj_on_of_nodup_map (List.nodup_zipIdx_map_snd _) hx hy
      (hinj hx hy hp hp' hv hv' heq).1

private theorem nodup_ids_chosen {skeletons : List ActionCandidate}
    (h : (skeletons.map ActionCandidate.id).Nodup) :
    ((chosen cap w skeletons).map ActionCandidate.id).Nodup := by
  unfold chosen
  cases hw : widenWhenMarginIsSmall skeletons w.initialWidth (boundedWidth cap w)
      w.wideningMargin with
  | error e => exact List.nodup_nil
  | ok selected =>
    obtain ⟨n, rfl⟩ := exists_take_of_widen hw
    have hperm : (orderCandidates skeletons).Perm skeletons := List.perm_insertionSort _ skeletons
    exact ((hperm.map _).nodup_iff.mpr h).sublist ((List.take_sublist n _).map _)

private theorem madeFrom_of_mem_expandSubgroup {items : List ActionDefinition}
    (hids : (items.map ActionDefinition.id).Nodup) {c : ActionCandidate}
    (hc : c ∈ expandSubgroup cap adm w items) : ∃ d ∈ items, MadeFrom adm d c := by
  obtain ⟨s, hs, hc⟩ := List.mem_flatMap.mp hc
  obtain ⟨d, hd, rfl⟩ := List.mem_map.mp (mem_chosen hs)
  rw [expandById_eq hids hd] at hc
  exact ⟨d, hd, madeFrom_of_mem hc⟩

private theorem nodup_ids_expandSubgroup (h : Apart adm kept)
    (hids : (kept.map ActionDefinition.id).Nodup)
    (hplacements : ∀ d ∈ kept, d.placements.Nodup) (hverifiers : ∀ d ∈ kept, d.verifierIds.Nodup)
    {items : List ActionDefinition} (hitems : items.Sublist kept) :
    ((expandSubgroup cap adm w items).map ActionCandidate.id).Nodup := by
  have hnodup : (items.map ActionDefinition.id).Nodup := hids.sublist (hitems.map _)
  have hchosen := @nodup_ids_chosen cap w (items.map operationSkeleton) (by
    rw [List.map_map]
    exact hnodup)
  apply nodup_map_flatMap (List.Nodup.of_map _ hchosen)
  · intro s hs
    obtain ⟨d, hd, rfl⟩ := List.mem_map.mp (mem_chosen hs)
    have hd' := hitems.subset hd
    rw [expandById_eq hnodup hd]
    exact nodup_ids_expandAll h hids hd' (hplacements d hd') (hverifiers d hd') _
  · intro s hs s' hs' c hc c' hc' heq
    obtain ⟨d, hd, rfl⟩ := List.mem_map.mp (mem_chosen hs)
    obtain ⟨d', hd', rfl⟩ := List.mem_map.mp (mem_chosen hs')
    rw [expandById_eq hnodup hd] at hc
    rw [expandById_eq hnodup hd'] at hc'
    rw [(madeFrom_of_mem hc).eq h hids (hitems.subset hd) (hitems.subset hd')
      (madeFrom_of_mem hc') heq]

private theorem nodup_ids_expandFamily (h : Apart adm kept)
    (hids : (kept.map ActionDefinition.id).Nodup)
    (hplacements : ∀ d ∈ kept, d.placements.Nodup) (hverifiers : ∀ d ∈ kept, d.verifierIds.Nodup)
    (family : ActionFamily) {items : List ActionDefinition} (hitems : items.Sublist kept) :
    ((expandFamily cap adm w family items).map ActionCandidate.id).Nodup := by
  have hperm := skeletons_perm family items
  have hchosen := @nodup_ids_chosen cap w _
    ((hperm.map _).nodup_iff.mpr (nodup_ids_skeletons family items))
  have hgroup : ∀ s : Text, (items.filter fun d ↦ decide (d.subgroup = s)).Sublist kept :=
    fun s ↦ List.filter_sublist.trans hitems
  apply nodup_map_flatMap (List.Nodup.of_map _ hchosen)
  · intro s _
    rw [Dict.getD_groupBy]
    exact nodup_ids_expandSubgroup h hids hplacements hverifiers (hgroup s.id)
  · intro s hs s' hs' c hc c' hc' heq
    rw [Dict.getD_groupBy] at hc hc'
    obtain ⟨d, hd, hmade⟩ :=
      madeFrom_of_mem_expandSubgroup (hids.sublist ((hgroup s.id).map _)) hc
    obtain ⟨d', hd', hmade'⟩ :=
      madeFrom_of_mem_expandSubgroup (hids.sublist ((hgroup s'.id).map _)) hc'
    obtain rfl := hmade.eq h hids ((hgroup s.id).subset hd) ((hgroup s'.id).subset hd') hmade' heq
    rw [List.mem_filter, decide_eq_true_eq] at hd hd'
    exact List.inj_on_of_nodup_map hchosen hs hs' (hd.2.symm.trans hd'.2)

/-- Definitions that keep apart give distinct ids. -/
theorem nodup_ids_of_apart (hcap : 1 ≤ cap) (h : Apart adm kept)
    (hids : (kept.map ActionDefinition.id).Nodup)
    (hplacements : ∀ d ∈ kept, d.placements.Nodup) (hverifiers : ∀ d ∈ kept, d.verifierIds.Nodup)
    {r : List ActionCandidate × List ActionFamily} (hr : compileFamilies cap adm w kept = .ok r) :
    (r.1.map ActionCandidate.id).Nodup := by
  have hfamily : ∀ family, (ofFamily family kept).Sublist kept := fun _ ↦ List.filter_sublist
  have hmade : ∀ {family c}, c ∈ (expandFamily cap adm w family (ofFamily family kept)).take cap →
      ∃ d ∈ kept, d.family = family ∧ MadeFrom adm d c := by
    intro family c hc
    obtain ⟨d, hd, hdf, e, he, hc⟩ := exists_of_mem_expandFamily (List.mem_of_mem_take hc)
    obtain ⟨hek, hef, -⟩ := resolve_eq_some he
    exact ⟨e, hek, hef.trans hdf, madeFrom_of_mem hc⟩
  rw [compileFamilies_byName hcap hr]
  apply nodup_map_flatMap (by decide)
  · intro family _
    exact (nodup_ids_expandFamily h hids hplacements hverifiers family (hfamily family)).sublist
      ((List.take_sublist _ _).map _)
  · intro family _ family' _ c hc c' hc' heq
    obtain ⟨d, hd, rfl, hfrom⟩ := hmade hc
    obtain ⟨d', hd', rfl, hfrom'⟩ := hmade hc'
    rw [hfrom.eq h hids hd hd' hfrom' heq]

end Nodup

/-! ### Exactly apart -/

private theorem resolve_self {kept : List ActionDefinition}
    (hids : (kept.map ActionDefinition.id).Nodup) {d : ActionDefinition} (hd : d ∈ kept) :
    resolve kept d = some d := by
  have hpeers : (peers kept d).Sublist kept := List.filter_sublist.trans List.filter_sublist
  rw [resolve, ← definitionsById_get?]
  apply definitionsById_eq (hids.sublist (hpeers.map _))
  simp [peers, hd]

private theorem mem_expandAll_of_lt {adm : Admission} {d : ActionDefinition} {i : Nat} {p v : Text}
    (hi : i < (variants d).length) (hp : p ∈ placements d) (hv : v ∈ verifiers adm d) :
    expansion (operationSkeleton d) d i (variants d)[i] p v ∈
      expandAll adm (operationSkeleton d) d :=
  mem_expandAll.mpr ⟨(_, _), List.mem_zipIdx_iff_getElem?.mpr (List.getElem?_eq_getElem hi), p, hp,
    v, hv, rfl⟩

private theorem apart_of_nodup {kept : List ActionDefinition} {adm : Admission}
    {candidates : List ActionCandidate} (hnodup : (candidates.map ActionCandidate.id).Nodup)
    (hall : ∀ d ∈ kept, ∀ c ∈ expandAll adm (operationSkeleton d) d, c ∈ candidates) :
    Apart adm kept := by
  -- one id is one candidate, and a candidate shows its placement and its verifier
  have hsame : ∀ {d d' : ActionDefinition} {i i' : Nat} {p p' v v' : Text}, d ∈ kept → d' ∈ kept →
      i < (variants d).length → i' < (variants d').length → p ∈ placements d →
      p' ∈ placements d' → v ∈ verifiers adm d → v' ∈ verifiers adm d' →
      expansionId d i p v = expansionId d' i' p' v' → p = p' ∧ v = v' := by
    intro d d' i i' p p' v v' hd hd' hi hi' hp hp' hv hv' heq
    have hc := List.inj_on_of_nodup_map hnodup (hall d hd _ (mem_expandAll_of_lt hi hp hv))
      (hall d' hd' _ (mem_expandAll_of_lt hi' hp' hv')) heq
    have hpayload := expansionPayload_inj (congrArg ActionCandidate.payload hc)
    exact ⟨hpayload.2.2.1, Option.some.inj (congrArg ActionCandidate.requestedVerifier hc)⟩
  constructor
  · intro d hd p hp p' hp' t ht v hv hmem
    have hi : 0 < (variants d).length := by
      rw [variants]
      split
      · exact Nat.one_pos
      · next hne => exact List.length_pos_of_ne_nil hne
    have heq : expansionId d 0 p (t ++ v) = expansionId d 0 p' v := by
      rw [expansionId, ht.append_eq]
      rfl
    obtain ⟨rfl, -⟩ := hsame hd hd hi hi hp hp' hmem hv heq
    obtain ⟨s, hs, -⟩ := ht
    exact absurd (congrArg List.length hs) (by simp)
  · intro d hd d' hd' i hi t ht i' hi' p hp p' hp' v hv v' hv' hrest
    have heq : expansionId d i p v = expansionId d' i' p' v' := by
      calc
        expansionId d i p v =
            (d.id ++ colon :: (decimal i ++ colon :: t)) ++
              (decimal i' ++ colon :: (p' ++ colon :: v')) := by simp [expansionId, hrest]
        _ = expansionId d' i' p' v' := by simp [expansionId, ← ht]
    obtain ⟨rfl, rfl⟩ := hsame hd hd' hi hi' hp hp' hv hv' heq
    have hlength := congrArg List.length hrest
    simp only [List.length_append, List.length_cons] at hlength
    omega

private theorem apart_of_colonFree {kept : List ActionDefinition} {adm : Admission}
    (h : ∀ d ∈ kept, colon ∉ d.id ∧ ∀ p ∈ placements d, colon ∉ p) : Apart adm kept := by
  constructor
  · intro d hd p _ p' hp' t ht
    exact absurd ht.mem ((h d hd).2 p' hp')
  · intro d _ d' hd' i _ t ht
    have hmem : colon ∈ d'.id := by
      have hlast := congrArg List.dropLast ht
      rw [List.dropLast_concat] at hlast
      rw [hlast, List.dropLast_append_of_ne_nil (List.cons_ne_nil _ _),
        List.dropLast_cons_of_ne_nil (by simp)]
      exact List.mem_append_right _ List.mem_cons_self
    exact absurd hmem (h d' hd').1

/-- The candidates of every compilation have distinct ids exactly when the definitions that survive
keep apart; they do when neither their ids nor their placements hold a colon. -/
theorem candidate_ids_distinct_iff (definitions : List ActionDefinition)
    (policy : AuthorityPolicy) (adm : Admission)
    (hids : (definitions.map ActionDefinition.id).Nodup)
    (hplacements : ∀ d ∈ definitions, d.placements.Nodup)
    (hverifiers : ∀ d ∈ definitions, d.verifierIds.Nodup) :
    (DistinctIds definitions policy adm ↔
      (PyFloat.lt adm.remainingBudget (.fin 0) = true ∨
        Apart adm (survivors policy adm definitions))) ∧
    ((∀ d ∈ survivors policy adm definitions, colon ∉ d.id ∧ ∀ p ∈ placements d, colon ∉ p) →
      DistinctIds definitions policy adm) := by
  have hkept : (survivors policy adm definitions).Sublist definitions := List.filter_sublist
  have hkeptIds : ((survivors policy adm definitions).map ActionDefinition.id).Nodup :=
    hids.sublist (hkept.map _)
  have hsound : Apart adm (survivors policy adm definitions) →
      DistinctIds definitions policy adm := by
    intro hapart compiler w compilation hcompile
    obtain ⟨-, -, r, hr, rfl⟩ := compileHierarchical_eq_ok.mp hcompile
    exact nodup_ids_of_apart compiler.positive hapart hkeptIds
      (fun d hd ↦ hplacements d (hkept.subset hd)) (fun d hd ↦ hverifiers d (hkept.subset hd)) hr
  refine ⟨⟨fun h ↦ ?_, ?_⟩, fun hfree ↦ hsound (apart_of_colonFree hfree)⟩
  · cases hbudget : PyFloat.lt adm.remainingBudget (.fin 0) with
    | true => exact .inl rfl
    | false =>
      obtain ⟨compiler, w, compilation, hcompile, hall⟩ :=
        @exists_compilation definitions policy adm hbudget
      exact .inr (apart_of_nodup (h compiler w compilation hcompile)
        fun d hd ↦ hall d hd d (resolve_self hkeptIds hd))
  · rintro (hneg | hapart)
    · intro compiler w compilation hcompile
      rw [(compileHierarchical_eq_ok.mp hcompile).1] at hneg
      cases hneg
    · exact hsound hapart

/-- The two file operations have distinct candidate ids. -/
theorem candidate_ids_distinct_iff_files : DistinctIds fileCatalog openPolicy openAdmission :=
  (candidate_ids_distinct_iff fileCatalog openPolicy openAdmission (by decide) (by decide)
    (by decide)).2 (by decide)

/-- A definition with a colon in its placement. -/
def shortFiles : ActionDefinition :=
  { readFiles with id := Text.ofString "a", placements := [Text.ofString "0:x"] }

/-- A definition whose id goes on after the id and the index of the other one. -/
def longFiles : ActionDefinition :=
  { readFiles with id := Text.ofString "a:0", placements := [Text.ofString "x"] }

/-- Distinct definitions without repeats share the candidate id `a:0:0:x:checker`. -/
theorem not_distinctIds_colon :
    ([shortFiles, longFiles].map ActionDefinition.id).Nodup ∧
    (∀ d ∈ [shortFiles, longFiles], d.placements.Nodup ∧ d.verifierIds.Nodup) ∧
    ¬ DistinctIds [shortFiles, longFiles] openPolicy openAdmission := by
  refine ⟨by decide, by decide, fun h ↦ ?_⟩
  have hcompile : (CandidateCompiler.compileHierarchical ⟨8, by decide⟩ [shortFiles, longFiles]
      openPolicy openAdmission).toOption.map (fun compilation ↦ compilation.candidates.map
        ActionCandidate.id) =
      some [Text.ofString "a:0:0:x:checker", Text.ofString "a:0:0:x:checker"] := by
    decide +kernel
  obtain ⟨compilation, hsome, hids⟩ := Option.map_eq_some_iff.mp hcompile
  have hnodup := h ⟨8, by decide⟩ {} compilation (toOption_eq_some.mp hsome)
  rw [hids] at hnodup
  exact absurd hnodup (by decide)

end C3RSpec.Candidates
