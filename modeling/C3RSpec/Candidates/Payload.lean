import C3RSpec.Candidates.Coverage

/-!
# Payloads read as mappings

`c3r/candidate_compiler.py:96–105,176–197`. The keys of an argument variant are checked against
each other, and `subgroup`, `operation` and `placement` are put in front of them later. A variant
with one of these keys therefore gives a payload with a repeated key, and whoever reads it as a
mapping reads the argument.
-/

namespace C3RSpec.Candidates

open Base

/-- The keys that the compiler puts in front of the arguments. -/
def reservedKeys : List Text := ["subgroup", "operation", "placement"]

/-- The payload has distinct keys, and read as a mapping it holds the subgroup, the operation and a
placement of `d`. -/
def ReadsAs (payload : List (Text × Text)) (d : ActionDefinition) : Prop :=
  (payload.map Prod.fst).Nodup ∧
    (Dict.ofList payload).get? "subgroup" = some d.subgroup ∧
    (Dict.ofList payload).get? "operation" = some d.operation ∧
    ∃ placement ∈ placements d, (Dict.ofList payload).get? "placement" = some placement

/-- Every candidate of every compilation of these definitions has a payload that reads as the
definition it was expanded from. -/
def Unambiguous (definitions : List ActionDefinition) (policy : AuthorityPolicy)
    (adm : Admission) : Prop :=
  ∀ (compiler : CandidateCompiler) (w : Widths) (compilation : CandidateCompilation),
    compiler.compileHierarchical definitions policy adm w = .ok compilation →
    ∀ c ∈ compilation.candidates, ∃ d ∈ survivors policy adm definitions,
      (∃ placement ∈ placements d, ∃ arguments ∈ variants d,
        c.payload = expansionPayload d placement arguments) ∧ ReadsAs c.payload d

/-- The definitions that are expanded, the last survivors of their family, subgroup and id, use
none of the reserved keys. -/
def NoReservedArgument (kept : List ActionDefinition) : Prop :=
  ∀ d ∈ kept, ∀ e, resolve kept d = some e → ∀ arguments ∈ variants e, ∀ a ∈ arguments,
    a.1 ∉ reservedKeys

private theorem keys_expansionPayload (d : ActionDefinition) (placement : Text)
    (arguments : List (Text × Text)) : (expansionPayload d placement arguments).map Prod.fst =
      reservedKeys ++ arguments.map Prod.fst := rfl

private theorem reads_of_nodup {d : ActionDefinition} {placement : Text}
    {arguments : List (Text × Text)} (hplacement : placement ∈ placements d)
    (h : ((expansionPayload d placement arguments).map Prod.fst).Nodup) :
    ReadsAs (expansionPayload d placement arguments) d := by
  have hget : ∀ {k v}, (k, v) ∈ expansionPayload d placement arguments →
      (Dict.ofList (expansionPayload d placement arguments)).get? k = some v := by
    intro k v hmem
    rw [Dict.get?_eq_some_iff, Dict.entries_ofList h]
    exact hmem
  refine ⟨h, hget ?_, hget ?_, placement, hplacement, hget ?_⟩
  · simp [expansionPayload]
  · simp [expansionPayload]
  · simp [expansionPayload]

private theorem nodup_keys_iff {d : ActionDefinition} {placement : Text}
    {arguments : List (Text × Text)} (h : variantIsValid d arguments = true) (e : ActionDefinition) :
    ((expansionPayload e placement arguments).map Prod.fst).Nodup ↔
      ∀ a ∈ arguments, a.1 ∉ reservedKeys := by
  have hkeys : (arguments.map Prod.fst).Nodup := by
    unfold variantIsValid at h
    simp only [Bool.and_eq_true, decide_eq_true_eq] at h
    exact h.1.1.1
  have hreserved : reservedKeys.Nodup := by decide
  rw [keys_expansionPayload, List.nodup_append']
  constructor
  · intro hnodup a ha hmem
    exact hnodup.2.2 hmem (List.mem_map_of_mem ha)
  · intro hfree
    refine ⟨hreserved, hkeys, fun k hk hk' ↦ ?_⟩
    obtain ⟨a, ha, rfl⟩ := List.mem_map.mp hk'
    exact hfree a ha hk

private theorem variantIsValid_of_survivor {definitions : List ActionDefinition}
    {policy : AuthorityPolicy} {adm : Admission} {e : ActionDefinition}
    (he : e ∈ survivors policy adm definitions) {arguments : List (Text × Text)}
    (h : arguments ∈ variants e) : variantIsValid e arguments = true := by
  have hmasks := (Bool.and_eq_true_iff.mp (List.mem_filter.mp he).2).1
  unfold passesMasks at hmasks
  simp only [Bool.and_eq_true] at hmasks
  exact List.all_eq_true.mp hmasks.1.1.2 arguments h

/-- Payloads are unambiguous exactly when no argument of an expanded definition takes a reserved
key. -/
theorem payload_unambiguous_iff (definitions : List ActionDefinition) (policy : AuthorityPolicy)
    (adm : Admission) :
    Unambiguous definitions policy adm ↔
      (PyFloat.lt adm.remainingBudget (.fin 0) = true ∨
        NoReservedArgument (survivors policy adm definitions)) := by
  constructor
  · intro h
    cases hbudget : PyFloat.lt adm.remainingBudget (.fin 0) with
    | true => exact .inl rfl
    | false =>
      right
      intro d hd e he arguments harguments
      obtain ⟨hkept, -⟩ := resolve_eq_some he
      have hmasks := (Bool.and_eq_true_iff.mp (List.mem_filter.mp hkept).2).1
      obtain ⟨compiler, w, compilation, hcompile, hall⟩ :=
        @exists_compilation definitions policy adm hbudget
      obtain ⟨placement, hplacement⟩ := exists_placement e
      obtain ⟨verifier, hverifier⟩ := exists_verifier hmasks
      obtain ⟨i, hi⟩ := List.mem_iff_getElem?.mp harguments
      have hc := hall d hd e he _ (mem_expandAll.mpr ⟨(arguments, i),
        List.mem_zipIdx_iff_getElem?.mpr hi, placement, hplacement, verifier, hverifier, rfl⟩)
      obtain ⟨source, -, -, hreads⟩ := h compiler w compilation hcompile _ hc
      exact (nodup_keys_iff (variantIsValid_of_survivor hkept harguments) e).mp hreads.1
  · rintro (hneg | hfree)
    · intro compiler w compilation hcompile
      rw [(compileHierarchical_eq_ok.mp hcompile).1] at hneg
      cases hneg
    · intro compiler w compilation hcompile c hc
      obtain ⟨d, hd, e, he, hc⟩ := exists_of_mem_candidates hcompile hc
      obtain ⟨v, hv, placement, hplacement, verifier, -, rfl⟩ := mem_expandAll.mp hc
      have hv : v.1 ∈ variants e :=
        List.mem_iff_getElem?.mpr ⟨v.2, List.mem_zipIdx_iff_getElem?.mp hv⟩
      obtain ⟨hkept, -⟩ := resolve_eq_some he
      refine ⟨e, hkept, ⟨placement, hplacement, v.1, hv, rfl⟩, ?_⟩
      exact reads_of_nodup hplacement ((nodup_keys_iff (variantIsValid_of_survivor hkept hv) e).mpr
        (hfree d hd e he v.1 hv))

/-- A read-only definition whose argument names another operation. -/
def forgedFiles : ActionDefinition :=
  { readFiles with argumentVariants := [[(Text.ofString "operation", Text.ofString "wipe")]] }

/-- Its payload has the key `operation` twice and reads as another operation. -/
theorem not_unambiguous_operation : ¬ Unambiguous [forgedFiles] openPolicy openAdmission := by
  intro h
  have hcompile : (CandidateCompiler.compileHierarchical ⟨8, by decide⟩ [forgedFiles] openPolicy
      openAdmission).toOption.map (fun compilation ↦ compilation.candidates.map
        ActionCandidate.payload) =
      some [expansionPayload forgedFiles (Text.ofString "default")
        [(Text.ofString "operation", Text.ofString "wipe")]] := by decide +kernel
  obtain ⟨compilation, hsome, hpayloads⟩ := Option.map_eq_some_iff.mp hcompile
  obtain ⟨c, hcandidates, hc⟩ := List.map_eq_singleton_iff.mp hpayloads
  obtain ⟨d, -, -, hreads⟩ := h ⟨8, by decide⟩ {} compilation (toOption_eq_some.mp hsome) c (by
    rw [hcandidates]
    exact List.mem_singleton_self c)
  rw [hc] at hreads
  exact absurd hreads.1 (by decide)

end C3RSpec.Candidates
