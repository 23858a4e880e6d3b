import C3RSpec.Candidates.Origin
import C3RSpec.Runtime.HostCalls
import C3RSpec.SystemOne.ClmAdapter

/-!
# Whether a decision can be ranked

`c3r/runtime.py:215–244` calls the fast path with what `c3r/state_compiler.py` and
`c3r/candidate_compiler.py` have admitted, and `c3r/system_one/clm_adapter.py:99–112` checks it
once more. The labels always pass; a bound per family is not a bound on all families, and bounds on
characters are none on bytes.
-/

namespace C3RSpec.SystemOne

open Base C3RSpec.Runtime Candidates StandaloneController

/-- The checks that the adapter makes before it calls its server. -/
structure Rankable [FloatText] (state : CompiledState) (options : List Text) : Prop where
  context : ∃ text, ClmAdapter.context state = .ok text
  options : ClmAdapter.checkOptions options = .ok ()

/-! ### Labels -/

section Labels

private theorem blank_notMem_family (family : ActionFamily) : (32 : CodePoint) ∉ family.value := by
  cases family <;> decide

private theorem blank_notMem_risk (risk : RiskClass) : (32 : CodePoint) ∉ risk.value := by
  cases risk <;> decide

private theorem length_family_le (family : ActionFamily) : family.value.length ≤ 19 := by
  cases family <;> decide

private theorem length_risk_le (risk : RiskClass) : risk.value.length ≤ 17 := by
  cases risk <;> decide

/-- A label is the id with the family and the risk behind blanks and bars. -/
private theorem candidateOption_eq (c : ActionCandidate) : candidateOption c =
    (c.id ++ [32, 124, 32] ++ c.family.value ++ [32, 124]) ++ 32 :: c.riskClass.value := by
  have hbar : Text.ofString " | " = [32, 124, 32] := by decide
  rw [candidateOption, hbar]
  simp

/-- A label is read back to its id. -/
theorem candidateOption_inj {a b : ActionCandidate} (h : candidateOption a = candidateOption b) :
    a.id = b.id := by
  rw [candidateOption_eq, candidateOption_eq] at h
  have hrest := (Text.last_field_inj (blank_notMem_risk _) (blank_notMem_risk _) h).1
  have hbar := List.append_cancel_right hrest
  have hid : ∀ c : ActionCandidate, c.id ++ [32, 124, 32] ++ c.family.value =
      (c.id ++ [32, 124]) ++ 32 :: c.family.value := fun c ↦ by simp
  rw [hid, hid] at hbar
  exact List.append_cancel_right
    (Text.last_field_inj (blank_notMem_family _) (blank_notMem_family _) hbar).1

/-- Distinct ids have distinct labels. -/
theorem nodup_candidateOption {candidates : List ActionCandidate}
    (h : (candidates.map ActionCandidate.id).Nodup) : (candidates.map candidateOption).Nodup := by
  rw [List.nodup_map_iff_inj_on (List.Nodup.of_map _ h)]
  intro a ha b hb heq
  exact List.inj_on_of_nodup_map h ha hb (candidateOption_inj heq)

/-- A label adds at most 42 characters to the id. -/
theorem length_candidateOption (c : ActionCandidate) :
    candidateOption c ≠ [] ∧ (candidateOption c).length ≤ c.id.length + 42 := by
  have hfamily := length_family_le c.family
  have hrisk := length_risk_le c.riskClass
  rw [candidateOption_eq]
  constructor
  · simp
  · simp only [List.length_append, List.length_cons, List.length_nil]
    omega

end Labels

/-! ### How many candidates -/

section Count

private theorem length_flatMap_le {A B : Type} {f : A → List B} {n : Nat} (xs : List A)
    (h : ∀ x ∈ xs, (f x).length ≤ n) : (xs.flatMap f).length ≤ n * xs.length := by
  induction xs with
  | nil => exact Nat.zero_le _
  | cons x xs ih =>
    rw [List.flatMap_cons, List.length_append, List.length_cons]
    have hx := h x List.mem_cons_self
    have hxs := ih fun y hy ↦ h y (List.mem_cons_of_mem x hy)
    rw [Nat.mul_succ]
    omega

/-- There are at most as many candidates as the cap allows in the families of the definitions. -/
theorem length_candidates_le {compiler : CandidateCompiler} {definitions : List ActionDefinition}
    {policy : AuthorityPolicy} {adm : Admission} {w : Widths} {compilation : CandidateCompilation}
    (h : compiler.compileHierarchical definitions policy adm w = .ok compilation)
    {families : List ActionFamily} (hfamilies : ∀ d ∈ definitions, d.family ∈ families) :
    compilation.candidates.length ≤ compiler.perFamilyCap * families.dedup.length := by
  obtain ⟨-, -, r, hr, rfl⟩ := compileHierarchical_eq_ok.mp h
  change r.1.length ≤ _
  rw [compileFamilies_eq compiler.positive hr]
  refine (length_flatMap_le _ fun family _ ↦ List.length_take_le _ _).trans
    (Nat.mul_le_mul_left _ ?_)
  -- the keys of the groups are distinct families of survivors
  have hkeys : (sortedFamilies (Dict.groupBy ActionDefinition.family
      (survivors policy adm definitions)).keys).Perm
      (Dict.groupBy ActionDefinition.family (survivors policy adm definitions)).keys :=
    List.perm_insertionSort _ _
  rw [hkeys.length_eq]
  refine (List.subperm_of_subset (Dict.nodup _) fun family hfamily ↦ ?_).length_le
  obtain ⟨d, hd, rfl⟩ := List.mem_map.mp
    (List.mem_dedup.mp ((Dict.keys_groupBy_perm _ _).mem_iff.mp hfamily))
  exact List.mem_dedup.mpr (hfamilies d (List.mem_of_mem_filter hd))

end Count

/-! ### The serialised state -/

section Context

/-- `json.dumps` with `allow_nan=False` and `ensure_ascii=False` can write the value, and its text
can be encoded. -/
def Encodable (j : Json) : Prop := j.allFinite = true ∧ j.AllScalar

private theorem encodable_obj {es : List (Text × Json)} :
    Encodable (.obj es) ↔ ∀ e ∈ es, e.1.IsScalar ∧ Encodable e.2 := by
  rw [Encodable, Json.allFinite, Json.AllScalar, membersFinite_iff, membersScalar_iff]
  constructor
  · rintro ⟨hfinite, hscalar⟩ e he
    exact ⟨(hscalar e he).1, hfinite e he, (hscalar e he).2⟩
  · intro h
    exact ⟨fun e he ↦ (h e he).2.1, fun e he ↦ ⟨(h e he).1, (h e he).2.2⟩⟩

private theorem encodable_dictJson {V : Type} {f : V → Json} {d : Dict Text V} :
    Encodable (dictJson f d) ↔ ∀ e ∈ d.entries, e.1.IsScalar ∧ Encodable (f e.2) := by
  rw [dictJson, encodable_obj]
  exact List.forall_mem_map

private theorem encodable_insert {V : Type} {f : V → Json} {d : Dict Text V} {k : Text} {v : V}
    (hd : Encodable (dictJson f d)) (hk : k.IsScalar) (hv : Encodable (f v)) :
    Encodable (dictJson f (d.insert k v)) := by
  rw [encodable_dictJson] at hd ⊢
  rintro ⟨a, w⟩ he
  rw [← Dict.get?_eq_some_iff, Dict.get?_insert] at he
  split at he
  · next hka =>
    cases he
    rw [← hka]
    exact ⟨hk, hv⟩
  · exact hd (a, w) ((Dict.get?_eq_some_iff _ _ _).mp he)

private theorem isFinite_confidence {raw : RawState} (h : raw.ambiguity.isFinite = true) :
    (StateCompiler.confidence raw).isFinite = true := by
  obtain ⟨q, hq⟩ := PyFloat.exists_of_isFinite h
  have hmem := firstMax_mem PyFloat.lt (.fin 0) [PyFloat.sub (.fin 1) raw.ambiguity]
  rw [← StateCompiler.confidence, hq] at hmem
  obtain hzero | hmem := List.mem_cons.mp hmem
  · rw [hzero]
    rfl
  · rw [List.mem_singleton.mp hmem]
    rfl

private theorem isScalar_key (s : String) (h : (Text.ofString s).isAscii = true := by decide) :
    (Text.ofString s).IsScalar :=
  Text.isScalar_of_isAscii h

/-- Compilation keeps a state encodable. -/
theorem encodable_compiledAsdict {raw : RawState} (h : Encodable raw.asdict) :
    Encodable (compiledAsdict (StateCompiler.compiledState raw)) := by
  rw [RawState.asdict, encodable_obj] at h
  rw [compiledAsdict, encodable_obj]
  simp only [List.forall_mem_cons, List.not_mem_nil, false_imp_iff, implies_true, and_true] at h ⊢
  obtain ⟨goal, subgoal, facts, questions, failures, families, tools, models, budget, summary, risk,
    reversibility, approval, boundary, rollback, ambiguity, consequence, provenance⟩ := h
  have hrisk := encodable_insert (f := Scalar.toJson) (v := .text raw.consequence) risk.2
    (isScalar_key "consequence") consequence.2
  exact ⟨goal, subgoal, facts, questions, failures, families, tools, models, budget, summary,
    ⟨risk.1, hrisk⟩, reversibility, approval, boundary, rollback, ambiguity,
    ⟨isScalar_key "state_compilation_confidence", isFinite_confidence ambiguity.2.1, trivial⟩,
    provenance, ⟨isScalar_key "schema_version", rfl, isScalar_key "c3r.state.v1"⟩⟩

variable [FloatText]

/-- A state whose hash was computed is encodable. -/
theorem encodable_of_stateHash [Digest] {raw : RawState} {hash : Text}
    (h : stateHash raw = .ok hash) : Encodable raw.asdict := by
  obtain ⟨canonical, hcanonical, h⟩ := bind_eq_ok.mp h
  obtain ⟨bytes, hbytes, -⟩ := bind_eq_ok.mp h
  have hscalar := Text.exists_encodeUtf8_iff.mp ⟨bytes, hbytes⟩
  refine ⟨?_, (isScalar_dumps false hcanonical).mp hscalar rfl⟩
  unfold dumps at hcanonical
  split at hcanonical
  · cases hcanonical
  · next hfinite => simpa using hfinite

private theorem exists_bytes {j : Json} (h : Encodable j) :
    ∃ bytes, (j.sortKeys.renderSpaced false).encodeUtf8 = .ok bytes := by
  have hsorted : j.sortKeys.AllScalar := (Json.allScalar_sortKeys j).mpr h.2
  exact Text.exists_encodeUtf8_iff.mpr
    ((Json.isScalar_renderSpaced false j.sortKeys).mpr fun _ ↦ hsorted)

/-- An encodable state is serialised to some bytes, and the adapter counts them. -/
theorem context_ok_iff {state : CompiledState} (h : Encodable (compiledAsdict state)) :
    ∃ bytes, ((compiledAsdict state).sortKeys.renderSpaced false).encodeUtf8 = .ok bytes ∧
      ((∃ text, ClmAdapter.context state = .ok text) ↔ bytes.size ≤ ClmAdapter.maxContextBytes) := by
  obtain ⟨bytes, hbytes⟩ := exists_bytes h
  refine ⟨bytes, hbytes, ?_⟩
  have hcontext : ClmAdapter.context state =
      if ClmAdapter.maxContextBytes < bytes.size then
        .error (valueError "compiled state exceeds the bounded CLM context")
      else .ok ((compiledAsdict state).sortKeys.renderSpaced false) := by
    rw [ClmAdapter.context, h.1, Bool.not_true, if_neg Bool.false_ne_true]
    dsimp only
    rw [hbytes]
    rfl
  rw [hcontext]
  split
  · next hlong => exact iff_of_false (fun ⟨_, h⟩ ↦ (nomatch h)) (not_le.mpr hlong)
  · next hshort => exact iff_of_true ⟨_, rfl⟩ (not_lt.mp hshort)

end Context

/-! ### The call of a run -/

section Call

variable {D : Type} [Digest] [FloatText] [FloatRound]

omit [Digest] [FloatText] [FloatRound] in
private theorem checkOptions_ok_iff {options : List Text} (hne : options ≠ [])
    (hnodup : options.Nodup) (hlabels : ∀ option ∈ options, option ≠ [] ∧ option.length ≤ 1024) :
    ClmAdapter.checkOptions options = .ok () ↔ options.length ≤ ClmAdapter.maxOptions := by
  have hany : (options.any fun option ↦ decide (option = []) || decide (1024 < option.length)) =
      false := by
    refine List.any_eq_false.mpr fun option hoption ↦ ?_
    have := hlabels option hoption
    simpa using this
  unfold ClmAdapter.checkOptions
  rw [hany, if_neg Bool.false_ne_true]
  split
  · next hbad =>
    refine iff_of_false (fun h ↦ (nomatch h)) fun hle ↦ ?_
    obtain hnil | hmany | hrepeated := hbad
    · exact hne hnil
    · omega
    · exact hrepeated hnodup
  · next hgood =>
    refine iff_of_true rfl ?_
    rw [not_or, not_or, not_lt] at hgood
    exact hgood.2.1

/-- Whenever a run asks the fast path: its labels are not empty, distinct and short enough, at most
eight for each family that the state offers, and the state is serialised. What the adapter checks
then holds exactly when the serialised state and the number of candidates are within its bounds. -/
theorem decide_rankable_iff (c : StandaloneController) (hcap : c.candidates.perFamilyCap = 8)
    (request : RuntimeRequest) (requestedDeliberator : Bool)
    (es : List (Event HostOp (HostOp.Res D))) (state : CompiledState)
    (questions : List TypedQuestion) (actionFamily language : Text) (options : List Text)
    (k : HostOp.Res D (.decide state questions actionFamily language options) →
      HostProg D (RuntimeOutcome D))
    (hcall : Prog.Runs (c.run request requestedDeliberator) es
      (.call (.decide state questions actionFamily language options) k))
    (compilation : CandidateCompilation)
    (hcompiled : c.compileCandidates request state = .ok compilation)
    (hids : (compilation.candidates.map ActionCandidate.id).Nodup)
    (hlength : ∀ candidate ∈ compilation.candidates, candidate.id.length ≤ 900) :
    options ≠ [] ∧ options.Nodup ∧ (∀ option ∈ options, option ≠ [] ∧ option.length ≤ 1024) ∧
      options.length ≤ 8 * request.rawState.availableActionFamilies.dedup.length ∧
      ∃ bytes, ((compiledAsdict state).sortKeys.renderSpaced false).encodeUtf8 = .ok bytes ∧
        (Rankable state options ↔
          bytes.size ≤ ClmAdapter.maxContextBytes ∧ options.length ≤ ClmAdapter.maxOptions) := by
  obtain ⟨-, -, -, -, compilation', ho, rfl⟩ :=
    Prog.guarded_iff.mp (guarded_run (D := D) c request requestedDeliberator) es _ k hcall
  have hsame := ho.compiled_eq
  rw [hcompiled, Except.ok.injEq] at hsame
  subst hsame
  obtain rfl := StateCompiler.compile_eq_some ho.state_eq
  obtain ⟨hash, hhash⟩ := ho.hash
  have hoptions : compilation.candidates.map candidateOption ≠ [] := by
    simpa using ho.candidates_ne_nil
  have hnodup := nodup_candidateOption hids
  have hlabels : ∀ option ∈ compilation.candidates.map candidateOption,
      option ≠ [] ∧ option.length ≤ 1024 := by
    intro option hoption
    obtain ⟨candidate, hcandidate, rfl⟩ := List.mem_map.mp hoption
    have hid := hlength candidate hcandidate
    have hlabel := length_candidateOption candidate
    exact ⟨hlabel.1, by omega⟩
  have hcount : (compilation.candidates.map candidateOption).length ≤
      8 * request.rawState.availableActionFamilies.dedup.length := by
    rw [List.length_map, ← hcap]
    refine length_candidates_le hcompiled fun d hd ↦ ?_
    exact of_decide_eq_true (List.mem_filter.mp hd).2
  obtain ⟨bytes, hbytes, hcontext⟩ :=
    context_ok_iff (encodable_compiledAsdict (encodable_of_stateHash hhash))
  refine ⟨hoptions, hnodup, hlabels, hcount, bytes, hbytes, ?_⟩
  rw [← hcontext, ← checkOptions_ok_iff hoptions hnodup hlabels]
  exact ⟨fun h ↦ ⟨h.context, h.options⟩, fun h ↦ ⟨h.1, h.2⟩⟩

/-- An enabled fast path with the configured provider is asked about the candidates. -/
theorem exists_decide {c : StandaloneController} {request : RuntimeRequest} {state : CompiledState}
    {compilation : CandidateCompilation} (ho : c.Offers request state compilation)
    (henabled : c.flags.systemOneEnabled = true)
    (hprovider : c.fastPathProvider = some c.flags.systemOneProvider)
    (requestedDeliberator : Bool) : ∃ k,
      Prog.Runs (c.run request requestedDeliberator : HostProg D (RuntimeOutcome D)) []
        (.call (.decide state controlQuestions "CONTROL" request.language
          (compilation.candidates.map candidateOption)) k) := by
  obtain ⟨hash, hhash⟩ := ho.hash
  obtain ⟨k, hk⟩ : ∃ k, (c.systemOne request requestedDeliberator state compilation.candidates :
      HostProg D (Closing D)) = .call (.decide state controlQuestions "CONTROL" request.language
        (compilation.candidates.map candidateOption)) k := by
    unfold systemOne
    rw [henabled, Bool.not_true, if_neg Bool.false_ne_true, hprovider]
    dsimp only
    rw [if_neg (not_not.mpr rfl)]
    exact ⟨_, rfl⟩
  rw [run_eq ho hhash, hk]
  exact ⟨_, .nil _⟩

end Call

section Sample

attribute [local instance] Digest.transparent FloatText.fraction FloatRound.exact

/-- The lookup controller with a fast path and the default cap. -/
def rankingController : StandaloneController :=
  { lookupController with
    flags := { enabledRequested := true, systemOneRequested := true }
    candidates := ⟨8, by decide⟩
    fastPathProvider := some "clm" }

/-- Every family. -/
def allFamilies : List ActionFamily :=
  [.directTypedAction, .tool, .retrieval, .localModel, .frontierModel, .verify, .deliberate,
    .askUser, .stop]

/-- A lookup that can be placed in eight ways. -/
def placedDefinition (family : ActionFamily) : ActionDefinition :=
  { lookupDefinition with
    id := family.value
    family := family
    placements := ["a", "b", "c", "d", "e", "f", "g", "h"] }

/-- A request with eight candidates in each of some families. -/
def crowdedRequest (families : List ActionFamily) : RuntimeRequest :=
  { lookupRequest with
    rawState := { lookupRequest.rawState with availableActionFamilies := families }
    definitions := families.map placedDefinition
    policy := { allowedFamilies := families, allowedRisks := [.readOnly] } }

-- What has to be evaluated for a request of the sample.
private theorem offers_of (request : RuntimeRequest) (count : Nat)
    (hrunId : request.runId = lookupRequest.runId)
    (hbudget : request.rawState.budget = lookupRequest.rawState.budget)
    (hhash : ∃ hash, stateHash request.rawState = .ok hash)
    (hstate : (rankingController.compiler.compile request.rawState).state.isSome = true)
    (hcompiled : ((rankingController.compileCandidates request
      (StateCompiler.compiledState request.rawState)).toOption.map
        fun compilation ↦ (compilation.noSafeAction, compilation.candidates.length,
          decide (compilation.candidates.map ActionCandidate.id).Nodup,
          compilation.candidates.all fun c ↦ decide (c.id.length ≤ 900))) =
        some (false, count, true, true)) :
    ∃ compilation, rankingController.Offers request (StateCompiler.compiledState request.rawState)
        compilation ∧
      compilation.candidates.length = count ∧
      (compilation.candidates.map ActionCandidate.id).Nodup ∧
      ∀ candidate ∈ compilation.candidates, candidate.id.length ≤ 900 := by
  obtain ⟨state, hstate⟩ := Option.isSome_iff_exists.mp hstate
  obtain ⟨compilation, hcompiled, hfields⟩ := Option.map_eq_some_iff.mp hcompiled
  simp only [Prod.mk.injEq, decide_eq_true_eq, List.all_eq_true] at hfields
  have hpositive : PyFloat.lt (remainingBudget
      (StateCompiler.compiledState lookupRequest.rawState)) (.fin 0) = false := by decide +kernel
  obtain rfl := StateCompiler.compile_eq_some hstate
  refine ⟨compilation, ⟨?_, hhash, rfl, hstate, ?_, toOption_eq_some.mp hcompiled, hfields.1⟩,
    hfields.2⟩
  · rw [hrunId]
    decide
  · rw [← hpositive, remainingBudget, remainingBudget]
    change PyFloat.lt ((request.rawState.budget.get? _).getD _) _ = _
    rw [hbudget]
    rfl

private theorem exists_stateHash (raw : RawState)
    (h : (stateHash raw).toOption.isSome = true) : ∃ hash, stateHash raw = .ok hash := by
  obtain ⟨hash, hhash⟩ := Option.isSome_iff_exists.mp h
  exact ⟨hash, toOption_eq_some.mp hhash⟩

/-- The eight placements of one lookup can be ranked: the checks hold of them. -/
theorem decide_rankable_iff_tool : ∃ (state : CompiledState) (options : List Text)
    (k : HostOp.Res Unit (.decide state controlQuestions "CONTROL" "en" options) →
      HostProg Unit (RuntimeOutcome Unit)),
    Prog.Runs (rankingController.run (crowdedRequest [.tool])) []
      (.call (.decide state controlQuestions "CONTROL" "en" options) k) ∧
    options.length = 8 ∧ options.Nodup := by
  obtain ⟨compilation, ho, hcount, hids, hlength⟩ :=
    offers_of (crowdedRequest [.tool]) 8 rfl rfl
      (exists_stateHash _ (by decide +kernel)) (by decide +kernel) (by decide +kernel)
  obtain ⟨k, hcall⟩ := exists_decide (D := Unit) ho rfl rfl false
  have hall := decide_rankable_iff rankingController rfl (crowdedRequest [.tool]) false [] _ _ _
    _ _ k hcall compilation ho.compiled_eq hids hlength
  exact ⟨_, _, k, hcall, by rw [List.length_map, hcount], hall.2.1⟩

/-- Whenever a run with the default bounds asks the fast path about candidates with distinct and
short ids, the property holds of what it passes. -/
def WheneverAsked (P : CompiledState → List Text → Prop) : Prop :=
  ∀ (c : StandaloneController) (request : RuntimeRequest) (requestedDeliberator : Bool)
    (es : List (Event HostOp (HostOp.Res Unit))) (state : CompiledState)
    (questions : List TypedQuestion) (actionFamily language : Text) (options : List Text)
    (k : HostOp.Res Unit (.decide state questions actionFamily language options) →
      HostProg Unit (RuntimeOutcome Unit)) (compilation : CandidateCompilation),
    c.compiler.limits = { positive := StateLimits.positive_default } →
    c.candidates.perFamilyCap = 8 →
    Prog.Runs (c.run request requestedDeliberator) es
      (.call (.decide state questions actionFamily language options) k) →
    c.compileCandidates request state = .ok compilation →
    (compilation.candidates.map ActionCandidate.id).Nodup →
    (∀ candidate ∈ compilation.candidates, candidate.id.length ≤ 900) → P state options

-- Seventy-two candidates of nine families.
private theorem not_wheneverAsked_options :
    ¬ WheneverAsked fun _ options ↦ ClmAdapter.checkOptions options = .ok () := by
  intro hall
  obtain ⟨compilation, ho, hcount, hids, hlength⟩ :=
    offers_of (crowdedRequest allFamilies) 72 rfl rfl
      (exists_stateHash _ (by decide +kernel)) (by decide +kernel) (by decide +kernel)
  obtain ⟨k, hcall⟩ := exists_decide (D := Unit) ho rfl rfl false
  have hchecked : ClmAdapter.checkOptions (compilation.candidates.map candidateOption) = .ok () :=
    hall rankingController (crowdedRequest allFamilies) false [] _ _ _ _ _ k compilation rfl rfl
      hcall ho.compiled_eq hids hlength
  have hmany : ClmAdapter.maxOptions < (compilation.candidates.map candidateOption).length := by
    rw [List.length_map, hcount]
    decide
  rw [ClmAdapter.checkOptions, if_pos (.inr (.inl hmany))] at hchecked
  cases hchecked

/-- A consequence of `n` letters. -/
def wordyConsequence (n : Nat) : Text := List.replicate n 97

/-- A request whose consequence has `n` letters. -/
def wordyRequest (n : Nat) : RuntimeRequest :=
  { crowdedRequest [.tool] with
    rawState := { (crowdedRequest [.tool]).rawState with consequence := wordyConsequence n } }

private theorem quote_wordyConsequence (n : Nat) :
    (wordyConsequence n).Sublist (quote false (wordyConsequence n)) := by
  have hplain : (wordyConsequence n).flatMap (escapeChar false) = wordyConsequence n := by
    induction n with
    | zero => rfl
    | succ n ih =>
      change escapeChar false 97 ++ (wordyConsequence n).flatMap (escapeChar false) = _
      rw [ih]
      rfl
  rw [quote, hplain]
  exact (List.sublist_append_left _ _).cons _

private theorem encodable_wordy (n : Nat) : Encodable (wordyRequest n).rawState.asdict := by
  obtain ⟨hash, hhash⟩ := exists_stateHash (crowdedRequest [.tool]).rawState
    (by decide +kernel)
  have h := encodable_of_stateHash hhash
  rw [RawState.asdict, encodable_obj] at h ⊢
  simp only [List.forall_mem_cons, List.not_mem_nil, false_imp_iff, implies_true, and_true] at h ⊢
  obtain ⟨goal, subgoal, facts, questions, failures, families, tools, models, budget, summary, risk,
    reversibility, approval, boundary, rollback, ambiguity, consequence, provenance⟩ := h
  have hletters : (wordyConsequence n).IsScalar := by
    refine Text.isScalar_of_isAscii (List.all_eq_true.mpr fun c hc ↦ ?_)
    rw [List.eq_of_mem_replicate hc]
    decide
  exact ⟨goal, subgoal, facts, questions, failures, families, tools, models, budget, summary, risk,
    reversibility, approval, boundary, rollback, ambiguity, ⟨consequence.1, rfl, hletters⟩,
    provenance⟩

private theorem exists_stateHash_wordy (n : Nat) :
    ∃ hash, stateHash (wordyRequest n).rawState = .ok hash := by
  have h := encodable_wordy n
  obtain ⟨canonical, hcanonical⟩ : ∃ canonical,
      dumps false false (wordyRequest n).rawState.asdict = .ok canonical :=
    ⟨_, by rw [dumps, h.1, Bool.not_true, Bool.and_false, if_neg Bool.false_ne_true]⟩
  obtain ⟨bytes, hbytes⟩ := Text.exists_encodeUtf8_iff.mpr
    ((isScalar_dumps false hcanonical).mpr fun _ ↦ h.2)
  refine exists_bind_ok hcanonical (exists_bind_ok hbytes ⟨_, rfl⟩)

private theorem context_wordy {n : Nat} (hn : ClmAdapter.maxContextBytes < n) :
    ¬ ∃ text, ClmAdapter.context (StateCompiler.compiledState (wordyRequest n).rawState) =
      .ok text := by
  obtain ⟨bytes, hbytes, hcontext⟩ :=
    context_ok_iff (encodable_compiledAsdict (encodable_wordy n))
  rw [hcontext, not_le]
  refine hn.trans_le (le_trans ?_ (Text.length_le_of_encodeUtf8 hbytes))
  -- the letters are in the consequence, that is among the risks, and these are in the state
  have hrisk : (Text.ofString "risk", Json.obj [("consequence", .str (wordyConsequence n))]) ∈
      [(Text.ofString "risk", dictJson Scalar.toJson
        (StateCompiler.compiledState (wordyRequest n).rawState).risk)] :=
    List.mem_singleton_self _
  have hfield := sublist_renderSpaced_obj false (e := (Text.ofString "consequence",
    Json.str (wordyConsequence n))) (List.mem_singleton_self _)
  refine (List.length_replicate (n := n) (a := (97 : CodePoint))).ge.trans
    (((quote_wordyConsequence n).trans (hfield.trans ?_)).length_le)
  refine sublist_renderSpaced_obj false (e := (Text.ofString "risk", dictJson Scalar.toJson
    (StateCompiler.compiledState (wordyRequest n).rawState).risk)) ?_
  iterate 10 refine List.mem_cons_of_mem _ ?_
  exact List.mem_cons_self

-- A consequence is not measured.
private theorem not_wheneverAsked_context :
    ¬ WheneverAsked fun state _ ↦ ∃ text, ClmAdapter.context state = .ok text := by
  intro hall
  obtain ⟨compilation, ho, -, hids, hlength⟩ :=
    offers_of (wordyRequest 40000) 8 rfl rfl (exists_stateHash_wordy 40000)
      (by decide +kernel) (by decide +kernel)
  obtain ⟨k, hcall⟩ := exists_decide (D := Unit) ho rfl rfl false
  exact context_wordy (by decide) (hall rankingController (wordyRequest 40000) false [] _ _ _ _ _ k
    compilation rfl rfl hcall ho.compiled_eq hids hlength)

/-- Neither the number of options nor the size of the context is bounded by what the controller
checks. -/
theorem not_wheneverAsked_rankable :
    ¬ WheneverAsked Rankable ∧
      (¬ WheneverAsked fun _ options ↦ ClmAdapter.checkOptions options = .ok ()) ∧
      ¬ WheneverAsked fun state _ ↦ ∃ text, ClmAdapter.context state = .ok text := by
  refine ⟨fun hall ↦ not_wheneverAsked_options ?_, not_wheneverAsked_options,
    not_wheneverAsked_context⟩
  intro c request flag es state questions family language options k compilation hlimits hcap hcall
    hcompiled hids hlength
  exact (hall c request flag es state questions family language options k compilation hlimits hcap
    hcall hcompiled hids hlength).options

end Sample

end C3RSpec.SystemOne
