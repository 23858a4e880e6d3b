import C3RSpec.Runtime.StateCompiler

/-!
# What the text bounds cover

`c3r/state_compiler.py:48–138`. The bound check measures five text fields and five sequences of
texts. The keys and the texts of the four mappings are carried over as well, with the consequence
among the risks, and of these only the number is bounded.
-/

namespace C3RSpec.Runtime

open Base

/-- The total length of texts. -/
def totalChars (texts : List Text) : Nat := (texts.map List.length).sum

/-- The text in a scalar. -/
def scalarTexts : Scalar → List Text
  | .text t => [t]
  | .float _ => []
  | .bool _ => []

/-- The texts of a provenance entry. -/
def provenanceTexts (p : Provenance) : List Text := [p.source, p.observedAt] ++ p.digest.toList

/-- The key that the compiler writes itself. -/
def consequenceKey : Text := "consequence"

/-- The keys and the texts of the four mappings, where the keys of the risks stand apart. -/
def mappingTexts (budget : Dict Text PyFloat) (runtimeSummary : Dict Text Scalar)
    (riskKeys : List Text) (riskValues : List Scalar) (provenance : Dict Text Provenance) :
    List Text :=
  budget.keys ++ runtimeSummary.keys ++ runtimeSummary.values.flatMap scalarTexts ++ riskKeys ++
    riskValues.flatMap scalarTexts ++ provenance.keys ++ provenance.values.flatMap provenanceTexts

/-- The texts of the fields and of the sequences of a compiled state. -/
def fieldTexts (s : CompiledState) : List Text :=
  [s.goal, s.currentSubgoal, s.reversibility, s.dataBoundary] ++ s.rollbackState.toList ++
    s.verifiedFacts ++ s.openQuestions ++ s.recentFailures ++ s.toolSummary ++ s.modelInventory

/-- Every text of a compiled state that comes from the raw state; the compiler writes the key of
the consequence itself, unless the raw state has it. -/
def carriedTexts (raw : RawState) (s : CompiledState) : List Text :=
  fieldTexts s ++ mappingTexts s.budget s.runtimeSummary
    (s.risk.keys.filter fun k ↦ decide (k ∈ raw.risk.keys)) s.risk.values s.provenance

/-- Each text is within the text bound, and all together are within the total. -/
def Within (limits : StateLimits) (texts : List Text) : Prop :=
  (∀ t ∈ texts, t.length ≤ limits.maxTextChars) ∧ totalChars texts ≤ limits.maxTotalChars

/-- What the bound check leaves out fits: each text of the mappings is short enough, and there is
room for them beside the texts that are measured. -/
def MappingsFit (limits : StateLimits) (raw : RawState) : Prop :=
  let texts := mappingTexts raw.budget raw.runtimeSummary raw.risk.keys
    (raw.risk.insert consequenceKey (.text raw.consequence)).values raw.provenance
  (∀ t ∈ texts, t.length ≤ limits.maxTextChars) ∧
    totalChars (StateCompiler.textValues raw) + totalChars texts ≤ limits.maxTotalChars

/-- The state has the fields of the raw state, except for the consequence among its risks, and
provenance for each of its facts. -/
structure CarriedOver (raw : RawState) (s : CompiledState) : Prop where
  goal : s.goal = raw.goal
  currentSubgoal : s.currentSubgoal = raw.currentSubgoal
  verifiedFacts : s.verifiedFacts = raw.verifiedFacts
  openQuestions : s.openQuestions = raw.openQuestions
  recentFailures : s.recentFailures = raw.recentFailures
  availableActionFamilies : s.availableActionFamilies = raw.availableActionFamilies
  toolSummary : s.toolSummary = raw.toolSummary
  modelInventory : s.modelInventory = raw.modelInventory
  budget : s.budget = raw.budget
  runtimeSummary : s.runtimeSummary = raw.runtimeSummary
  consequence : s.risk.get? consequenceKey = some (.text raw.consequence)
  risk : ∀ k ≠ consequenceKey, s.risk.get? k = raw.risk.get? k
  reversibility : s.reversibility = raw.reversibility
  approvalRequired : s.approvalRequired = raw.approvalRequired
  dataBoundary : s.dataBoundary = raw.dataBoundary
  rollbackState : s.rollbackState = raw.rollbackState
  ambiguity : s.ambiguity = raw.ambiguity
  provenance : s.provenance = raw.provenance
  facts : ∀ fact ∈ s.verifiedFacts, fact ∈ s.provenance.keys

/-- A compiled state passed the fact check and the bound check. -/
theorem exists_of_compiled {c : StateCompiler} {raw : RawState}
    (h : (c.compile raw).status = .compiled) :
    (c.compile raw).state = some (StateCompiler.compiledState raw) ∧
      (∀ fact ∈ raw.verifiedFacts, fact ∈ raw.provenance.keys) ∧
      StateCompiler.checkBounds c.limits raw = none := by
  unfold StateCompiler.compile at h ⊢
  split at h
  · cases h
  · next hfacts =>
    split at h
    · cases h
    · next hbounds =>
      split at h
      · cases h
      · next hambiguity =>
        split at h
        · cases h
        · next hconfidence =>
          rw [if_neg hfacts, hbounds]
          simp only [hambiguity, hconfidence, if_false, Bool.false_eq_true, true_and, and_true]
          intro fact hfact
          by_contra hmissing
          exact hfacts (List.any_eq_true.mpr ⟨fact, hfact, decide_eq_true hmissing⟩)

private theorem carriedOver_compiledState {raw : RawState}
    (hfacts : ∀ fact ∈ raw.verifiedFacts, fact ∈ raw.provenance.keys) :
    CarriedOver raw (StateCompiler.compiledState raw) where
  goal := rfl
  currentSubgoal := rfl
  verifiedFacts := rfl
  openQuestions := rfl
  recentFailures := rfl
  availableActionFamilies := rfl
  toolSummary := rfl
  modelInventory := rfl
  budget := rfl
  runtimeSummary := rfl
  consequence := by
    change (raw.risk.insert consequenceKey _).get? consequenceKey = _
    rw [Dict.get?_insert, if_pos rfl]
  risk k hk := by
    change (raw.risk.insert consequenceKey _).get? k = _
    rw [Dict.get?_insert, if_neg (Ne.symm hk)]
  reversibility := rfl
  approvalRequired := rfl
  dataBoundary := rfl
  rollbackState := rfl
  ambiguity := rfl
  provenance := rfl
  facts := hfacts

private theorem within_textValues {limits : StateLimits} {raw : RawState}
    (h : StateCompiler.checkBounds limits raw = none) :
    Within limits (StateCompiler.textValues raw) := by
  unfold StateCompiler.checkBounds at h
  rw [Option.or_eq_none_iff, Option.or_eq_none_iff] at h
  have h := h.2.2
  split at h
  · cases h
  · next hlong =>
    split at h
    · cases h
    · next htotal =>
      refine ⟨fun t ht ↦ ?_, not_lt.mp htotal⟩
      by_contra hlt
      exact hlong (List.any_eq_true.mpr ⟨t, ht, decide_eq_true (not_le.mp hlt)⟩)

private theorem totalChars_append (a b : List Text) :
    totalChars (a ++ b) = totalChars a + totalChars b := by
  rw [totalChars, List.map_append, List.sum_append]
  rfl

private theorem within_append {limits : StateLimits} {a b : List Text} :
    Within limits (a ++ b) ↔ (∀ t ∈ a, t.length ≤ limits.maxTextChars) ∧
      (∀ t ∈ b, t.length ≤ limits.maxTextChars) ∧
      totalChars a + totalChars b ≤ limits.maxTotalChars := by
  rw [Within, totalChars_append]
  constructor
  · rintro ⟨hall, htotal⟩
    exact ⟨fun t ht ↦ hall t (List.mem_append_left b ht),
      fun t ht ↦ hall t (List.mem_append_right a ht), htotal⟩
  · rintro ⟨ha, hb, htotal⟩
    refine ⟨fun t ht ↦ ?_, htotal⟩
    obtain ht | ht := List.mem_append.mp ht
    · exact ha t ht
    · exact hb t ht

private theorem filter_keys_insert (d : Dict Text Scalar) (k : Text) (v : Scalar) :
    ((d.insert k v).keys.filter fun a ↦ decide (a ∈ d.keys)) = d.keys := by
  have hself : (d.keys.filter fun a ↦ decide (a ∈ d.keys)) = d.keys :=
    List.filter_eq_self.mpr fun a ha ↦ decide_eq_true ha
  by_cases hk : k ∈ d.keys
  · rw [Dict.keys_insert_of_mem v hk, hself]
  · rw [Dict.keys_insert_of_notMem v hk, List.filter_append, hself]
    simp [hk]

private theorem mem_fieldTexts {raw : RawState} {t : Text}
    (h : t ∈ fieldTexts (StateCompiler.compiledState raw)) : t ∈ StateCompiler.textValues raw := by
  simp only [fieldTexts, StateCompiler.textValues, StateCompiler.compiledState, List.mem_append,
    List.mem_cons, List.not_mem_nil, or_false, Option.mem_toList] at h ⊢
  -- The measured text of an absent rollback state is empty.
  have hrollback : raw.rollbackState = some t → t = raw.rollbackState.getD [] := by
    intro hsome
    rw [hsome, Option.getD_some]
  tauto

private theorem totalChars_fieldTexts (raw : RawState) :
    totalChars (fieldTexts (StateCompiler.compiledState raw)) =
      totalChars (StateCompiler.textValues raw) := by
  cases hrollback : raw.rollbackState <;>
    simp [totalChars, fieldTexts, StateCompiler.textValues, StateCompiler.compiledState, hrollback]

private theorem carriedTexts_compiledState (raw : RawState) :
    carriedTexts raw (StateCompiler.compiledState raw) =
      fieldTexts (StateCompiler.compiledState raw) ++
        mappingTexts raw.budget raw.runtimeSummary raw.risk.keys
          (raw.risk.insert consequenceKey (.text raw.consequence)).values raw.provenance := by
  change _ ++ mappingTexts _ _ ((raw.risk.insert consequenceKey _).keys.filter _) _ _ = _
  rw [filter_keys_insert]
  rfl

/-- A compiled state carries the raw state over, and its texts are within the bounds exactly when
those of the mappings fit beside the measured ones. -/
theorem compiled_within_iff (c : StateCompiler) (raw : RawState)
    (h : (c.compile raw).status = .compiled) :
    ∃ state, (c.compile raw).state = some state ∧ CarriedOver raw state ∧
      (Within c.limits (carriedTexts raw state) ↔ MappingsFit c.limits raw) := by
  obtain ⟨hstate, hfacts, hbounds⟩ := exists_of_compiled h
  refine ⟨_, hstate, carriedOver_compiledState hfacts, ?_⟩
  have hfields : ∀ t ∈ fieldTexts (StateCompiler.compiledState raw),
      t.length ≤ c.limits.maxTextChars :=
    fun t ht ↦ (within_textValues hbounds).1 t (mem_fieldTexts ht)
  rw [carriedTexts_compiledState, within_append, totalChars_fieldTexts]
  constructor
  · rintro ⟨-, hlong, htotal⟩
    exact ⟨hlong, htotal⟩
  · rintro ⟨hlong, htotal⟩
    exact ⟨hfields, hlong, htotal⟩

private theorem half_inRange :
    (PyFloat.le (.fin 0) (.fin (1 / 2)) && PyFloat.le (.fin (1 / 2)) (.fin 1)) = true := by
  decide +kernel

/-- A compiler for short texts. -/
def shortCompiler : StateCompiler where
  limits := { maxTextChars := 12, maxTotalChars := 24 }
  inRange := half_inRange

/-- A state whose consequence is `consequence`. -/
def ratedState (consequence : Text) : RawState where
  goal := "g"
  currentSubgoal := "s"
  consequence := consequence

/-- A low consequence is within the bounds of the short compiler. -/
theorem compiled_within_iff_low :
    (shortCompiler.compile (ratedState "low")).status = .compiled ∧
      MappingsFit shortCompiler.limits (ratedState "low") ∧
      ∃ state, (shortCompiler.compile (ratedState "low")).state = some state ∧
        CarriedOver (ratedState "low") state ∧
        Within shortCompiler.limits (carriedTexts (ratedState "low") state) := by
  have hfit : MappingsFit shortCompiler.limits (ratedState "low") := by
    unfold MappingsFit
    decide
  have hstatus : (shortCompiler.compile (ratedState "low")).status = .compiled := by decide +kernel
  obtain ⟨state, hstate, hcarried, hwithin⟩ := compiled_within_iff _ _ hstatus
  exact ⟨hstatus, hfit, state, hstate, hcarried, hwithin.mpr hfit⟩

/-- A consequence of seventeen characters compiles under a bound of twelve. -/
theorem not_within_long_consequence :
    ¬ ∀ (c : StateCompiler) (raw : RawState), (c.compile raw).status = .compiled →
      ∃ state, (c.compile raw).state = some state ∧ CarriedOver raw state ∧
        Within c.limits (carriedTexts raw state) := by
  intro hall
  obtain ⟨state, hstate, -, hlong, -⟩ :=
    hall shortCompiler (ratedState "catastrophic loss") (by decide +kernel)
  have hsome : (shortCompiler.compile (ratedState "catastrophic loss")).state =
      some (StateCompiler.compiledState (ratedState "catastrophic loss")) :=
    (exists_of_compiled (by decide +kernel)).1
  rw [hsome, Option.some.injEq] at hstate
  rw [← hstate, carriedTexts_compiledState] at hlong
  exact absurd (hlong "catastrophic loss" (by decide)) (by decide)

end C3RSpec.Runtime
