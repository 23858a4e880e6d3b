import C3RSpec.Runtime.AuthorityBoundary
import C3RSpec.Telemetry.TraceLedger

/-!
# Two runs of the controller

`c3r/runtime.py:137–351`, run twice. A host that answers each call by its arguments turns a run
into a value, so two runs are compared stage by stage. A learned ranking that changes can suppress
a recommendation and not replace it, and a task text that changes reaches the trace through the
state hash alone.
-/

namespace C3RSpec.Runtime

open Base Telemetry Authority Candidates

/-- How every host call is answered. -/
abbrev Host (D : Type) : Type := (o : HostOp) → HostOp.Res D o

namespace StandaloneController

variable {D : Type}

/-! ### Stages as values -/

/-- What is left of a result after the four caught exceptions. -/
def caught {α : Type} : Except PyError α → Except PyError (Option α)
  | .ok a => .ok (some a)
  | .error e => if e.isHostFailure then .ok none else .error e

/-- A host call is answered by the host. -/
theorem value_ask (host : Host D) (o : HostOp) : Prog.value host (ask o) = host o := by
  rw [ask, Prog.value_bind, Prog.value_perform]
  exact Prog.value_ofExcept host (host o)

@[simp] theorem value_ask_verifier (host : Host D) (id : Text) (candidate : ActionCandidate) :
    @Prog.value _ _ VerifierDecision host (ask (.verifier id candidate)) =
      host (.verifier id candidate) :=
  value_ask host _

@[simp] theorem value_ask_deliberate (host : Host D) (which : Deliberator)
    (state : CompiledState) :
    @Prog.value _ _ (Deliberated D) host (ask (.deliberate which state)) =
      host (.deliberate which state) :=
  value_ask host _

@[simp] theorem value_ask_decide (host : Host D) (state : CompiledState)
    (questions : List TypedQuestion) (actionFamily language : Text) (options : List Text) :
    @Prog.value _ _ FastPathDecision host
      (ask (.decide state questions actionFamily language options)) =
      host (.decide state questions actionFamily language options) :=
  value_ask host _

@[simp] theorem value_attempt {α : Type} (host : Host D) (p : HostProg D α) :
    Prog.value host (attempt p) = caught (Prog.value host p) := by
  rw [attempt, Prog.value_tryCatch, Prog.value_bind]
  cases Prog.value host p with
  | ok a => rfl
  | error e =>
    change Prog.value host (if e.isHostFailure then pure none else throw e) =
      if e.isHostFailure then .ok none else .error e
    split <;> rfl

/-- A guarded call that ends alike under two hosts, followed by stages that do. -/
theorem value_attempt_bind {α β : Type} {hostA hostB : Host D} {p q : HostProg D α}
    {f g : Option α → HostProg D β} (hp : Prog.value hostA p = Prog.value hostB q)
    (hf : ∀ answer, Prog.value hostA (f answer) = Prog.value hostB (g answer)) :
    Prog.value hostA (attempt p >>= f) = Prog.value hostB (attempt q >>= g) := by
  rw [Prog.value_bind, Prog.value_bind, value_attempt, value_attempt, hp]
  congr 1
  ext answer : 1
  exact hf answer

/-- Two hosts whose verifiers agree, and whose deliberators answer alike about two states. -/
structure Alike (a b : CompiledState) (hostA hostB : Host D) : Prop where
  verifier : ∀ id candidate, hostA (.verifier id candidate) = hostB (.verifier id candidate)
  deliberate : ∀ which, hostA (.deliberate which a) = hostB (.deliberate which b)

namespace Alike

variable {a b : CompiledState} {hostA hostB : Host D} (c : StandaloneController)

private theorem value_verify [Digest] [FloatText] (h : Alike a b hostA hostB)
    (candidate : ActionCandidate) :
    Prog.value hostA (c.verifier.verify candidate) =
      Prog.value hostB (c.verifier.verify candidate) := by
  unfold VerifierFirewall.verify
  simp only [StandaloneController.verifier, Dict.get?_mapEntries]
  cases c.verifierIds.get? (c.verifierPolicy.select candidate) with
  | none => rfl
  | some u =>
    simp only [Option.map_some, Prog.value_bind, value_ask_verifier, h.verifier,
      Prog.value_monadExcept_ofExcept]
    rfl

private theorem value_deliberateOrStop (h : Alike a b hostA hostB) (ids : List Text)
    (reason : Text) (fast : Option FastPathDecision) (deliberator : Option Deliberator) :
    Prog.value hostA (c.deliberateOrStop a ids reason fast deliberator) =
      Prog.value hostB (c.deliberateOrStop b ids reason fast deliberator) := by
  unfold deliberateOrStop
  split
  · rfl
  · next which _ =>
    refine value_attempt_bind (α := Deliberated D) ?_ fun answer ↦ ?_
    · rw [value_ask_deliberate, value_ask_deliberate, h.deliberate]
    cases answer with
    | none => rfl
    | some answer =>
      cases answer with
      | other value => rfl
      | provider result =>
        dsimp only
        split <;> rfl

variable [Digest] [FloatText] [FloatRound] (requestA requestB : RuntimeRequest)

omit [FloatRound] in
private theorem value_textFallback (h : Alike a b hostA hostB) (requested : Bool)
    (candidates : List ActionCandidate) (fallback : ActionCandidate)
    (fast : Option FastPathDecision) :
    Prog.value hostA (c.textFallback requested a candidates fallback fast) =
      Prog.value hostB (c.textFallback requested b candidates fallback fast) := by
  unfold textFallback
  refine value_attempt_bind (h.value_verify c fallback) fun verification ↦ ?_
  cases verification with
  | none => rfl
  | some verification =>
    dsimp only
    split
    · exact h.value_deliberateOrStop c _ _ _ _
    · rfl

omit [FloatRound] in
private theorem value_withSelection (h : Alike a b hostA hostB)
    (htext : requestA.requestedTextGeneration = requestB.requestedTextGeneration)
    (requested : Bool) (candidates : List ActionCandidate) (fast : Option FastPathDecision)
    (selected : ActionCandidate) (lowerBound : PyFloat) :
    Prog.value hostA (c.withSelection requestA requested a candidates fast selected lowerBound) =
      Prog.value hostB
        (c.withSelection requestB requested b candidates fast selected lowerBound) := by
  unfold withSelection
  rw [htext]
  refine value_attempt_bind (h.value_verify c selected) fun verification ↦ ?_
  cases verification with
  | none => rfl
  | some verification =>
    dsimp only
    split
    · rfl
    · split
      · exact h.value_deliberateOrStop c _ _ _ _
      · split <;> rfl

private theorem value_selectAction (h : Alike a b hostA hostB)
    (htext : requestA.requestedTextGeneration = requestB.requestedTextGeneration)
    (hestimates : requestA.estimates = requestB.estimates) (requested : Bool)
    (candidates : List ActionCandidate) (fast : Option FastPathDecision) :
    Prog.value hostA (c.selectAction requestA requested a candidates fast) =
      Prog.value hostB (c.selectAction requestB requested b candidates fast) := by
  unfold selectAction
  rw [hestimates]
  split
  · unfold withoutSelection
    rw [htext]
    split
    · exact h.value_textFallback c requested candidates _ fast
    · rfl
  · exact h.value_withSelection c requestA requestB htext requested candidates fast _ _

private theorem value_systemOne (h : Alike a b hostA hostB)
    (hdecide : ∀ questions family language options,
      hostA (.decide a questions family language options) =
        hostB (.decide b questions family language options))
    (htext : requestA.requestedTextGeneration = requestB.requestedTextGeneration)
    (hestimates : requestA.estimates = requestB.estimates)
    (hlanguage : requestA.language = requestB.language) (requested : Bool)
    (candidates : List ActionCandidate) :
    Prog.value hostA (c.systemOne requestA requested a candidates) =
      Prog.value hostB (c.systemOne requestB requested b candidates) := by
  have hselect := h.value_selectAction c requestA requestB htext hestimates requested candidates
  unfold systemOne
  split
  · exact hselect none
  · split
    · rfl
    · split
      · rfl
      · refine value_attempt_bind (α := FastPathDecision) ?_ fun answer ↦ ?_
        · rw [value_ask_decide, value_ask_decide, hdecide, hlanguage]
        cases answer with
        | none =>
          dsimp only
          rw [htext]
          split
          · exact hselect none
          · exact h.value_deliberateOrStop c _ _ _ _
        | some fast =>
          dsimp only
          unfold afterFastPath
          split
          · exact h.value_deliberateOrStop c _ _ _ _
          · split
            · rfl
            · split
              · exact h.value_deliberateOrStop c _ _ _ _
              · exact hselect (some fast)

end Alike

/-! ### Runs -/

section Runs

variable [Digest] [FloatText] [FloatRound] (c : StandaloneController) (host : Host D)

/-- The traces that a run passed to the sink. -/
def appended (es : List (Event HostOp (HostOp.Res D))) : List DecisionTrace :=
  es.filterMap fun e ↦
    match e.op with
    | .append trace => some trace
    | .decide _ _ _ _ _ | .verifier _ _ | .deliberate _ _ => none

omit [Digest] [FloatText] [FloatRound] in
private theorem appended_of_silent {es : List (Event HostOp (HostOp.Res D))} (h : Silent es) :
    appended es = [] := by
  refine List.filterMap_eq_nil_iff.mpr fun e he ↦ ?_
  have hnot := List.filter_eq_nil_iff.mp h e he
  obtain ⟨o, answer⟩ := e
  cases o with
  | append trace => exact absurd rfl hnot
  | decide | verifier | deliberate => rfl

private theorem silent_chooseClosing (request : RuntimeRequest) (requested : Bool) :
    Silent (Prog.play host (c.chooseClosing request requested)).1 := by
  obtain ⟨-, -, -, -, hsilent, -⟩ := (all_chooseClosing c request requested).of_finishes
    (Prog.finishes_play host (c.chooseClosing request requested))
  exact hsilent

/-- What a run under a fixed host does once it has chosen how to close. -/
theorem play_run (request : RuntimeRequest) (requested : Bool) {hash : Text}
    {closing : Closing D} (hid : request.runId ≠ []) (hhash : stateHash request.rawState = .ok hash)
    (hclosing : Prog.value host (c.chooseClosing request requested) = .ok closing) :
    appended (Prog.play host (c.run request requested)).1 = [finishTrace request hash closing] ∧
      Prog.value host (c.run request requested) =
        (host (.append (finishTrace request hash closing))).map (finishOutcome closing) := by
  have hsilent := appended_of_silent (silent_chooseClosing c host request requested)
  have hfinish : Prog.play host (finish request hash closing) =
      ([⟨.append (finishTrace request hash closing),
        host (.append (finishTrace request hash closing))⟩],
      (host (.append (finishTrace request hash closing))).map (finishOutcome closing)) := by
    unfold finish ask
    simp only [Prog.bind_perform, Prog.bind_call, Prog.play]
    cases host (.append (finishTrace request hash closing)) <;> rfl
  rw [run, if_neg hid, hhash, Prog.bind_ofExcept_ok, Prog.value,
    Prog.play_bind_of_ok host hclosing, hfinish]
  refine ⟨?_, rfl⟩
  rw [appended, List.filterMap_append]
  rw [appended] at hsilent
  rw [hsilent]
  rfl

/-- A run under a fixed host stops before it closes, or closes as it has chosen. -/
theorem run_cases (request : RuntimeRequest) (requested : Bool) :
    (appended (Prog.play host (c.run request requested)).1 = [] ∧
      ∃ e, Prog.value host (c.run request requested) = .error e) ∨
    (request.runId ≠ [] ∧ ∃ hash closing, stateHash request.rawState = .ok hash ∧
      Prog.value host (c.chooseClosing request requested) = .ok closing) := by
  by_cases hid : request.runId = []
  · rw [run, if_pos hid]
    exact .inl ⟨rfl, _, rfl⟩
  · cases hhash : stateHash request.rawState with
    | error e =>
      rw [run, if_neg hid, hhash]
      exact .inl ⟨rfl, e, rfl⟩
    | ok hash =>
      cases hclosing : Prog.value host (c.chooseClosing request requested) with
      | ok closing => exact .inr ⟨hid, hash, closing, rfl, rfl⟩
      | error e =>
        rw [run, if_neg hid, hhash, Prog.bind_ofExcept_ok, Prog.value,
          Prog.play_bind_of_error host hclosing]
        exact .inl ⟨appended_of_silent (silent_chooseClosing c host request requested), e, rfl⟩

/-- An outcome is that of the closing that the run has chosen. -/
theorem exists_closing {c : StandaloneController} {host : Host D} {request : RuntimeRequest}
    {requested : Bool} {outcome : RuntimeOutcome D}
    (h : Prog.value host (c.run request requested) = .ok outcome) :
    ∃ hash, request.runId ≠ [] ∧ stateHash request.rawState = .ok hash ∧
      ∃ closing, Prog.value host (c.chooseClosing request requested) = .ok closing ∧
        ∃ record, outcome = finishOutcome closing record := by
  obtain ⟨-, e, he⟩ | ⟨hid, hash, closing, hhash, hclosing⟩ := run_cases c host request requested
  · rw [he] at h
    cases h
  · refine ⟨hash, hid, hhash, closing, hclosing, ?_⟩
    rw [(play_run c host request requested hid hhash hclosing).2] at h
    cases hrecord : host (.append (finishTrace request hash closing)) with
    | error e =>
      rw [hrecord] at h
      cases h
    | ok record =>
      rw [hrecord] at h
      exact ⟨record, (Except.ok.inj h).symm⟩

end Runs

/-! ### A changed task text -/

section Text

variable [Digest] [FloatText] [FloatRound] (c : StandaloneController)

omit [FloatRound] in
private theorem isHex_stateHash {raw : RawState} {hash : Text}
    (h : stateHash raw = .ok hash) : hash.all isHexChar = true := by
  obtain ⟨canonical, -, h⟩ := bind_eq_ok.mp h
  obtain ⟨bytes, -, h⟩ := bind_eq_ok.mp h
  rw [← Except.ok.inj h]
  exact Digest.isHex_sha256Hex bytes

private theorem value_chooseClosing {request : RuntimeRequest} {raw : RawState}
    {a b : CompiledState} {hostA hostB : Host D} (halike : Alike a b hostA hostB)
    (hdecide : ∀ questions family language options,
      hostA (.decide a questions family language options) =
        hostB (.decide b questions family language options))
    (ha : (c.compiler.compile request.rawState).state = some a)
    (hb : (c.compiler.compile raw).state = some b)
    (hfamilies : request.rawState.availableActionFamilies = raw.availableActionFamilies)
    (hbudget : request.rawState.budget.get? "remaining_usd" = raw.budget.get? "remaining_usd")
    (requested : Bool) :
    Prog.value hostA (c.chooseClosing request requested) =
      Prog.value hostB (c.chooseClosing { request with rawState := raw } requested) := by
  have hremaining : remainingBudget a = remainingBudget b := by
    rw [StateCompiler.compile_eq_some ha, StateCompiler.compile_eq_some hb]
    exact congrArg (fun x ↦ Option.getD x (.fin 0)) hbudget
  have hcompile : c.compileCandidates request a =
      c.compileCandidates { request with rawState := raw } b := by
    have hdefinitions : availableDefinitions request a =
        availableDefinitions { request with rawState := raw } b := by
      rw [StateCompiler.compile_eq_some ha, StateCompiler.compile_eq_some hb]
      unfold availableDefinitions StateCompiler.compiledState
      rw [hfamilies]
    rw [compileCandidates, compileCandidates, hdefinitions, hremaining]
  unfold chooseClosing
  simp only [ha, hb]
  split
  · rfl
  · unfold compileActions
    rw [hremaining, hcompile]
    split
    · rfl
    · rw [Prog.value_bind, Prog.value_bind, Prog.value_ofExcept, Prog.value_ofExcept]
      congr 1
      ext compiled : 1
      split
      · rfl
      · exact halike.value_systemOne c request { request with rawState := raw } hdecide rfl rfl rfl
          requested compiled.candidates

/-- Two requests that differ in the raw state, with the same families and the same remaining
budget, and hosts that answer alike about the two compiled states: the traces are the same up to
the state hash, and so are their texts. -/
theorem text_reaches_trace_by_hash (request : RuntimeRequest) (raw : RawState)
    (a b : CompiledState) (hostA hostB : Host D) (halike : Alike a b hostA hostB)
    (hdecide : ∀ questions family language options,
      hostA (.decide a questions family language options) =
        hostB (.decide b questions family language options))
    (ha : (c.compiler.compile request.rawState).state = some a)
    (hb : (c.compiler.compile raw).state = some b)
    (hfamilies : request.rawState.availableActionFamilies = raw.availableActionFamilies)
    (hbudget : request.rawState.budget.get? "remaining_usd" = raw.budget.get? "remaining_usd")
    (requested : Bool) (traceA traceB : DecisionTrace)
    (hA : traceA ∈ appended (Prog.play hostA (c.run request requested)).1)
    (hB : traceB ∈
      appended (Prog.play hostB (c.run { request with rawState := raw } requested)).1) :
    stateHash request.rawState = .ok traceA.stateHash ∧ stateHash raw = .ok traceB.stateHash ∧
      { traceA with stateHash := traceB.stateHash } = traceB ∧
      ((∃ e, canonicalTraceJson traceA = .error e ∧ canonicalTraceJson traceB = .error e) ∨
        ∃ before after : Text,
          canonicalTraceJson traceA = .ok (before ++ traceA.stateHash ++ after) ∧
          canonicalTraceJson traceB = .ok (before ++ traceB.stateHash ++ after)) := by
  have hsame := value_chooseClosing c halike hdecide ha hb hfamilies hbudget requested
  obtain ⟨hnone, -⟩ | ⟨hid, hashA, closing, hhashA, hclosing⟩ := run_cases c hostA request requested
  · rw [hnone] at hA
    cases hA
  · obtain ⟨hnone, -⟩ | ⟨-, hashB, closingB, hhashB, hclosingB⟩ :=
      run_cases c hostB { request with rawState := raw } requested
    · rw [hnone] at hB
      cases hB
    · obtain rfl : closing = closingB := by
        rw [hsame, hclosingB] at hclosing
        exact (Except.ok.inj hclosing).symm
      rw [(play_run c hostA request requested hid hhashA hclosing).1, List.mem_singleton] at hA
      rw [(play_run c hostB { request with rawState := raw } requested hid hhashB hclosingB).1,
        List.mem_singleton] at hB
      subst hA hB
      refine ⟨hhashA, hhashB, rfl, ?_⟩
      obtain ⟨e, herror⟩ | ⟨before, after, htext⟩ :=
        canonicalTraceJson_around (finishTrace request hashA closing)
      · exact .inl ⟨e, herror hashA, herror hashB⟩
      · exact .inr ⟨before, after, htext hashA (isHex_stateHash hhashA),
          htext hashB (isHex_stateHash hhashB)⟩

end Text

section TextSample

attribute [local instance] Digest.transparent FloatText.fraction FloatRound.exact

/-- The state of the lookup in other words, with a fact and a question. -/
def retoldState : RawState :=
  { lookupRequest.rawState with
    goal := "Close the account"
    currentSubgoal := "Check the balance"
    verifiedFacts := ["The account is empty"]
    openQuestions := ["Which account?"]
    provenance := Dict.ofList [("The account is empty",
      { source := "ledger", observedAt := "2026-08-01" })] }

/-- Both runs recommend the lookup, and their traces differ in the state hash alone. -/
theorem text_reaches_trace_by_hash_lookup : ∃ traceA traceB : DecisionTrace,
    traceA ∈ appended (Prog.play acceptingHost (lookupController.run lookupRequest)).1 ∧
    traceB ∈ appended (Prog.play acceptingHost
      (lookupController.run { lookupRequest with rawState := retoldState })).1 ∧
    traceA.selectedActionId = some (Text.ofString "lookup:0:local:policy") ∧
    traceA.stateHash ≠ traceB.stateHash ∧
    { traceA with stateHash := traceB.stateHash } = traceB := by
  have hcompiles : ∀ raw, (lookupController.compiler.compile raw).state.isSome = true →
      (lookupController.compiler.compile raw).state = some (StateCompiler.compiledState raw) := by
    intro raw h
    obtain ⟨state, hstate⟩ := Option.isSome_iff_exists.mp h
    rw [hstate, StateCompiler.compile_eq_some hstate]
  have hruns : (appended (Prog.play acceptingHost (lookupController.run lookupRequest)).1).any
      (fun traceA ↦ (appended (Prog.play acceptingHost
        (lookupController.run { lookupRequest with rawState := retoldState })).1).any fun traceB ↦
          decide (traceA.selectedActionId = some (Text.ofString "lookup:0:local:policy")) &&
          decide (traceA.stateHash ≠ traceB.stateHash)) = true := by
    decide +kernel
  obtain ⟨traceA, hA, hruns⟩ := List.any_eq_true.mp hruns
  obtain ⟨traceB, hB, hdiffer⟩ := List.any_eq_true.mp hruns
  rw [Bool.and_eq_true, decide_eq_true_eq, decide_eq_true_eq] at hdiffer
  have hall := text_reaches_trace_by_hash lookupController lookupRequest retoldState
    (StateCompiler.compiledState lookupRequest.rawState) (StateCompiler.compiledState retoldState)
    acceptingHost acceptingHost ⟨fun _ _ ↦ rfl, fun _ ↦ rfl⟩ (fun _ _ _ _ ↦ rfl)
    (hcompiles _ (by decide +kernel)) (hcompiles _ (by decide +kernel)) rfl rfl false
    traceA traceB hA hB
  exact ⟨traceA, traceB, hA, hB, hdiffer.1, hdiffer.2, hall.2.2.1⟩

end TextSample

/-! ### A changed ranking -/

/-- A fast path: whether it is asked for, its provider, and how it decides. -/
structure FastPath where
  requested : Bool
  provider : Option Text
  decide : CompiledState → List TypedQuestion → Text → Text → List Text →
    Except PyError FastPathDecision

/-- A controller with another fast path. -/
def withFastPath (c : StandaloneController) (f : FastPath) : StandaloneController :=
  { c with flags := { c.flags with systemOneRequested := f.requested }
           fastPathProvider := f.provider }

/-- The fast path among the other components. -/
def FastPath.host (f : FastPath) (others : Host D) : Host D
  | .decide state questions actionFamily language options =>
    f.decide state questions actionFamily language options
  | .verifier id candidate => others (.verifier id candidate)
  | .deliberate which state => others (.deliberate which state)
  | .append trace => others (.append trace)

private theorem FastPath.alike (f g : FastPath) (others : Host D) (state : CompiledState) :
    Alike state state (f.host others) (g.host others) :=
  ⟨fun _ _ ↦ rfl, fun _ ↦ rfl⟩

private theorem selected_deliberateOrStop (c : StandaloneController) (host : Host D)
    (state : CompiledState) (ids : List Text) (reason : Text) (fast : Option FastPathDecision)
    (deliberator : Option Deliberator) {closing : Closing D}
    (h : Prog.value host (c.deliberateOrStop state ids reason fast deliberator) = .ok closing) :
    closing.selected = none := by
  unfold deliberateOrStop at h
  split at h
  · cases h
    rfl
  · rw [Prog.value_bind] at h
    obtain ⟨answer, -, h⟩ := bind_eq_ok.mp h
    split at h
    · cases h
      rfl
    · split at h
      · cases h
        rfl
      · cases h
        rfl
    · cases h
      rfl

/-- A closing selects nothing, or what the closing of another run selects. -/
def SelectsAs (closing : Closing D) (other : Except PyError (Closing D)) : Prop :=
  closing.selected = none ∨ ∃ closing', other = .ok closing' ∧ closing'.selected = closing.selected

private theorem SelectsAs.ok {closing winning : Closing D} (h : SelectsAs closing (.ok winning)) :
    closing.selected.map ActionCandidate.id = none ∨
      closing.selected.map ActionCandidate.id = winning.selected.map ActionCandidate.id := by
  obtain h | ⟨closing', hok, hsame⟩ := h
  · rw [h]
    exact .inl rfl
  · cases hok
    rw [hsame]
    exact .inr rfl

private theorem SelectsAs.error {closing : Closing D} {e : PyError}
    (h : SelectsAs closing (.error e)) : closing.selected.map ActionCandidate.id = none := by
  obtain h | ⟨closing', hok, -⟩ := h
  · rw [h, Option.map_none]
  · cases hok

section Ranking

variable [Digest] [FloatText] [FloatRound] (c : StandaloneController) (request : RuntimeRequest)
  (requested : Bool)

-- The decision is recorded in the closing and read nowhere.
private theorem selected_selectAction (host : Host D) (state : CompiledState)
    (candidates : List ActionCandidate) (fast : Option FastPathDecision) {closing : Closing D}
    (h : Prog.value host (c.selectAction request requested state candidates fast) = .ok closing) :
    SelectsAs closing
      (Prog.value host (c.selectAction request requested state candidates none)) := by
  unfold selectAction at h ⊢
  split at h
  · refine .inl ?_
    unfold withoutSelection at h
    split at h
    · unfold textFallback at h
      rw [Prog.value_bind] at h
      obtain ⟨verification, -, h⟩ := bind_eq_ok.mp h
      split at h
      · cases h
        rfl
      · split at h
        · exact selected_deliberateOrStop c host _ _ _ _ _ h
        · cases h
          rfl
    · cases h
      rfl
  · next selected _ =>
    unfold withSelection at h ⊢
    rw [Prog.value_bind] at h ⊢
    obtain ⟨verification, hverification, h⟩ := bind_eq_ok.mp h
    rw [hverification]
    cases verification with
    | none =>
      cases h
      exact .inl rfl
    | some verification =>
      dsimp only at h
      split at h
      · cases h
        exact .inl rfl
      · next haccepted =>
        split at h
        · exact .inl (selected_deliberateOrStop c host _ _ _ _ _ h)
        · next hfamily =>
          split at h
          · cases h
            exact .inl rfl
          · next hrisk =>
            cases h
            refine .inr ⟨
              { route := "recommendation", reason := "VERIFIED_RECOMMENDATION"
                selected := some selected, candidateIds := candidateIds candidates
                lowerBound := some (c.cvoc.select candidates request.estimates).lowerBound
                authorityResult := "verified_not_committed" }, ?_, rfl⟩
            change Prog.value host (if _ then _ else _) = _
            rw [if_neg haccepted, if_neg hfamily, if_neg hrisk]
            rfl

variable (others : Host D) (f off : FastPath)

private theorem selected_systemOne (hoff : off.requested = false) (state : CompiledState)
    (candidates : List ActionCandidate) {closing : Closing D}
    (h : Prog.value (f.host others)
      ((c.withFastPath f).systemOne request requested state candidates) = .ok closing) :
    SelectsAs closing (Prog.value (off.host others)
      ((c.withFastPath off).systemOne request requested state candidates)) := by
  have hdisabled : (c.withFastPath off).systemOne (D := D) request requested state candidates =
      c.selectAction request requested state candidates none := by
    have hflag : (c.withFastPath off).flags.systemOneEnabled = false := by
      rw [withFastPath, FeatureFlags.systemOneEnabled, hoff, Bool.and_false]
    rw [systemOne, hflag]
    rfl
  have hselect : ∀ fast, Prog.value (f.host others)
      ((c.withFastPath f).selectAction request requested state candidates fast) = .ok closing →
      SelectsAs closing (Prog.value (off.host others)
        (c.selectAction request requested state candidates none)) := by
    intro fast hfast
    obtain hnone | ⟨closing', hvalue, hsame⟩ :=
      selected_selectAction c request requested (f.host others) state candidates fast hfast
    · exact .inl hnone
    · refine .inr ⟨closing', ?_, hsame⟩
      rw [← hvalue]
      exact (off.alike f others state).value_selectAction c request request rfl rfl requested
        candidates none
  rw [hdisabled]
  unfold systemOne at h
  split at h
  · exact hselect none h
  · split at h
    · cases h
      exact .inl rfl
    · split at h
      · cases h
        exact .inl rfl
      · rw [Prog.value_bind] at h
        obtain ⟨answer, -, h⟩ := bind_eq_ok.mp h
        cases answer with
        | none =>
          dsimp only at h
          split at h
          · exact hselect none h
          · exact .inl (selected_deliberateOrStop _ _ _ _ _ _ _ h)
        | some fast =>
          dsimp only at h
          unfold afterFastPath at h
          split at h
          · exact .inl (selected_deliberateOrStop _ _ _ _ _ _ _ h)
          · split at h
            · cases h
              exact .inl rfl
            · split at h
              · exact .inl (selected_deliberateOrStop _ _ _ _ _ _ _ h)
              · exact hselect (some fast) h

private theorem selected_chooseClosing (hoff : off.requested = false) {closing : Closing D}
    (h : Prog.value (f.host others) ((c.withFastPath f).chooseClosing request requested) =
      .ok closing) :
    SelectsAs closing (Prog.value (off.host others)
      ((c.withFastPath off).chooseClosing request requested)) := by
  have hcompiler : ∀ k : FastPath, (c.withFastPath k).compiler = c.compiler := fun _ ↦ rfl
  have henabled : ∀ k : FastPath, (c.withFastPath k).flags.enabledRequested =
      c.flags.enabledRequested := fun _ ↦ rfl
  have hcandidates : ∀ (k : FastPath) (state : CompiledState),
      (c.withFastPath k).compileCandidates request state = c.compileCandidates request state :=
    fun _ _ ↦ rfl
  unfold chooseClosing at h ⊢
  rw [henabled, hcompiler] at h
  rw [henabled, hcompiler]
  by_cases hrequested : c.flags.enabledRequested = true
  · rw [hrequested, Bool.not_true, if_neg Bool.false_ne_true] at h ⊢
    cases hstate : (c.compiler.compile request.rawState).state with
    | none =>
      rw [hstate] at h
      cases h
      exact .inl rfl
    | some state =>
      rw [hstate] at h
      dsimp only at h ⊢
      unfold compileActions at h ⊢
      by_cases hbudget : PyFloat.lt (remainingBudget state) (.fin 0) = true
      · rw [if_pos hbudget] at h
        cases h
        exact .inl rfl
      · rw [if_neg hbudget, Prog.value_bind, Prog.value_ofExcept, hcandidates] at h
        rw [if_neg hbudget, Prog.value_bind, Prog.value_ofExcept, hcandidates]
        obtain ⟨compiled, hcompiled, h⟩ := bind_eq_ok.mp h
        rw [hcompiled]
        cases hsafe : compiled.noSafeAction with
        | true =>
          rw [hsafe] at h
          cases h
          exact .inl rfl
        | false =>
          rw [hsafe] at h
          change SelectsAs _ (Prog.value _ (if compiled.noSafeAction = true then _ else _))
          rw [hsafe]
          exact selected_systemOne c request requested others f off hoff state _ h
  · rw [Bool.not_eq_true] at hrequested
    rw [hrequested] at h
    cases h
    exact .inl rfl

/-- A fast path can suppress a recommendation; it never introduces or replaces one. Whatever two
fast paths decide or raise, each outcome selects nothing or the one action that the run without
System One selects. -/
theorem fastPath_only_suppresses (f g off : FastPath) (hoff : off.requested = false)
    (a b : RuntimeOutcome D)
    (ha : Prog.value (f.host others) ((c.withFastPath f).run request requested) = .ok a)
    (hb : Prog.value (g.host others) ((c.withFastPath g).run request requested) = .ok b) :
    ∃ winner : Option Text,
      (a.selectedActionId = none ∨ a.selectedActionId = winner) ∧
      (b.selectedActionId = none ∨ b.selectedActionId = winner) ∧
      (∀ d, Prog.value (off.host others) ((c.withFastPath off).run request requested) = .ok d →
        d.selectedActionId = winner) ∧
      (winner ≠ none → (appended (Prog.play (off.host others)
        ((c.withFastPath off).run request requested)).1).map DecisionTrace.selectedActionId =
          [winner]) := by
  obtain ⟨hash, hid, hhash, closingA, hclosingA, recordA, rfl⟩ := exists_closing ha
  obtain ⟨-, -, -, closingB, hclosingB, recordB, rfl⟩ := exists_closing hb
  have hA := selected_chooseClosing c request requested others f off hoff hclosingA
  have hB := selected_chooseClosing c request requested others g off hoff hclosingB
  cases hclosing : Prog.value (off.host others)
      ((c.withFastPath off).chooseClosing request requested) with
  | error e =>
    rw [hclosing] at hA hB
    refine ⟨none, .inl hA.error, .inl hB.error, fun d hd ↦ ?_, fun h ↦ absurd rfl h⟩
    obtain ⟨-, -, -, closing, h, -⟩ := exists_closing hd
    rw [hclosing] at h
    cases h
  | ok winning =>
    rw [hclosing] at hA hB
    have hrun := play_run (c.withFastPath off) (off.host others) request requested hid hhash hclosing
    refine ⟨winning.selected.map ActionCandidate.id, hA.ok, hB.ok, fun d hd ↦ ?_, fun _ ↦ ?_⟩
    · obtain ⟨-, -, -, closing, h, record, rfl⟩ := exists_closing hd
      rw [hclosing] at h
      cases h
      rfl
    · rw [hrun.1]
      rfl

end Ranking

section RankingSample

attribute [local instance] Digest.transparent FloatText.fraction FloatRound.exact

/-- A fast path that answers both control questions with no, or abstains. -/
def controlFastPath (abstained : Bool) : FastPath where
  requested := true
  provider := some (Text.ofString "clm")
  decide _ _ _ _ _ := .ok
    { answers := Dict.ofList [("STOP_NOW", "NO"), ("DELIBERATION_REQUIRED", "NO")]
      probabilities := ∅, abstained, reasons := [], modelId := "model", modelRevision := "1" }

/-- One fast path lets the lookup through, the other suppresses it. -/
theorem fastPath_only_suppresses_lookup : ∃ a b : RuntimeOutcome Unit,
    a.selectedActionId = some (Text.ofString "lookup:0:local:policy") ∧
    b.selectedActionId = none ∧ ∃ winner : Option Text, a.selectedActionId = winner ∧
      (b.selectedActionId = none ∨ b.selectedActionId = winner) := by
  have hA : (Prog.value ((controlFastPath false).host acceptingHost)
      ((lookupController.withFastPath (controlFastPath false)).run lookupRequest)).toOption.map
        RuntimeOutcome.selectedActionId =
      some (some (Text.ofString "lookup:0:local:policy")) := by
    decide +kernel
  have hB : (Prog.value ((controlFastPath true).host acceptingHost)
      ((lookupController.withFastPath (controlFastPath true)).run lookupRequest)).toOption.map
        RuntimeOutcome.selectedActionId = some none := by
    decide +kernel
  obtain ⟨a, ha, hsela⟩ := Option.map_eq_some_iff.mp hA
  obtain ⟨b, hb, hselb⟩ := Option.map_eq_some_iff.mp hB
  obtain ⟨winner, hwa, hwb, -⟩ := fastPath_only_suppresses lookupController lookupRequest false
    acceptingHost (controlFastPath false) (controlFastPath true)
    { controlFastPath false with requested := false } rfl a b (toOption_eq_some.mp ha)
    (toOption_eq_some.mp hb)
  refine ⟨a, b, hsela, hselb, winner, ?_, hwb⟩
  obtain hwa | hwa := hwa
  · rw [hsela] at hwa
    cases hwa
  · exact hwa

end RankingSample

end StandaloneController

end C3RSpec.Runtime
