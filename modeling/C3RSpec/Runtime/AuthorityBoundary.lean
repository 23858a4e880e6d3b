import C3RSpec.Base.JsonParse
import C3RSpec.Runtime.Controller

/-!
# The controller's authority boundary

Whatever the host answers, a run that returns has appended exactly one trace, the trace agrees
with the outcome, and an action is named only after it was compiled for this request, valued
above zero, accepted by the policy-selected verifier and found read-only.
-/

namespace C3RSpec.Runtime

open Base Telemetry Authority Candidates

namespace StandaloneController

variable {D : Type}

/-- The event is a call of the trace sink. -/
def isAppend (e : Event HostOp (HostOp.Res D)) : Bool :=
  match e.op with
  | .append _ => true
  | .decide _ _ _ _ _ | .verifier _ _ | .deliberate _ _ => false

/-- The event is a call of a verifier. -/
def isVerifier (e : Event HostOp (HostOp.Res D)) : Bool :=
  match e.op with
  | .verifier _ _ => true
  | .decide _ _ _ _ _ | .deliberate _ _ | .append _ => false

/-- No event calls the trace sink. -/
def Silent (es : List (Event HostOp (HostOp.Res D))) : Prop := es.filter isAppend = []

/-- The verifier that the policy selects for a candidate accepted it. -/
def AcceptedIn (c : StandaloneController) (candidate : ActionCandidate)
    (es : List (Event HostOp (HostOp.Res D))) : Prop :=
  ∃ decision : VerifierDecision, decision.accepted = true ∧
    ⟨.verifier (c.verifierPolicy.select candidate) candidate, .ok decision⟩ ∈ es

private theorem silent_append {es es' : List (Event HostOp (HostOp.Res D))} (h : Silent es)
    (h' : Silent es') : Silent (es ++ es') := by
  rw [Silent, List.filter_append, h, h', List.append_nil]

/-- A named action is one of the candidates, accepted among `es` and found read-only, under an
estimate above zero. -/
structure Authorized [FloatRound] (c : StandaloneController) (request : RuntimeRequest)
    (candidates : List ActionCandidate) (es : List (Event HostOp (HostOp.Res D)))
    (candidate : ActionCandidate) : Prop where
  mem : candidate ∈ candidates
  family : candidate.family ≠ .deliberate
  readOnly : candidate.riskClass = .readOnly
  valued : ∃ e, request.estimates.get? candidate.id = some e ∧
    PyFloat.le (c.cvoc.lowerBound e) (.fin 0) = false
  accepted : c.AcceptedIn candidate es

/-- The texts that `run` passes as a route. -/
def routes : List Text := ["deterministic", "system_one", "deliberative", "recommendation"]

/-- The texts that `run` passes as a reason before deliberation. -/
def deliberationReasons : List Text :=
  ["SYSTEM_ONE_FAILURE", "SYSTEM_ONE_ABSTAINED", "DELIBERATION_REQUIRED",
   "REQUESTED_TEXT_POLICY_FALLBACK", "CVOC_SELECTED_DELIBERATION"]

/-- The texts that `run` passes as a reason. -/
def reasons : List Text :=
  (["C3R_DISABLED", "COMPILED", "STATE_UNSAFE_TO_COMPRESS", "INVALID_BUDGET", "NO_SAFE_ACTION",
   "SYSTEM_ONE_UNAVAILABLE", "SYSTEM_ONE_PROVIDER_MISMATCH", "STOP_NOW", "VERIFIER_FAILURE",
   "VERIFICATION_REJECTED", "NON_POSITIVE_CVOC", "EFFECT_EXECUTION_UNAVAILABLE",
   "VERIFIED_RECOMMENDATION", "DELIBERATIVE_FAILURE", "DELIBERATIVE_INVALID_COST"] : List Text) ++
    deliberationReasons ++ deliberationReasons.map fun reason ↦ reason ++ Text.ofString "_NO_PROVIDER"

/-- The cost of a provider result is finite and not negative. -/
def validCost (result : ProviderExecutionResult D) : Bool :=
  !(result.observedCost.values.any fun v ↦ !v.isFinite || PyFloat.lt v (.fin 0))

/-- A deliberator returned this provider result. -/
def DeliberatedIn (result : ProviderExecutionResult D)
    (es : List (Event HostOp (HostOp.Res D))) : Prop :=
  ∃ which state, ⟨.deliberate which state, .ok (.provider result)⟩ ∈ es

/-- How a run may close: every argument of `finish`, with where it comes from. The stage before
decided `fast`. -/
structure Exit [FloatRound] (c : StandaloneController) (request : RuntimeRequest)
    (candidates : List ActionCandidate) (fast : Option FastPathDecision)
    (es : List (Event HostOp (HostOp.Res D))) (closing : Closing D) : Prop where
  route : closing.route ∈ routes
  reason : closing.reason ∈ reasons
  selected : ∀ candidate, closing.selected = some candidate →
    closing.route = "recommendation" ∧ c.Authorized request candidates es candidate
  candidateIds : closing.candidateIds = [] ∨
    closing.candidateIds = StandaloneController.candidateIds candidates
  lowerBound : ∀ q, closing.lowerBound = some q →
    PyFloat.le q (.fin 0) = false ∧ ∃ e, q = c.cvoc.lowerBound e
  bound : ∀ candidate, closing.selected = some candidate →
    ∃ e, request.estimates.get? candidate.id = some e ∧
      closing.lowerBound = some (c.cvoc.lowerBound e)
  authorityResult : closing.authorityResult ∈ (["not_attempted", "verified_not_committed"] : List Text)
  fast : closing.fast = none ∨ closing.fast = fast
  provider : (closing.providerId = none ∧ closing.systemCost = none) ∨
    ∃ result, DeliberatedIn result es ∧ validCost result = true ∧
      closing.providerId = some result.providerId ∧ closing.systemCost = some result.observedCost

/-- A stage stays silent, and when it chooses a closing it is one of the exits. -/
def Chooses [FloatRound] (c : StandaloneController) (request : RuntimeRequest)
    (candidates : List ActionCandidate) (fast : Option FastPathDecision)
    (es : List (Event HostOp (HostOp.Res D))) (x : Except PyError (Closing D)) : Prop :=
  Silent es ∧ ∀ closing, x = .ok closing → c.Exit request candidates fast es closing

/-- Earlier silent events do not matter. -/
theorem Chooses.prepend [FloatRound] {c : StandaloneController} {request : RuntimeRequest}
    {candidates : List ActionCandidate} {fast : Option FastPathDecision}
    {es es' : List (Event HostOp (HostOp.Res D))} {x : Except PyError (Closing D)}
    (hs : Silent es) (h : c.Chooses request candidates fast es' x) :
    c.Chooses request candidates fast (es ++ es') x := by
  refine ⟨silent_append hs h.1, fun closing hx ↦ ?_⟩
  have he := h.2 closing hx
  refine { he with selected := ?_, provider := ?_ }
  · intro candidate hc
    obtain ⟨hroute, ha⟩ := he.selected candidate hc
    obtain ⟨decision, hd, hm⟩ := ha.accepted
    exact ⟨hroute, { ha with accepted := ⟨decision, hd, List.mem_append_right es hm⟩ }⟩
  · rcases he.provider with hn | ⟨result, ⟨which, state, hm⟩, hv⟩
    · exact .inl hn
    · exact .inr ⟨result, ⟨which, state, List.mem_append_right es hm⟩, hv⟩

/-! ### Host calls -/

/-- A host call is one event, whose answer is the result. -/
theorem all_ask {o : HostOp} {Q : List (Event HostOp (HostOp.Res D)) →
    Except PyError (o.Answer D) → Prop} (h : ∀ r : HostOp.Res D o, Q [⟨o, r⟩] r) :
    Prog.All Q (ask o) := by
  intro r
  cases r with
  | ok a => exact h (.ok a)
  | error e => exact h (.error e)

/-- A caught failure is the absence of a value. -/
theorem all_attempt {α : Type} {p : HostProg D α} {Q : List (Event HostOp (HostOp.Res D)) →
    Except PyError (Option α) → Prop}
    (h : Prog.All (fun es x ↦ (∀ a, x = .ok a → Q es (.ok (some a))) ∧
      ∀ e, x = .error e → Q es (if e.isHostFailure then .ok none else .error e)) p) :
    Prog.All Q (attempt p) := by
  refine Prog.All.tryCatch (Prog.All.bind (h.mono ?_))
  rintro es x ⟨hok, herr⟩
  refine ⟨?_, ?_⟩
  · rintro a rfl
    refine ⟨?_, ?_⟩
    · rintro b hb
      cases hb
      rw [List.append_nil]
      exact hok a rfl
    · intro e he
      cases he
  · rintro e rfl
    have hq := herr e rfl
    refine ⟨fun a ha ↦ (nomatch ha), ?_⟩
    rintro e' he
    cases he
    split
    · next hf =>
      rw [if_pos hf] at hq
      change Q (es ++ []) (.ok none)
      rwa [List.append_nil]
    · next hf =>
      rw [if_neg hf] at hq
      change Q (es ++ []) (.error e)
      rwa [List.append_nil]

/-- A guarded stage after a caught host computation. -/
theorem all_attempt_bind {α β : Type} {p : HostProg D α} {f : Option α → HostProg D β}
    {R : List (Event HostOp (HostOp.Res D)) → α → Prop}
    {Q : List (Event HostOp (HostOp.Res D)) → Except PyError β → Prop}
    (hp : Prog.All (fun es x ↦ Silent es ∧ ∀ a, x = .ok a → R es a) p)
    (hsome : ∀ es a, Silent es → R es a → Prog.All (fun es' y ↦ Q (es ++ es') y) (f (some a)))
    (hnone : ∀ es, Silent es → Prog.All (fun es' y ↦ Q (es ++ es') y) (f none))
    (herr : ∀ es e, Silent es → Q es (.error e)) : Prog.All Q (attempt p >>= f) := by
  refine Prog.All.bind (all_attempt (hp.mono ?_))
  rintro es x ⟨hs, hx⟩
  refine ⟨?_, ?_⟩
  · rintro a rfl
    refine ⟨?_, fun e he ↦ (nomatch he)⟩
    rintro o ho
    cases ho
    exact hsome es a hs (hx a rfl)
  · rintro e rfl
    split
    · refine ⟨?_, fun e' he ↦ (nomatch he)⟩
      rintro o ho
      cases ho
      exact hnone es hs
    · exact ⟨fun o ho ↦ (nomatch ho), fun e' _ ↦ herr es e' hs⟩

-- a step of `verify` that computes without the host
private theorem all_pureTail {α β : Type} {x : Except PyError α} {f : α → HostProg D β}
    {Q : List (Event HostOp (HostOp.Res D)) → Except PyError β → Prop}
    (herr : ∀ e, Q [] (.error e)) (hok : ∀ a, Prog.All Q (f a)) :
    Prog.All Q (MonadExcept.ofExcept x >>= f) := by
  cases x with
  | ok a => exact hok a
  | error e => exact herr e

/-- Verification calls one verifier; acceptance is that verifier's. -/
theorem all_verify [Digest] [FloatText] (c : StandaloneController) (candidate : ActionCandidate) :
    Prog.All (fun es x ↦ Silent es ∧ ∀ r : VerificationResult, x = .ok r →
      (∀ e ∈ es, isVerifier e = true) ∧ (r.accepted = true → c.AcceptedIn candidate es))
      (c.verifier.verify candidate : HostProg D VerificationResult) := by
  unfold VerifierFirewall.verify
  simp only [verifier, Dict.get?_mapEntries]
  cases hv : c.verifierIds.get? (c.verifierPolicy.select candidate) with
  | none => exact ⟨rfl, fun r hr ↦ by cases hr⟩
  | some u =>
    refine Prog.All.bind ?_
    refine @all_ask D (.verifier (c.verifierPolicy.select candidate) candidate) _ fun answer ↦ ?_
    refine ⟨?_, ?_⟩
    · rintro decision rfl
      refine all_pureTail ?_ fun fingerprint ↦ all_pureTail ?_ fun attestation ↦ ?_
      · exact fun e ↦ ⟨rfl, fun r hr ↦ by cases hr⟩
      · exact fun e ↦ ⟨rfl, fun r hr ↦ by cases hr⟩
      · refine ⟨rfl, fun r hr ↦ ⟨fun e he ↦ ?_, fun ha ↦ ?_⟩⟩
        · rw [List.mem_singleton.mp he]
          rfl
        · cases hr
          exact ⟨decision, ha, List.mem_append_left _ (List.mem_singleton_self _)⟩
    · rintro e rfl
      exact ⟨rfl, fun r hr ↦ by cases hr⟩

/-! ### Stages -/

section Stages

variable [FloatRound] {c : StandaloneController} {request : RuntimeRequest}
  {candidates : List ActionCandidate} {fast : Option FastPathDecision}

-- the exits that name no action and no provider
private theorem exit_plain {es : List (Event HostOp (HostOp.Res D))} {route reason : Text}
    {ids : List Text} {recorded : Option FastPathDecision} (deliberation : Option D)
    (hroute : route ∈ routes) (hreason : reason ∈ reasons)
    (hids : ids = [] ∨ ids = candidateIds candidates)
    (hfast : recorded = none ∨ recorded = fast) :
    c.Exit request candidates fast es
      { route, reason, candidateIds := ids, fast := recorded, deliberation } where
  route := hroute
  reason := hreason
  selected := fun _ h ↦ (nomatch h)
  candidateIds := hids
  lowerBound := fun _ h ↦ (nomatch h)
  bound := fun _ h ↦ (nomatch h)
  authorityResult := List.mem_cons_self
  fast := hfast
  provider := .inl ⟨rfl, rfl⟩

private theorem chooses_return {es : List (Event HostOp (HostOp.Res D))} {closing : Closing D}
    (hs : Silent es) (h : c.Exit request candidates fast es closing) :
    Prog.All (fun es' y ↦ c.Chooses request candidates fast (es ++ es') y)
      (return closing : HostProg D (Closing D)) := by
  refine ⟨silent_append hs rfl, fun closing' hc ↦ ?_⟩
  cases hc
  rwa [List.append_nil]

private theorem chooses_now {closing : Closing D}
    (h : c.Exit request candidates fast [] closing) :
    Prog.All (c.Chooses request candidates fast) (return closing : HostProg D (Closing D)) := by
  refine ⟨rfl, fun closing' hc ↦ ?_⟩
  cases hc
  exact h

private theorem chooses_error {es : List (Event HostOp (HostOp.Res D))} (e : PyError)
    (hs : Silent es) : c.Chooses request candidates fast es (.error e : Except _ (Closing D)) :=
  ⟨hs, fun _ h ↦ (nomatch h)⟩

omit [FloatRound] in
private theorem status_mem_reasons (status : CompilationStatus) : status.value ∈ reasons := by
  cases status <;> decide

omit [FloatRound] in
private theorem mem_reasons_of_mem {reason : Text} (h : reason ∈ deliberationReasons) :
    reason ∈ reasons ∧ reason ++ Text.ofString "_NO_PROVIDER" ∈ reasons := by
  refine ⟨List.mem_append_left _ (List.mem_append_right _ h), ?_⟩
  exact List.mem_append_right _ (List.mem_map.mpr ⟨reason, h, rfl⟩)

/-- Deliberation names no action. -/
theorem all_deliberateOrStop (state : CompiledState) {reason : Text}
    (hr : reason ∈ deliberationReasons) (deliberator : Option Deliberator) :
    Prog.All (c.Chooses request candidates fast)
      (c.deliberateOrStop state (candidateIds candidates) reason fast deliberator :
        HostProg D (Closing D)) := by
  obtain ⟨hr, hstop⟩ := mem_reasons_of_mem hr
  have det : Text.ofString "deterministic" ∈ routes := by decide
  have del : Text.ofString "deliberative" ∈ routes := by decide
  unfold deliberateOrStop
  split
  · exact chooses_now (exit_plain none det hstop (.inr rfl) (.inr rfl))
  · next which _ =>
    refine @all_attempt_bind D _ _ _ _
      (fun es a ↦ ⟨.deliberate which state, .ok a⟩ ∈ es) _ (all_ask fun r ↦ ⟨rfl, ?_⟩) ?_ ?_ ?_
    · rintro a rfl
      exact List.mem_singleton_self _
    · intro es answer hs hm
      cases answer with
      | other value => exact chooses_return hs (exit_plain (some value) del hr (.inr rfl) (.inr rfl))
      | provider result =>
        dsimp only
        split
        · exact chooses_return hs (exit_plain none det (by decide) (.inr rfl) (.inr rfl))
        · next hv =>
          refine chooses_return hs { exit_plain (some result.deliberation) del hr (.inr rfl) (.inr rfl)
            with provider := .inr ⟨result, ⟨which, state, hm⟩, ?_, rfl, rfl⟩ }
          rw [validCost, Bool.not_eq_true', ← Bool.not_eq_true]
          exact hv
    · intro es hs
      exact chooses_return hs (exit_plain none det (by decide) (.inr rfl) (.inr rfl))
    · exact fun es e hs ↦ chooses_error e hs

/-- The fast path returned this decision. -/
def DecidedIn (decision : FastPathDecision) (es : List (Event HostOp (HostOp.Res D))) : Prop :=
  ∃ state questions actionFamily language candidateOptions,
    ⟨.decide state questions actionFamily language candidateOptions, .ok decision⟩ ∈ es

/-- A stage that also consults the fast path. -/
def ChoosesFast (c : StandaloneController) (request : RuntimeRequest)
    (candidates : List ActionCandidate) (es : List (Event HostOp (HostOp.Res D)))
    (x : Except PyError (Closing D)) : Prop :=
  ∃ fast, (∀ decision, fast = some decision → DecidedIn decision es) ∧
    c.Chooses request candidates fast es x

private theorem choosesFast_of_chooses {es : List (Event HostOp (HostOp.Res D))}
    {x : Except PyError (Closing D)} (h : c.Chooses request candidates none es x) :
    c.ChoosesFast request candidates es x :=
  ⟨none, fun _ hd ↦ (nomatch hd), h⟩

variable [Digest] [FloatText]

/-- Without a selected candidate no action is named. -/
theorem all_withoutSelection (requestedDeliberator : Bool) (state : CompiledState) :
    Prog.All (c.Chooses request candidates fast)
      (c.withoutSelection request requestedDeliberator state candidates fast :
        HostProg D (Closing D)) := by
  have det : Text.ofString "deterministic" ∈ routes := by decide
  unfold withoutSelection
  split
  · next fallback _ =>
    refine all_attempt_bind (all_verify c fallback) ?_ ?_ ?_
    · intro es verification hs _
      dsimp only
      split
      · refine (all_deliberateOrStop state (by decide) _).mono fun es' x h ↦ h.prepend hs
      · exact chooses_return hs (exit_plain none det (by decide) (.inr rfl) (.inl rfl))
    · intro es hs
      exact chooses_return hs (exit_plain none det (by decide) (.inr rfl) (.inl rfl))
    · exact fun es e hs ↦ chooses_error e hs
  · exact chooses_now (exit_plain none det (by decide) (.inr rfl) (.inr rfl))

/-- A selected candidate is named only after its verification, when it is read-only and no
deliberation. -/
theorem all_withSelection (requestedDeliberator : Bool) (state : CompiledState)
    {selected : ActionCandidate} (hm : selected ∈ candidates) {e : ValueEstimate}
    (he : request.estimates.get? selected.id = some e)
    (hv : PyFloat.le (c.cvoc.lowerBound e) (.fin 0) = false) :
    Prog.All (c.Chooses request candidates fast)
      (c.withSelection request requestedDeliberator state candidates fast selected
        (c.cvoc.lowerBound e) : HostProg D (Closing D)) := by
  have det : Text.ofString "deterministic" ∈ routes := by decide
  have named : Text.ofString "recommendation" ∈ routes := by decide
  have hreason : Text.ofString "VERIFIED_RECOMMENDATION" ∈ reasons := by decide
  have bound : ∀ q, some (c.cvoc.lowerBound e) = some q →
      PyFloat.le q (.fin 0) = false ∧ ∃ e, q = c.cvoc.lowerBound e := by
    rintro q hq
    cases hq
    exact ⟨hv, e, rfl⟩
  refine all_attempt_bind (all_verify c selected) ?_ ?_ ?_
  · intro es verification hs hacc
    dsimp only
    split
    · exact chooses_return hs (exit_plain none det (by decide) (.inr rfl) (.inr rfl))
    · next ha =>
      split
      · refine (all_deliberateOrStop state (by decide) _).mono fun es' x h ↦ h.prepend hs
      · next hf =>
        split
        · exact chooses_return hs
            { exit_plain none det (by decide) (.inr rfl) (.inr rfl) with
              lowerBound := bound
              bound := fun _ h ↦ (nomatch h) }
        · next hro =>
          refine chooses_return hs
            { route := named
              reason := hreason
              selected := ?_
              candidateIds := .inr rfl
              lowerBound := bound
              bound := ?_
              authorityResult := List.mem_cons_of_mem _ List.mem_cons_self
              fast := .inr rfl
              provider := .inl ⟨rfl, rfl⟩ }
          · rintro candidate hc
            cases hc
            refine ⟨rfl, hm, hf, not_not.mp hro, ⟨e, he, hv⟩, hacc.2 ?_⟩
            simpa using ha
          · rintro candidate hc
            cases hc
            exact ⟨e, he, rfl⟩
  · intro es hs
    exact chooses_return hs (exit_plain none det (by decide) (.inr rfl) (.inr rfl))
  · exact fun es e hs ↦ chooses_error e hs

/-- Selection by value. -/
theorem all_selectAction (requestedDeliberator : Bool) (state : CompiledState) :
    Prog.All (c.Chooses request candidates fast)
      (c.selectAction request requestedDeliberator state candidates fast :
        HostProg D (Closing D)) := by
  unfold selectAction
  split
  · exact all_withoutSelection requestedDeliberator state
  · next selected hsel =>
    obtain ⟨hm, e, he, hb, hv⟩ := RobustCvocController.select_eq_some hsel
    rw [hb]
    exact all_withSelection requestedDeliberator state hm he hv

/-- The fast path may stop the run or ask for deliberation; it names no action. -/
theorem all_afterFastPath (requestedDeliberator : Bool) (state : CompiledState)
    (decision : FastPathDecision) :
    Prog.All (c.Chooses request candidates (some decision))
      (c.afterFastPath request requestedDeliberator state candidates decision :
        HostProg D (Closing D)) := by
  unfold afterFastPath
  split
  · exact all_deliberateOrStop state (by decide) none
  · split
    · exact chooses_now (exit_plain none (by decide) (by decide) (.inr rfl) (.inr rfl))
    · split
      · exact all_deliberateOrStop state (by decide) none
      · exact all_selectAction requestedDeliberator state

/-- System One names no action by itself. -/
theorem all_systemOne (requestedDeliberator : Bool) (state : CompiledState) :
    Prog.All (c.ChoosesFast request candidates)
      (c.systemOne request requestedDeliberator state candidates : HostProg D (Closing D)) := by
  have det : Text.ofString "deterministic" ∈ routes := by decide
  unfold systemOne
  split
  · exact (all_selectAction requestedDeliberator state).mono fun _ _ ↦ choosesFast_of_chooses
  · split
    · exact (chooses_now (exit_plain none det (by decide) (.inr rfl) (.inl rfl))).mono
        fun _ _ ↦ choosesFast_of_chooses
    · split
      · exact (chooses_now (exit_plain none det (by decide) (.inr rfl) (.inl rfl))).mono
          fun _ _ ↦ choosesFast_of_chooses
      · refine @all_attempt_bind D _ _ _ _ (fun es a ↦ DecidedIn a es) _
          (@all_ask D (.decide _ _ _ _ _) _ fun r ↦ ⟨rfl, ?_⟩) ?_ ?_ ?_
        · rintro a rfl
          exact ⟨_, _, _, _, _, List.mem_singleton_self _⟩
        · intro es decision hs hd
          refine (all_afterFastPath requestedDeliberator state decision).mono fun es' x h ↦ ?_
          refine ⟨some decision, ?_, h.prepend hs⟩
          rintro d hd'
          cases hd'
          obtain ⟨st, qs, fam, lang, opts, hm⟩ := hd
          exact ⟨st, qs, fam, lang, opts, List.mem_append_left _ hm⟩
        · intro es hs
          dsimp only
          split
          · exact (all_selectAction requestedDeliberator state).mono
              fun _ _ h ↦ choosesFast_of_chooses (h.prepend hs)
          · exact (all_deliberateOrStop state (by decide) none).mono
              fun _ _ h ↦ choosesFast_of_chooses (h.prepend hs)
        · exact fun es e hs ↦ choosesFast_of_chooses (chooses_error e hs)

/-- The candidates of a request: none before compilation succeeded. -/
def Compiled (c : StandaloneController) (request : RuntimeRequest)
    (candidates : List ActionCandidate) : Prop :=
  candidates = [] ∨ (c.flags.enabledRequested = true ∧
    ∃ state compilation, (c.compiler.compile request.rawState).state = some state ∧
      c.compileCandidates request state = .ok compilation ∧ compilation.candidates = candidates)

/-- Every exit of `run`, with where its arguments come from. -/
theorem all_chooseClosing (c : StandaloneController) (request : RuntimeRequest)
    (requestedDeliberator : Bool) :
    Prog.All (fun es x ↦ ∃ candidates, c.Compiled request candidates ∧
        c.ChoosesFast request candidates es x)
      (c.chooseClosing request requestedDeliberator : HostProg D (Closing D)) := by
  have det : Text.ofString "deterministic" ∈ routes := by decide
  have early : ∀ {reason : Text}, reason ∈ reasons → Prog.All (fun es x ↦ ∃ candidates,
      c.Compiled request candidates ∧ c.ChoosesFast request candidates es x)
      (return { route := "deterministic", reason := reason } : HostProg D (Closing D)) :=
    fun hr ↦ (chooses_now (exit_plain none det hr (.inl rfl) (.inl rfl))).mono
      fun _ _ h ↦ ⟨[], .inl rfl, choosesFast_of_chooses h⟩
  unfold chooseClosing
  split
  · exact early (by decide)
  · next hen =>
    split
    · exact early (status_mem_reasons _)
    · next state hstate =>
      unfold compileActions
      split
      · exact early (by decide)
      · cases hc : c.compileCandidates request state with
        | error e =>
          exact ⟨[], .inl rfl, choosesFast_of_chooses (chooses_error e rfl)⟩
        | ok compilation =>
          have hcomp : c.Compiled request compilation.candidates :=
            .inr ⟨by simpa using hen, state, compilation, hstate, hc, rfl⟩
          rw [Prog.bind_ofExcept_ok]
          split
          · exact (chooses_now (exit_plain none det (by decide) (.inr rfl) (.inl rfl))).mono
              fun _ _ h ↦ ⟨_, hcomp, choosesFast_of_chooses h⟩
          · exact (all_systemOne requestedDeliberator state).mono fun _ _ h ↦ ⟨_, hcomp, h⟩

/-- A run that reaches `finish`: silent events and one append of the trace of an exit. -/
structure Closed (c : StandaloneController) (request : RuntimeRequest)
    (es : List (Event HostOp (HostOp.Res D))) (hash : Text) (closing : Closing D)
    (answer : Except PyError LedgerRecord) (pre : List (Event HostOp (HostOp.Res D)))
    (candidates : List ActionCandidate) (fast : Option FastPathDecision) : Prop where
  events : es = pre ++ [⟨.append (finishTrace request hash closing), answer⟩]
  silent : Silent pre
  hash : stateHash request.rawState = .ok hash
  compiled : c.Compiled request candidates
  decided : ∀ decision, fast = some decision → DecidedIn decision pre
  exit : c.Exit request candidates fast pre closing

/-- Every run: it raises before `finish`, or it appends the trace of an exit and returns the
outcome of that exit when the sink does. -/
theorem all_run (c : StandaloneController) (request : RuntimeRequest)
    (requestedDeliberator : Bool) :
    Prog.All (fun es x ↦ (Silent es ∧ ∃ e, x = .error e) ∨
        ∃ hash closing answer pre candidates fast,
          c.Closed request es hash closing answer pre candidates fast ∧
          x = answer.map (finishOutcome closing))
      (c.run request requestedDeliberator : HostProg D (RuntimeOutcome D)) := by
  unfold run
  split
  · exact .inl ⟨rfl, _, rfl⟩
  · cases hh : stateHash request.rawState with
    | error e => exact .inl ⟨rfl, e, rfl⟩
    | ok hash =>
      rw [Prog.bind_ofExcept_ok]
      refine Prog.All.bind ((all_chooseClosing c request requestedDeliberator).mono ?_)
      rintro es x ⟨candidates, hcomp, fast, hdec, hsilent, hexit⟩
      refine ⟨?_, fun e _ ↦ .inl ⟨hsilent, e, rfl⟩⟩
      rintro closing rfl
      have closed : ∀ answer, c.Closed request
          (es ++ [⟨.append (finishTrace request hash closing), answer⟩]) hash closing answer es
          candidates fast :=
        fun _ ↦ ⟨rfl, hsilent, hh, hcomp, hdec, hexit closing rfl⟩
      intro answer
      cases answer with
      | ok record => exact .inr ⟨hash, closing, .ok record, es, candidates, fast, closed _, rfl⟩
      | error e => exact .inr ⟨hash, closing, .error e, es, candidates, fast, closed _, rfl⟩

/-- Whatever the fast path, the verifiers, the deliberators and the trace sink answer: a run that
returns has appended exactly one trace, which agrees with the outcome, and it names an action
only on the recommendation route, for a candidate compiled for this request, valued above zero,
read-only and accepted by the policy-selected verifier during the run. A multiplier that is not
finite can make a lower bound NaN, which passes the test against zero; then the trace sink has to
refuse it. -/
theorem run_names_only_verified (c : StandaloneController) (request : RuntimeRequest)
    (requestedDeliberator : Bool) (es : List (Event HostOp (HostOp.Res D)))
    (outcome : RuntimeOutcome D)
    (hm : c.cvoc.uncertaintyMultiplier.isFinite = true ∨
      ∀ trace record, ⟨.append trace, .ok record⟩ ∈ es → .nan ∉ trace.utilityQuantiles.values)
    (h : Prog.Finishes (c.run request requestedDeliberator) es (.ok outcome)) :
    (∃ trace, es.filter isAppend = [⟨.append trace, .ok outcome.ledgerRecord⟩] ∧
      trace.selectedActionId = outcome.selectedActionId ∧
      trace.authorityResult = outcome.authorityResult ∧
      trace.candidateIds = outcome.candidateIds) ∧
    ∀ id, outcome.selectedActionId = some id →
      outcome.route = "recommendation" ∧ c.flags.enabledRequested = true ∧
      ∃ state compilation, (c.compiler.compile request.rawState).state = some state ∧
        c.compileCandidates request state = .ok compilation ∧
        ∃ candidate ∈ compilation.candidates, candidate.id = id ∧
          (∃ e, request.estimates.get? id = some e ∧
            PyFloat.lt (.fin 0) (c.cvoc.lowerBound e) = true) ∧
          candidate.family ≠ .deliberate ∧ candidate.riskClass = .readOnly ∧
          c.AcceptedIn candidate es := by
  obtain ⟨-, e, he⟩ | ⟨hash, closing, answer, pre, candidates, fast, hc, hx⟩ :=
    (all_run c request requestedDeliberator).of_finishes h
  · cases he
  · obtain ⟨record, rfl⟩ : ∃ record, answer = .ok record := by
      cases answer with
      | ok record => exact ⟨record, rfl⟩
      | error e => cases hx
    cases hx
    refine ⟨⟨finishTrace request hash closing, ?_, rfl, rfl, rfl⟩, ?_⟩
    · have hpre : pre.filter isAppend = [] := hc.silent
      rw [hc.events, List.filter_append, hpre]
      rfl
    · intro id hid
      obtain ⟨candidate, hsel, rfl⟩ := Option.map_eq_some_iff.mp hid
      obtain ⟨hroute, ha⟩ := hc.exit.selected candidate hsel
      obtain ⟨e, he, hv⟩ := ha.valued
      have hnan : c.cvoc.lowerBound e ≠ .nan := by
        rcases hm with hm | hsink
        · exact RobustCvocController.lowerBound_ne_nan hm e
        · obtain ⟨e', he', hbound⟩ := hc.exit.bound candidate hsel
          rw [he] at he'
          cases he'
          have hquantiles := hsink (finishTrace request hash closing) record
            (hc.events ▸ List.mem_append_right _ (List.mem_singleton_self _))
          rintro hnan
          rw [finishTrace, hbound, hnan] at hquantiles
          exact hquantiles List.mem_cons_self
      have hpos := PyFloat.lt_of_not_le hnan PyFloat.noConfusion hv
      obtain ⟨decision, hd, hmem⟩ := ha.accepted
      rcases hc.compiled with rfl | ⟨hen, state, compilation, hst, hcomp, rfl⟩
      · exact absurd ha.mem List.not_mem_nil
      · refine ⟨hroute, hen, state, compilation, hst, hcomp, candidate, ha.mem, rfl, ⟨e, he, hpos⟩,
          ha.family, ha.readOnly, decision, hd, ?_⟩
        rw [hc.events]
        exact List.mem_append_left _ hmem

end Stages

section Sample

attribute [local instance] Digest.transparent FloatText.fraction FloatRound.exact

/-- A lookup definition in the family of tools. -/
def lookupDefinition : ActionDefinition where
  id := "lookup"
  family := .tool
  subgroup := "records"
  operation := "get"
  riskClass := .readOnly
  argumentVariants := [[("record_id", "fixture-1")]]
  placements := ["local"]
  verifierIds := ["policy"]
  optimisticUtility := .fin 3
  estimatedCost := .fin 1

/-- A request for one lookup with a positive estimate. -/
def lookupRequest : RuntimeRequest where
  rawState :=
    { goal := "Find record", currentSubgoal := "Lookup", availableActionFamilies := [.tool]
      budget := Dict.ofList [("remaining_usd", .fin 1)] }
  definitions := [lookupDefinition]
  policy := { allowedFamilies := [.tool], allowedRisks := [.readOnly] }
  estimates := Dict.ofList [("lookup:0:local:policy", ⟨.fin 3, .fin 1, .fin 0, .fin 0⟩)]
  runId := "fixture-run"

/-- An enabled controller with one verifier. -/
def lookupController : StandaloneController where
  flags := { enabledRequested := true }
  candidates := ⟨16, by decide⟩
  verifierIds := Dict.ofList [("policy", ())]
  verifierPolicy := { defaultVerifier := "policy" }
  attestationKey := "verification-test-key".toUTF8

/-- A host that accepts every candidate and acknowledges every trace. -/
def acceptingHost : (o : HostOp) → HostOp.Res Unit o
  | .decide _ _ _ _ _ => .error ⟨.runtimeError, "unavailable"⟩
  | .verifier _ _ => .ok ⟨true, "policy fixture"⟩
  | .deliberate _ _ => .error ⟨.runtimeError, "unavailable"⟩
  | .append _ => .ok ⟨genesis, genesis, []⟩

/-- A request whose lookup is accepted returns it, and the conditions hold of it. -/
theorem run_names_only_verified_lookup :
    ∃ (es : List (Event HostOp (HostOp.Res Unit))) (outcome : RuntimeOutcome Unit),
      Prog.Finishes (lookupController.run lookupRequest) es (.ok outcome) ∧
      outcome.selectedActionId = some (Text.ofString "lookup:0:local:policy") ∧
      outcome.route = "recommendation" := by
  have hsel : (Prog.play acceptingHost (lookupController.run lookupRequest)).2.toOption.bind
      RuntimeOutcome.selectedActionId = some (Text.ofString "lookup:0:local:policy") := by
    decide +kernel
  obtain ⟨outcome, hout, hsel⟩ := Option.bind_eq_some_iff.mp hsel
  have hf := Prog.finishes_play acceptingHost (lookupController.run lookupRequest)
  rw [toOption_eq_some.mp hout] at hf
  have hall := run_names_only_verified lookupController lookupRequest false _ outcome
    (.inl (by decide +kernel)) hf
  exact ⟨_, outcome, hf, hsel, (hall.2 _ hsel).1⟩

end Sample

end StandaloneController

end C3RSpec.Runtime
