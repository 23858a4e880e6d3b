import C3RSpec.Runtime.AuthorityBoundary

/-!
# What precedes each host call

`c3r/runtime.py:184–351`. A run that comes to System One or to a deliberator has passed every check
before it: the stages are followed once, and each host call is given what must have happened before.
-/

namespace C3RSpec.Runtime

open Base Telemetry Authority Candidates

namespace StandaloneController

variable {D : Type}

/-- System One let the run go on. -/
structure Quiet (decision : FastPathDecision) : Prop where
  decided : decision.abstained = false
  goesOn : decision.answers.get? "STOP_NOW" ≠ some (Text.ofString "YES")
  unneeded : decision.answers.get? "DELIBERATION_REQUIRED" ≠ some (Text.ofString "YES")

/-- Whatever System One decided, it let the run go on. -/
def Unopposed (es : List (Event HostOp (HostOp.Res D))) : Prop :=
  ∀ decision, DecidedIn decision es → Quiet decision

/-- The request compiles to this state and these candidates. -/
structure Offers [Digest] [FloatText] (c : StandaloneController) (request : RuntimeRequest)
    (state : CompiledState) (compilation : CandidateCompilation) : Prop where
  runId : request.runId ≠ []
  hash : ∃ hash, stateHash request.rawState = .ok hash
  enabled : c.flags.enabledRequested = true
  state_eq : (c.compiler.compile request.rawState).state = some state
  budget : PyFloat.lt (remainingBudget state) (.fin 0) = false
  compiled_eq : c.compileCandidates request state = .ok compilation
  safe : compilation.noSafeAction = false

/-- What is offered is not empty. -/
theorem Offers.candidates_ne_nil [Digest] [FloatText] {c : StandaloneController}
    {request : RuntimeRequest} {state : CompiledState} {compilation : CandidateCompilation}
    (h : c.Offers request state compilation) : compilation.candidates ≠ [] := by
  obtain ⟨-, -, r, -, rfl⟩ := compileHierarchical_eq_ok.mp h.compiled_eq
  exact of_decide_eq_false h.safe

/-- The firewall can sign the acceptance of a candidate. -/
structure Signable (c : StandaloneController) (candidate : ActionCandidate) : Prop where
  registered : c.verifierPolicy.select candidate ∈ c.verifierIds.keys
  key : 16 ≤ c.attestationKey.size
  verifierId : (c.verifierPolicy.select candidate).IsScalar
  candidateId : candidate.id.IsScalar
  version : c.verifierPolicy.version.IsScalar

/-- System One is off, or its provider is the configured one. -/
def PassesSystemOne (c : StandaloneController) : Prop :=
  c.flags.systemOneEnabled = false ∨ c.fastPathProvider = some c.flags.systemOneProvider

/-- The requested deliberator may be called: a verifier accepted a deliberation that was compiled
for the request, which is read-only or the one that its value selects, and System One did not
object. -/
structure TextReady [FloatRound] (c : StandaloneController) (request : RuntimeRequest)
    (candidates : List ActionCandidate) (es : List (Event HostOp (HostOp.Res D)))
    (candidate : ActionCandidate) : Prop where
  enabled : c.flags.deliberativeEnabled = true
  systemOne : c.PassesSystemOne
  mem : candidate ∈ candidates
  family : candidate.family = .deliberate
  risk : candidate.riskClass = .readOnly ∨
    (c.cvoc.select candidates request.estimates).selected = some candidate
  signable : c.Signable candidate
  accepted : c.AcceptedIn candidate es
  unopposed : Unopposed es

/-- System One may turn the request over to the controller's own deliberator. -/
structure Diverted [Digest] [FloatText] (c : StandaloneController) (request : RuntimeRequest)
    (state : CompiledState) (compilation : CandidateCompilation) : Prop where
  offers : c.Offers request state compilation
  deliberator : c.hasDeliberator = true
  enabled : c.flags.deliberativeEnabled = true
  systemOne : c.flags.systemOneEnabled = true
  provider : c.fastPathProvider = some c.flags.systemOneProvider

/-- What must have happened before a host call. -/
def Preceded [Digest] [FloatText] [FloatRound] (c : StandaloneController)
    (request : RuntimeRequest) (requestedDeliberator : Bool)
    (es : List (Event HostOp (HostOp.Res D))) : HostOp → Prop
  | .decide state questions actionFamily language options =>
    c.flags.systemOneEnabled = true ∧ questions = controlQuestions ∧ actionFamily = "CONTROL" ∧
      language = request.language ∧
      ∃ compilation, c.Offers request state compilation ∧
        options = compilation.candidates.map candidateOption
  | .deliberate .requested state =>
    ∃ compilation, c.Offers request state compilation ∧
      ∃ candidate, c.TextReady request compilation.candidates es candidate
  | .deliberate .configured state =>
    request.requestedTextGeneration = true → requestedDeliberator = true →
      ∃ compilation, c.Diverted request state compilation
  | .verifier _ _ | .append _ => True

section Calls

variable {G : List (Event HostOp (HostOp.Res D)) → HostOp → Prop}
  {es : List (Event HostOp (HostOp.Res D))}

/-- A host call is guarded by what holds before it. -/
theorem guarded_ask {o : HostOp} (h : G es o) : Prog.Guarded G es (ask o : HostProg D _) := by
  refine ⟨h, fun r ↦ ?_⟩
  cases r <;> trivial

/-- A stage after a caught host computation. -/
theorem guarded_attempt_bind {α β : Type} {p : HostProg D α} {f : Option α → HostProg D β}
    (hp : Prog.Guarded G es p)
    (hf : Prog.All (fun es' x ↦ (∀ a, x = .ok a → Prog.Guarded G (es ++ es') (f (some a))) ∧
      ∀ e, x = .error e → Prog.Guarded G (es ++ es') (f none)) p) :
    Prog.Guarded G es (attempt p >>= f) := by
  refine Prog.Guarded.bind (Prog.Guarded.tryCatch (hp.bind ?_) ?_) (all_attempt (hf.mono ?_))
  · exact hf.mono fun es' x _ a _ ↦ trivial
  · refine Prog.All.bind (hf.mono fun es' x _ ↦ ⟨fun a _ e he ↦ (nomatch he), fun e _ e' _ ↦ ?_⟩)
    split <;> trivial
  · rintro es' x ⟨hok, herr⟩
    refine ⟨?_, ?_⟩
    · rintro a rfl answer ha
      cases ha
      exact hok a rfl
    · rintro e rfl answer ha
      split at ha
      · cases ha
        exact herr e rfl
      · cases ha

end Calls

section Stages

variable [Digest] [FloatText] [FloatRound] {c : StandaloneController} {request : RuntimeRequest}
  {requestedDeliberator : Bool} {state : CompiledState} {compilation : CandidateCompilation}
  {es : List (Event HostOp (HostOp.Res D))}

omit [Digest] [FloatText] [FloatRound] in
private theorem unopposed_append {es' : List (Event HostOp (HostOp.Res D))} (h : Unopposed es)
    (hv : ∀ e ∈ es', isVerifier e = true) : Unopposed (es ++ es') := by
  rintro decision ⟨st, questions, family, language, options, hm⟩
  obtain hm | hm := List.mem_append.mp hm
  · exact h decision ⟨st, questions, family, language, options, hm⟩
  · cases hv _ hm

private theorem guarded_verify (candidate : ActionCandidate) :
    Prog.Guarded (c.Preceded request requestedDeliberator) es
      (c.verifier.verify candidate : HostProg D VerificationResult) := by
  unfold VerifierFirewall.verify
  simp only [verifier, Dict.get?_mapEntries]
  cases c.verifierIds.get? (c.verifierPolicy.select candidate) with
  | none => trivial
  | some u =>
    refine Prog.Guarded.bind (@guarded_ask D _ _ (.verifier _ _) trivial) ?_
    refine @all_ask D (.verifier (c.verifierPolicy.select candidate) candidate) _ fun answer ↦ ?_
    rintro decision rfl
    cases actionFingerprint candidate with
    | error e => trivial
    | ok fingerprint =>
      change Prog.Guarded _ _ (MonadExcept.ofExcept (signFields c.attestationKey _) >>= _)
      cases signFields c.attestationKey _ with
      | error e => trivial
      | ok attestation => trivial

omit [FloatText] [FloatRound] in
private theorem signable_of_signFields {candidate : ActionCandidate} {fingerprint evidence tag : Text}
    {accepted : Bool} (hregistered : c.verifierPolicy.select candidate ∈ c.verifierIds.keys)
    (h : signFields c.attestationKey (VerifierFirewall.signedFields
      (c.verifierPolicy.select candidate) candidate.id fingerprint c.verifierPolicy.version accepted
      evidence) = .ok tag) : c.Signable candidate := by
  have hnul : nul.val < 128 := by decide
  obtain ⟨hkey, payload, hpayload, -⟩ := signFields_eq_ok.mp h
  have hscalar := Text.exists_encodeUtf8_iff.mp ⟨payload, hpayload⟩
  unfold VerifierFirewall.signedFields at hscalar
  iterate 4 rw [Text.join_cons_cons, Text.isScalar_append_iff, Text.isScalar_cons_iff hnul] at hscalar
  exact ⟨hregistered, hkey, hscalar.1, hscalar.2.1, hscalar.2.2.2.1⟩

-- What returns from the firewall has been signed.
omit [FloatRound] in
private theorem all_verify_signable (candidate : ActionCandidate) :
    Prog.All (fun _ x ↦ ∀ r : VerificationResult, x = .ok r → c.Signable candidate)
      (c.verifier.verify candidate : HostProg D VerificationResult) := by
  unfold VerifierFirewall.verify
  simp only [verifier, Dict.get?_mapEntries]
  cases hregistered : c.verifierIds.get? (c.verifierPolicy.select candidate) with
  | none => exact fun r hr ↦ by cases hr
  | some u =>
    have hmem : c.verifierPolicy.select candidate ∈ c.verifierIds.keys :=
      (c.verifierIds.get?_isSome_iff _).mp (by rw [hregistered]; rfl)
    refine Prog.All.bind (@all_ask D (.verifier (c.verifierPolicy.select candidate) candidate) _
      fun answer ↦ ⟨fun decision _ ↦ ?_, fun e _ r hr ↦ by cases hr⟩)
    cases actionFingerprint candidate with
    | error e => exact fun r hr ↦ by cases hr
    | ok fingerprint =>
      change Prog.All _ (MonadExcept.ofExcept (signFields c.attestationKey _) >>= _)
      cases hsign : signFields c.attestationKey (VerifierFirewall.signedFields
        (c.verifierPolicy.select candidate) candidate.id fingerprint c.verifierPolicy.version
        decision.accepted decision.evidence) with
      | error e => exact fun r hr ↦ by cases hr
      | ok attestation => exact fun r _ ↦ signable_of_signFields hmem hsign

/-- Deliberation calls a deliberator only where it is ready. -/
theorem guarded_deliberateOrStop {deliberator : Option Deliberator}
    (h : ∀ which, deliberator.or (if c.hasDeliberator then some .configured else none) = some which →
      c.flags.deliberativeEnabled = true →
      c.Preceded request requestedDeliberator es (.deliberate which state))
    (ids : List Text) (reason : Text) (fast : Option FastPathDecision) :
    Prog.Guarded (c.Preceded request requestedDeliberator) es
      (c.deliberateOrStop state ids reason fast deliberator : HostProg D (Closing D)) := by
  unfold deliberateOrStop
  split
  · trivial
  · next which hwhich =>
    have hbefore : c.Preceded request requestedDeliberator es (.deliberate which state) := by
      split at hwhich
      · next henabled => exact h which hwhich henabled
      · cases hwhich
    refine guarded_attempt_bind (@guarded_ask D _ _ (.deliberate which state) hbefore)
      (@all_ask D (.deliberate which state) _ fun answer ↦ ⟨?_, fun _ _ ↦ trivial⟩)
    rintro a rfl
    cases a with
    | other value => trivial
    | provider result =>
      dsimp only
      split <;> trivial

/-- A deliberation that was accepted is followed by a guarded call. -/
private theorem guarded_accepted {verification : VerificationResult} {candidate : ActionCandidate}
    {es' : List (Event HostOp (HostOp.Res D))} (ho : c.Offers request state compilation)
    (hm : candidate ∈ compilation.candidates) (hfamily : candidate.family = .deliberate)
    (hrisk : candidate.riskClass = .readOnly ∨
      (c.cvoc.select compilation.candidates request.estimates).selected = some candidate)
    (hsystem : c.PassesSystemOne) (hsignable : c.Signable candidate) (hquiet : Unopposed es)
    (hverifier : ∀ e ∈ es', isVerifier e = true)
    (haccepted : verification.accepted = true → c.AcceptedIn candidate es')
    (ha : verification.accepted = true) (reason : Text) (fast : Option FastPathDecision) {b : Bool}
    (hb : request.requestedTextGeneration = true → requestedDeliberator = true → b = true) :
    Prog.Guarded (c.Preceded request requestedDeliberator) (es ++ es')
      (c.deliberateOrStop state (candidateIds compilation.candidates) reason fast
        (if b then some .requested else none) : HostProg D (Closing D)) := by
  refine guarded_deliberateOrStop (fun which hwhich henabled ↦ ?_) _ _ _
  cases which with
  | requested =>
    obtain ⟨decision, hdecision, hmem⟩ := haccepted ha
    exact ⟨compilation, ho, candidate, henabled, hsystem, hm, hfamily, hrisk, hsignable,
      ⟨decision, hdecision, List.mem_append_right es hmem⟩, unopposed_append hquiet hverifier⟩
  | configured =>
    -- the requested deliberator goes first
    intro htext hrequested
    rw [hb htext hrequested] at hwhich
    cases hwhich

/-- Selection by value. -/
theorem guarded_selectAction (ho : c.Offers request state compilation)
    (hsystem : c.PassesSystemOne) (hquiet : Unopposed es) (fast : Option FastPathDecision) :
    Prog.Guarded (c.Preceded request requestedDeliberator) es
      (c.selectAction request requestedDeliberator state compilation.candidates fast :
        HostProg D (Closing D)) := by
  unfold selectAction
  split
  · unfold withoutSelection
    split
    · next fallback hfallback =>
      -- the fallback is searched for by family and risk
      have hfound : fallbackCandidate compilation.candidates = some fallback := by
        split at hfallback
        · exact hfallback
        · cases hfallback
      have hboth := List.find?_some hfound
      rw [Bool.and_eq_true, decide_eq_true_eq, decide_eq_true_eq] at hboth
      refine guarded_attempt_bind (guarded_verify fallback)
        (((all_verify c fallback).and (all_verify_signable fallback)).mono fun es' x hx ↦
          ⟨?_, fun _ _ ↦ trivial⟩)
      rintro verification rfl
      obtain ⟨hverifier, haccepted⟩ := hx.1.2 verification rfl
      dsimp only
      split
      · next ha =>
        exact guarded_accepted ho (List.mem_of_find?_eq_some hfound) hboth.1 (.inl hboth.2)
          hsystem (hx.2 verification rfl) hquiet hverifier haccepted ha _ _ fun _ h ↦ h
      · trivial
    · trivial
  · next selected hselected =>
    refine guarded_attempt_bind (guarded_verify selected)
      (((all_verify c selected).and (all_verify_signable selected)).mono fun es' x hx ↦
        ⟨?_, fun _ _ ↦ trivial⟩)
    rintro verification rfl
    obtain ⟨hverifier, haccepted⟩ := hx.1.2 verification rfl
    dsimp only
    split
    · trivial
    · next ha =>
      rw [Bool.not_eq_true', Bool.not_eq_false] at ha
      split
      · next hfamily =>
        exact guarded_accepted ho (RobustCvocController.select_eq_some hselected).1 hfamily
          (.inr hselected) hsystem (hx.2 verification rfl) hquiet hverifier haccepted ha _ _
          fun htext hrequested ↦ by rw [htext, hrequested]; rfl
      · split <;> trivial

omit [Digest] [FloatText] [FloatRound] in
private theorem unopposed_nil : Unopposed ([] : List (Event HostOp (HostOp.Res D))) := by
  rintro decision ⟨st, questions, family, language, options, hm⟩
  cases hm

/-- System One. -/
theorem guarded_systemOne (ho : c.Offers request state compilation) :
    Prog.Guarded (c.Preceded request requestedDeliberator) []
      (c.systemOne request requestedDeliberator state compilation.candidates :
        HostProg D (Closing D)) := by
  unfold systemOne
  split
  · next hdisabled =>
    exact guarded_selectAction ho (.inl (by simpa using hdisabled)) unopposed_nil _
  · next henabled =>
    rw [Bool.not_eq_true', Bool.not_eq_false] at henabled
    split
    · trivial
    · next provider hprovider =>
      split
      · trivial
      · next hsame =>
        have hsystem : c.PassesSystemOne := .inr (by rw [hprovider, not_not.mp hsame])
        refine guarded_attempt_bind (@guarded_ask D _ _ (.decide _ _ _ _ _)
          ⟨henabled, rfl, rfl, rfl, compilation, ho, rfl⟩)
          (@all_ask D (.decide _ _ _ _ _) _ fun answer ↦ ⟨?_, ?_⟩)
        · rintro fast rfl
          change Prog.Guarded _ _ (c.afterFastPath _ _ _ _ fast)
          have hown : ∀ (es : List (Event HostOp (HostOp.Res D))) which,
              Option.or none (if c.hasDeliberator then some .configured else none) = some which →
                c.flags.deliberativeEnabled = true →
                c.Preceded request requestedDeliberator es (.deliberate which state) := by
            intro es which hwhich hdeliberative
            rw [Option.none_or] at hwhich
            split at hwhich
            · next hhas =>
              cases hwhich
              exact fun _ _ ↦ ⟨compilation, ho, hhas, hdeliberative, henabled,
                by rw [hprovider, not_not.mp hsame]⟩
            · cases hwhich
          unfold afterFastPath
          split
          · exact guarded_deliberateOrStop (hown _) _ _ _
          · next habstained =>
            split
            · trivial
            · next hstop =>
              split
              · exact guarded_deliberateOrStop (hown _) _ _ _
              · next hneeded =>
                refine guarded_selectAction ho hsystem ?_ _
                rintro decision ⟨st, questions, family, language, options, hm⟩
                -- the only decision of the run is the one at hand
                rw [List.nil_append, List.mem_singleton] at hm
                cases hm
                exact ⟨by simpa using habstained, hstop, hneeded⟩
        · rintro e rfl
          dsimp only
          split
          · refine guarded_selectAction ho hsystem ?_ _
            rintro decision ⟨st, questions, family, language, options, hm⟩
            rw [List.nil_append, List.mem_singleton] at hm
            cases hm
          · next htext =>
            refine guarded_deliberateOrStop (fun which hwhich _ ↦ ?_) _ _ _
            rw [Option.none_or] at hwhich
            split at hwhich
            · cases hwhich
              exact fun h _ ↦ absurd h htext
            · cases hwhich

/-- A run that reaches its candidates goes on with System One. -/
theorem run_eq (ho : c.Offers request state compilation) {hash : Text}
    (hhash : stateHash request.rawState = .ok hash) (requestedDeliberator : Bool) :
    (c.run request requestedDeliberator : HostProg D (RuntimeOutcome D)) =
      c.systemOne request requestedDeliberator state compilation.candidates >>=
        finish request hash := by
  rw [run, if_neg ho.runId, hhash, Prog.bind_ofExcept_ok, chooseClosing, ho.enabled, Bool.not_true,
    if_neg Bool.false_ne_true, ho.state_eq]
  dsimp only
  rw [compileActions, ho.budget, if_neg Bool.false_ne_true, ho.compiled_eq, Prog.bind_ofExcept_ok,
    ho.safe, if_neg Bool.false_ne_true]

/-- Every host call of a run is preceded by what it needs. -/
theorem guarded_run (c : StandaloneController) (request : RuntimeRequest)
    (requestedDeliberator : Bool) :
    Prog.Guarded (c.Preceded request requestedDeliberator) []
      (c.run request requestedDeliberator : HostProg D (RuntimeOutcome D)) := by
  have hfinish : ∀ (es : List (Event HostOp (HostOp.Res D))) (hash : Text) (closing : Closing D),
      Prog.Guarded (c.Preceded request requestedDeliberator) es (finish request hash closing) := by
    intro es hash closing
    refine Prog.Guarded.bind (@guarded_ask D _ _ (.append _) trivial) ?_
    exact @all_ask D (.append _) _ fun answer record _ ↦ trivial
  by_cases hoffers : ∃ state compilation, c.Offers request state compilation
  · obtain ⟨state, compilation, ho⟩ := hoffers
    obtain ⟨hash, hhash⟩ := ho.hash
    rw [run_eq ho hhash]
    refine (guarded_systemOne ho).bind ?_
    exact (all_systemOne requestedDeliberator state).mono fun es x _ closing _ ↦ hfinish _ hash closing
  · unfold run
    split
    · trivial
    · next hid =>
      cases hhash : stateHash request.rawState with
      | error e => trivial
      | ok hash =>
        rw [Prog.bind_ofExcept_ok]
        unfold chooseClosing
        split
        · exact hfinish _ hash _
        · next henabled =>
          rw [Bool.not_eq_true', Bool.not_eq_false] at henabled
          split
          · exact hfinish _ hash _
          · next state hstate =>
            unfold compileActions
            split
            · exact hfinish _ hash _
            · next hbudget =>
              cases hcompiled : c.compileCandidates request state with
              | error e => trivial
              | ok compilation =>
                rw [Prog.bind_ofExcept_ok]
                split
                · exact hfinish _ hash _
                · next hsafe =>
                  exact absurd ⟨state, compilation, hid, ⟨hash, hhash⟩, henabled, hstate,
                    by simpa using hbudget, hcompiled, by simpa using hsafe⟩ hoffers

end Stages

end StandaloneController

end C3RSpec.Runtime
