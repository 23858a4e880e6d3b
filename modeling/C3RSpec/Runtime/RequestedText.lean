import C3RSpec.Runtime.HostCalls

/-!
# Requested text generation

`c3r/runtime.py:244–351`. The text fallback takes a deliberation only when it is read-only. The
branch of a positive value tests the family before the risk, so that it may hand a deliberation of
any risk class to the requested deliberator. System One has the controller's own deliberator called
without a verifier, which may be the requested one too.
-/

namespace C3RSpec.Runtime

open Base Telemetry Authority Candidates

namespace StandaloneController

section Admission

variable {D : Type} [Digest] [FloatText] [FloatRound]

/-- The policy admitted the text: a verifier accepted a read-only deliberation that was compiled
for the request, and System One did not object. -/
structure PolicyAdmitted (c : StandaloneController) (request : RuntimeRequest)
    (es : List (Event HostOp (HostOp.Res D))) : Prop where
  enabled : c.flags.deliberativeEnabled = true
  verified : ∃ state compilation, (c.compiler.compile request.rawState).state = some state ∧
    c.compileCandidates request state = .ok compilation ∧
    ∃ candidate ∈ compilation.candidates, candidate.family = .deliberate ∧
      candidate.riskClass = .readOnly ∧ c.AcceptedIn candidate es
  unopposed : Unopposed es

/-- The object that is called is the requested deliberator; `own` tells whether the controller's
own deliberator is that object. -/
def IsRequested (own : Bool) : Deliberator → Prop
  | .requested => True
  | .configured => own = true

/-- Whenever a run comes to the requested deliberator, the policy has admitted the text. -/
def AlwaysAdmitted (D : Type) (c : StandaloneController) (request : RuntimeRequest) (own : Bool) :
    Prop :=
  ∀ es which state k, IsRequested own which →
    Prog.Runs (c.run request true : HostProg D (RuntimeOutcome D)) es
      (.call (.deliberate which state) k) → c.PolicyAdmitted request es

/-- The value of computation selects a deliberation that is not read-only, with nothing in the way
of the requested deliberator. -/
structure Exposed (c : StandaloneController) (request : RuntimeRequest) (state : CompiledState)
    (compilation : CandidateCompilation) (selected : ActionCandidate) : Prop where
  offers : c.Offers request state compilation
  enabled : c.flags.deliberativeEnabled = true
  systemOne : c.PassesSystemOne
  selects : (c.cvoc.select compilation.candidates request.estimates).selected = some selected
  family : selected.family = .deliberate
  risk : selected.riskClass ≠ .readOnly
  signable : c.Signable selected

/-! ### The branch of a positive value -/

section Branch

variable {c : StandaloneController} {request : RuntimeRequest} {state : CompiledState}
  {candidates : List ActionCandidate} {selected : ActionCandidate}

/-- The verifier accepts, without evidence. -/
def acceptance (c : StandaloneController) (candidate : ActionCandidate) :
    Event HostOp (HostOp.Res D) :=
  ⟨.verifier (c.verifierPolicy.select candidate) candidate, .ok ⟨true, []⟩⟩

omit [Digest] [FloatText] [FloatRound] in
private theorem runs_ask {o : HostOp} (a : o.Answer D) :
    Prog.Runs (ask o) [⟨o, .ok a⟩] (.ret a) := by
  have hcall : Prog.Runs (Prog.perform o : HostProg D (HostOp.Res D o)) [⟨o, .ok a⟩]
      (.ret (Except.ok a)) :=
    @Prog.Runs.call HostOp (HostOp.Res D) _ o .ret (Except.ok a) [] _ (.nil _)
  exact hcall.bind (.nil _)

omit [Digest] [FloatText] [FloatRound] in
private theorem runs_attempt {α : Type} {p : HostProg D α} {es : List (Event HostOp (HostOp.Res D))}
    {a : α} (h : Prog.Runs p es (.ret a)) : Prog.Runs (attempt p) es (.ret (some a)) :=
  (h.bind_left _).tryCatch _

omit [FloatText] [FloatRound] in
private theorem exists_signFields (h : c.Signable selected) {fingerprint : Text}
    (hhex : fingerprint.all isHexChar = true) : ∃ tag, signFields c.attestationKey
      (VerifierFirewall.signedFields (c.verifierPolicy.select selected) selected.id fingerprint
        c.verifierPolicy.version true []) = .ok tag := by
  have hnul : nul.val < 128 := by decide
  have hscalar : (Text.join nul (VerifierFirewall.signedFields (c.verifierPolicy.select selected)
      selected.id fingerprint c.verifierPolicy.version true [])).IsScalar := by
    unfold VerifierFirewall.signedFields
    iterate 5 rw [Text.join_cons_cons, Text.isScalar_append_iff, Text.isScalar_cons_iff hnul]
    rw [Text.join_singleton]
    exact ⟨h.verifierId, h.candidateId, Text.isScalar_of_isAscii (isAscii_of_hex hhex), h.version,
      Text.isScalar_of_isAscii (by decide), Text.isScalar_of_isAscii (by decide)⟩
  obtain ⟨payload, hpayload⟩ := Text.exists_encodeUtf8_iff.mpr hscalar
  exact ⟨_, signFields_eq_ok.mpr ⟨h.key, payload, hpayload, rfl⟩⟩

omit [FloatRound] in
private theorem runs_verify (h : c.Signable selected) : ∃ verification : VerificationResult,
    verification.accepted = true ∧
    Prog.Runs (c.verifier.verify selected : HostProg D VerificationResult)
      [c.acceptance selected] (.ret verification) := by
  obtain ⟨canonical, encoded, -, -, hfingerprint⟩ := exists_actionFingerprint selected
  obtain ⟨tag, htag⟩ := exists_signFields h (isHex_actionFingerprint hfingerprint)
  obtain ⟨u, hregistered⟩ := Option.isSome_iff_exists.mp
    ((c.verifierIds.get?_isSome_iff _).mpr h.registered)
  refine ⟨⟨c.verifierPolicy.select selected, selected.id, Digest.sha256Hex encoded,
    c.verifierPolicy.version, true, [], tag⟩, rfl, ?_⟩
  unfold VerifierFirewall.verify
  simp only [verifier, Dict.get?_mapEntries, hregistered, Option.map_some]
  refine (runs_ask (o := .verifier (c.verifierPolicy.select selected) selected)
    ⟨true, []⟩).bind ?_
  rw [hfingerprint]
  change Prog.Runs (MonadExcept.ofExcept (signFields c.attestationKey _) >>= _) [] _
  rw [htag]
  exact .nil _

variable (state) in
private theorem runs_selectAction (henabled : c.flags.deliberativeEnabled = true)
    (htext : request.requestedTextGeneration = true)
    (hselected : (c.cvoc.select candidates request.estimates).selected = some selected)
    (hfamily : selected.family = .deliberate) (hsignable : c.Signable selected)
    (fast : Option FastPathDecision) : ∃ k,
      Prog.Runs (c.selectAction request true state candidates fast : HostProg D (Closing D))
        [c.acceptance selected] (.call (.deliberate .requested state) k) := by
  obtain ⟨verification, haccepted, hverify⟩ := runs_verify (D := D) hsignable
  obtain ⟨k, hk⟩ : ∃ k, (c.deliberateOrStop state (candidateIds candidates)
      "CVOC_SELECTED_DELIBERATION" fast (some .requested) : HostProg D (Closing D)) =
        .call (.deliberate .requested state) k := by
    unfold deliberateOrStop
    rw [henabled]
    exact ⟨_, rfl⟩
  refine ⟨k, ?_⟩
  have hrest := Prog.Runs.nil (.call (HostOp.deliberate .requested state) k)
  rw [← hk] at hrest ⊢
  unfold selectAction
  rw [hselected]
  refine (runs_attempt hverify).bind ?_
  dsimp only
  rw [haccepted, Bool.not_true, if_neg Bool.false_ne_true, if_pos hfamily, htext]
  exact hrest

/-- A fast path that lets the run go on. -/
def quietDecision : FastPathDecision where
  answers := ∅
  probabilities := ∅
  abstained := false
  reasons := []
  modelId := []
  modelRevision := []

omit [Digest] [FloatText] [FloatRound] in
private theorem eq_of_acceptedIn {candidate : ActionCandidate} {es : List (Event HostOp (HostOp.Res D))}
    (hes : ∀ e ∈ es, isVerifier e = true → e = c.acceptance selected)
    (h : c.AcceptedIn candidate es) : candidate = selected := by
  obtain ⟨decision, -, hmem⟩ := h
  have heq := hes _ hmem rfl
  rw [acceptance, Event.mk.injEq, HostOp.verifier.injEq] at heq
  exact heq.1.2

private theorem exists_runs_systemOne (htext : request.requestedTextGeneration = true)
    {compilation : CandidateCompilation}
    (he : c.Exposed request state compilation selected) : ∃ es k,
      (∀ e ∈ es, isVerifier e = true → e = c.acceptance selected) ∧
      Prog.Runs (c.systemOne request true state compilation.candidates : HostProg D (Closing D)) es
        (.call (.deliberate .requested state) k) := by
  unfold systemOne
  cases hflag : c.flags.systemOneEnabled with
  | false =>
    obtain ⟨k, hrun⟩ := runs_selectAction (D := D) state he.enabled htext he.selects
      he.family he.signable none
    refine ⟨_, k, fun e hmem _ ↦ List.mem_singleton.mp hmem, ?_⟩
    rw [Bool.not_false, if_pos rfl]
    exact hrun
  | true =>
    have hprovider : c.fastPathProvider = some c.flags.systemOneProvider := by
      obtain hoff | hprovider := he.systemOne
      · rw [hflag] at hoff
        cases hoff
      · exact hprovider
    obtain ⟨k, hrun⟩ := runs_selectAction (D := D) state he.enabled htext he.selects
      he.family he.signable (some quietDecision)
    refine ⟨⟨.decide state controlQuestions "CONTROL" request.language
      (compilation.candidates.map candidateOption), .ok quietDecision⟩ :: [c.acceptance selected],
      k, ?_, ?_⟩
    · intro e hmem hverifier
      obtain rfl | hmem := List.mem_cons.mp hmem
      · cases hverifier
      · exact List.mem_singleton.mp hmem
    · rw [Bool.not_true, if_neg Bool.false_ne_true, hprovider]
      dsimp only
      rw [if_neg (not_not.mpr rfl)]
      exact (runs_attempt (runs_ask (o := .decide _ _ _ _ _) quietDecision)).bind hrun

/-! ### The branches of System One -/

/-- A fast path that abstains. -/
def abstention : FastPathDecision := { quietDecision with abstained := true }

private theorem exists_runs_diverted {compilation : CandidateCompilation}
    (hd : c.Diverted request state compilation) : ∃ es k, DecidedIn abstention es ∧
      Prog.Runs (c.systemOne request true state compilation.candidates : HostProg D (Closing D)) es
        (.call (.deliberate .configured state) k) := by
  obtain ⟨k, hk⟩ : ∃ k, (c.deliberateOrStop state (candidateIds compilation.candidates)
      "SYSTEM_ONE_ABSTAINED" (some abstention) : HostProg D (Closing D)) =
        .call (.deliberate .configured state) k := by
    unfold deliberateOrStop
    rw [hd.enabled, hd.deliberator]
    exact ⟨_, rfl⟩
  refine ⟨[⟨.decide state controlQuestions "CONTROL" request.language
    (compilation.candidates.map candidateOption), .ok abstention⟩], k,
    ⟨_, _, _, _, _, List.mem_singleton_self _⟩, ?_⟩
  have hrest := Prog.Runs.nil (.call (HostOp.deliberate .configured state) k)
  rw [← hk] at hrest ⊢
  unfold systemOne
  rw [hd.systemOne, Bool.not_true, if_neg Bool.false_ne_true, hd.provider]
  dsimp only
  rw [if_neg (not_not.mpr rfl)]
  exact (runs_attempt (runs_ask (o := .decide _ _ _ _ _) abstention)).bind hrest

end Branch

/-- An exposed request lets a deliberation through that the policy has not admitted. -/
theorem Exposed.not_alwaysAdmitted {c : StandaloneController} {request : RuntimeRequest}
    {state : CompiledState} {compilation : CandidateCompilation} {selected : ActionCandidate}
    (he : c.Exposed request state compilation selected)
    (htext : request.requestedTextGeneration = true) (own : Bool) :
    ¬ AlwaysAdmitted D c request own := by
  intro hadmitted
  obtain ⟨hash, hhash⟩ := he.offers.hash
  obtain ⟨es, k, hes, hrun⟩ := exists_runs_systemOne (D := D) htext he
  have hrun' := hrun.bind_left (finish request hash)
  rw [← run_eq he.offers hhash true] at hrun'
  obtain ⟨-, -, -, -, candidate, -, -, hreadOnly, haccepted⟩ := (hadmitted es .requested state _ trivial hrun').verified
  rw [eq_of_acceptedIn hes haccepted] at hreadOnly
  exact he.risk hreadOnly

/-- System One lets a deliberation through that the policy has not admitted. -/
theorem Diverted.not_alwaysAdmitted {c : StandaloneController} {request : RuntimeRequest}
    {state : CompiledState} {compilation : CandidateCompilation}
    (hd : c.Diverted request state compilation) : ¬ AlwaysAdmitted D c request true := by
  intro hadmitted
  obtain ⟨hash, hhash⟩ := hd.offers.hash
  obtain ⟨es, k, habstained, hrun⟩ := exists_runs_diverted (D := D) hd
  have hrun' := hrun.bind_left (finish request hash)
  rw [← run_eq hd.offers hhash true] at hrun'
  have hquiet := (hadmitted es .configured state _ rfl hrun').unopposed _ habstained
  exact Bool.noConfusion hquiet.decided

end Admission

section Sample

attribute [local instance] Digest.transparent FloatText.fraction FloatRound.exact

/-- A deliberation of some risk class. -/
def draftDefinition (risk : RiskClass) : ActionDefinition :=
  { lookupDefinition with id := "draft", family := .deliberate, riskClass := risk }

/-- A request for text whose only action is a deliberation with a positive estimate. -/
def draftRequest (risk : RiskClass) : RuntimeRequest :=
  { lookupRequest with
    rawState := { lookupRequest.rawState with availableActionFamilies := [.deliberate] }
    definitions := [draftDefinition risk]
    policy := { allowedFamilies := [.deliberate], allowedRisks := [risk] }
    estimates := Dict.ofList [("draft:0:local:policy", ⟨.fin 3, .fin 1, .fin 0, .fin 0⟩)]
    requestedTextGeneration := true }

/-- The lookup controller with a deliberator. -/
def draftController : StandaloneController :=
  { lookupController with
    flags := { enabledRequested := true, deliberativeRequested := true }
    hasDeliberator := true }

/-- The state of such a request. -/
def draftState : CompiledState := StateCompiler.compiledState (draftRequest .readOnly).rawState

private theorem selects_draft (risk : RiskClass) :
    ((draftController.compileCandidates (draftRequest risk) draftState).toOption.map
      fun compilation ↦ (compilation.noSafeAction, (draftController.cvoc.select
        compilation.candidates (draftRequest risk).estimates).selected.map fun s ↦
          (s.family, s.riskClass, s.id))) =
      some (false, some (.deliberate, risk, Text.ofString "draft:0:local:policy")) := by
  cases risk <;> decide +kernel

private theorem offers_draft (risk : RiskClass) : ∃ compilation selected,
    draftController.Offers (draftRequest risk) draftState compilation ∧
    (draftController.cvoc.select compilation.candidates (draftRequest risk).estimates).selected =
      some selected ∧ selected.family = .deliberate ∧ selected.riskClass = risk ∧
      selected.id = Text.ofString "draft:0:local:policy" := by
  obtain ⟨compilation, hcompiled, hselects⟩ := Option.map_eq_some_iff.mp (selects_draft risk)
  rw [Prod.mk.injEq, Option.map_eq_some_iff] at hselects
  obtain ⟨hsafe, selected, hselected, hfields⟩ := hselects
  rw [Prod.mk.injEq, Prod.mk.injEq] at hfields
  have hstate : (draftController.compiler.compile (draftRequest .readOnly).rawState).state.isSome =
      true := by decide +kernel
  obtain ⟨state, hstate⟩ := Option.isSome_iff_exists.mp hstate
  have hhash : (stateHash (draftRequest .readOnly).rawState).toOption.isSome = true := by
    decide +kernel
  obtain ⟨hash, hhash⟩ := Option.isSome_iff_exists.mp hhash
  have hrunId : lookupRequest.runId ≠ [] := by decide
  have hbudget : PyFloat.lt (remainingBudget draftState) (.fin 0) = false := by decide +kernel
  refine ⟨compilation, selected, ⟨hrunId, ⟨hash, toOption_eq_some.mp hhash⟩, rfl, ?_,
    hbudget, toOption_eq_some.mp hcompiled, hsafe⟩, hselected, hfields⟩
  rw [StateCompiler.compile_eq_some hstate] at hstate
  exact hstate

/-- The draft controller with System One. -/
def divertingController : StandaloneController :=
  { draftController with
    flags := { enabledRequested := true, systemOneRequested := true, deliberativeRequested := true }
    fastPathProvider := some (Text.ofString "clm") }

end Sample

end StandaloneController

end C3RSpec.Runtime
