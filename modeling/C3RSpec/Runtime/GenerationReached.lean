import C3RSpec.Runtime.ProductionHost

/-!
# Requested text reaches the deliberator

`c3r/responses.py:172–210` over `c3r/production_host.py:120–162`. The production catalogs hold a
read-only deliberation that the verifier of the host accepts and nothing is valued above it, so a
text that passes the checks is handed to the requested deliberator once, whatever the advisory
System One answers and even where it fails.
-/

namespace C3RSpec.Runtime

open Base Telemetry Authority Candidates

variable {D : Type}

/-- The checks of the caller's text. -/
structure ValidText (text : Text) : Prop where
  notBlank : isBlankText text = false
  bounded : text.length ≤ 4096
  scalar : text.IsScalar

/-- `{"goal": text, "current_subgoal": text}`. -/
def textPayload (text : Text) : Dict Text Json :=
  Dict.ofList [("goal", .str text), ("current_subgoal", .str text)]

namespace StandaloneController

/-- The event is a call of a deliberator. -/
def isDeliberate (e : Event HostOp (HostOp.Res D)) : Bool :=
  match e.op with
  | .deliberate _ _ => true
  | .decide _ _ _ _ _ | .verifier _ _ | .append _ => false

/-- An answer of the production host: System One is advisory or fails in a way that is caught, and
verifiers decide by the risk. -/
def ServedEvent : Event HostOp (HostOp.Res D) → Prop
  | ⟨.decide _ _ _ _ _, answer⟩ =>
    (∃ e : PyError, answer = .error e ∧ e.isHostFailure = true) ∨
      ∃ fast : FastPathDecision, answer = .ok fast ∧ fast.abstained = false ∧ fast.answers = ∅
  | ⟨.verifier _ candidate, answer⟩ => answer = .ok (recommendationVerifier candidate)
  | ⟨.deliberate _ _, _⟩ => True
  | ⟨.append _, _⟩ => True

/-- Every answer is one of the production host. -/
def Served (es : List (Event HostOp (HostOp.Res D))) : Prop := ∀ e ∈ es, ServedEvent e

/-- The last call hands the state to the requested deliberator, and no call before it does. What
the deliberator returns is the closing's. -/
def Handed (state : CompiledState) (es : List (Event HostOp (HostOp.Res D)))
    (x : Except PyError (Closing D)) : Prop :=
  ∃ pre answer, es = pre ++ [⟨.deliberate .requested state, answer⟩] ∧
    pre.filter isDeliberate = [] ∧ ∀ value, answer = .ok (.other value) → ∃ closing, x = .ok closing ∧
      closing.deliberation = some value ∧ closing.route = Text.ofString "deliberative" ∧
      closing.reason = Text.ofString "REQUESTED_TEXT_POLICY_FALLBACK" ∧ closing.selected = none

section Stages

variable {c : StandaloneController} {request : RuntimeRequest} {state : CompiledState}
  {candidates : List ActionCandidate}

/-- The requested deliberator is called where deliberation is enabled. -/
theorem handed_deliberateOrStop (h : c.flags.deliberativeEnabled = true) (ids : List Text)
    (fast : Option FastPathDecision) :
    Prog.All (Handed state) (c.deliberateOrStop state ids "REQUESTED_TEXT_POLICY_FALLBACK" fast
      (some .requested) : HostProg D (Closing D)) := by
  unfold deliberateOrStop
  rw [if_pos h]
  refine Prog.All.bind (all_attempt (@all_ask D (.deliberate .requested state) _ fun answer ↦
    ⟨?_, ?_⟩))
  · rintro a rfl
    refine ⟨?_, fun e he ↦ by cases he⟩
    rintro o ho
    cases ho
    cases a with
    | other value =>
      refine ⟨[], .ok (.other value), rfl, rfl, ?_⟩
      rintro value' hvalue
      cases hvalue
      exact ⟨_, rfl, rfl, rfl, rfl, rfl⟩
    | provider result =>
      dsimp only
      split <;> exact ⟨[], .ok (.provider result), rfl, rfl, fun value hvalue ↦ by cases hvalue⟩
  · rintro e rfl
    split
    · refine ⟨?_, fun e' he ↦ by cases he⟩
      rintro o ho
      cases ho
      exact ⟨[], .error e, rfl, rfl, fun value hvalue ↦ by cases hvalue⟩
    · exact ⟨fun o ho ↦ (by cases ho), fun e' _ ↦
        ⟨[], .error e, rfl, rfl, fun value hvalue ↦ by cases hvalue⟩⟩

variable [Digest] [FloatText] [FloatRound]

omit [FloatText] [FloatRound] in
private theorem exists_signed {candidate : ActionCandidate} (h : c.Signable candidate)
    {fingerprint evidence : Text} (hhex : fingerprint.all isHexChar = true)
    (hevidence : evidence.IsScalar) (accepted : Bool) : ∃ tag, signFields c.attestationKey
      (VerifierFirewall.signedFields (c.verifierPolicy.select candidate) candidate.id fingerprint
        c.verifierPolicy.version accepted evidence) = .ok tag := by
  have hnul : nul.val < 128 := by decide
  have hfield : (VerifierFirewall.acceptedField accepted).IsScalar :=
    Text.isScalar_of_isAscii (by cases accepted <;> decide)
  have hscalar : (Text.join nul (VerifierFirewall.signedFields (c.verifierPolicy.select candidate)
      candidate.id fingerprint c.verifierPolicy.version accepted evidence)).IsScalar := by
    unfold VerifierFirewall.signedFields
    iterate 5 rw [Text.join_cons_cons, Text.isScalar_append_iff, Text.isScalar_cons_iff hnul]
    rw [Text.join_singleton]
    exact ⟨h.verifierId, h.candidateId, Text.isScalar_of_isAscii (isAscii_of_hex hhex), h.version,
      hfield, hevidence⟩
  obtain ⟨payload, hpayload⟩ := Text.exists_encodeUtf8_iff.mpr hscalar
  exact ⟨_, signFields_eq_ok.mpr ⟨h.key, payload, hpayload, rfl⟩⟩

omit [FloatRound] in
/-- A signable candidate is decided by its verifier alone. -/
theorem all_verify_decided {candidate : ActionCandidate} (h : c.Signable candidate) :
    Prog.All (fun es x ↦
        ∃ answer : HostOp.Res D (.verifier (c.verifierPolicy.select candidate) candidate),
        es = [⟨.verifier (c.verifierPolicy.select candidate) candidate, answer⟩] ∧
        ∀ decision : VerifierDecision, answer = .ok decision → decision.evidence.IsScalar →
          ∃ r, x = .ok r ∧ r.accepted = decision.accepted)
      (c.verifier.verify candidate : HostProg D VerificationResult) := by
  obtain ⟨u, hregistered⟩ := Option.isSome_iff_exists.mp
    ((c.verifierIds.get?_isSome_iff _).mpr h.registered)
  obtain ⟨canonical, encoded, -, -, hfingerprint⟩ := exists_actionFingerprint candidate
  unfold VerifierFirewall.verify
  simp only [verifier, Dict.get?_mapEntries, hregistered, Option.map_some]
  refine Prog.All.bind (@all_ask D (.verifier (c.verifierPolicy.select candidate) candidate) _
    fun answer ↦ ⟨?_, ?_⟩)
  · rintro decision rfl
    rw [hfingerprint]
    change Prog.All _ (MonadExcept.ofExcept (signFields c.attestationKey _) >>= _)
    by_cases hevidence : decision.evidence.IsScalar
    · obtain ⟨tag, htag⟩ := exists_signed h (isHex_actionFingerprint hfingerprint) hevidence
        decision.accepted
      rw [htag]
      refine ⟨.ok decision, rfl, ?_⟩
      rintro decision' heq -
      cases heq
      exact ⟨_, rfl, rfl⟩
    · refine Prog.All.bind ?_
      cases signFields c.attestationKey (VerifierFirewall.signedFields _ _ _ _ decision.accepted
        decision.evidence) with
      | error e =>
        refine ⟨fun a ha ↦ (by cases ha), fun e' _ ↦ ⟨.ok decision, rfl, ?_⟩⟩
        rintro decision' heq hscalar
        cases heq
        exact absurd hscalar hevidence
      | ok tag =>
        refine ⟨fun a _ ↦ ⟨.ok decision, rfl, ?_⟩, fun e he ↦ by cases he⟩
        rintro decision' heq hscalar
        cases heq
        exact absurd hscalar hevidence
  · rintro e rfl
    exact ⟨.error e, rfl, fun decision hd ↦ by cases hd⟩

/-- What a stage does where every answer is one of the production host. -/
def HandedIfServed (state : CompiledState) (es : List (Event HostOp (HostOp.Res D)))
    (x : Except PyError (Closing D)) : Prop :=
  Served es → Handed state es x

omit [Digest] [FloatText] [FloatRound] in
private theorem HandedIfServed.prepend {es es' : List (Event HostOp (HostOp.Res D))}
    {x : Except PyError (Closing D)} (hes : es.filter isDeliberate = [])
    (h : HandedIfServed state es' x) : HandedIfServed state (es ++ es') x := by
  intro hserved
  obtain ⟨pre, answer, rfl, hpre, hvalue⟩ := h fun e he ↦ hserved e (List.mem_append_right es he)
  refine ⟨es ++ pre, answer, (List.append_assoc es pre _).symm, ?_, hvalue⟩
  rw [List.filter_append, hes, hpre, List.append_nil]

/-- Where nothing is valued, the read-only deliberation among the candidates is verified and the
requested deliberator called. -/
theorem handed_selectAction {fallback : ActionCandidate}
    (henabled : c.flags.deliberativeEnabled = true) (htext : request.requestedTextGeneration = true)
    (hnone : (c.cvoc.select candidates request.estimates).selected = none)
    (hfallback : fallbackCandidate candidates = some fallback) (hsignable : c.Signable fallback)
    (fast : Option FastPathDecision) :
    Prog.All (HandedIfServed state)
      (c.selectAction request true state candidates fast : HostProg D (Closing D)) := by
  have hreadOnly : fallback.riskClass = .readOnly := by
    have hfound := List.find?_some hfallback
    rw [Bool.and_eq_true, decide_eq_true_eq, decide_eq_true_eq] at hfound
    exact hfound.2
  unfold selectAction
  rw [hnone]
  dsimp only
  unfold withoutSelection
  rw [htext, Bool.and_self, if_pos rfl, hfallback]
  dsimp only
  unfold textFallback
  refine Prog.All.bind (all_attempt ((all_verify_decided hsignable).mono ?_))
  rintro es x ⟨answer, rfl, hdecided⟩
  -- an answer of the production host accepts
  have haccepts : Served [(⟨.verifier (c.verifierPolicy.select fallback) fallback, answer⟩ :
      Event HostOp (HostOp.Res D))] → ∃ r : VerificationResult, x = .ok r ∧ r.accepted = true := by
    intro hserved
    obtain ⟨r, hr, haccepted⟩ := hdecided _ (hserved _ List.mem_cons_self)
      (isScalar_recommendation fallback)
    exact ⟨r, hr, by rw [haccepted, recommendationVerifier, hreadOnly]; rfl⟩
  refine ⟨?_, ?_⟩
  · rintro r rfl
    refine ⟨?_, fun e he ↦ by cases he⟩
    rintro o ho
    cases ho
    dsimp only
    cases haccepted : r.accepted with
    | true =>
      rw [if_pos rfl, if_pos rfl]
      exact (handed_deliberateOrStop henabled _ fast).mono fun es' y hy ↦
        HandedIfServed.prepend rfl fun _ ↦ hy
    | false =>
      rw [if_neg Bool.false_ne_true]
      refine fun hserved ↦ ?_
      obtain ⟨r', hr', htrue⟩ := haccepts hserved
      cases hr'
      rw [haccepted] at htrue
      cases htrue
  · rintro e rfl
    have hnever : ∀ es' y,
        HandedIfServed (D := D) state ([⟨.verifier _ fallback, answer⟩] ++ es') y := by
      intro es' y hserved
      obtain ⟨r, hr, -⟩ := haccepts fun e he ↦ hserved e (List.mem_append_left es' he)
      cases hr
    split
    · refine ⟨fun o ho ↦ ?_, fun e' he ↦ by cases he⟩
      exact Prog.All.of_forall _ hnever
    · exact ⟨fun o ho ↦ (by cases ho), fun e' _ ↦ hnever [] _⟩

/-- System One is advisory, so a text goes on to selection whatever it says. -/
theorem handed_systemOne {fallback : ActionCandidate}
    (henabled : c.flags.deliberativeEnabled = true) (htext : request.requestedTextGeneration = true)
    (hprovider : c.fastPathProvider = some c.flags.systemOneProvider)
    (hnone : (c.cvoc.select candidates request.estimates).selected = none)
    (hfallback : fallbackCandidate candidates = some fallback) (hsignable : c.Signable fallback) :
    Prog.All (HandedIfServed state)
      (c.systemOne request true state candidates : HostProg D (Closing D)) := by
  have hselect : ∀ fast, Prog.All (HandedIfServed state)
      (c.selectAction request true state candidates fast : HostProg D (Closing D)) :=
    handed_selectAction henabled htext hnone hfallback hsignable
  unfold systemOne
  split
  · exact hselect none
  · rw [hprovider]
    dsimp only
    rw [if_neg (not_not.mpr rfl)]
    refine Prog.All.bind (all_attempt (@all_ask D (.decide _ _ _ _ _) _ fun answer ↦ ⟨?_, ?_⟩))
    · rintro fast rfl
      refine ⟨?_, fun e he ↦ by cases he⟩
      rintro o ho
      cases ho
      change Prog.All _ (c.afterFastPath _ _ _ _ fast)
      by_cases hadvisory : fast.abstained = false ∧ fast.answers = ∅
      · unfold afterFastPath
        rw [hadvisory.1, if_neg Bool.false_ne_true, hadvisory.2, Dict.get?_empty,
          if_neg (by simp), Dict.get?_empty, if_neg (by simp)]
        exact (hselect (some fast)).mono fun es' y hy ↦ HandedIfServed.prepend rfl hy
      · -- not an answer of the production host
        refine Prog.All.of_forall _ fun es' y hserved ↦ ?_
        obtain ⟨e, he, -⟩ | ⟨fast', hfast, h⟩ := hserved _ List.mem_cons_self
        · cases he
        · cases hfast
          exact absurd h hadvisory
    · rintro e rfl
      split
      · refine ⟨?_, fun e' he ↦ by cases he⟩
        rintro o ho
        cases ho
        dsimp only
        exact (hselect none).mono fun es' y hy ↦ HandedIfServed.prepend rfl hy
      · next hescapes =>
        refine ⟨fun o ho ↦ (by cases ho), fun e' _ hserved ↦ ?_⟩
        obtain ⟨e'', he, hcaught⟩ | ⟨fast', hfast, -⟩ := hserved _ List.mem_cons_self
        · cases he
          exact absurd hcaught hescapes
        · cases hfast

end Stages

end StandaloneController

/-! ### The request of a text -/

namespace ProductionHost

/-- The families of the shipped catalogs, in order. -/
def catalogFamilies : List ActionFamily := sortedFamilies catalogPolicy.allowedFamilies.dedup

/-- The raw state of a text. -/
def textState (text : Text) : RawState where
  goal := text
  currentSubgoal := text
  availableActionFamilies := catalogFamilies
  modelInventory := ["c3r-system-one", "deepseek"]
  budget := Dict.ofList [("remaining_usd", .fin 0)]
  dataBoundary := "local"

/-- The request of a text. -/
def textRequest (runId text : Text) : RuntimeRequest where
  rawState := textState text
  definitions := catalogOperations.map catalogDefinition
  policy := catalogPolicy
  estimates := ∅
  runId := runId
  requestedTextGeneration := true

/-- The candidates of every such request. -/
def catalogCompilation : Except PyError CandidateCompilation :=
  CandidateCompiler.compileHierarchical ⟨8, perFamilyCap_default⟩
    ((catalogOperations.map catalogDefinition).filter fun d ↦ decide (d.family ∈ catalogFamilies))
    catalogPolicy { remainingBudget := .fin 0, allowedVerifiers := ["recommendation"] }

private theorem exists_catalogCompilation : ∃ compilation fallback,
    catalogCompilation = .ok compilation ∧ compilation.noSafeAction = false ∧
      StandaloneController.fallbackCandidate compilation.candidates = some fallback ∧
      fallback.id.isAscii = true := by
  have h : (catalogCompilation.toOption.map fun compilation ↦ (compilation.noSafeAction,
      (StandaloneController.fallbackCandidate compilation.candidates).map fun candidate ↦
        candidate.id.isAscii)) = some (false, some true) := by decide +kernel
  obtain ⟨compilation, hcompilation, h⟩ := Option.map_eq_some_iff.mp h
  obtain ⟨hsafe, h⟩ := Prod.mk.inj h
  obtain ⟨fallback, hfallback, hascii⟩ := Option.map_eq_some_iff.mp h
  exact ⟨compilation, fallback, toOption_eq_some.mp hcompilation, hsafe, hfallback, hascii⟩

private theorem state_textState (flags : FeatureFlags) (key : HostKey) {text : Text}
    (h : text.length ≤ 4096) : ((controller flags key).compiler.compile (textState text)).state =
      some (StateCompiler.compiledState (textState text)) := by
  have hsequences : StateCompiler.oversized 64 (StateCompiler.sequences (textState text))
      " exceeds item bound" = none := by
    change StateCompiler.oversized 64 [("verified_facts", 0), ("open_questions", 0),
      ("recent_failures", 0), ("available_action_families", catalogFamilies.length),
      ("tool_summary", 0), ("model_inventory", 2)] _ = none
    decide +kernel
  have hmappings : StateCompiler.oversized 64 (StateCompiler.mappings (textState text))
      " exceeds entry bound" = none := by
    change StateCompiler.oversized 64 [("budget", 1), ("runtime_summary", 0), ("risk", 0),
      ("provenance", 0)] _ = none
    decide +kernel
  have htexts : StateCompiler.textValues (textState text) =
      [text, text, "unknown", "local", [], "c3r-system-one", "deepseek"] := rfl
  have hlengths : (Text.ofString "unknown").length = 7 ∧ (Text.ofString "local").length = 5 ∧
      (Text.ofString "c3r-system-one").length = 14 ∧ (Text.ofString "deepseek").length = 8 := by
    decide
  obtain ⟨hunknown, hlocal, hsystem, hdeepseek⟩ := hlengths
  have hlimits : (controller flags key).compiler.limits = {} := rfl
  have hminimum : (controller flags key).compiler.minimumConfidence = .fin (1 / 2) := rfl
  have hbounds : StateCompiler.checkBounds {} (textState text) = none := by
    unfold StateCompiler.checkBounds
    rw [hsequences, hmappings, htexts, Option.none_or, Option.none_or, if_neg, if_neg]
    · simp only [List.map_cons, List.map_nil, List.sum_cons, List.sum_nil, List.length_nil, hunknown,
        hlocal, hsystem, hdeepseek]
      omega
    · rintro hlong
      obtain ⟨t, ht, hlong⟩ := List.any_eq_true.mp hlong
      have hlong : 4096 < t.length := of_decide_eq_true hlong
      simp only [List.mem_cons, List.not_mem_nil, or_false] at ht
      obtain rfl | rfl | rfl | rfl | rfl | rfl | rfl := ht
      all_goals simp only [List.length_nil, hunknown, hlocal, hsystem, hdeepseek] at hlong
      all_goals omega
  unfold StateCompiler.compile
  rw [if_neg (by exact Bool.false_ne_true), hlimits, hbounds]
  dsimp only
  have hconfidence : PyFloat.lt (StateCompiler.confidence (textState text)) (.fin (1 / 2)) = false := by
    change PyFloat.lt (firstMax PyFloat.lt (.fin 0) [PyFloat.sub (.fin 1) (.fin 0)])
      (.fin (1 / 2)) = false
    decide +kernel
  rw [if_neg, if_neg]
  · rw [hminimum, hconfidence]
    exact Bool.false_ne_true
  · change ¬(!(PyFloat.le (.fin 0) (.fin 0) && PyFloat.le (.fin 0) (.fin 1))) = true
    decide +kernel

private theorem allScalar_textState {text : Text} (h : text.IsScalar) :
    (textState text).asdict.AllScalar := by
  have plain : ∀ s : String, (Text.ofString s).isAscii = true → (Text.ofString s).IsScalar := fun _ ↦
    Text.isScalar_of_isAscii
  have hfamilies : (textsJson (catalogFamilies.map ActionFamily.value)).AllScalar := by
    refine (elementsScalar_iff _).mpr fun x hx ↦ ?_
    obtain ⟨t, ht, rfl⟩ := List.mem_map.mp hx
    obtain ⟨family, -, rfl⟩ := List.mem_map.mp ht
    exact Text.isScalar_of_isAscii (by cases family <;> decide)
  refine (membersScalar_iff _).mpr fun e he ↦ ?_
  simp only [List.mem_cons, List.not_mem_nil, or_false] at he
  obtain rfl | rfl | rfl | rfl | rfl | rfl | rfl | rfl | rfl | rfl | rfl | rfl | rfl | rfl | rfl | rfl |
    rfl | rfl := he
  · exact ⟨plain "goal" (by decide), h⟩
  · exact ⟨plain "current_subgoal" (by decide), h⟩
  · exact ⟨plain "verified_facts" (by decide), trivial⟩
  · exact ⟨plain "open_questions" (by decide), trivial⟩
  · exact ⟨plain "recent_failures" (by decide), trivial⟩
  · exact ⟨plain "available_action_families" (by decide), hfamilies⟩
  · exact ⟨plain "tool_summary" (by decide), trivial⟩
  · exact ⟨plain "model_inventory" (by decide), plain "c3r-system-one" (by decide),
      plain "deepseek" (by decide), trivial⟩
  · exact ⟨plain "budget" (by decide), plain "remaining_usd" (by decide), trivial, trivial⟩
  · exact ⟨plain "runtime_summary" (by decide), trivial⟩
  · exact ⟨plain "risk" (by decide), trivial⟩
  · exact ⟨plain "reversibility" (by decide), plain "unknown" (by decide)⟩
  · exact ⟨plain "approval_required" (by decide), trivial⟩
  · exact ⟨plain "data_boundary" (by decide), plain "local" (by decide)⟩
  · exact ⟨plain "rollback_state" (by decide), trivial⟩
  · exact ⟨plain "ambiguity" (by decide), trivial⟩
  · exact ⟨plain "consequence" (by decide), plain "low" (by decide)⟩
  · exact ⟨plain "provenance" (by decide), trivial⟩

private theorem exists_stateHash [Digest] [FloatText] {text : Text} (h : text.IsScalar) :
    ∃ hash, StandaloneController.stateHash (textState text) = .ok hash := by
  have hdumps : dumps false false (textState text).asdict =
      .ok ((textState text).asdict.sortKeys.render false) := by
    have hempty : (textState []).asdict.allFinite = true := by decide +kernel
    have hfinite : (textState text).asdict.allFinite = true := by
      simpa only [RawState.asdict, textState, Json.allFinite, membersFinite] using hempty
    rw [dumps, hfinite, if_neg (by decide)]
  have hscalar := (isScalar_dumps false hdumps).mpr fun _ ↦ allScalar_textState h
  obtain ⟨bytes, hbytes⟩ := Text.exists_encodeUtf8_iff.mpr hscalar
  refine ⟨Digest.sha256Hex bytes, ?_⟩
  exact bind_eq_ok.mpr ⟨_, hdumps, bind_eq_ok.mpr ⟨bytes, hbytes, rfl⟩⟩

/-- Every registry of the shipped catalogs turns a text into its request. -/
theorem build_textPayload [FloatText] [JsonLimits] {registry : CatalogRegistry}
    (hnew : CatalogRegistry.new catalogs = .ok registry) {text : Text} (h : ValidText text)
    (runId : Text) :
    registry.build runId (textPayload text) =
      .ok { textRequest runId text with requestedTextGeneration := false } := by
  have hregistered : (registry.factories.get? "agent-v1").isSome = true := by
    have hall : ((CatalogRegistry.new catalogs).toOption.map fun registry ↦
        (registry.factories.get? "agent-v1").isSome) = some true := by decide +kernel
    rw [hnew] at hall
    exact Option.some.inj hall
  obtain ⟨factory, hfactory⟩ := Option.isSome_iff_exists.mp hregistered
  obtain ⟨catalog, hcatalog, hname, hmade⟩ := CatalogRegistry.exists_of_registered hnew hfactory
  obtain ⟨hdefinitions, hpolicy, hsource, hbudget, hinventory, hboundary⟩ :=
    CatalogRegistry.factory_eq_ok hmade
  have hgeneral : catalog.definitions = catalogOperations.map catalogDefinition ∧
      catalog.policy = catalogPolicy := by
    simp only [catalogs, List.mem_cons, List.not_mem_nil, or_false] at hcatalog
    obtain rfl | rfl | rfl | rfl := hcatalog <;> exact ⟨rfl, rfl⟩
  have hbounded : ∀ name, boundedText name (.str text) = .ok text := fun name ↦ by
    rw [boundedText, h.notBlank, if_neg]
    exact fun hlong ↦ not_lt.mpr h.bounded (of_decide_eq_true hlong)
  have hraw : factory.rawState text text [] = textState text := by
    rw [ReadOnlyRequestFactory.rawState, ReadOnlyRequestFactory.families, hpolicy, hgeneral.2, hbudget,
      hinventory, hboundary]
    rfl
  have hkeys : ((textPayload text).keys.any fun key ↦
      decide (key ∉ CatalogRegistry.payloadFields)) = false := by
    change ([Text.ofString "goal", Text.ofString "current_subgoal"].any fun key ↦
      decide (key ∉ CatalogRegistry.payloadFields)) = false
    decide
  have hname : CatalogRegistry.catalogName (textPayload text) = .ok (Text.ofString "agent-v1") := rfl
  unfold CatalogRegistry.build
  rw [hkeys, if_neg Bool.false_ne_true, hname]
  refine bind_eq_ok.mpr ⟨_, rfl, ?_⟩
  dsimp only
  rw [hfactory]
  change factory.build runId (Dict.ofList [(Text.ofString "goal", .str text),
    (Text.ofString "current_subgoal", .str text), (Text.ofString "open_questions", .arr [])]) = _
  refine bind_eq_ok.mpr ⟨text, hbounded "goal", bind_eq_ok.mpr ⟨text, hbounded "current_subgoal",
    bind_eq_ok.mpr ⟨[], rfl, bind_eq_ok.mpr ⟨some ∅, hsource _, bind_eq_ok.mpr ⟨∅, rfl, ?_⟩⟩⟩⟩⟩
  rw [hraw, hdefinitions, hpolicy, hgeneral.1, hgeneral.2]
  rfl

section Run

open StandaloneController

variable [Digest] [FloatText] [FloatRound]

/-- The text was handed to the requested deliberator once. Where the sink records the run, what the
deliberator returned is the outcome's. -/
def Generated (text : Text) (es : List (Event HostOp (HostOp.Res D)))
    (x : Except PyError (RuntimeOutcome D)) : Prop :=
  ∃ state answer,
    es.filter isDeliberate = [⟨.deliberate .requested state, answer⟩] ∧
    state.goal = text ∧ state.dataBoundary = Text.ofString "local" ∧
    ∀ value, answer = .ok (.other value) → ∃ trace recorded,
      es.getLast? = some ⟨.append trace, recorded⟩ ∧ ∀ record, recorded = .ok record →
        ∃ outcome, x = .ok outcome ∧ outcome.deliberation = some value ∧
          outcome.reason = Text.ofString "REQUESTED_TEXT_POLICY_FALLBACK" ∧
          outcome.route = Text.ofString "deliberative" ∧ outcome.selectedActionId = none

omit [FloatRound] in
private theorem offers_textRequest {flags : FeatureFlags} (key : HostKey) (henabled :
    flags.enabledRequested = true) {runId text : Text} (hrunId : runId ≠ []) (htext : ValidText text) :
    ∃ compilation fallback,
      (controller flags key).Offers (textRequest runId text)
        (StateCompiler.compiledState (textState text)) compilation ∧
      fallbackCandidate compilation.candidates = some fallback ∧
      (controller flags key).Signable fallback := by
  obtain ⟨compilation, fallback, hcompilation, hsafe, hfallback, hascii⟩ := exists_catalogCompilation
  refine ⟨compilation, fallback, ⟨hrunId, exists_stateHash htext.scalar, henabled,
    state_textState flags key htext.bounded, ?_, hcompilation, hsafe⟩, hfallback, ?_⟩
  · change PyFloat.lt (.fin 0) (.fin 0) = false
    decide +kernel
  · refine ⟨?_, ?_, ?_, Text.isScalar_of_isAscii hascii, ?_⟩
    · change Text.ofString "recommendation" ∈ [Text.ofString "recommendation"]
      exact List.mem_singleton_self _
    · change 16 ≤ key.val.size
      rw [key.property]
      decide
    · change (Text.ofString "recommendation").IsScalar
      exact Text.isScalar_of_isAscii (by decide)
    · change (Text.ofString "policy-v1").IsScalar
      exact Text.isScalar_of_isAscii (by decide)

omit [Digest] [FloatText] in
private theorem select_unvalued (c : RobustCvocController) (candidates : List ActionCandidate) :
    (c.select candidates ∅).selected = none := by
  cases h : (c.select candidates ∅).selected with
  | none => rfl
  | some candidate =>
    obtain ⟨-, e, he, -⟩ := RobustCvocController.select_eq_some h
    rw [Dict.get?_empty] at he
    cases he

omit [Digest] [FloatText] [FloatRound] in
private theorem generated_finish (request : RuntimeRequest) (hash : Text) {text : Text}
    {es : List (Event HostOp (HostOp.Res D))} {x : Except PyError (Closing D)}
    (h : Handed (StateCompiler.compiledState (textState text)) es x) :
    (∀ closing, x = .ok closing → Prog.All (fun es' y ↦ Generated text (es ++ es') y)
      (finish request hash closing)) ∧
      ∀ e, x = .error e → Generated (D := D) text es (.error e) := by
  obtain ⟨pre, answer, rfl, hpre, hvalue⟩ := h
  have honce : (pre ++
      [(⟨.deliberate .requested (StateCompiler.compiledState (textState text)), answer⟩ :
        Event HostOp (HostOp.Res D))]).filter isDeliberate =
      [⟨.deliberate .requested (StateCompiler.compiledState (textState text)), answer⟩] := by
    rw [List.filter_append, hpre]
    rfl
  refine ⟨?_, ?_⟩
  · rintro closing rfl
    unfold finish
    refine Prog.All.bind (@all_ask D (.append _) _ fun recorded ↦ ⟨?_, ?_⟩)
    · rintro record rfl
      refine ⟨_, answer, ?_, rfl, rfl, ?_⟩
      · rw [List.filter_append, honce]
        rfl
      · intro value hanswer
        obtain ⟨closing', heq, hdeliberation, hroute, hreason, hselected⟩ := hvalue value hanswer
        cases heq
        refine ⟨_, .ok record, List.getLast?_concat, ?_⟩
        rintro record' hrecord
        cases hrecord
        refine ⟨_, rfl, hdeliberation, hreason, hroute, ?_⟩
        rw [finishOutcome, hselected]
        rfl
    · rintro e rfl
      refine ⟨_, answer, ?_, rfl, rfl, ?_⟩
      · rw [List.filter_append, honce]
        rfl
      · intro value _
        refine ⟨_, .error e, List.getLast?_concat, ?_⟩
        rintro record hrecord
        cases hrecord
  · rintro e rfl
    refine ⟨_, answer, honce, rfl, rfl, ?_⟩
    intro value hanswer
    obtain ⟨closing, heq, -⟩ := hvalue value hanswer
    cases heq

/-- In every accepted environment a text that passes the checks becomes a request, and whatever
System One answers, and even where it fails, its run hands that text to the requested deliberator
exactly once; what the deliberator returns is the outcome's, with no action recommended. -/
theorem text_reaches_deliberator [JsonLimits] {values : Dict Text Text} {key : HostKey}
    {host : ProductionHost} (hhost : build values key = .ok host) {runId text : Text}
    (hrunId : runId ≠ []) (htext : ValidText text) :
    ∃ request, host.registry.build runId (textPayload text) = .ok request ∧
      Prog.All (fun es x ↦ Served es → Generated text es x)
        (host.runtime.run { request with requestedTextGeneration := true } true :
          HostProg D (RuntimeOutcome D)) := by
  obtain ⟨flags, -, hsystem, hdeliberative, hprovider, hruntime, hregistry⟩ := build_eq_ok hhost
  have henabled : flags.enabledRequested = true := (Bool.and_eq_true_iff.mp hsystem).1
  refine ⟨_, build_textPayload hregistry htext runId, ?_⟩
  rw [hruntime]
  change Prog.All _ ((controller flags key).run (textRequest runId text) true)
  obtain ⟨compilation, fallback, hoffers, hfallback, hsignable⟩ :=
    offers_textRequest key henabled hrunId htext
  obtain ⟨hash, hhash⟩ := hoffers.hash
  rw [run_eq hoffers hhash]
  refine Prog.All.bind ((handed_systemOne (c := controller flags key) hdeliberative rfl ?_
    (select_unvalued _ _) hfallback hsignable).mono ?_)
  · change some (Text.ofString "clm") = some flags.systemOneProvider
    rw [hprovider]
  · rintro es x hhanded
    refine ⟨?_, ?_⟩
    · rintro closing rfl
      by_cases hserved : Served es
      · obtain ⟨hok, -⟩ := generated_finish (textRequest runId text) hash (hhanded hserved)
        exact (hok closing rfl).mono fun es' y hy (_ : Served (es ++ es')) ↦ hy
      · exact Prog.All.of_forall _ fun es' y hall ↦
          absurd (fun e he ↦ hall e (List.mem_append_left es' he)) hserved
    · rintro e rfl hserved
      obtain ⟨-, herror⟩ := generated_finish (textRequest runId text) hash (hhanded hserved)
      exact herror e rfl

end Run

section Sample

attribute [local instance] Digest.transparent FloatText.fraction FloatRound.exact JsonLimits.unreached

/-- An environment of production inference. -/
def inferenceEnvironment : Dict Text Text := Dict.ofList
  [("C3R_ENABLED", "true"), ("C3R_SYSTEM_ONE", "on"), ("C3R_DELIBERATIVE", " Yes "),
    ("C3R_MODE", "production_inference"),
    ("C3R_CLM_CONTAINER_DIGEST", Text.ofString "sha256:" ++ List.replicate 64 97)]

/-- A host whose System One is down. -/
def servingHost : (o : HostOp) → HostOp.Res Unit o
  | .decide _ _ _ _ _ => .error ⟨.runtimeError, "unavailable"⟩
  | .verifier _ candidate => .ok (recommendationVerifier candidate)
  | .deliberate _ _ => .ok (.other ())
  | .append _ => .ok ⟨genesis, genesis, []⟩

/-- A key of zeros. -/
def zeroKey : HostKey := ⟨⟨Array.replicate 32 0⟩, by rfl⟩

/-- A text is generated although System One is down. -/
theorem text_reaches_deliberator_served : ∃ host request outcome,
    build inferenceEnvironment zeroKey = .ok host ∧
      host.registry.build "run-1" (textPayload "Summarise") = .ok request ∧
      (Prog.play servingHost (host.runtime.run
        { request with requestedTextGeneration := true } true)).2 = .ok outcome ∧
      outcome.deliberation = some () := by
  have hbuilds : (build inferenceEnvironment zeroKey).toOption.isSome = true := by decide +kernel
  obtain ⟨host, hhost⟩ := Option.isSome_iff_exists.mp hbuilds
  have hhost := toOption_eq_some.mp hhost
  have htext : ValidText "Summarise" := ⟨by decide, by decide, Text.isScalar_of_isAscii (by decide)⟩
  have hrunId : Text.ofString "run-1" ≠ [] := by decide
  obtain ⟨request, hrequest, hall⟩ := text_reaches_deliberator (D := Unit) hhost hrunId htext
  have hserved : StandaloneController.Served (Prog.play servingHost (host.runtime.run
      { request with requestedTextGeneration := true } true)).1 := by
    rintro ⟨o, answer⟩ he
    have hanswer := Prog.answer_of_mem_play he
    cases o with
    | decide _ _ _ _ _ => exact .inl ⟨_, hanswer, rfl⟩
    | verifier _ candidate => exact hanswer
    | deliberate _ _ => trivial
    | append _ => trivial
  obtain ⟨state, answer, honce, -, -, hvalue⟩ :=
    hall.of_finishes (Prog.finishes_play servingHost _) hserved
  have hplayed := Prog.answer_of_mem_play
    (List.mem_filter.mp (honce ▸ List.mem_singleton_self _)).1
  obtain ⟨trace, recorded, hlast, hreturned⟩ := hvalue () hplayed
  have happended := Prog.answer_of_mem_play (List.mem_of_getLast? hlast)
  obtain ⟨outcome, hx, hdeliberation, -⟩ := hreturned _ happended
  exact ⟨host, request, outcome, hhost, hrequest, hx, hdeliberation⟩

end Sample

end ProductionHost

end C3RSpec.Runtime
