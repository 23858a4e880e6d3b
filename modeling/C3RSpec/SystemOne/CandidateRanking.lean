import C3RSpec.Runtime.HostCalls
import C3RSpec.SystemOne.Alignment
import C3RSpec.SystemOne.ResponseFallback

/-!
# The ranking of a decision

`c3r/http_service.py:383–401`. The service zips the candidate ids of an outcome with the scores
that the fast path gave to labels. A run that keeps a decision keeps the ids of the candidates
whose labels it was asked about, so the two lists belong together.
-/

namespace C3RSpec.SystemOne

open Base C3RSpec.Runtime Candidates StandaloneController

/-- An item of `candidate_ranking`. -/
structure RankedCandidate where
  candidateId : Text
  systemOneScore : PyFloat
  calibrated : Bool := false

variable {D : Type}

/-- The scores that are reported: none when their number is another or one is no probability. -/
def reportedScores (outcome : RuntimeOutcome D) : List PyFloat :=
  let scores := outcome.fastPath.elim [] FastPathDecision.candidateProbabilities
  if scores.length ≠ outcome.candidateIds.length ∨
      scores.any (fun score ↦ !score.isFinite || PyFloat.lt score (.fin 0) ||
        PyFloat.lt (.fin 1) score) then []
  else scores

/-- `candidate_ranking`. -/
def candidateRanking (outcome : RuntimeOutcome D) : List RankedCandidate :=
  (SystemOneInference.sortedByScore (outcome.candidateIds.zip (reportedScores outcome))).map
    fun pair ↦ { candidateId := pair.1, systemOneScore := pair.2 }

/-! ### Candidate ids of an outcome -/

section Recorded

variable {c : StandaloneController} {request : RuntimeRequest} {requestedDeliberator : Bool}
  {state : CompiledState} {candidates : List ActionCandidate}

/-- A closing has the ids of the candidates. -/
def Recorded (candidates : List ActionCandidate) (x : Except PyError (Closing D)) : Prop :=
  ∀ closing, x = .ok closing → closing.candidateIds = candidateIds candidates

private theorem recorded_bind {α : Type} {p : HostProg D α} {f : α → HostProg D (Closing D)}
    (h : ∀ a, Prog.All (fun _ x ↦ Recorded candidates x) (f a)) :
    Prog.All (fun _ x ↦ Recorded candidates x) (p >>= f) :=
  Prog.All.bind (Prog.All.of_forall p fun _ _ ↦ ⟨fun a _ ↦ h a, fun _ _ _ h ↦ (nomatch h)⟩)

private theorem recorded_of_ids {closing : Closing D}
    (h : closing.candidateIds = candidateIds candidates) :
    Recorded candidates (.ok closing) := by
  rintro _ ⟨⟩
  exact h

private theorem recorded_deliberateOrStop (reason : Text) (fast : Option FastPathDecision)
    (deliberator : Option Deliberator) :
    Prog.All (fun _ x ↦ Recorded candidates x)
      (c.deliberateOrStop state (candidateIds candidates) reason fast deliberator :
        HostProg D (Closing D)) := by
  unfold deliberateOrStop
  split
  · exact recorded_of_ids rfl
  · refine recorded_bind fun answer ↦ ?_
    split
    · exact recorded_of_ids rfl
    · split
      · exact recorded_of_ids rfl
      · exact recorded_of_ids rfl
    · exact recorded_of_ids rfl

variable [Digest] [FloatText] [FloatRound]

private theorem recorded_selectAction (fast : Option FastPathDecision) :
    Prog.All (fun _ x ↦ Recorded candidates x)
      (c.selectAction request requestedDeliberator state candidates fast :
        HostProg D (Closing D)) := by
  unfold selectAction
  split
  · unfold withoutSelection
    split
    · refine recorded_bind fun verification ↦ ?_
      split
      · exact recorded_of_ids rfl
      · split
        · exact recorded_deliberateOrStop _ _ _
        · exact recorded_of_ids rfl
    · exact recorded_of_ids rfl
  · refine recorded_bind fun verification ↦ ?_
    split
    · exact recorded_of_ids rfl
    · split
      · exact recorded_of_ids rfl
      · split
        · exact recorded_deliberateOrStop _ _ _
        · split
          · exact recorded_of_ids rfl
          · exact recorded_of_ids rfl

/-- After System One every closing has the ids of the candidates. -/
theorem recorded_systemOne :
    Prog.All (fun _ x ↦ Recorded candidates x)
      (c.systemOne request requestedDeliberator state candidates : HostProg D (Closing D)) := by
  unfold systemOne
  split
  · exact recorded_selectAction none
  · split
    · exact recorded_of_ids rfl
    · split
      · exact recorded_of_ids rfl
      · refine recorded_bind fun answer ↦ ?_
        split
        · next fast =>
          unfold afterFastPath
          split
          · exact recorded_deliberateOrStop _ _ _
          · split
            · exact recorded_of_ids rfl
            · split
              · exact recorded_deliberateOrStop _ _ _
              · exact recorded_selectAction _
        · split
          · exact recorded_selectAction none
          · exact recorded_deliberateOrStop _ _ _

/-- A decision that a run keeps answers the labels of its candidates. -/
theorem asked_of_run {es : List (Event HostOp (HostOp.Res D))} {outcome : RuntimeOutcome D}
    (h : Prog.Finishes (c.run request requestedDeliberator) es (.ok outcome))
    {decision : FastPathDecision} (hfast : outcome.fastPath = some decision) :
    ∃ state compilation, c.Offers request state compilation ∧
      outcome.candidateIds = candidateIds compilation.candidates ∧
      ⟨.decide state controlQuestions "CONTROL" request.language
        (compilation.candidates.map candidateOption), .ok decision⟩ ∈ es := by
  obtain ⟨-, e, he⟩ | ⟨hash, closing, answer, pre, candidates, fast, hclosed, hanswer⟩ :=
    (all_run c request requestedDeliberator).of_finishes h
  · cases he
  · cases answer with
    | error e => cases hanswer
    | ok record =>
      cases hanswer
      have hkept : fast = some decision := by
        obtain hnone | hsame := hclosed.exit.fast
        · exact absurd (hnone.symm.trans hfast) (by simp)
        · exact hsame.symm.trans hfast
      obtain ⟨state, questions, family, language, options, hmem⟩ := hclosed.decided decision hkept
      have hevent : ⟨.decide state questions family language options, .ok decision⟩ ∈ es := by
        rw [hclosed.events]
        exact List.mem_append_left _ hmem
      -- the call was guarded by what the request offers
      obtain ⟨q, hrun, hresult⟩ := h
      obtain ⟨before, after, -, hguard⟩ :=
        (guarded_run c request requestedDeliberator).of_mem hrun hevent
      obtain ⟨-, rfl, rfl, rfl, compilation, hoffers, rfl⟩ := hguard
      refine ⟨state, compilation, hoffers, ?_, hevent⟩
      have hids : Prog.All (fun _ x ↦ ∀ outcome, x = .ok outcome →
          outcome.candidateIds = candidateIds compilation.candidates)
          (c.run request requestedDeliberator : HostProg D (RuntimeOutcome D)) := by
        obtain ⟨hash, hhash⟩ := hoffers.hash
        rw [run_eq hoffers hhash]
        refine Prog.All.bind (recorded_systemOne.mono fun es x hx ↦ ⟨?_, fun e _ outcome h ↦
          (nomatch h)⟩)
        rintro closing rfl
        refine Prog.All.bind (@all_ask D (.append _) _ fun answer ↦ ⟨?_, fun e _ outcome h ↦
          (nomatch h)⟩)
        rintro record - outcome ⟨⟩
        exact hx closing rfl
      exact hids.of_finishes ⟨q, hrun, hresult⟩ _ rfl

end Recorded

/-! ### Scores of a decision -/

section Decided

variable [FloatSort] [FloatText]

/-- The scores of a decision about labels are aligned with the labels. -/
theorem aligned_of_decide {path : ClmPath} {adapter : ClmAdapter} {state : CompiledState}
    {questions : List TypedQuestion} {family language : Text} {labels : List Text}
    {decision : FastPathDecision} (hlabels : labels ≠ [])
    (h : path.decide adapter state questions family language labels = .ok decision) :
    ∃ context p, ClmAdapter.Aligned labels
      (adapter.transport ⟨context, "NEXT_ACTION", labels, adapter.servedModel⟩) p
      decision.candidateProbabilities := by
  have hrank : adapter.rankActions state labels = .ok decision.candidateProbabilities := by
    cases path with
    | advisory =>
      obtain ⟨scores, hscores, h⟩ := bind_eq_ok.mp h
      cases h
      rw [if_neg hlabels] at hscores
      exact hscores
    | calibrated calibrator top margin topInUnit marginInUnit =>
      obtain ⟨scores, hscores, h⟩ := bind_eq_ok.mp h
      obtain ⟨predicted, -, h⟩ := bind_eq_ok.mp h
      cases h
      rw [CalibratedFastPath.candidateProbabilities, if_neg hlabels] at hscores
      exact hscores
  obtain ⟨context, -, hrank⟩ := bind_eq_ok.mp hrank
  obtain ⟨-, -, hrank⟩ := bind_eq_ok.mp hrank
  dsimp only at hrank
  split at hrank
  · cases hrank
  · obtain ⟨p, hp⟩ := ClmAdapter.aligned_of_checkResponse hrank
    exact ⟨context, p, hp⟩

end Decided

/-- Candidates with probabilities of their labels are ranked by them. -/
theorem candidateRanking_of_aligned {outcome : RuntimeOutcome D} {decision : FastPathDecision}
    {candidates : List ActionCandidate} {response : Dict Text Json} {p : Text → ℚ}
    (hfast : outcome.fastPath = some decision)
    (hids : outcome.candidateIds = candidateIds candidates)
    (h : ClmAdapter.Aligned (candidates.map candidateOption) response p
      decision.candidateProbabilities) :
    (candidateRanking outcome).Perm (candidates.map fun candidate ↦
        { candidateId := candidate.id
          systemOneScore := .fin (ClmAdapter.part (candidates.map candidateOption) p
            (candidateOption candidate)) }) ∧
      (candidateRanking outcome).Pairwise fun a b ↦
        PyFloat.le b.systemOneScore a.systemOneScore = true := by
  obtain ⟨ranked, -, -, hgives⟩ := h.gives
  have hscores := h.scores_eq
  generalize hlabels : candidates.map candidateOption = labels at hgives hscores ⊢
  have hreported : reportedScores outcome = decision.candidateProbabilities := by
    unfold reportedScores
    rw [hfast, Option.elim_some, if_neg]
    rw [not_or, not_not, Bool.not_eq_true, List.any_eq_false]
    constructor
    · rw [hscores, hids, ← hlabels, candidateIds, List.length_map, List.length_map, List.length_map]
    · intro score hscore
      rw [hscores] at hscore
      obtain ⟨label, hlabel, rfl⟩ := List.mem_map.mp hscore
      simp [PyFloat.isFinite, hgives.parts.1 label hlabel, hgives.part_le_one hlabel]
  have hzip : outcome.candidateIds.zip (reportedScores outcome) =
      candidates.map fun candidate ↦
        (candidate.id, .fin (ClmAdapter.part labels p (candidateOption candidate))) := by
    rw [hreported, hscores, hids, ← hlabels, candidateIds, List.map_map, List.zip_map']
    rfl
  constructor
  · have hperm := (SystemOneInference.perm_sortedByScore
      (outcome.candidateIds.zip (reportedScores outcome))).map
        fun pair ↦ ({ candidateId := pair.1, systemOneScore := pair.2 } : RankedCandidate)
    rw [hzip, List.map_map] at hperm
    rw [candidateRanking, hzip]
    exact hperm
  · rw [candidateRanking, List.pairwise_map]
    refine SystemOneInference.pairwise_sortedByScore fun pair hpair ↦ ?_
    rw [hzip] at hpair
    obtain ⟨candidate, -, rfl⟩ := List.mem_map.mp hpair
    exact fun h ↦ by cases h

/-! ### Every hop -/

section Aligned

variable [Digest] [FloatSort] [FloatText] [FloatRound] [JsonLimits] [JsonBytes]

/-- The scores of a ranking request are the parts of the options in what the server gives to them,
whatever its order; a ranked list of typed inference pairs each candidate with its own part, in
descending order; and so does the ranking of a decision with the ids behind the labels. -/
theorem rankings_aligned :
    (∀ (call : ClmCall) (context question : Text) (options : List Text) (deadline : Option PyFloat)
        (es : List (Event RankOp RankOp.Res)) (scores : List PyFloat),
      Prog.Finishes (call.rank context question options deadline) es (.ok scores) →
        ∃ response p, Exchanged ⟨context, question, options, call.servedModel⟩ response es ∧
          ClmAdapter.Aligned options response p scores ∧
          (∀ option ∈ options, 0 ≤ ClmAdapter.part options p option) ∧
          (options.map (ClmAdapter.part options p)).sum = 1 ∧
          ∀ (response' : Dict Text Json) (ranked ranked' : List Json),
            response'.get? "model" = response.get? "model" →
            response.get? "ranked" = some (.arr ranked) →
            response'.get? "ranked" = some (.arr ranked') → ranked'.Perm ranked →
              ClmAdapter.checkResponse call.servedModel options response' = .ok scores) ∧
    (∀ (call : ClmCall) (payload : Dict Text Json) (es : List (Event RankOp RankOp.Res))
        (result : SystemOneInference.InferenceResult) (items : List (Text × PyFloat)),
      Prog.Finishes (SystemOneInference.infer call payload) es (.ok result) →
      result.scored = .ranked items →
        ∃ options context response p scores,
          payload.get? "candidates" = some (.arr (options.map .str)) ∧
          Exchanged ⟨context, "NEXT_ACTION", options, call.servedModel⟩ response es ∧
          ClmAdapter.Aligned options response p scores ∧
          items.Perm (options.map fun option ↦ (option, .fin (ClmAdapter.part options p option))) ∧
          items.Pairwise fun a b ↦ PyFloat.le b.2 a.2 = true) ∧
    ∀ (c : StandaloneController) (request : RuntimeRequest) (requestedDeliberator : Bool)
        (es : List (Event HostOp (HostOp.Res D))) (outcome : RuntimeOutcome D),
      Prog.Finishes (c.run request requestedDeliberator) es (.ok outcome) →
      (∀ state questions family language labels decision,
        ⟨.decide state questions family language labels, .ok decision⟩ ∈ es →
          ∃ (path : ClmPath) (adapter : ClmAdapter),
            path.decide adapter state questions family language labels = .ok decision) →
        (outcome.fastPath = none ∧ candidateRanking outcome = []) ∨
        ∃ decision state compilation context p, ∃ adapter : ClmAdapter,
          outcome.fastPath = some decision ∧ c.Offers request state compilation ∧
          ClmAdapter.Aligned (compilation.candidates.map candidateOption)
            (adapter.transport ⟨context, "NEXT_ACTION", compilation.candidates.map candidateOption,
              adapter.servedModel⟩) p decision.candidateProbabilities ∧
          (candidateRanking outcome).Perm (compilation.candidates.map fun candidate ↦
            { candidateId := candidate.id
              systemOneScore := .fin (ClmAdapter.part (compilation.candidates.map candidateOption) p
                (candidateOption candidate)) }) ∧
          (candidateRanking outcome).Pairwise fun a b ↦
            PyFloat.le b.systemOneScore a.systemOneScore = true := by
  refine ⟨?_, ?_, ?_⟩
  · intro call context question options deadline es scores h
    obtain ⟨-, response, hexchanged, hchecked⟩ :=
      (all_rank_scores call context question options deadline).of_finishes h scores rfl
    obtain ⟨p, hp⟩ := ClmAdapter.aligned_of_checkResponse hchecked
    obtain ⟨ranked, hranked, hlength, hgives⟩ := hp.gives
    refine ⟨response, p, hexchanged, hp, hgives.parts.1, hgives.parts.2, ?_⟩
    intro response' items items' hmodel hitems hitems' hperm
    exact ClmAdapter.checkResponse_of_perm hmodel hitems hitems' hperm hchecked
  · intro call payload es result items h hitems
    obtain ⟨options, hoptions, context, scores, ⟨-, response, hexchanged, hchecked⟩, rfl⟩ :=
      (SystemOneInference.all_infer_scores call payload).of_finishes h result items rfl hitems
    obtain ⟨p, hp⟩ := ClmAdapter.aligned_of_checkResponse hchecked
    have hzip : options.zip scores =
        options.map fun option ↦ (option, .fin (ClmAdapter.part options p option)) := by
      rw [hp.scores_eq, ← List.map_prod_left_eq_zip]
    refine ⟨options, context, response, p, scores, hoptions, hexchanged, hp, ?_, ?_⟩
    · rw [← hzip]
      exact SystemOneInference.perm_sortedByScore _
    · refine SystemOneInference.pairwise_sortedByScore fun pair hpair ↦ ?_
      rw [hzip] at hpair
      obtain ⟨option, -, rfl⟩ := List.mem_map.mp hpair
      exact fun h ↦ by cases h
  · intro c request requestedDeliberator es outcome h hanswers
    cases hfast : outcome.fastPath with
    | none =>
      refine .inl ⟨rfl, ?_⟩
      have hscores : reportedScores outcome = [] := by
        rw [reportedScores, hfast, Option.elim_none]
        exact ite_self _
      rw [candidateRanking, hscores, List.zip_nil_right]
      rfl
    | some decision =>
      obtain ⟨state, compilation, hoffers, hids, hevent⟩ := asked_of_run h hfast
      obtain ⟨path, adapter, hdecide⟩ := hanswers _ _ _ _ _ _ hevent
      have hlabels : compilation.candidates.map candidateOption ≠ [] := by
        simpa using hoffers.candidates_ne_nil
      obtain ⟨context, p, hp⟩ := aligned_of_decide hlabels hdecide
      obtain ⟨hperm, hsorted⟩ := candidateRanking_of_aligned hfast hids hp
      exact .inr ⟨decision, state, compilation, context, p, adapter, rfl, hoffers, hp, hperm, hsorted⟩

end Aligned

section Sample

attribute [local instance] Digest.transparent FloatText.fraction FloatRound.exact JsonLimits.unreached
  JsonBytes.utf8 FloatSort.insertion

/-- An item of a server's ranking. -/
def rankedItem (candidate : Text) (prob : ℚ) : Json :=
  .obj [("candidate", .str candidate), ("prob", .float (.fin prob))]

/-- A host whose server ranks the second candidate first. -/
def swappingHost : (o : RankOp) → o.Res
  | .monotonic => .fin 0
  | .attempt => ()
  | .transport _ => .ok (Dict.ofList [("model", .str (Text.ofString "clm-latest")),
      ("ranked", .arr [rankedItem "b" (3 / 4), rankedItem "a" (1 / 4)])])
  | .post _ _ => .error ⟨.osError, "Connection refused"⟩

/-- The ranked candidates of a result. -/
def rankedItems (x : Except PyError SystemOneInference.InferenceResult) :
    Option (List (Text × PyFloat)) :=
  match x with
  | .ok result =>
    match result.scored with
    | .ranked items => some items
    | .answers _ => none
  | .error _ => none

/-- The server names the second candidate first; each keeps its own score. -/
theorem rankings_aligned_swapped :
    let run := Prog.play swappingHost
      (SystemOneInference.infer { hasTransport := true } SystemOneInference.pairPayload)
    rankedItems run.2 = some [(Text.ofString "b", .fin (3 / 4)), (Text.ofString "a", .fin (1 / 4))] ∧
      ∃ options response p, ∃ scores : List PyFloat,
        SystemOneInference.pairPayload.get? "candidates" = some (.arr (options.map .str)) ∧
        ClmAdapter.Aligned options response p scores := by
  intro run
  have hitems : rankedItems run.2 =
      some [(Text.ofString "b", .fin (3 / 4)), (Text.ofString "a", .fin (1 / 4))] := by
    decide +kernel
  refine ⟨hitems, ?_⟩
  have hrun := Prog.finishes_play swappingHost
    (SystemOneInference.infer { hasTransport := true } SystemOneInference.pairPayload)
  cases hresult : run.2 with
  | error e =>
    rw [hresult] at hitems
    cases hitems
  | ok result =>
    rw [hresult] at hitems
    cases hscored : result.scored with
    | answers answers =>
      rw [rankedItems, hscored] at hitems
      cases hitems
    | ranked items =>
      change Prog.Finishes _ _ run.2 at hrun
      rw [hresult] at hrun
      obtain ⟨options, -, response, p, scores, hoptions, -, haligned, -⟩ :=
        (rankings_aligned (D := Unit)).2.1 _ _ _ result items hrun hscored
      exact ⟨options, response, p, scores, hoptions, haligned⟩

end Sample

end C3RSpec.SystemOne
