import C3RSpec.Adapters.ProviderLines
import C3RSpec.Service.EventGrammar

/-!
# Two ways to the same response

`c3r/responses.py:62–174` and `c3r/adapters/providers.py:297–431`. A completion that a provider may
send in one piece or as a stream ends in two response objects. They agree when its usage is
reported in counts that a `float` holds: the one path makes zeros of a usage that is missing, and
passes every count through `float`.
-/

namespace C3RSpec.Service

open Base Adapters TextGenerationStream

/-- What a response tells about its generation. -/
structure ResponseReport where
  status : Option Json
  text : Option Json
  model : Option Json
  store : Option Json
  usage : Option Json

/-- `response["output"][0]["content"][0]["text"]`. -/
def outputText (response : Members) : Option Json :=
  match (Json.obj response).get? "output" with
  | some (.arr (message :: _)) =>
    match message.get? "content" with
    | some (.arr (content :: _)) => content.get? "text"
    | _ => none
  | _ => none

/-- What is compared; ids, times and metadata are not. -/
def reportOf (response : Members) : ResponseReport where
  status := (Json.obj response).get? "status"
  text := outputText response
  model := (Json.obj response).get? "model"
  store := (Json.obj response).get? "store"
  usage := (Json.obj response).get? "usage"

/-- The text of a finish reason. -/
def finishText : FinishReason → Text
  | .stop => "stop"
  | .length => "length"

/-- The body of a response and the chunks of a stream carry the same completion. -/
structure SameCompletion (body : Dict Text Json) (chunks : List Chunk) : Prop where
  choice : ∃ choice message finish, generationChoice (.obj body.entries) = .ok (choice, message) ∧
    message.get? "content" = some (.str (chunks.map Chunk.delta).flatten) ∧
    lastFinish chunks = some finish ∧ choice.get? "finish_reason" = some (.str (finishText finish))
  unreported : lastUsage chunks = none → body.get? "usage" = none
  reported : ∀ counts, lastUsage chunks = some counts → ∃ es, body.get? "usage" = some (.obj es) ∧
    (Json.obj es).get? "prompt_tokens" = some (.int counts.inputTokens) ∧
    (Json.obj es).get? "completion_tokens" = some (.int counts.outputTokens)

section Agreement

variable [FloatRound]

/-- Both counts and their sum are `float` values. -/
structure Representable (counts : TokenCounts) : Prop where
  input : FloatRound.round counts.inputTokens = .fin counts.inputTokens
  output : FloatRound.round counts.outputTokens = .fin counts.outputTokens
  total : FloatRound.round (counts.inputTokens + counts.outputTokens) =
    .fin (counts.inputTokens + counts.outputTokens)

/-- Counts whose sum needs at most 53 bits. -/
theorem representable_of_small {counts : TokenCounts}
    (h : counts.inputTokens + counts.outputTokens ≤ 2 ^ 53) : Representable counts := by
  have hround : ∀ n : Nat, n ≤ 2 ^ 53 → FloatRound.round (n : ℚ) = .fin n := by
    intro n hn
    exact FloatRound.round_of_small (n : Int) hn
  refine ⟨hround _ (by omega), hround _ (by omega), ?_⟩
  have hsum := hround _ h
  rw [Nat.cast_add] at hsum
  exact hsum

/-! ### The response in one piece -/

omit [FloatRound] in
private theorem truncated_intCast (n : Int) : truncated (.fin n) = .ok n := by
  change Except.ok (if (n : ℚ) < 0 then (n : ℚ).ceil else (n : ℚ).floor) = _
  rw [Rat.ceil_intCast, Rat.floor_intCast, ite_self]

/-- A rounded count is truncated to the count when it was a `float`. -/
theorem truncated_round_iff {n : Nat} {a : Int} (h : truncated (FloatRound.round (n : ℚ)) = .ok a) :
    a = n ↔ FloatRound.round (n : ℚ) = .fin n := by
  cases hround : FloatRound.round (n : ℚ) with
  | nan =>
    rw [hround] at h
    cases h
  | posInf =>
    rw [hround] at h
    cases h
  | negInf =>
    rw [hround] at h
    cases h
  | fin q =>
    obtain ⟨m, rfl⟩ := FloatRound.round_isInt (n : Int) q hround
    rw [hround, truncated_intCast] at h
    cases h
    rw [PyFloat.fin.injEq]
    norm_cast

omit [FloatRound] in
private theorem member_of_get? {j value : Json} {key : Text} (h : j.get? key = some value) :
    j.member key = .ok value ∧ j.getMember key = .ok (some value) := by
  cases j with
  | obj es => exact ⟨by rw [Json.member, h], by rw [Json.getMember, h]⟩
  | null | bool | int | float | str | arr => cases h

private theorem observedCount_of_int {usage : Json} {key : Text} {n : Nat} {x : PyFloat}
    (hget : usage.get? key = some (.int n)) (h : observedCount usage key = .ok x) :
    x = FloatRound.round n := by
  rw [observedCount, (member_of_get? hget).2] at h
  obtain ⟨value, hvalue, h⟩ := bind_eq_ok.mp h
  cases hvalue
  rw [Option.getD_some, number] at h
  by_cases hlt : (n : Int).natAbs < 2 ^ 1024 - 2 ^ 970
  · rw [floatOfInt_of_lt hlt] at h
    obtain ⟨q, hq, hnonneg⟩ := FloatRound.round_of_lt (n : Int) hlt
    rw [hq] at h
    cases h
    rw [countOrZero, PyFloat.le_fin, decide_eq_true (hnonneg (Int.natCast_nonneg n))]
    exact hq.symm
  · rw [floatOfInt_of_le (Nat.not_lt.mp hlt)] at h
    cases h

private theorem observedCount_of_missing {key : Text} {x : PyFloat}
    (h : observedCount (.obj []) key = .ok x) : x = .fin 0 := by
  cases h
  rfl

omit [FloatRound] in
private theorem generationFinish_finishText {reason finish : FinishReason}
    (h : generationFinish (some (.str (finishText reason))) = .ok finish) : reason = finish := by
  cases reason <;> cases h <;> rfl

omit [FloatRound] in
private theorem generationText_eq_ok {message : Json} {content output : Text}
    (hcontent : message.get? "content" = some (.str content))
    (h : generationText message = .ok output) : output = content := by
  simp only [generationText, bind_eq_ok] at h
  obtain ⟨toolCalls, -, functionCall, -, h⟩ := h
  split at h
  · cases h
  · rw [(member_of_get? hcontent).1] at h
    obtain ⟨value, hvalue, h⟩ := bind_eq_ok.mp h
    cases hvalue
    unfold contentText at h
    dsimp only at h
    split at h
    · cases h
    · exact (Except.ok.inj h).symm

omit [FloatRound] in
-- the cost has a key of its own
private theorem usageFloat_observed {observed : Dict Text PyFloat} {key : Text} {x : PyFloat}
    (cost : Option PyFloat) (hget : observed.get? key = some x)
    (hkey : Text.ofString "provider_cost_usd" ≠ key := by decide +kernel) :
    usageFloat (cost.elim observed fun c ↦ observed.insert "provider_cost_usd" c) key = .ok x := by
  unfold usageFloat
  cases cost with
  | none =>
    rw [Option.elim_none, hget]
  | some c =>
    rw [Option.elim_some, Dict.get?_insert, if_neg hkey, hget]

/-- What `generate` takes from a body with this completion. -/
theorem generationResult_eq_ok {body : Dict Text Json} {chunks : List Chunk} {latencyMs : PyFloat}
    {result : TextGenerationResult} (hsame : SameCompletion body chunks)
    (h : generationResult body latencyMs = .ok result) :
    result.text = (chunks.map Chunk.delta).flatten ∧ lastFinish chunks = some result.finish ∧
      (lastUsage chunks = none → usageFloat result.usage "input_tokens" = .ok (.fin 0) ∧
        usageFloat result.usage "output_tokens" = .ok (.fin 0)) ∧
      ∀ counts, lastUsage chunks = some counts →
        usageFloat result.usage "input_tokens" = .ok (FloatRound.round counts.inputTokens) ∧
        usageFloat result.usage "output_tokens" = .ok (FloatRound.round counts.outputTokens) := by
  obtain ⟨choice, message, reason, hchoice, hcontent, hlast, hreason⟩ := hsame.choice
  rw [generationResult, hchoice] at h
  obtain ⟨pair, hpair, h⟩ := bind_eq_ok.mp h
  cases hpair
  obtain ⟨output, houtput, h⟩ := bind_eq_ok.mp h
  rw [(member_of_get? hreason).2] at h
  obtain ⟨value, hvalue, h⟩ := bind_eq_ok.mp h
  cases hvalue
  split at h
  · cases h
  · simp only [bind_eq_ok] at h
    obtain ⟨finish, hfinish, input, hinput, generated, hgenerated, cost, -, h⟩ := h
    cases h
    refine ⟨?_, ?_, ?_, ?_⟩
    · exact generationText_eq_ok hcontent houtput
    · rw [hlast, generationFinish_finishText hfinish]
    · intro hnone
      have husage : usageMember body "usage" = .obj [] := by
        rw [usageMember, hsame.unreported hnone]
        rfl
      rw [husage] at hinput hgenerated
      rw [observedCount_of_missing hinput, observedCount_of_missing hgenerated]
      exact ⟨usageFloat_observed cost rfl, usageFloat_observed cost rfl⟩
    · intro counts hcounts
      obtain ⟨es, hes, hprompt, hcompletion⟩ := hsame.reported counts hcounts
      have husage : usageMember body "usage" = .obj es := by
        rw [usageMember, hes]
        rfl
      rw [husage] at hinput hgenerated
      rw [observedCount_of_int hprompt hinput, observedCount_of_int hcompletion hgenerated]
      exact ⟨usageFloat_observed cost rfl, usageFloat_observed cost rfl⟩

/-! ### The final response of a stream -/

omit [FloatRound] in
private theorem flatten_deltasOf (chunks : List Chunk) :
    (deltasOf chunks).flatten = (chunks.map Chunk.delta).flatten := by
  unfold deltasOf
  induction chunks with
  | nil => rfl
  | cons c chunks ih =>
    rw [List.map_cons, List.filter_cons, List.flatten_cons, ← ih]
    cases h : c.delta with
    | nil => rfl
    | cons x rest => rfl

omit [FloatRound] in
-- the names of the other events
private theorem name_ne (draft : Draft) (data : Members) :
    (Text.ofString "response.completed", data) ≠ draft.createdEvent ∧
      (∀ delta, (Text.ofString "response.completed", data) ≠ draft.deltaEvent delta) ∧
      (Text.ofString "response.completed", data) ≠ draft.doneEvent ∧
      (Text.ofString "response.completed", data) ≠ draft.failedEvent := by
  have hname : ∀ event : StreamEvent, Text.ofString "response.completed" ≠ event.1 →
      (Text.ofString "response.completed", data) ≠ event :=
    fun event hne heq ↦ hne (congrArg Prod.fst heq)
  refine ⟨hname _ ?_, fun delta ↦ hname _ ?_, hname _ ?_, hname _ ?_⟩
  all_goals
    change Text.ofString _ ≠ Text.ofString _
    decide +kernel

variable [FloatText] [JsonLimits] [JsonBytes]

omit [FloatRound] in
/-- The data of the event that completes a stream. -/
theorem completed_of_stream {byte : Nat → Option UInt8} {failure : Option String}
    {labels : ResponseLabels} {chunks : List Chunk} {ending : Ending} {events : List StreamEvent}
    {t : ResponseEventStream} {data : Members}
    (hdelivers : Delivers (.opened byte failure) chunks ending)
    (hexhausts : Exhausts ResponseEventStream.next (.new (.opened byte failure) labels) events t)
    (hdata : (Text.ofString "response.completed", data) ∈ events) :
    ∃ finish, lastFinish chunks = some finish ∧
      (Text.ofString "response.completed", data) = Draft.completedEvent
        { labels, text := (chunks.map Chunk.delta).flatten, usage := lastUsage chunks }
        (statusOf finish) := by
  obtain ⟨u, hu, -⟩ := exhausts_new hdelivers labels
  obtain ⟨rfl, -⟩ := hexhausts.unique hu
  obtain ⟨deltas, tail, hevents, htail⟩ := Draft.transcript_eq ending { labels } chunks
  rw [hevents] at hdata
  obtain hcreated | hdata := List.mem_cons.mp hdata
  · exact absurd hcreated (name_ne _ data).1
  · obtain hdelta | hdata := List.mem_append.mp hdata
    · obtain ⟨delta, -, heq⟩ := List.mem_map.mp hdelta
      exact absurd heq.symm ((name_ne _ data).2.1 delta)
    · obtain ⟨-, hcompletes⟩ | ⟨text, usage, rfl⟩ := htail
      · obtain ⟨finish, hfinish, rfl⟩ := hcompletes.tail_eq
        rw [Option.or_none] at hfinish hdata
        rw [hcompletes.deltas_eq, List.nil_append, flatten_deltasOf] at hdata
        obtain hdone | hdata := List.mem_cons.mp hdata
        · exact absurd hdone (name_ne _ data).2.2.1
        · exact ⟨finish, hfinish, List.mem_singleton.mp hdata⟩
      · exact absurd (List.mem_singleton.mp hdata) (name_ne _ data).2.2.2

/-! ### Agreement -/

omit [FloatText] [JsonLimits] [JsonBytes] [FloatRound] in
private theorem reportOf_response (draft : Draft) (finish : FinishReason) :
    reportOf (draft.response (statusOf finish)) =
      ⟨some (.str (statusOf finish).value), some (.str draft.text),
        some (.str (Text.ofString "c3r-core")), some (.bool false), some (usageJson draft.usage)⟩ := by
  cases finish <;> rfl

omit [FloatText] [JsonLimits] [JsonBytes] in
private theorem reportOf_respond {labels : ResponseLabels} {result : TextGenerationResult}
    {object : Members} (h : respond labels result = .ok object) :
    ∃ usage, respondUsage result.usage = .ok usage ∧ reportOf object =
      ⟨some (.str (statusOf result.finish).value), some (.str result.text),
        some (.str (Text.ofString "c3r-core")), some (.bool false), some usage⟩ := by
  obtain ⟨usage, husage, h⟩ := bind_eq_ok.mp h
  cases h
  exact ⟨usage, husage, rfl⟩

omit [FloatText] [JsonLimits] [JsonBytes] in
private theorem respondUsage_eq_ok {usage : Dict Text PyFloat} {j : Json}
    (h : respondUsage usage = .ok j) : ∃ x y a b c, usageFloat usage "input_tokens" = .ok x ∧
      usageFloat usage "output_tokens" = .ok y ∧ truncated x = .ok a ∧ truncated y = .ok b ∧
      truncated (PyFloat.rounded (PyFloat.add x y)) = .ok c ∧
      j = .obj [("input_tokens", .int a), ("output_tokens", .int b), ("total_tokens", .int c)] := by
  simp only [respondUsage, bind_eq_ok] at h
  obtain ⟨x, hx, y, hy, a, ha, b, hb, c, hc, h⟩ := h
  cases h
  exact ⟨x, y, a, b, c, hx, hy, ha, hb, hc, rfl⟩

omit [FloatText] [JsonLimits] [JsonBytes] in
/-- A usage that passed through `float` is the usage that was reported when it was representable. -/
theorem usageJson_eq_iff {counts : TokenCounts} {a b c : Int}
    (ha : truncated (FloatRound.round counts.inputTokens) = .ok a)
    (hb : truncated (FloatRound.round counts.outputTokens) = .ok b)
    (hc : truncated (PyFloat.rounded (PyFloat.add (FloatRound.round counts.inputTokens)
      (FloatRound.round counts.outputTokens))) = .ok c) :
    (.obj [("input_tokens", .int a), ("output_tokens", .int b), ("total_tokens", .int c)] : Json) =
      usageJson (some counts) ↔ Representable counts := by
  have hfields : (.obj [("input_tokens", .int a), ("output_tokens", .int b),
      ("total_tokens", .int c)] : Json) = usageJson (some counts) ↔
      a = counts.inputTokens ∧ b = counts.outputTokens ∧
        c = counts.inputTokens + counts.outputTokens := by
    simp [usageJson]
  rw [hfields, truncated_round_iff ha, truncated_round_iff hb]
  have hsum : FloatRound.round counts.inputTokens = .fin counts.inputTokens →
      FloatRound.round counts.outputTokens = .fin counts.outputTokens →
      (c = counts.inputTokens + counts.outputTokens ↔
        FloatRound.round (counts.inputTokens + counts.outputTokens) =
          .fin (counts.inputTokens + counts.outputTokens)) := by
    intro hinput houtput
    have hadd : PyFloat.rounded (PyFloat.add (.fin counts.inputTokens) (.fin counts.outputTokens)) =
        FloatRound.round ((counts.inputTokens + counts.outputTokens : Nat) : ℚ) := by
      rw [PyFloat.add, PyFloat.neg, PyFloat.sub_fin, sub_neg_eq_add, PyFloat.rounded, Nat.cast_add]
    rw [hinput, houtput, hadd] at hc
    have hiff := truncated_round_iff hc
    rw [Nat.cast_add, Nat.cast_add] at hiff
    exact hiff
  constructor
  · rintro ⟨hinput, houtput, htotal⟩
    exact ⟨hinput, houtput, (hsum hinput houtput).mp htotal⟩
  · intro h
    exact ⟨h.input, h.output, (hsum h.input h.output).mpr h.total⟩

omit [FloatText] [JsonLimits] [JsonBytes] [FloatRound] in
private theorem ok_of_relabelled {α : Type} {catches : PyError → Bool} {message : String}
    {x : Except PyError α} {a : α} (h : relabelled catches message x = .ok a) : x = .ok a := by
  cases x with
  | ok a' => exact h
  | error e =>
    unfold relabelled at h
    dsimp only at h
    split at h <;> cases h

omit [JsonBytes] in
private theorem result_of_generated {response : TransportResponse} {result : TextGenerationResult}
    (h : generated (.ok response) = .ok result) :
    generationResult response.body response.latencyMs = .ok result := by
  obtain ⟨pair, hpair, h⟩ := bind_eq_ok.mp h
  obtain ⟨response', hresponse, hsize⟩ := bind_eq_ok.mp (ok_of_relabelled hpair)
  obtain ⟨size, -, hreturn⟩ := bind_eq_ok.mp hsize
  cases hresponse
  cases hreturn
  dsimp only at h
  by_cases hstatus : response.status < 200 ∨ 300 ≤ response.status
  · rw [if_pos hstatus] at h
    cases h
  · rw [if_neg hstatus] at h
    by_cases hlarge : maxResponseBytes < size
    · rw [if_pos hlarge] at h
      cases h
    · rw [if_neg hlarge] at h
      exact ok_of_relabelled h

/-- A completion that both paths accept, in one piece and as a stream that completes: the two
responses report the same when a usage was sent whose counts and sum are `float` values, and only
then. -/
theorem respond_agrees_iff {labels labels' : ResponseLabels} {response : TransportResponse}
    {result : TextGenerationResult} {object final data : Members} {byte : Nat → Option UInt8}
    {failure : Option String} {chunks : List Chunk} {ending : Ending} {events : List StreamEvent}
    {t : ResponseEventStream} (hgenerated : generated (.ok response) = .ok result)
    (hobject : respond labels result = .ok object)
    (hdelivers : Delivers (.opened byte failure) chunks ending)
    (hexhausts : Exhausts ResponseEventStream.next (.new (.opened byte failure) labels') events t)
    (hdata : (Text.ofString "response.completed", data) ∈ events)
    (hfinal : (Json.obj data).get? "response" = some (.obj final))
    (hsame : SameCompletion response.body chunks) :
    reportOf object = reportOf final ↔ ∃ counts, lastUsage chunks = some counts ∧
      Representable counts := by
  obtain ⟨finish, hfinish, hevent⟩ := completed_of_stream hdelivers hexhausts hdata
  obtain ⟨htext, hlast, hnone, hsome⟩ := generationResult_eq_ok hsame (result_of_generated hgenerated)
  have heq : result.finish = finish := Option.some.inj (hlast.symm.trans hfinish)
  have hresponse : final = Draft.response
      { labels := labels', text := (chunks.map Chunk.delta).flatten, usage := lastUsage chunks }
      (statusOf finish) := by
    have hmembers := congrArg Prod.snd hevent
    dsimp only at hmembers
    rw [hmembers] at hfinal
    exact (Json.obj.inj (Option.some.inj hfinal)).symm
  obtain ⟨usage, husage, hobject⟩ := reportOf_respond hobject
  obtain ⟨x, y, a, b, c, hx, hy, ha, hb, hc, rfl⟩ := respondUsage_eq_ok husage
  rw [hobject, hresponse, reportOf_response, heq, htext]
  simp only [ResponseReport.mk.injEq, Option.some.injEq, true_and]
  cases hcounts : lastUsage chunks with
  | none =>
    constructor
    · intro h
      cases h
    · rintro ⟨counts, hsome, -⟩
      cases hsome
  | some counts =>
    obtain ⟨hinput, houtput⟩ := hsome counts hcounts
    cases hx.symm.trans hinput
    cases hy.symm.trans houtput
    rw [usageJson_eq_iff ha hb hc]
    constructor
    · intro h
      exact ⟨counts, rfl, h⟩
    · rintro ⟨counts', hcounts', h⟩
      cases hcounts'
      exact h

end Agreement

section Sample

attribute [local instance] FloatText.fraction JsonLimits.unreached JsonBytes.utf8 FloatRound.exact

/-- A completion that says `hi`, with other members of the body. -/
def greetingResponse (usage : Members) : TransportResponse :=
  ⟨200, Dict.ofList (("choices", .arr [.obj [("message", .obj [("content", .str (Text.ofString "hi"))]),
    ("finish_reason", .str (Text.ofString "stop"))]]) :: usage), .fin 0⟩

/-- The labels of a response. -/
def sampleLabels : ResponseLabels := ⟨"resp_1", "msg_1", "unknown_quality", "local", 0⟩

/-- A line that says `hi`, without usage. -/
def greetingLine : Bytes := .ofAscii (Text.ofString
  "\x7b\"choices\":[\x7b\"delta\":\x7b\"content\":\"hi\"\x7d,\"finish_reason\":\"stop\"\x7d]\x7d")

/-- The same line with two counts. -/
def countedLine : Bytes := .ofAscii (Text.ofString
  ("\x7b\"choices\":[\x7b\"delta\":\x7b\"content\":\"hi\"\x7d,\"finish_reason\":\"stop\"\x7d]," ++
    "\"usage\":\x7b\"prompt_tokens\":1,\"completion_tokens\":2\x7d\x7d"))

private theorem tells_greetingLine : Tells greetingLine ⟨"hi", some .stop, none⟩ := by
  refine ⟨?_, ?_, ?_, ?_, rfl⟩
  all_goals decide +kernel

private theorem tells_countedLine : Tells countedLine ⟨"hi", some .stop, some ⟨1, 2⟩⟩ := by
  refine ⟨?_, ?_, ?_, ?_, rfl⟩
  all_goals decide +kernel

private theorem delivers_line {data : Bytes} {chunk : Chunk} (htells : Tells data chunk)
    (hfinish : chunk.finish.isSome = true) (hshort : data.length ≤ 1000) :
    Delivers (.opened (fun n ↦ (streamBytes [data])[n]?) none) [chunk] .stopped := by
  have hsome : ∃ l ∈ [(data, chunk)], l.2.finish.isSome = true :=
    ⟨_, List.mem_singleton_self _, hfinish⟩
  refine delivers_streamBytes ?_ ?_ hsome
  · intro l hl
    rw [List.mem_singleton.mp hl]
    exact htells
  · change ((dataField ++ data) ++ 10 :: streamBytes []).length ≤ maxResponseBytes
    have hdone : (streamBytes []).length = 13 := by decide +kernel
    have hfield : dataField.length = 6 := by decide +kernel
    rw [List.length_append, List.length_append, List.length_cons, hdone, hfield, maxResponseBytes]
    omega

/-- A completion without usage: the one response counts no tokens, the other has no counts. -/
theorem usage_invented_in_one_piece :
    ∃ result object final data events t,
      generated (.ok (greetingResponse [])) = .ok result ∧
      respond sampleLabels result = .ok object ∧
      Delivers (.opened (fun n ↦ (streamBytes [greetingLine])[n]?) none)
        [⟨"hi", some .stop, none⟩] .stopped ∧
      Exhausts ResponseEventStream.next
        (.new (.opened (fun n ↦ (streamBytes [greetingLine])[n]?) none) sampleLabels) events t ∧
      (Text.ofString "response.completed", data) ∈ events ∧
      (Json.obj data).get? "response" = some (.obj final) ∧
      SameCompletion (greetingResponse []).body [⟨"hi", some .stop, none⟩] ∧
      (reportOf object).usage = some (usageJson (some ⟨0, 0⟩)) ∧
      (reportOf final).usage = some .null := by
  have hdelivers := delivers_line tells_greetingLine rfl (by decide +kernel)
  obtain ⟨t, hexhausts, -⟩ := exhausts_new hdelivers sampleLabels
  refine ⟨_, _, _, _, _, t, rfl, rfl, hdelivers, hexhausts,
    .tail _ (.tail _ (.tail _ (.head _))), rfl, ?_, ?_, rfl⟩
  · refine ⟨⟨_, _, .stop, rfl, rfl, rfl, rfl⟩, fun _ ↦ rfl, fun counts hcounts ↦ ?_⟩
    cases hcounts
  · have hsum : (if (0 : ℚ) - -0 < 0 then ((0 : ℚ) - -0).ceil else ((0 : ℚ) - -0).floor) = 0 := by
      decide +kernel
    exact congrArg (fun n : Int ↦ some (Json.obj [("input_tokens", .int 0),
      ("output_tokens", .int 0), ("total_tokens", .int n)])) hsum

/-- The completion with two counts. -/
def countedResponse : TransportResponse :=
  greetingResponse [("usage", .obj [("prompt_tokens", .int 1), ("completion_tokens", .int 2)])]

private theorem exists_of_toOption {α : Type} {x : Except PyError α}
    (h : x.toOption.isSome = true) : ∃ a, x = .ok a := by
  cases x with
  | ok a => exact ⟨a, rfl⟩
  | error e => cases h

/-- The same completion with counts: the two responses report the same. -/
theorem respond_agrees_iff_counted :
    ∃ result object final data events t,
      generated (.ok countedResponse) = .ok result ∧ respond sampleLabels result = .ok object ∧
      Exhausts ResponseEventStream.next
        (.new (.opened (fun n ↦ (streamBytes [countedLine])[n]?) none) sampleLabels) events t ∧
      (Text.ofString "response.completed", data) ∈ events ∧
      (Json.obj data).get? "response" = some (.obj final) ∧ reportOf object = reportOf final := by
  have hdelivers := delivers_line tells_countedLine rfl (by decide +kernel)
  obtain ⟨t, hexhausts, -⟩ := exhausts_new hdelivers sampleLabels
  have hdata : Draft.completedEvent { labels := sampleLabels, text := "hi", usage := some ⟨1, 2⟩ }
      .completed ∈ Draft.createdEvent { labels := sampleLabels } ::
        Draft.transcript .stopped { labels := sampleLabels } [⟨"hi", some .stop, some ⟨1, 2⟩⟩] :=
    .tail _ (.tail _ (.tail _ (.head _)))
  have hsame : SameCompletion countedResponse.body [⟨"hi", some .stop, some ⟨1, 2⟩⟩] := by
    refine ⟨⟨_, _, .stop, rfl, rfl, rfl, rfl⟩, fun hnone ↦ (nomatch hnone), fun counts hcounts ↦ ?_⟩
    cases hcounts
    exact ⟨_, rfl, rfl, rfl⟩
  have hsome : (generated (.ok countedResponse) >>= respond sampleLabels).toOption.isSome = true := by
    decide +kernel
  obtain ⟨object, hok⟩ := exists_of_toOption hsome
  obtain ⟨result, hgenerated, hobject⟩ := bind_eq_ok.mp hok
  have hagree := respond_agrees_iff hgenerated hobject hdelivers hexhausts hdata rfl hsame
  refine ⟨result, object, _, _, _, t, hgenerated, hobject, hexhausts, hdata, rfl, ?_⟩
  exact hagree.mpr ⟨⟨1, 2⟩, rfl, representable_of_small (by decide)⟩

end Sample

end C3RSpec.Service
