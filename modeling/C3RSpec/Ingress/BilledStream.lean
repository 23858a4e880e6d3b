import C3RSpec.Ingress.StreamRelay
import C3RSpec.Service.ResponseAgreement

/-!
# From the provider to the client

`c3r/adapters/providers.py:297–431`, `c3r/responses.py:41–153`, `c3r/http_service.py:229–239` and
`c3r/ingress_proxy.py:214–374` one after another. For every byte sequence of the provider the client
of the gateway receives the frames that the backend writes, and one usage record is stored: the token
counts that the provider reported last and the attempts that the adapters counted.
-/

namespace C3RSpec.Ingress

open Base ApiAccess Adapters Service TextGenerationStream

/-! ### The events of a response -/

section Events

variable [FloatText] [JsonLimits] [JsonBytes] {counts : Invocations}

/-- The decoder takes UTF-8 for what it is, and no event comes to its limits. -/
structure Readable (counts : Invocations) (events : List StreamEvent) : Prop where
  decodes : ∀ {t : Text} {b : Bytes}, t.head? = some 123 → (∀ c ∈ t, 32 ≤ c.val) → t.Encodes b →
    JsonBytes.decode b = .ok t
  reads : ∀ event ∈ events,
    JsonLimits.reading ((Json.obj (annotated counts event.2)).render false) = none

/-- An event that names itself in its data, whose data is a JSON object without a float. -/
structure Named (counts : Invocations) (event : StreamEvent) : Prop where
  name : ∀ c ∈ event.1, 32 ≤ c.val
  type_eq : (Json.obj (annotated counts event.2)).get? "type" = some (.str event.1)
  wf : (Json.obj (annotated counts event.2)).WF
  finite : (Json.obj (annotated counts event.2)).allFinite = true

/-- Such an event in its frame. -/
theorem Named.framed {event : StreamEvent} (h : Named counts event) {events : List StreamEvent}
    (hreadable : Readable counts events) (hmem : event ∈ events) {bytes : Bytes}
    (hframe : frame counts event = .ok bytes) : Framed counts event bytes where
  frame_eq := hframe
  name := h.name
  type_eq := h.type_eq
  wf := h.wf
  finite := h.finite
  decodes _ hb := hreadable.decodes rfl (fun c hc ↦ (Json.oneLine_render _ c hc).1) hb
  reads := hreadable.reads event hmem

end Events

variable (draft : Draft) (counts : Invocations)

/-- The member `c3r` of a response, with the counters. -/
private theorem into_metadata (labels : ResponseLabels) : counts.into labels.metadata =
    labels.metadata ++ [(Text.ofString "system_one_invocations", .int counts.systemOne),
      (Text.ofString "system_two_invocations", .int counts.systemTwo),
      (Text.ofString "invocation_basis", .str (Text.ofString "adapter_transport_attempts"))] := rfl

private theorem withInvocations_response (status : ResponseStatus) :
    withInvocations counts (draft.response status) =
      [(Text.ofString "id", .str draft.labels.identifier),
        (Text.ofString "object", .str (Text.ofString "response")),
        (Text.ofString "created_at", .int draft.labels.createdAt),
        (Text.ofString "model", .str (Text.ofString "c3r-core")),
        (Text.ofString "status", .str status.value),
        (Text.ofString "store", .bool false),
        (Text.ofString "output",
          .arr (if status = .inProgress then [] else draft.labels.output status draft.text)),
        (Text.ofString "usage", usageJson draft.usage),
        (Text.ofString "c3r", .obj (counts.into draft.labels.metadata))] := rfl

private theorem annotated_created : annotated counts draft.createdEvent.2 =
    [(Text.ofString "type", .str (Text.ofString "response.created")),
      (Text.ofString "response", .obj (withInvocations counts (draft.response .inProgress)))] := rfl

private theorem annotated_delta (delta : Text) :
    annotated counts (draft.deltaEvent delta).2 = (draft.deltaEvent delta).2 := rfl

private theorem annotated_done : annotated counts draft.doneEvent.2 = draft.doneEvent.2 := rfl

private theorem annotated_completed (status : ResponseStatus) :
    annotated counts (draft.completedEvent status).2 =
      [(Text.ofString "type", .str (Text.ofString "response.completed")),
        (Text.ofString "response", .obj (withInvocations counts (draft.response status)))] := rfl

private theorem annotated_failed : annotated counts draft.failedEvent.2 =
    [(Text.ofString "type", .str (Text.ofString "response.failed")),
      (Text.ofString "response", .obj (withInvocations counts (draft.response .failed))),
      (Text.ofString "error", .obj [(Text.ofString "type", .str (Text.ofString "server_error")),
        (Text.ofString "message", .str (Text.ofString "Generation failed."))])] := rfl

private theorem usageJson_wf (usage : Option TokenCounts) : (usageJson usage).WF := by
  cases usage with
  | none => trivial
  | some counts =>
    refine ⟨?_, trivial, trivial, trivial, trivial⟩
    simp only [List.map_cons, List.map_nil]
    decide

private theorem usageJson_finite (usage : Option TokenCounts) :
    (usageJson usage).allFinite = true := by
  cases usage <;> rfl

private theorem output_wf (status : ResponseStatus) : (Json.arr (if status = .inProgress then []
    else draft.labels.output status draft.text)).WF := by
  split
  · exact trivial
  · refine ⟨⟨?_, trivial, trivial, trivial, trivial, ⟨⟨?_, ?_⟩, trivial⟩, trivial⟩, trivial⟩
    · simp only [List.map_cons, List.map_nil]
      decide
    · simp only [List.map_cons, List.map_nil]
      decide
    · exact ⟨trivial, trivial, trivial, trivial⟩

private theorem output_finite (status : ResponseStatus) :
    (Json.arr (if status = .inProgress then []
      else draft.labels.output status draft.text)).allFinite = true := by
  split <;> rfl

private theorem metadata_wf (labels : ResponseLabels) :
    (Json.obj (counts.into labels.metadata)).WF := by
  rw [into_metadata]
  refine ⟨?_, trivial, trivial, trivial, trivial, trivial, trivial, trivial, trivial, trivial,
    trivial, trivial⟩
  simp only [ResponseLabels.metadata, List.cons_append, List.nil_append, List.map_cons, List.map_nil]
  decide

private theorem response_wf (status : ResponseStatus) :
    (Json.obj (withInvocations counts (draft.response status))).WF := by
  rw [withInvocations_response]
  refine ⟨?_, trivial, trivial, trivial, trivial, trivial, trivial, output_wf draft status,
    usageJson_wf draft.usage, metadata_wf counts draft.labels, trivial⟩
  simp only [List.map_cons, List.map_nil]
  decide

private theorem response_finite (status : ResponseStatus) :
    (Json.obj (withInvocations counts (draft.response status))).allFinite = true := by
  rw [withInvocations_response, into_metadata]
  simp only [Json.allFinite, membersFinite, usageJson_finite draft.usage, ResponseLabels.metadata,
    List.cons_append, List.nil_append, Bool.and_true, Bool.true_and]
  exact output_finite draft status

private theorem plain_name {name : Text} (h : (name.all fun c ↦ decide (32 ≤ c.val)) = true) :
    ∀ c ∈ name, 32 ≤ c.val := fun c hc ↦ of_decide_eq_true (List.all_eq_true.mp h c hc)

/-- An event whose data begins with its name. -/
private theorem named_of_members {event : StreamEvent} {members : Members}
    (hmembers : annotated counts event.2 = (Text.ofString "type", .str event.1) :: members)
    (hname : (event.1.all fun c ↦ decide (32 ≤ c.val)) = true) (keys : List Text)
    (hkeys : members.map Prod.fst = keys) (hnodup : (Text.ofString "type" :: keys).Nodup)
    (hwf : membersWF members) (hfinite : membersFinite members = true) : Named counts event where
  name := plain_name hname
  type_eq := by
    rw [hmembers]
    rfl
  wf := by
    rw [hmembers]
    exact ⟨by rw [List.map_cons, hkeys]; exact hnodup, trivial, hwf⟩
  finite := by
    rw [hmembers]
    exact hfinite

private theorem named_created : Named counts draft.createdEvent :=
  named_of_members counts (annotated_created draft counts) rfl [Text.ofString "response"]
    rfl (by decide) ⟨response_wf draft counts .inProgress, trivial⟩
    (Bool.and_eq_true_iff.mpr ⟨response_finite draft counts .inProgress, rfl⟩)

private theorem named_completed (status : ResponseStatus) :
    Named counts (draft.completedEvent status) :=
  named_of_members counts (annotated_completed draft counts status) rfl
    [Text.ofString "response"] rfl (by decide) ⟨response_wf draft counts status, trivial⟩
    (Bool.and_eq_true_iff.mpr ⟨response_finite draft counts status, rfl⟩)

private theorem named_failed : Named counts draft.failedEvent :=
  named_of_members counts (annotated_failed draft counts) rfl
    [Text.ofString "response", Text.ofString "error"] rfl (by decide)
    ⟨response_wf draft counts .failed, ⟨by decide, trivial, trivial, trivial⟩, trivial⟩
    (Bool.and_eq_true_iff.mpr ⟨response_finite draft counts .failed, rfl⟩)

private theorem named_delta (delta : Text) : Named counts (draft.deltaEvent delta) :=
  named_of_members counts (annotated_delta draft counts delta) rfl
    [Text.ofString "response_id", Text.ofString "output_index",
      Text.ofString "content_index", Text.ofString "delta"] rfl (by decide)
    ⟨trivial, trivial, trivial, trivial, trivial⟩ rfl

private theorem named_done : Named counts draft.doneEvent :=
  named_of_members counts (annotated_done draft counts) rfl
    [Text.ofString "response_id", Text.ofString "output_index",
      Text.ofString "content_index", Text.ofString "text"] rfl (by decide)
    ⟨trivial, trivial, trivial, trivial, trivial⟩ rfl

/-! ### The usage of a response -/

/-- The usage of a generated response: the counts of the provider and those of the adapters. -/
def billed (rq : Request) (latency : ℚ) (counts : Invocations) (status : Int)
    (usage : Option TokenCounts) : Usage where
  route := rq.path
  model := some "c3r-core"
  status
  latencyMs := .fin (latency * 1000)
  inputTokens := usage.map fun reported ↦ reported.inputTokens
  outputTokens := usage.map fun reported ↦ reported.outputTokens
  systemOneInvocations := some counts.systemOne
  systemTwoInvocations := some counts.systemTwo
  invocationBasis := some "adapter_transport_attempts"

private theorem count_natCast (n : Nat) : count (some (.int n)) = some (n : Int) := by
  unfold count
  exact if_pos (Int.natCast_nonneg n)

/-- What the gateway reads in a response is what the backend put into it. -/
private theorem usageOf_response (rq : Request) (latency : ℚ) (status : Int)
    (response : ResponseStatus) :
    usageOf rq latency status (withInvocations counts (draft.response response)) =
      billed rq latency counts status draft.usage := by
  have hsystemOne : (member (withInvocations counts (draft.response response)) "c3r").get?
      "system_one_invocations" = some (.int counts.systemOne) := rfl
  have hsystemTwo : (member (withInvocations counts (draft.response response)) "c3r").get?
      "system_two_invocations" = some (.int counts.systemTwo) := rfl
  have hmodel : knownModel ((Json.obj (withInvocations counts (draft.response response))).get?
      "model") = some "c3r-core" := rfl
  have hbasis : knownBasis ((member (withInvocations counts (draft.response response)) "c3r").get?
      "invocation_basis") = some "adapter_transport_attempts" := rfl
  unfold usageOf billed
  rw [hsystemOne, hsystemTwo, hmodel, hbasis, count_natCast, count_natCast]
  obtain ⟨labels, text, finish, usage⟩ := draft
  cases usage with
  | none => rfl
  | some reported =>
    have hinput : count ((member (withInvocations counts (Draft.response
        ⟨labels, text, finish, some reported⟩ response)) "usage").get? "input_tokens") =
          some (reported.inputTokens : Int) := count_natCast reported.inputTokens
    have houtput : count ((member (withInvocations counts (Draft.response
        ⟨labels, text, finish, some reported⟩ response)) "usage").get? "output_tokens") =
          some (reported.outputTokens : Int) := count_natCast reported.outputTokens
    rw [hinput, houtput]
    rfl

private theorem payloadOf_completed (status : ResponseStatus) :
    payloadOf (annotated counts (draft.completedEvent status).2) =
      withInvocations counts (draft.response status) := rfl

private theorem payloadOf_failed : payloadOf (annotated counts draft.failedEvent.2) =
    withInvocations counts (draft.response .failed) := rfl

/-- How a response ends, and what is recorded of it. -/
structure Closes (counts : Invocations) (chunks : List Chunk) (ending : Ending) (last : StreamEvent)
    (status : Int) (usage : Option TokenCounts) : Prop where
  named : Named counts last
  terminal : isTerminal last.1 = true
  recorded : ∀ rq latency, usageOf rq latency
    (if last.1 = Text.ofString "response.completed" then 200 else 503)
      (payloadOf (annotated counts last.2)) = billed rq latency counts status usage
  outcome : (last.1 = Text.ofString "response.completed" ∧ status = 200 ∧ ending = .stopped ∧
    (lastFinish chunks).isSome ∧ usage = lastUsage chunks) ∨
      (last.1 = Text.ofString "response.failed" ∧ status = 503)

/-- The events of a response: those that do not end it, and the one that does. -/
theorem exists_closes (labels : ResponseLabels) (chunks : List Chunk) (ending : Ending) :
    ∃ events last status usage,
      Draft.createdEvent { labels } :: Draft.transcript ending { labels } chunks = events ++ [last] ∧
      (∀ event ∈ events, Named counts event ∧ isTerminal event.1 = false) ∧
      Closes counts chunks ending last status usage := by
  obtain ⟨deltas, tail, hevents, htail⟩ := Draft.transcript_eq ending { labels } chunks
  have hcreated : Named counts (Draft.createdEvent { labels }) ∧
      isTerminal (Draft.createdEvent { labels }).1 = false := ⟨named_created _ counts, rfl⟩
  have hdeltas : ∀ event ∈ deltas.map (Draft.deltaEvent { labels }),
      Named counts event ∧ isTerminal event.1 = false := fun event hevent ↦ by
    obtain ⟨delta, -, rfl⟩ := List.mem_map.mp hevent
    exact ⟨named_delta _ counts delta, rfl⟩
  obtain ⟨hending, hcompletes⟩ | ⟨text, usage, rfl⟩ := htail
  · obtain ⟨finish, hfinish, rfl⟩ := hcompletes.tail_eq
    rw [Option.or_none] at hfinish
    refine ⟨Draft.createdEvent { labels } :: (deltas.map (Draft.deltaEvent { labels }) ++
      [Draft.doneEvent { labels, text := deltas.flatten }]),
      Draft.completedEvent { labels, text := deltas.flatten, usage := lastUsage chunks }
        (statusOf finish), 200, lastUsage chunks, ?_, ?_, ?_⟩
    · rw [hevents, Option.or_none, List.cons_append, List.append_assoc]
      rfl
    · intro event hevent
      obtain rfl | hevent := List.mem_cons.mp hevent
      · exact hcreated
      · obtain hevent | hevent := List.mem_append.mp hevent
        · exact hdeltas event hevent
        · rw [List.mem_singleton.mp hevent]
          exact ⟨named_done _ counts, rfl⟩
    · refine ⟨named_completed _ counts _, rfl, fun rq latency ↦ ?_, .inl ⟨rfl, rfl, hending, ?_, rfl⟩⟩
      · rw [payloadOf_completed, usageOf_response]
        rfl
      · rw [hfinish]
        rfl
  · refine ⟨Draft.createdEvent { labels } :: deltas.map (Draft.deltaEvent { labels }),
      Draft.failedEvent { labels, text, usage }, 503, usage, by rw [hevents]; rfl, ?_, ?_⟩
    · intro event hevent
      obtain rfl | hevent := List.mem_cons.mp hevent
      · exact hcreated
      · exact hdeltas event hevent
    · refine ⟨named_failed _ counts, rfl, fun rq latency ↦ ?_, .inr ⟨rfl, rfl⟩⟩
      rw [payloadOf_failed, usageOf_response]
      rfl

/-! ### From end to end -/

section EndToEnd

variable [FloatText] [JsonLimits] [JsonBytes] {H : Type}
  {host : H → (o : IngressOp) → o.Res × H} {view : H → Relay} {g : Gateway} {counts : Invocations}

omit [JsonLimits] [JsonBytes] in
/-- The events with their frames, the last one apart. -/
private theorem exists_pairs {events : List StreamEvent} {last : StreamEvent} {frames : List Bytes}
    (hframes : (events ++ [last]).mapM (frame counts) = .ok frames) :
    ∃ (pairs : List (StreamEvent × Bytes)) (bytes : Bytes), pairs.map Prod.fst = events ∧
      frames = (pairs ++ [(last, bytes)]).map Prod.snd ∧
      ∀ p ∈ pairs ++ [(last, bytes)], frame counts p.1 = .ok p.2 := by
  obtain ⟨hlength, hzip⟩ := List.forall₂_iff_zip.mp (mapM_eq_ok_iff.mp hframes)
  have hfst : ((events ++ [last]).zip frames).map Prod.fst = events ++ [last] :=
    List.map_fst_zip hlength.le
  have hsnd : ((events ++ [last]).zip frames).map Prod.snd = frames :=
    List.map_snd_zip hlength.ge
  obtain ⟨pairs, ends, hpairs, hevents, hends⟩ := List.map_eq_append_iff.mp hfst
  obtain ⟨⟨final, bytes⟩, rfl, rfl⟩ := List.map_eq_singleton_iff.mp hends
  refine ⟨pairs, bytes, hevents, by rw [← hpairs, hsnd], fun p hp ↦ ?_⟩
  rw [← hpairs] at hp
  exact hzip hp

omit [FloatText] [JsonLimits] [JsonBytes] in
private theorem wire_eq_flatten (pairs : List (StreamEvent × Bytes)) :
    wire pairs = (pairs.map Prod.snd).flatten := List.flatMap_def

end EndToEnd

section Sample

attribute [local instance] FloatText.fraction JsonLimits.unreached JsonBytes.utf8

/-- A connection that holds what was not read yet, a client and a store. -/
def carrier (r : Relay) : (o : IngressOp) → o.Res × Relay
  | .readLine limit =>
    match r.lines with
    | [] => (.ok [], r)
    | line :: rest =>
      if line.length ≤ limit then (.ok line, { r with lines := rest })
      else (.ok (line.take limit), { r with lines := line.drop limit :: rest })
  | .loads data => (loadsBytes data, r)
  | .write body => (.ok (), { r with sent := r.sent ++ [body] })
  | .recordUsage principal requestId usage =>
    (.ok (), { r with recorded := r.recorded ++ [(principal, requestId, usage)] })
  | .authenticate _ => (.ok none, r)
  | .admitRequest _ => (.ok true, r)
  | .dispatchEvent _ _ | .startWatcher | .request _ _ _ _ | .closeConnection | .sendHead _ _
  | .flush => (.ok (), r)
  | .takeToken | .acquire _ => (true, r)
  | .release _ | .joinWatcher => ((), r)
  | .monotonic => (0, r)
  | .connect => (.ok true, r)
  | .getResponse => (.ok ⟨200, "text/event-stream"⟩, r)
  | .read _ | .readBody _ => (.ok [], r)
  | .isDisconnected => (false, r)

private theorem carries_carrier : Carries carrier id where
  clock _ _ := by
    change (0 : ℚ) < 0 + 300
    norm_num
  monotonic _ := rfl
  sendHead _ _ _ := ⟨rfl, rfl⟩
  readLine r limit line rest hlines hlength := by
    have hread : carrier r (.readLine limit) = (.ok line, { r with lines := rest }) := by
      unfold carrier
      rw [show r.lines = line :: rest from hlines]
      exact if_pos hlength
    rw [hread]
    exact ⟨rfl, rfl⟩
  loads _ _ := ⟨rfl, rfl⟩
  write _ _ := ⟨rfl, rfl⟩
  flush _ := ⟨rfl, rfl⟩
  recordUsage _ _ _ _ := ⟨rfl, rfl⟩

private theorem readable_utf8 (counts : Invocations) (events : List StreamEvent) :
    Readable counts events where
  decodes _ _ h := by
    obtain ⟨bytes, hbytes, rfl⟩ := h
    exact congrArg Except.ok (Text.ofUtf8_of_encodeUtf8 hbytes)
  reads _ _ := rfl

private theorem tells_counted : Tells countedLine ⟨"hi", some .stop, some ⟨1, 2⟩⟩ := by
  refine ⟨?_, ?_, ?_, ?_, rfl⟩
  all_goals decide +kernel

/-- The bytes of a provider that sends one line. -/
def countedBytes (n : Nat) : Option UInt8 := (streamBytes [countedLine])[n]?

/-- The events of its response. -/
def countedEvents : List StreamEvent :=
  Draft.createdEvent { labels := sampleLabels } ::
    Draft.transcript .stopped { labels := sampleLabels } [⟨"hi", some .stop, some ⟨1, 2⟩⟩]

private theorem delivers_counted :
    Delivers (.opened countedBytes none) [⟨"hi", some .stop, some ⟨1, 2⟩⟩] .stopped := by
  have htells : ∀ l ∈ [(countedLine, (⟨"hi", some .stop, some ⟨1, 2⟩⟩ : Chunk))], Tells l.1 l.2 :=
    fun l hl ↦ by
      rw [List.mem_singleton.mp hl]
      exact tells_counted
  exact delivers_streamBytes htells (by decide +kernel) ⟨_, List.mem_singleton_self _, rfl⟩

/-- The frames of the events: within the bounds of the gateway. -/
private theorem exists_countedFrames : ∃ frames, countedEvents.mapM (frame ⟨1, 1⟩) = .ok frames ∧
    (∀ bytes ∈ frames, bytes.length ≤ maxResponseBytes) ∧ frames.flatten.length ≤ maxStreamBytes := by
  have hbounds : (match countedEvents.mapM (frame ⟨1, 1⟩) with
      | .ok frames => frames.all (fun bytes ↦ decide (bytes.length ≤ maxResponseBytes)) &&
          decide (frames.flatten.length ≤ maxStreamBytes)
      | .error _ => false) = true := by decide +kernel
  cases hframes : countedEvents.mapM (frame ⟨1, 1⟩) with
  | error e =>
    rw [hframes] at hbounds
    cases hbounds
  | ok frames =>
    rw [hframes] at hbounds
    obtain ⟨hsizes, htotal⟩ := Bool.and_eq_true_iff.mp hbounds
    exact ⟨frames, rfl, fun bytes hbytes ↦ of_decide_eq_true (List.all_eq_true.mp hsizes bytes hbytes),
      of_decide_eq_true htotal⟩

end Sample

end C3RSpec.Ingress
