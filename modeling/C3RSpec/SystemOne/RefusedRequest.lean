import C3RSpec.SystemOne.Validation

/-!
# Requests that the adapter refuses after validation

`infer` and the adapter check the same texts by different predicates. The bounds agree; that a text
can be encoded is checked of the state only. A candidate, a prompt or an option with an unpaired
surrogate passes, the adapter counts an attempt, and writing the body of the HTTP request raises.
-/

namespace C3RSpec.SystemOne

open Base C3RSpec.Runtime

namespace SystemOneInference

/-- The questions and options of the ranking requests. -/
def Plan.requests : Plan → List (Text × List Text)
  | .candidates options => [(Text.ofString "NEXT_ACTION", options)]
  | .questions prepared => prepared.map fun q ↦ (q.prompt, q.options)

section Requests

variable [FloatText]

/-- A request passes the checks of the adapter, and its body can be written. -/
structure Sendable (call : ClmCall) (context : Text) (request : Text × List Text) : Prop where
  text : ClmCall.checkText context request.1 = .ok ()
  options : ClmAdapter.checkOptions request.2 = .ok ()
  encodable : ∃ body, (ClmCall.payloadText
    ⟨context, request.1, request.2, call.servedModel⟩).encodeUtf8 = .ok body

/-- The texts of a request hold no surrogate. -/
def Encodable (request : Text × List Text) : Prop :=
  request.1.IsScalar ∧ ∀ option ∈ request.2, option.IsScalar

omit [FloatText] in
private theorem isScalar_ascii (s : String) (h : (Text.ofString s).isAscii = true := by decide) :
    (Text.ofString s).IsScalar :=
  Text.isScalar_of_isAscii h

theorem exists_payload_iff {context question model : Text} {options : List Text} :
    (∃ body, (ClmCall.payloadText ⟨context, question, options, model⟩).encodeUtf8 = .ok body) ↔
      context.IsScalar ∧ Encodable (question, options) ∧ model.IsScalar := by
  have hkeys := And.intro (isScalar_ascii "context") (And.intro (isScalar_ascii "question")
    (And.intro (isScalar_ascii "answers") (isScalar_ascii "model")))
  rw [Text.exists_encodeUtf8_iff, ClmCall.payloadText, Json.isScalar_renderSpaced]
  simp only [forall_const, Json.AllScalar, MembersScalar, elementsScalar_iff, List.forall_mem_map,
    Encodable, hkeys, true_and, and_true, and_assoc]

omit [FloatText] in
/-- A checked plan passes the adapter's checks of question and options. -/
theorem Plan.Ready.request {p : Plan} (h : p.Ready) {request : Text × List Text}
    (hmem : request ∈ p.requests) :
    Bounded 1024 request.1 ∧ ClmAdapter.checkOptions request.2 = .ok () := by
  have hok : ∀ {options : List Text}, options ≠ [] → options.length ≤ 64 → options.Nodup →
      (∀ option ∈ options, Bounded 1024 option) → ClmAdapter.checkOptions options = .ok () := by
    intro options hne hfew hnodup hbounded
    have hany : (options.any fun option ↦ decide (option = []) || decide (1024 < option.length)) =
        false := by
      refine List.any_eq_false.mpr fun option hoption ↦ ?_
      have hb := hbounded option hoption
      simp [hb.nonempty, hb.bounded]
    rw [ClmAdapter.checkOptions, if_neg (by simp [hne, hnodup, ClmAdapter.maxOptions, hfew]), hany,
      if_neg Bool.false_ne_true]
  cases p with
  | candidates options =>
    obtain ⟨hne, hfew, hnodup, hbounded⟩ := h
    have hname : Bounded 1024 (Text.ofString "NEXT_ACTION") := ⟨by decide, by decide⟩
    rw [List.mem_singleton.mp hmem]
    exact ⟨hname, hok hne hfew hnodup hbounded⟩
  | questions prepared =>
    obtain ⟨q, hq, rfl⟩ := List.mem_map.mp hmem
    have hready := h.2 q hq
    refine ⟨hready.prompt, hok ?_ hready.few hready.nodup hready.bounded⟩
    exact List.length_pos_iff.mp (Nat.lt_of_lt_of_le Nat.two_pos hready.several)

omit [FloatText] in
private theorem requests_ne_nil {p : Plan} (h : p.Ready) : p.requests ≠ [] := by
  cases p with
  | candidates options => exact List.cons_ne_nil _ _
  | questions prepared => simpa [Plan.requests] using h.1

variable [JsonLimits]

private theorem context_ne_nil {payload : Dict Text Json} {model context : Text}
    (h : preamble payload = .ok (model, context)) : context ≠ [] := by
  unfold preamble at h
  split at h
  · cases h
  · simp only [bind_eq_ok] at h
    obtain ⟨_, -, context', hstate, _, -, h⟩ := h
    have hne : context' ≠ [] := by
      unfold stateText at hstate
      split at hstate
      · next es =>
        unfold dumpsSpaced at hstate
        split at hstate
        · cases hstate
        · split at hstate
          · cases hstate
            rw [Json.sortKeys, Json.renderSpaced]
            exact List.cons_ne_nil _ _
          · cases hstate
      · exact (bounded_of_text hstate).2.nonempty
      · exact (bounded_of_text hstate).2.nonempty
    split at h
    · cases h
    · split at h
      · cases h
      · cases h
        exact hne

/-- The requests of an accepted payload are sendable when their texts hold no surrogate, and only
then. -/
theorem sendable_iff {call : ClmCall} {payload : Dict Text Json} {model context : Text} {p : Plan}
    (hpreamble : preamble payload = .ok (model, context)) (hplan : plan payload = .ok p) :
    (∀ request ∈ p.requests, Sendable call context request) ↔
      call.servedModel.IsScalar ∧ ∀ request ∈ p.requests, Encodable request := by
  obtain ⟨-, hready, bytes, hbytes, hsize⟩ := withinBudgets_of_plan hpreamble hplan
  have hcontext : context.IsScalar := Text.exists_encodeUtf8_iff.mp ⟨bytes, hbytes⟩
  have htext : ∀ request ∈ p.requests, ClmCall.checkText context request.1 = .ok () := by
    intro request hmem
    have hbounded := (hready.request hmem).1
    rw [ClmCall.checkText, if_neg (context_ne_nil hpreamble), hbytes]
    change (if ClmAdapter.maxContextBytes < bytes.size then _ else _) = _
    have hmax : ¬ClmAdapter.maxContextBytes < bytes.size := Nat.not_lt.mpr hsize
    rw [if_neg hmax, if_neg (by simp [hbounded.nonempty, hbounded.bounded])]
    rfl
  constructor
  · intro h
    obtain ⟨first, hfirst⟩ := List.exists_mem_of_ne_nil _ (requests_ne_nil hready)
    exact ⟨(exists_payload_iff.mp (h first hfirst).encodable).2.2, fun request hmem ↦
      (exists_payload_iff.mp (h request hmem).encodable).2.1⟩
  · rintro ⟨hmodel, h⟩ request hmem
    exact ⟨htext request hmem, (hready.request hmem).2,
      exists_payload_iff.mpr ⟨hcontext, h request hmem, hmodel⟩⟩

end Requests

/-! ### What a failure is due to -/

section Blame

variable [FloatText] [JsonLimits] [JsonBytes] (call : ClmCall) (context : Text)
  (requests : List (Text × List Text)) (deadline : PyFloat)

/-- The answer of the host that a failed run with a deadline ends on: the clock has passed it, or
the transport or the server did not give an acceptable ranking for one of the requests. -/
inductive Blamed : Event RankOp RankOp.Res → Prop
  | deadline {now : PyFloat}
      (h : PyFloat.le (firstMin PyFloat.lt call.timeoutSeconds [PyFloat.sub deadline now])
        (.fin 0) = true) : Blamed ⟨.monotonic, now⟩
  | transport {request : Text × List Text} (hmem : request ∈ requests)
      {answer : Except PyError (Dict Text Json)}
      (h : ∀ scores, (answer >>= ClmAdapter.checkResponse call.servedModel request.2) ≠
        .ok scores) :
      Blamed ⟨.transport ⟨context, request.1, request.2, call.servedModel⟩, answer⟩
  | server {request : Text × List Text} (hmem : request ∈ requests) {body : ByteArray}
      (hbody : (ClmCall.payloadText
        ⟨context, request.1, request.2, call.servedModel⟩).encodeUtf8 = .ok body)
      {timeout : PyFloat} {answer : Except PyError Bytes}
      (h : ∀ scores, (answer >>= ClmCall.parseBody >>=
        ClmAdapter.checkResponse call.servedModel request.2) ≠ .ok scores) :
      Blamed ⟨.post body timeout, answer⟩

/-- A failed run ends on an answer that is to blame. -/
def EndsBlamed {α : Type} (es : List (Event RankOp RankOp.Res)) (x : Except PyError α) : Prop :=
  ∀ e, x = .error e → ∃ pre event, es = pre ++ [event] ∧ Blamed call context requests deadline event

variable {call context requests deadline}

private theorem EndsBlamed.prepend {α : Type} {es : List (Event RankOp RankOp.Res)}
    {x : Except PyError α} (h : EndsBlamed call context requests deadline es x)
    (before : List (Event RankOp RankOp.Res)) :
    EndsBlamed call context requests deadline (before ++ es) x := by
  intro e he
  obtain ⟨pre, event, rfl, hblamed⟩ := h e he
  exact ⟨before ++ pre, event, (List.append_assoc _ _ _).symm, hblamed⟩

private theorem endsBlamed_last {α : Type} {x : Except PyError α}
    {event : Event RankOp RankOp.Res} (before : List (Event RankOp RankOp.Res))
    (h : (∃ e, x = .error e) → Blamed call context requests deadline event) :
    EndsBlamed call context requests deadline (before ++ [event]) x :=
  fun e he ↦ ⟨before, event, rfl, h ⟨e, he⟩⟩

private theorem all_request_blamed {request : Text × List Text} (hmem : request ∈ requests)
    (hsend : Sendable call context request) :
    Prog.All (EndsBlamed call context requests deadline)
      (call.request context request.1 request.2 (some deadline)) := by
  intro now
  change Prog.All _ (if _ then _ else _)
  split
  · next hlate => exact endsBlamed_last [] fun _ ↦ .deadline hlate
  · intro counted
    change Prog.All _ (call.exchange _ _ >>= _)
    unfold ClmCall.exchange
    split
    · intro answer
      cases answer with
      | error e => exact endsBlamed_last [_, _] fun _ ↦ .transport hmem fun scores h ↦ (nomatch h)
      | ok response =>
        change Prog.All _ (Prog.ofExcept (ClmAdapter.checkResponse _ _ _))
        apply Prog.All.ofExcept
        refine endsBlamed_last [_, _] ?_
        rintro ⟨e, he⟩
        exact .transport hmem fun scores h ↦ (nomatch he.symm.trans h)
    · obtain ⟨body, hbody⟩ := hsend.encodable
      unfold ClmCall.post
      rw [hbody]
      intro answer
      change Prog.All _ (Prog.ofExcept (answer >>= ClmCall.parseBody) >>= _)
      cases hparsed : answer >>= ClmCall.parseBody with
      | error e =>
        refine endsBlamed_last [_, _] fun _ ↦ .server hmem hbody fun scores h ↦ ?_
        rw [hparsed] at h
        cases h
      | ok response =>
        change Prog.All _ (Prog.ofExcept (ClmAdapter.checkResponse _ _ _))
        apply Prog.All.ofExcept
        refine endsBlamed_last [_, _] ?_
        rintro ⟨e, he⟩
        refine .server hmem hbody fun scores h ↦ ?_
        rw [hparsed] at h
        exact (nomatch he.symm.trans h)

private theorem all_rank_blamed {request : Text × List Text} (hmem : request ∈ requests)
    (hsend : Sendable call context request) :
    Prog.All (EndsBlamed call context requests deadline)
      (rank call context request.1 request.2 deadline) := by
  have htext : Prog.All (EndsBlamed call context requests deadline)
      (call.rankText context request.1 request.2 (some deadline)) := by
    unfold ClmCall.rankText ClmCall.rank
    rw [hsend.text, hsend.options]
    exact all_request_blamed hmem hsend
  refine Prog.All.tryCatch (htext.mono fun es x hx ↦ ⟨fun scores _ e h ↦ (nomatch h), ?_⟩)
  rintro e rfl
  obtain ⟨pre, event, rfl, hblamed⟩ := hx e rfl
  -- the handler relabels the error and performs nothing
  split <;> exact fun e' _ ↦ ⟨pre, event, List.append_nil _, hblamed⟩

private theorem all_askQuestions_blamed {prepared : List Prepared}
    (hready : ∀ q ∈ prepared, Ready q)
    (hmem : ∀ q ∈ prepared, (q.prompt, q.options) ∈ requests)
    (hsend : ∀ request ∈ requests, Sendable call context request) (answers : Dict Text Answer) :
    Prog.All (EndsBlamed call context requests deadline)
      (prepared.foldlM (askQuestion call context deadline) answers) := by
  induction prepared generalizing answers with
  | nil => exact fun e h ↦ (nomatch h)
  | cons q prepared ih =>
    rw [List.forall_mem_cons] at hready hmem
    rw [List.foldlM_cons]
    have hrank := (all_rank call context q.prompt q.options deadline).and
      (all_rank_blamed hmem.1 (hsend _ hmem.1))
    refine Prog.All.bind (Prog.All.bind (hrank.mono ?_))
    rintro es x ⟨⟨hok, -⟩, hblamed⟩
    constructor
    · rintro scores rfl
      obtain ⟨answer, hanswer⟩ := exists_answerOf hready.1 (hok scores rfl)
      rw [hanswer]
      refine ⟨fun next _ ↦ ?_, fun e h ↦ (nomatch h)⟩
      exact (ih hready.2 hmem.2 next).mono fun es' x h ↦ h.prepend _
    · rintro e rfl
      refine ⟨fun next h ↦ (nomatch h), ?_⟩
      rintro e' ⟨⟩ e'' ⟨⟩
      exact hblamed e rfl

/-- When every request is sendable, what is carried out fails on an answer that is to blame. -/
theorem all_execute_blamed {p : Plan} (hready : p.Ready)
    (hsend : ∀ request ∈ p.requests, Sendable call context request) (model : Text) :
    Prog.All (EndsBlamed call context p.requests deadline) (execute call model context deadline p) := by
  cases p with
  | candidates options =>
    have hmem := List.mem_singleton_self (Text.ofString "NEXT_ACTION", options)
    refine Prog.All.bind ((all_rank_blamed hmem (hsend _ hmem)).mono fun es x hx ↦
      ⟨fun scores _ e h ↦ (nomatch h), ?_⟩)
    rintro e rfl e' ⟨⟩
    exact hx e rfl
  | questions prepared =>
    have hmem : ∀ q ∈ prepared, (q.prompt, q.options) ∈ (Plan.questions prepared).requests :=
      fun q hq ↦ List.mem_map_of_mem hq
    refine Prog.All.bind ((all_askQuestions_blamed hready.2 hmem hsend ∅).mono fun es x hx ↦
      ⟨fun answers _ e h ↦ (nomatch h), ?_⟩)
    rintro e rfl e' ⟨⟩
    exact hx e rfl

/-- A payload that passed validation: every request passes the adapter's checks and can be written,
and every failed run ends on a reading of the clock past the deadline counted from its first
reading, or on a transport or server answer that is to blame, exactly when neither the model's name
nor a text of a request holds an unpaired surrogate. -/
theorem validated_never_refused_iff {payload : Dict Text Json} {model : Text} {p : Plan}
    (hpreamble : preamble payload = .ok (model, context)) (hplan : plan payload = .ok p) :
    ((∀ request ∈ p.requests, Sendable call context request) ∧
        ∀ es e, Prog.Runs (infer call payload) es (.raise e) →
          ∃ start pre event, es = ⟨.monotonic, start⟩ :: (pre ++ [event]) ∧
            Blamed call context p.requests (PyFloat.add start call.timeoutSeconds) event) ↔
      call.servedModel.IsScalar ∧ ∀ request ∈ p.requests, Encodable request := by
  rw [← sendable_iff hpreamble hplan]
  refine ⟨And.left, fun hsend ↦ ⟨hsend, fun es e hrun ↦ ?_⟩⟩
  have hready := (withinBudgets_of_plan hpreamble hplan).2.1
  have hall : Prog.All (fun es x ↦ ∀ e, x = .error e → ∃ start pre event,
      es = ⟨.monotonic, start⟩ :: (pre ++ [event]) ∧
        Blamed call context p.requests (PyFloat.add start call.timeoutSeconds) event)
      (infer call payload) := by
    unfold infer
    rw [hpreamble, hplan]
    intro start
    refine (all_execute_blamed hready hsend model).mono fun es x hx e he ↦ ?_
    obtain ⟨pre, event, rfl, hblamed⟩ := hx e he
    exact ⟨start, pre, event, rfl, hblamed⟩
  exact hall.of_finishes ⟨_, hrun, rfl⟩ e rfl

end Blame

section Sample

attribute [local instance] FloatText.fraction JsonLimits.unreached JsonBytes.utf8

/-- The two candidates of the pair are written, and the failure is the server's. -/
theorem validated_never_refused_iff_pair :
    ∃ (context : Text) (p : Plan), preamble pairPayload = .ok (rankingModels.headD [], context) ∧
      plan pairPayload = .ok p ∧ (∀ request ∈ p.requests, Sendable {} context request) ∧
      ∃ start pre event, (Prog.play unreachable (infer {} pairPayload)).1 =
          ⟨.monotonic, start⟩ :: (pre ++ [event]) ∧
        Blamed {} context p.requests (PyFloat.add start ({} : ClmCall).timeoutSeconds) event := by
  have hpreamble : preamble pairPayload =
      .ok (rankingModels.headD [], Text.ofString "s") := by rfl
  have hplan : plan pairPayload =
      .ok (.candidates [Text.ofString "a", Text.ofString "b"]) := by rfl
  have hcond : ({} : ClmCall).servedModel.IsScalar ∧ ∀ request ∈ (Plan.candidates
      [Text.ofString "a", Text.ofString "b"]).requests, Encodable request := by
    refine ⟨isScalar_ascii "clm-latest", fun request hmem ↦ ?_⟩
    rw [List.mem_singleton.mp hmem]
    refine ⟨isScalar_ascii "NEXT_ACTION", ?_⟩
    rw [List.forall_mem_cons, List.forall_mem_singleton]
    exact ⟨isScalar_ascii "a", isScalar_ascii "b"⟩
  obtain ⟨hsend, hfails⟩ := (validated_never_refused_iff hpreamble hplan).mpr hcond
  refine ⟨_, _, hpreamble, hplan, hsend, ?_⟩
  have herror : raisedKind (Prog.play unreachable (infer {} pairPayload)).2 =
      some .runtimeError := by decide +kernel
  obtain ⟨e, -, he⟩ := exists_of_raisedKind herror
  obtain ⟨q, hrun, hq⟩ := Prog.finishes_play unreachable (infer {} pairPayload)
  rw [he] at hq
  obtain ⟨start, pre, event, hes, hblamed⟩ := hfails _ e (by
    cases q with
    | ret a => cases hq
    | raise e' =>
      cases hq
      exact hrun
    | call o k => cases hq)
  exact ⟨start, pre, event, hes, hblamed⟩

/-- A payload whose first candidate is an unpaired surrogate. -/
def surrogatePayload : Dict Text Json :=
  Dict.ofList [("state", .str (Text.ofString "s")),
    ("candidates", .arr [.str [0xd800], .str (Text.ofString "b")])]

/-- It passes validation; the run counts an attempt and then fails without asking the server. -/
theorem surrogate_candidate_refused :
    let run := Prog.play unreachable (infer {} surrogatePayload)
    (preamble surrogatePayload).toOption.isSome = true ∧
      (plan surrogatePayload).toOption.isSome = true ∧
      (∃ e, run.2 = .error e ∧ e.kind = .runtimeError) ∧
      ∃ pre, run.1 = pre ++ [⟨.attempt, ()⟩] := by
  intro run
  have herror : raisedKind run.2 = some .runtimeError := by decide +kernel
  have hlast : (run.1.getLast?.map fun event ↦ match event.op with
      | .attempt => true
      | _ => false) = some true := by decide +kernel
  refine ⟨by decide +kernel, by decide +kernel, ?_, ?_⟩
  · obtain ⟨e, hkind, he⟩ := exists_of_raisedKind herror
    exact ⟨e, he, hkind⟩
  · obtain ⟨⟨op, answer⟩, hevent, hop⟩ := Option.map_eq_some_iff.mp hlast
    obtain ⟨pre, hpre⟩ := List.getLast?_eq_some_iff.mp hevent
    cases op with
    | attempt => exact ⟨pre, hpre⟩
    | _ => cases hop

end Sample

end SystemOneInference

end C3RSpec.SystemOne
