import C3RSpec.Service.Responses

/-!
# The grammar of response events

`c3r/responses.py:41–136` over `c3r/adapters/providers.py:256–367`. What the provider delivers is a
list of chunks and an ending; the events are a function of the two. The iterators, with their flags,
compute that function for every byte sequence, and the grammar is read off it.
-/

namespace C3RSpec.Service

open Base Adapters TextGenerationStream ResponseEventStream

namespace Draft

/-- A text that is added to a draft: the draft after it, or what is left of a failure. -/
def add (draft : Draft) (delta : Text) : Except Draft Draft :=
  if draft.finish.isSome then .error draft
  else
    let draft := { draft with text := draft.text ++ delta }
    match draft.text.encodeUtf8 with
    | .error _ => .error draft
    | .ok bytes => if maxTextBytes < bytes.size then .error draft else .ok draft

/-- The events of a list of chunks. -/
def transcript (ending : Ending) (draft : Draft) : List Chunk → List StreamEvent
  | [] =>
    match ending, draft.finish with
    | .stopped, some finish => [draft.doneEvent, draft.completedEvent (statusOf finish)]
    | .stopped, none | .broken, _ => [draft.failedEvent]
  | chunk :: rest =>
    let draft := { draft with usage := chunk.usage.or draft.usage }
    if chunk.delta = [] then
      transcript ending { draft with finish := chunk.finish.or draft.finish } rest
    else
      match draft.add chunk.delta with
      | .error draft => [draft.failedEvent]
      | .ok draft =>
        draft.deltaEvent chunk.delta ::
          transcript ending { draft with finish := chunk.finish.or draft.finish } rest

end Draft

/-! ### The iterators compute it -/

namespace ResponseEventStream

private theorem isEventFailure_of_isStreamError {e : PyError} (h : isStreamError e = true) :
    isEventFailure e = true := by
  unfold isStreamError at h
  unfold isEventFailure
  cases hkind : e.kind <;> simp_all

private theorem isEventFailure_of_encode {t : Text} {e : PyError} (h : t.encodeUtf8 = .error e) :
    isEventFailure e = true := by
  unfold Text.encodeUtf8 at h
  split at h
  · cases h
  · cases h
    rfl

/-- A text that cannot be added is a failure. -/
theorem emit_of_error {s : ResponseEventStream} {delta : Text} {draft : Draft}
    (h : s.draft.add delta = .error draft) (finish : Option FinishReason) :
    ∃ e, isEventFailure e = true ∧ s.emit delta finish = { s with draft }.fail e := by
  unfold Draft.add at h
  unfold emit
  by_cases hfinish : s.draft.finish.isSome = true
  · rw [if_pos hfinish] at h ⊢
    cases h
    exact ⟨_, rfl, rfl⟩
  · rw [if_neg hfinish] at h ⊢
    dsimp only at h ⊢
    cases hencode : (s.draft.text ++ delta).encodeUtf8 with
    | error e =>
      rw [hencode] at h
      cases h
      exact ⟨e, isEventFailure_of_encode hencode, rfl⟩
    | ok bytes =>
      rw [hencode] at h
      dsimp only at h ⊢
      by_cases hsize : maxTextBytes < bytes.size
      · rw [if_pos hsize] at h ⊢
        cases h
        exact ⟨_, rfl, rfl⟩
      · rw [if_neg hsize] at h
        cases h

/-- A text that is added is an event. -/
theorem emit_of_ok {s : ResponseEventStream} {delta : Text} {draft : Draft}
    (h : s.draft.add delta = .ok draft) (finish : Option FinishReason) :
    s.emit delta finish = (.item (draft.deltaEvent delta),
      { s with draft := { draft with finish := finish.or draft.finish } }) := by
  unfold Draft.add at h
  unfold emit
  by_cases hfinish : s.draft.finish.isSome = true
  · rw [if_pos hfinish] at h
    cases h
  · rw [if_neg hfinish] at h ⊢
    dsimp only at h ⊢
    cases hencode : (s.draft.text ++ delta).encodeUtf8 with
    | error e =>
      rw [hencode] at h
      cases h
    | ok bytes =>
      rw [hencode] at h
      dsimp only at h ⊢
      by_cases hsize : maxTextBytes < bytes.size
      · rw [if_pos hsize] at h
        cases h
      · rw [if_neg hsize] at h ⊢
        cases h
        rfl

variable [FloatText] [JsonLimits] [JsonBytes]

/-- The stream was started and is not done. -/
structure Running (s : ResponseEventStream) : Prop where
  started : s.started = true
  undone : s.done = false
  pending : s.pending = []

private theorem next_of_running {s : ResponseEventStream} (h : Running s) : s.next = s.pull := by
  rw [next, h.pending]
  dsimp only
  rw [h.undone, h.started]
  rfl

private theorem next_of_done {s : ResponseEventStream} (hdone : s.done = true)
    (hpending : s.pending = []) : s.next = (.stop, s) := by
  rw [next, hpending]
  dsimp only
  rw [hdone]
  rfl

private theorem pull_of_stop {s : ResponseEventStream} {backend : TextGenerationStream}
    (h : s.backend.next = (.stop, backend)) : s.pull = { s with backend }.ended := by
  unfold pull
  split
  · next h' =>
    cases h.symm.trans h'
    rfl
  · next h' => cases h.symm.trans h'
  · next h' => cases h.symm.trans h'

private theorem pull_of_raised {s : ResponseEventStream} {backend : TextGenerationStream} {e : PyError}
    (h : s.backend.next = (.raised e, backend)) : s.pull = { s with backend }.fail e := by
  unfold pull
  split
  · next h' => cases h.symm.trans h'
  · next h' =>
    cases h.symm.trans h'
    rfl
  · next h' => cases h.symm.trans h'

private theorem pull_of_item {s : ResponseEventStream} {backend : TextGenerationStream} {chunk : Chunk}
    (h : s.backend.next = (.item chunk, backend)) :
    s.pull =
      if chunk.delta = [] then
        { s with backend
                 draft := { s.draft with usage := chunk.usage.or s.draft.usage
                                         finish := chunk.finish.or s.draft.finish } }.pull
      else
        { s with backend
                 draft := { s.draft with usage := chunk.usage.or s.draft.usage } }.emit
          chunk.delta chunk.finish := by
  rw [pull]
  split
  · next h' => cases h.symm.trans h'
  · next h' => cases h.symm.trans h'
  · next h' =>
    cases h.symm.trans h'
    rfl

omit [FloatText] [JsonLimits] [JsonBytes] in
private theorem ended_of_none {s : ResponseEventStream} (h : s.draft.finish = none) :
    s.ended = s.fail ⟨.runtimeError, "provider stream omitted finish reason"⟩ := by
  rw [ended, h]

omit [FloatText] [JsonLimits] [JsonBytes] in
private theorem ended_of_some {s : ResponseEventStream} {finish : FinishReason}
    (h : s.draft.finish = some finish) : s.ended = (.item s.draft.doneEvent,
      { s with done := true
               pending := s.pending ++ [s.draft.completedEvent (statusOf finish)] }) := by
  rw [ended, h]

private theorem exhausts_fail {s t : ResponseEventStream} {e : PyError} (he : isEventFailure e = true)
    (hpending : t.pending = []) (h : s.next = t.fail e) :
    Exhausts next s [t.draft.failedEvent] { t with backend := t.backend.close, done := true } := by
  rw [fail, if_pos he] at h
  exact ⟨.cons h (.nil _), next_of_done rfl hpending⟩

omit [FloatText] [JsonLimits] [JsonBytes] in
theorem transcript_ne_nil (ending : Ending) (draft : Draft) (chunks : List Chunk) :
    draft.transcript ending chunks ≠ [] := by
  induction chunks generalizing draft with
  | nil =>
    unfold Draft.transcript
    split <;> exact List.cons_ne_nil _ _
  | cons chunk rest ih =>
    unfold Draft.transcript
    dsimp only
    split
    · exact ih _
    · split <;> exact List.cons_ne_nil _ _

private theorem exhausts_of_next_eq {s t u : ResponseEventStream} {events : List StreamEvent}
    (hne : events ≠ []) (h : s.next = t.next) (ht : Exhausts next t events u) :
    Exhausts next s events u := by
  obtain ⟨hyields, hstop⟩ := ht
  cases hyields with
  | nil => exact absurd rfl hne
  | cons hitem rest => exact ⟨.cons (h.trans hitem) rest, hstop⟩

/-- A running stream gives the transcript of what its backend delivers. -/
theorem exhausts_transcript {s : ResponseEventStream} {chunks : List Chunk} {ending : Ending}
    (h : Delivers s.backend chunks ending) (hs : Running s) (hbounded : Bounded s.backend) :
    ∃ t, Exhausts next s (s.draft.transcript ending chunks) t ∧
      t.backend.source.reads ≤ maxResponseBytes + 1 := by
  generalize hb : s.backend = b at h
  induction h generalizing s with
  | @stopped b backend h =>
    subst hb
    have hreads := (bounded_of_next h hbounded).reads_le
    have hnext := (next_of_running hs).trans (pull_of_stop h)
    unfold Draft.transcript
    cases hfinish : s.draft.finish with
    | none =>
      have hnext := hnext.trans (ended_of_none (s := { s with backend }) hfinish)
      exact ⟨_, exhausts_fail (t := { s with backend }) rfl hs.pending hnext, hreads⟩
    | some finish =>
      have hnext := hnext.trans (ended_of_some (s := { s with backend }) hfinish)
      dsimp only at hnext
      rw [hs.pending, List.nil_append] at hnext
      refine ⟨{ s with backend, done := true, pending := [] },
        ⟨.cons hnext (.cons ?_ (.nil _)), next_of_done rfl rfl⟩, hreads⟩
      rfl
  | @broken b backend e h =>
    subst hb
    have hcaught := isEventFailure_of_isStreamError (isStreamError_of_next h)
    have hnext := (next_of_running hs).trans (pull_of_raised h)
    exact ⟨_, exhausts_fail (t := { s with backend }) hcaught hs.pending hnext,
      (bounded_of_next h hbounded).reads_le⟩
  | @chunk b backend c rest ending h hrest ih =>
    subst hb
    have hbackend := bounded_of_next h hbounded
    have hnext := (next_of_running hs).trans (pull_of_item h)
    have running : ∀ draft, Running { s with backend, draft } := fun _ ↦
      ⟨hs.started, hs.undone, hs.pending⟩
    unfold Draft.transcript
    dsimp only
    by_cases hdelta : c.delta = []
    · rw [if_pos hdelta] at hnext ⊢
      obtain ⟨t, ht, hreads⟩ := ih (running _) hbackend rfl
      refine ⟨t, exhausts_of_next_eq (transcript_ne_nil _ _ _) (hnext.trans ?_) ht, hreads⟩
      exact (next_of_running (running _)).symm
    · rw [if_neg hdelta] at hnext ⊢
      cases hadd : Draft.add { s.draft with usage := c.usage.or s.draft.usage } c.delta with
      | error draft =>
        obtain ⟨e, he, hemit⟩ := emit_of_error (s := { s with
          backend, draft := { s.draft with usage := c.usage.or s.draft.usage } })
          hadd c.finish
        exact ⟨_, exhausts_fail (t := { s with backend, draft }) he hs.pending (hnext.trans hemit),
          hbackend.reads_le⟩
      | ok draft =>
        have hemit := emit_of_ok (s := { s with
          backend, draft := { s.draft with usage := c.usage.or s.draft.usage } })
          hadd c.finish
        obtain ⟨t, ht, hreads⟩ := ih
          (running { draft with finish := c.finish.or draft.finish }) hbackend rfl
        exact ⟨t, ⟨.cons (hnext.trans hemit) ht.1, ht.2⟩, hreads⟩

end ResponseEventStream

/-! ### The grammar -/

/-- The last finish reason. -/
def lastFinish (chunks : List Chunk) : Option FinishReason := (chunks.filterMap Chunk.finish).getLast?

/-- The last usage. -/
def lastUsage (chunks : List Chunk) : Option TokenCounts := (chunks.filterMap Chunk.usage).getLast?

/-- The texts of the chunks that have one. -/
def deltasOf (chunks : List Chunk) : List Text :=
  (chunks.map Chunk.delta).filter fun delta ↦ !delta.isEmpty

/-- No text comes after a finish reason. -/
def TextFirst (chunks : List Chunk) : Prop :=
  chunks.Pairwise fun c d ↦ c.finish.isSome = true → d.delta = []

private theorem getLast?_filterMap_cons {A B : Type} (f : A → Option B) (a : A) (as : List A) :
    ((a :: as).filterMap f).getLast? = (as.filterMap f).getLast?.or (f a) := by
  cases h : f a with
  | none => rw [List.filterMap_cons_none h, Option.or_none]
  | some b =>
    rw [List.filterMap_cons_some h, List.getLast?_cons]
    cases (as.filterMap f).getLast? <;> rfl

namespace Draft

/-- What comes after the deltas of a response that succeeds. -/
structure Completes (draft : Draft) (chunks : List Chunk) (deltas : List Text)
    (tail : List StreamEvent) : Prop where
  deltas_eq : deltas = deltasOf chunks
  textFirst : TextFirst chunks
  quiet : draft.finish.isSome = true → ∀ c ∈ chunks, c.delta = []
  tail_eq : ∃ finish, (lastFinish chunks).or draft.finish = some finish ∧
    tail = [{ draft with text := draft.text ++ deltas.flatten }.doneEvent,
      { draft with text := draft.text ++ deltas.flatten
                   usage := (lastUsage chunks).or draft.usage }.completedEvent (statusOf finish)]

private theorem deltasOf_cons (c : Chunk) (chunks : List Chunk) :
    deltasOf (c :: chunks) = (if c.delta = [] then [] else [c.delta]) ++ deltasOf chunks := by
  unfold deltasOf
  rw [List.map_cons, List.filter_cons]
  cases c.delta <;> simp

private theorem flatten_delta (c : Chunk) :
    (if c.delta = [] then [] else [c.delta]).flatten = c.delta := by
  split
  · next h => exact h.symm
  · exact List.flatten_singleton

/-- A chunk before a response that succeeds. -/
private theorem Completes.cons {draft : Draft} {c : Chunk} {chunks : List Chunk} {deltas : List Text}
    {tail : List StreamEvent} (hquiet : c.delta ≠ [] → draft.finish = none)
    (h : Completes { draft with text := draft.text ++ c.delta
                                usage := c.usage.or draft.usage
                                finish := c.finish.or draft.finish } chunks deltas tail) :
    Completes draft (c :: chunks) ((if c.delta = [] then [] else [c.delta]) ++ deltas) tail := by
  have hlater : c.finish.isSome = true ∨ draft.finish.isSome = true → ∀ d ∈ chunks, d.delta = [] := by
    intro hsome
    apply h.quiet
    dsimp only
    rw [Option.isSome_or, Bool.or_eq_true]
    exact hsome
  refine ⟨?_, ?_, ?_, ?_⟩
  · rw [deltasOf_cons, h.deltas_eq]
  · exact List.pairwise_cons.mpr ⟨fun d hd hsome ↦ hlater (.inl hsome) d hd, h.textFirst⟩
  · intro hsome
    refine List.forall_mem_cons.mpr ⟨?_, hlater (.inr hsome)⟩
    by_contra hne
    rw [hquiet hne] at hsome
    cases hsome
  · obtain ⟨finish, hfinish, htail⟩ := h.tail_eq
    have hlast : lastFinish (c :: chunks) = (lastFinish chunks).or c.finish :=
      getLast?_filterMap_cons _ _ _
    have husage : lastUsage (c :: chunks) = (lastUsage chunks).or c.usage :=
      getLast?_filterMap_cons _ _ _
    refine ⟨finish, ?_, ?_⟩
    · rw [hlast, Option.or_assoc]
      exact hfinish
    · rw [husage, Option.or_assoc, List.flatten_append, flatten_delta, ← List.append_assoc]
      exact htail

/-- What is added, and when. -/
theorem add_eq_ok {draft draft' : Draft} {delta : Text} (h : draft.add delta = .ok draft') :
    draft.finish = none ∧ draft' = { draft with text := draft.text ++ delta } := by
  unfold add at h
  split at h
  · cases h
  · next hfinish =>
    rw [Bool.not_eq_true, Option.isSome_eq_false_iff, Option.isNone_iff_eq_none] at hfinish
    dsimp only at h
    split at h
    · cases h
    · split at h
      · cases h
      · cases h
        exact ⟨hfinish, rfl⟩

/-- A failure changes nothing but the text. -/
theorem add_eq_error {draft draft' : Draft} {delta : Text} (h : draft.add delta = .error draft') :
    ∃ text, draft' = { draft with text } := by
  unfold add at h
  split at h
  · cases h
    exact ⟨draft.text, rfl⟩
  · dsimp only at h
    split at h
    · cases h
      exact ⟨_, rfl⟩
    · split at h
      · cases h
        exact ⟨_, rfl⟩
      · cases h

/-- The events of a list of chunks are deltas and one of two endings. -/
theorem transcript_eq (ending : Ending) (draft : Draft) (chunks : List Chunk) :
    ∃ deltas tail, draft.transcript ending chunks = deltas.map draft.deltaEvent ++ tail ∧
      ((ending = .stopped ∧ draft.Completes chunks deltas tail) ∨
        ∃ text usage, tail = [{ draft with text, usage }.failedEvent]) := by
  induction chunks generalizing draft with
  | nil =>
    refine ⟨[], draft.transcript ending [], rfl, ?_⟩
    unfold transcript
    split
    · next finish hfinish =>
      refine .inl ⟨rfl, rfl, List.Pairwise.nil, fun _ c hc ↦ (List.not_mem_nil hc).elim, finish,
        hfinish, ?_⟩
      rw [List.flatten_nil, List.append_nil]
      rfl
    · exact .inr ⟨draft.text, draft.usage, rfl⟩
    · exact .inr ⟨draft.text, draft.usage, rfl⟩
  | cons c chunks ih =>
    unfold transcript
    dsimp only
    split
    · next hdelta =>
      obtain ⟨deltas, tail, hevents, htail⟩ := ih { draft with
        usage := c.usage.or draft.usage, finish := c.finish.or draft.finish }
      refine ⟨deltas, tail, hevents, ?_⟩
      obtain ⟨hending, hcompletes⟩ | ⟨text, usage, hfailed⟩ := htail
      · have hcons := @Completes.cons draft c chunks deltas tail (fun hne ↦ absurd hdelta hne)
        rw [hdelta, List.append_nil, if_pos rfl, List.nil_append] at hcons
        exact .inl ⟨hending, hcons hcompletes⟩
      · exact .inr ⟨text, usage, hfailed⟩
    · next hdelta =>
      split
      · next draft' hadd =>
        obtain ⟨text, rfl⟩ := add_eq_error hadd
        exact ⟨[], _, rfl, .inr ⟨text, c.usage.or draft.usage, rfl⟩⟩
      · next draft' hadd =>
        obtain ⟨hquiet, rfl⟩ := add_eq_ok hadd
        obtain ⟨deltas, tail, hevents, htail⟩ := ih { draft with
          text := draft.text ++ c.delta
          usage := c.usage.or draft.usage
          finish := c.finish.or draft.finish }
        refine ⟨c.delta :: deltas, tail, ?_, ?_⟩
        · rw [List.map_cons, List.cons_append]
          exact congrArg _ hevents
        · obtain ⟨hending, hcompletes⟩ | ⟨text, usage, hfailed⟩ := htail
          · have hcons := @Completes.cons draft c chunks deltas tail (fun _ ↦ hquiet) hcompletes
            rw [if_neg hdelta, List.singleton_append] at hcons
            exact .inl ⟨hending, hcons⟩
          · exact .inr ⟨text, usage, hfailed⟩

end Draft

/-! ### Every response -/

section Response

variable [FloatText] [JsonLimits] [JsonBytes]

/-- The events of a response are its creation and the transcript of what is delivered. -/
theorem exhausts_new {byte : Nat → Option UInt8} {failure : Option String} {chunks : List Chunk}
    {ending : Ending} (h : Delivers (.opened byte failure) chunks ending) (labels : ResponseLabels) :
    ∃ t, Exhausts ResponseEventStream.next (.new (.opened byte failure) labels)
        (Draft.createdEvent { labels } :: Draft.transcript ending { labels } chunks) t ∧
      t.backend.source.reads ≤ maxResponseBytes + 1 := by
  have hrunning : Running { (.new (.opened byte failure) labels : ResponseEventStream) with
    started := true } := ⟨rfl, rfl, rfl⟩
  obtain ⟨t, ⟨hyields, hstop⟩, hreads⟩ :=
    exhausts_transcript h hrunning (bounded_opened byte failure)
  exact ⟨t, ⟨.cons rfl hyields, hstop⟩, hreads⟩

end Response

end C3RSpec.Service
