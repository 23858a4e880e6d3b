import C3RSpec.Adapters.Providers
import C3RSpec.Base.Iteration

/-!
# The reader of a generation stream

`c3r/adapters/providers.py:256–367`. The provider sends lines; each `data: ` line is an object or
the mark of the end. A line that is not understood closes the connection, and so does the last one.
Only one thread reads, so the flag of a pending read plays no part.
-/

namespace C3RSpec.Adapters

open Base

/-! ### Bytes of the provider -/

/-- The bytes that the provider sends, finitely many or without an end, and how many of them were
read in how many calls. What is after the last byte is the end of the response or an `OSError`. -/
structure ByteSource where
  byte : Nat → Option UInt8
  failure : Option String := none
  position : Nat := 0
  reads : Nat := 0

/-- The bytes from a position to a line feed, at most `limit` of them. -/
def lineFrom (byte : Nat → Option UInt8) : Nat → Nat → Bytes
  | 0, _ => []
  | limit + 1, position =>
    match byte position with
    | none => []
    | some b => if b = 10 then [b] else b :: lineFrom byte limit (position + 1)

/-- `readline(limit)`. -/
def ByteSource.readline (source : ByteSource) (limit : Nat) : Except PyError Bytes × ByteSource :=
  let line := lineFrom source.byte limit source.position
  let after := { source with position := source.position + line.length, reads := source.reads + 1 }
  match source.failure with
  | some message =>
    if line.length < limit ∧ line.getLast? ≠ some 10 then (.error ⟨.osError, message⟩, after)
    else (.ok line, after)
  | none => (.ok line, after)

theorem ByteSource.reads_readline {source after : ByteSource} {limit : Nat}
    {line : Except PyError Bytes} (h : source.readline limit = (line, after)) :
    after.reads = source.reads + 1 ∧ ∀ e, line = .error e → e.kind = .osError := by
  unfold readline at h
  dsimp only at h
  split at h
  · split at h
    · cases h
      exact ⟨rfl, fun e he ↦ by cases he; rfl⟩
    · cases h
      exact ⟨rfl, fun e he ↦ (nomatch he)⟩
  · cases h
    exact ⟨rfl, fun e he ↦ (nomatch he)⟩

/-! ### Events of the provider -/

/-- Why a generation ended. -/
inductive FinishReason where
  | stop
  | length
  deriving DecidableEq

/-- The counts of a usage object. -/
structure TokenCounts where
  inputTokens : Nat
  outputTokens : Nat
  deriving DecidableEq

/-- What a line of the stream says. -/
structure Chunk where
  delta : Text
  finish : Option FinishReason := none
  usage : Option TokenCounts := none
  deriving DecidableEq

/-- A token count: an `int` that is no `bool` and not negative. -/
def streamCount : Option Json → Except PyError Nat
  | some (.int n) =>
    if n < 0 then .error (valueError "invalid generation token counts") else .ok n.toNat
  | _ => .error (valueError "invalid generation token counts")

/-- The usage of an event. -/
def streamUsage (event : Json) : Except PyError (Option TokenCounts) :=
  match (event.get? "usage").getD .null with
  | .null => .ok none
  | .obj es => do
    let input ← streamCount ((Json.obj es).get? "prompt_tokens")
    let output ← streamCount ((Json.obj es).get? "completion_tokens")
    return some ⟨input, output⟩
  | .bool _ | .int _ | .float _ | .str _ | .arr _ => .error ⟨.typeError, "invalid generation usage"⟩

/-- The finish reason of a choice. -/
def streamFinish (choice : Json) : Except PyError (Option FinishReason) :=
  match (choice.get? "finish_reason").getD .null with
  | .null => .ok none
  | .str reason =>
    if reason = Text.ofString "stop" then .ok (some .stop)
    else if reason = Text.ofString "length" then .ok (some .length)
    else .error (valueError "invalid generation finish reason")
  | .bool _ | .int _ | .float _ | .arr _ | .obj _ =>
    .error ⟨.typeError, "invalid generation finish reason"⟩

/-- The text of a delta. -/
def streamText (delta : Json) : Except PyError Text :=
  if ((delta.get? "tool_calls").getD .null).isTruthy ||
      ((delta.get? "function_call").getD .null).isTruthy then
    .error (valueError "invalid generation delta")
  else
    match delta.get? "content" with
    | none => .ok []
    | some (.str content) => .ok content
    | some _ => .error ⟨.typeError, "invalid generation text"⟩

/-- The only choice of an event. -/
def streamChoice (usage : Option TokenCounts) (choice : Json) : Except PyError Chunk :=
  match choice with
  | .obj es =>
    match (Json.obj es).get? "delta" with
    | some (.obj delta) => do
      let content ← streamText (.obj delta)
      let finish ← streamFinish (.obj es)
      return ⟨content, finish, usage⟩
    | _ => .error ⟨.typeError, "invalid generation delta"⟩
  | .null | .bool _ | .int _ | .float _ | .str _ | .arr _ =>
    .error ⟨.typeError, "invalid generation choice"⟩

/-- What an event says. -/
def chunkOf (event : Json) : Except PyError Chunk :=
  match event with
  | .obj es => do
    let usage ← streamUsage (.obj es)
    match (Json.obj es).get? "choices" with
    | some (.arr []) =>
      if usage.isNone then throw (valueError "empty generation stream event")
      else return ⟨[], none, usage⟩
    | some (.arr [choice]) => streamChoice usage choice
    | some (.arr _) => throw (valueError "invalid generation choices")
    | _ => throw ⟨.typeError, "invalid generation choices"⟩
  | .null | .bool _ | .int _ | .float _ | .str _ | .arr _ =>
    .error ⟨.typeError, "invalid generation stream event"⟩

/-! ### The iterator -/

/-- `TextGenerationStream`. -/
structure TextGenerationStream where
  source : ByteSource
  finished : Bool := false
  sawFinish : Bool := false
  bytes : Nat := 0

/-- `except (OSError, TypeError, ValueError, RuntimeError, json.JSONDecodeError)`. -/
def isStreamError (e : PyError) : Bool :=
  match e.kind with
  | .osError | .typeError | .valueError | .unicodeEncodeError | .runtimeError | .recursionError => true
  | .keyError | .indexError | .attributeError | .overflowError | .sqliteError | .httpException
  | .driverError | .other => false

namespace TextGenerationStream

/-- The longest line, with its line feed. -/
def maxLineBytes : Nat := 16384

/-- A stream over a response that was just opened. -/
def opened (byte : Nat → Option UInt8) (failure : Option String) : TextGenerationStream :=
  { source := { byte, failure } }

/-- `close`. -/
def close (s : TextGenerationStream) : TextGenerationStream := { s with finished := true }

/-- An exception, after the clause that closes the stream. -/
def fail (s : TextGenerationStream) (e : PyError) : Next Chunk × TextGenerationStream :=
  (.raised e, if isStreamError e then s.close else s)

/-- `b"data: "`. -/
def dataField : Bytes := Bytes.ofAscii "data: "

/-- `b"[DONE]"`. -/
def doneMark : Bytes := Bytes.ofAscii "[DONE]"

variable [FloatText] [JsonLimits] [JsonBytes]

/-- The data of a line. -/
def readData (s : TextGenerationStream) (data : Bytes) : Next Chunk × TextGenerationStream :=
  if data = doneMark then
    if s.sawFinish then (.stop, s.close)
    else s.close.fail ⟨.runtimeError, "generation stream ended without a finish reason"⟩
  else
    match loadsBytes data >>= chunkOf with
    | .error e => s.fail e
    | .ok chunk => (.item chunk, { s with sawFinish := s.sawFinish || chunk.finish.isSome })

/-- The loop of `__next__`; every line that it skips counts towards the limit. -/
def readLines (s : TextGenerationStream) : Next Chunk × TextGenerationStream :=
  match s.source.readline (maxLineBytes + 1) with
  | (.error e, source) => { s with source }.fail e
  | (.ok line, source) =>
    if line.length = 0 ∨ maxLineBytes < line.length then
      { s with source }.fail ⟨.runtimeError, "generation stream ended without completion"⟩
    else if maxResponseBytes < s.bytes + line.length then
      { s with source, bytes := s.bytes + line.length }.fail
        ⟨.runtimeError, "generation stream exceeds byte limit"⟩
    else
      let s' := { s with source, bytes := s.bytes + line.length }
      if Bytes.startsWith dataField line then s'.readData (Bytes.strip (line.drop 6))
      else s'.readLines
termination_by maxResponseBytes - s.bytes
decreasing_by omega

/-- `__next__`. -/
def next (s : TextGenerationStream) : Next Chunk × TextGenerationStream :=
  if s.finished then (.stop, s) else s.readLines

/-! ### What a call does -/

/-- While the stream is open its reads are counted by its bytes, of which there are not too many. -/
structure Bounded (s : TextGenerationStream) : Prop where
  counted : s.finished = false → s.source.reads ≤ s.bytes
  bytes_le : s.finished = false → s.bytes ≤ maxResponseBytes
  reads_le : s.source.reads ≤ maxResponseBytes + 1

omit [FloatText] [JsonLimits] [JsonBytes] in
/-- A stream that was just opened. -/
theorem bounded_opened (byte : Nat → Option UInt8) (failure : Option String) :
    Bounded (opened byte failure) :=
  ⟨fun _ ↦ Nat.le_refl 0, fun _ ↦ Nat.zero_le _, Nat.zero_le _⟩

/-- What a call of an open stream ends in. -/
inductive Read (s : TextGenerationStream) : Next Chunk × TextGenerationStream → Prop
  | chunk {c : Chunk} {t : TextGenerationStream} (hopen : t.finished = false)
      (hmore : s.bytes < t.bytes) (hlimit : t.bytes ≤ maxResponseBytes)
      (hbounded : Bounded s → Bounded t) (hsaw : t.sawFinish = (s.sawFinish || c.finish.isSome)) :
      Read s (.item c, t)
  | done {t : TextGenerationStream} (hclosed : t.finished = true)
      (hbounded : Bounded s → Bounded t) (hsaw : s.sawFinish = true) : Read s (.stop, t)
  | failed {e : PyError} {t : TextGenerationStream} (hcaught : isStreamError e = true)
      (hclosed : t.finished = true) (hbounded : Bounded s → Bounded t) : Read s (.raised e, t)

omit [FloatText] [JsonLimits] [JsonBytes] in
private theorem bounded_of_closed {s : TextGenerationStream} (hclosed : s.finished = true)
    (hreads : s.source.reads ≤ maxResponseBytes + 1) : Bounded s := by
  have hopen : s.finished ≠ false := by
    rw [hclosed]
    exact Bool.noConfusion
  exact ⟨fun h ↦ absurd h hopen, fun h ↦ absurd h hopen, hreads⟩

omit [FloatText] [JsonLimits] [JsonBytes] in
private theorem read_fail {s t : TextGenerationStream} {e : PyError} (hcaught : isStreamError e = true)
    (hreads : Bounded s → t.source.reads ≤ maxResponseBytes + 1) : Read s (t.fail e) := by
  rw [fail, if_pos hcaught]
  exact .failed hcaught rfl fun hs ↦ bounded_of_closed rfl (hreads hs)

omit [FloatText] [JsonLimits] [JsonBytes] in
private theorem kind_of_streamCount {j : Option Json} {e : PyError} (h : streamCount j = .error e) :
    e.kind = .valueError := by
  unfold streamCount at h
  split at h
  · split at h
    · cases h
      rfl
    · cases h
  · cases h
    rfl

omit [FloatText] [JsonLimits] [JsonBytes] in
private theorem kind_of_streamUsage {j : Json} {e : PyError} (h : streamUsage j = .error e) :
    e.kind = .valueError ∨ e.kind = .typeError := by
  unfold streamUsage at h
  split at h
  · cases h
  · obtain hinput | ⟨input, -, h⟩ := bind_eq_error.mp h
    · exact .inl (kind_of_streamCount hinput)
    · obtain houtput | ⟨output, -, h⟩ := bind_eq_error.mp h
      · exact .inl (kind_of_streamCount houtput)
      · cases h
  all_goals
    cases h
    exact .inr rfl

omit [FloatText] [JsonLimits] [JsonBytes] in
private theorem kind_of_streamFinish {j : Json} {e : PyError} (h : streamFinish j = .error e) :
    e.kind = .valueError ∨ e.kind = .typeError := by
  unfold streamFinish at h
  split at h
  · cases h
  · split at h
    · cases h
    · split at h
      · cases h
      · cases h
        exact .inl rfl
  all_goals
    cases h
    exact .inr rfl

omit [FloatText] [JsonLimits] [JsonBytes] in
private theorem kind_of_streamText {j : Json} {e : PyError} (h : streamText j = .error e) :
    e.kind = .valueError ∨ e.kind = .typeError := by
  unfold streamText at h
  split at h
  · cases h
    exact .inl rfl
  · split at h
    · cases h
    · cases h
    · cases h
      exact .inr rfl

omit [FloatText] [JsonLimits] [JsonBytes] in
private theorem kind_of_streamChoice {usage : Option TokenCounts} {j : Json} {e : PyError}
    (h : streamChoice usage j = .error e) : e.kind = .valueError ∨ e.kind = .typeError := by
  unfold streamChoice at h
  split at h
  · split at h
    · obtain htext | ⟨content, -, h⟩ := bind_eq_error.mp h
      · exact kind_of_streamText htext
      · obtain hfinish | ⟨finish, -, h⟩ := bind_eq_error.mp h
        · exact kind_of_streamFinish hfinish
        · cases h
    · cases h
      exact .inr rfl
  all_goals
    cases h
    exact .inr rfl

omit [FloatText] [JsonLimits] [JsonBytes] in
private theorem kind_of_chunkOf {j : Json} {e : PyError} (h : chunkOf j = .error e) :
    e.kind = .valueError ∨ e.kind = .typeError := by
  unfold chunkOf at h
  split at h
  · obtain husage | ⟨usage, -, h⟩ := bind_eq_error.mp h
    · exact kind_of_streamUsage husage
    · split at h
      · split at h
        · cases h
          exact .inl rfl
        · cases h
      · exact kind_of_streamChoice h
      · cases h
        exact .inl rfl
      · cases h
        exact .inr rfl
  all_goals
    cases h
    exact .inr rfl

private theorem isStreamError_of_data {data : Bytes} {e : PyError}
    (h : (loadsBytes data >>= chunkOf) = .error e) : isStreamError e = true := by
  have hkind : e.kind = .valueError ∨ e.kind = .typeError ∨ e.kind = .recursionError := by
    obtain h | ⟨j, -, h⟩ := bind_eq_error.mp h
    · obtain hdecode | ⟨t, -, hloads⟩ := bind_eq_error.mp h
      · exact .inl (JsonBytes.kind_decode hdecode)
      · obtain hvalue | hrecursion := kind_of_loadsText hloads
        · exact .inl hvalue
        · exact .inr (.inr hrecursion)
    · obtain hvalue | htype := kind_of_chunkOf h
      · exact .inl hvalue
      · exact .inr (.inl htype)
  obtain h | h | h := hkind <;> rw [isStreamError, h]

private theorem read_readData {s t : TextGenerationStream} (hopen : t.finished = false)
    (ht : Bounded s → Bounded t) (hmore : s.bytes < t.bytes) (hlimit : t.bytes ≤ maxResponseBytes)
    (hsaw : t.sawFinish = s.sawFinish) (data : Bytes) : Read s (t.readData data) := by
  unfold readData
  split
  · split
    · next h =>
      exact .done rfl (fun hs ↦ bounded_of_closed rfl (ht hs).reads_le) (hsaw.symm.trans h)
    · exact read_fail rfl fun hs ↦ (ht hs).reads_le
  · split
    · next e h => exact read_fail (isStreamError_of_data h) fun hs ↦ (ht hs).reads_le
    · next chunk _ =>
      refine .chunk hopen hmore hlimit (fun hs ↦ ?_) ?_
      · exact ⟨(ht hs).counted, (ht hs).bytes_le, (ht hs).reads_le⟩
      · rw [← hsaw]

omit [FloatText] [JsonLimits] [JsonBytes] in
-- a line that was skipped
private theorem Read.after {s t : TextGenerationStream} {x : Next Chunk × TextGenerationStream}
    (h : Read t x) (ht : Bounded s → Bounded t) (hmore : s.bytes ≤ t.bytes)
    (hsaw : t.sawFinish = s.sawFinish) : Read s x := by
  cases h with
  | chunk hopen hbytes hlimit hbounded hchunk =>
    exact .chunk hopen (Nat.lt_of_le_of_lt hmore hbytes) hlimit (fun hs ↦ hbounded (ht hs))
      (hsaw ▸ hchunk)
  | done hclosed hbounded hdone =>
    exact .done hclosed (fun hs ↦ hbounded (ht hs)) (hsaw ▸ hdone)
  | failed hcaught hclosed hbounded => exact .failed hcaught hclosed fun hs ↦ hbounded (ht hs)

omit [FloatText] [JsonLimits] [JsonBytes] in
-- one more line was read, and it is counted
private theorem bounded_read {s : TextGenerationStream} {source : ByteSource} {line : Bytes}
    (hopen : s.finished = false) (hreads : source.reads = s.source.reads + 1)
    (hline : line.length ≠ 0) (hlimit : s.bytes + line.length ≤ maxResponseBytes) (hs : Bounded s) :
    Bounded { s with source, bytes := s.bytes + line.length } := by
  have hcounted := hs.counted hopen
  refine ⟨fun _ ↦ ?_, fun _ ↦ hlimit, ?_⟩
  all_goals
    dsimp only
    omega

/-- What `readLines` ends in. -/
theorem read_readLines (s : TextGenerationStream) (hopen : s.finished = false) :
    Read s s.readLines := by
  have hreads : ∀ {source : ByteSource}, source.reads = s.source.reads + 1 → Bounded s →
      source.reads ≤ maxResponseBytes + 1 := by
    intro source h hs
    have hcounted := hs.counted hopen
    have hbytes := hs.bytes_le hopen
    omega
  induction s using readLines.induct with
  | case1 s e source h =>
    obtain ⟨hread, hkind⟩ := ByteSource.reads_readline h
    rw [readLines, h]
    exact read_fail (by rw [isStreamError, hkind e rfl]) (hreads hread)
  | case2 s line source h hline =>
    obtain ⟨hread, -⟩ := ByteSource.reads_readline h
    rw [readLines, h]
    dsimp only
    rw [if_pos hline]
    exact read_fail rfl (hreads hread)
  | case3 s line source h hline hlimit =>
    obtain ⟨hread, -⟩ := ByteSource.reads_readline h
    rw [readLines, h]
    dsimp only
    rw [if_neg hline, if_pos hlimit]
    exact read_fail rfl (hreads hread)
  | case4 s line source h hline hlimit hdata =>
    obtain ⟨hread, -⟩ := ByteSource.reads_readline h
    rw [readLines, h]
    dsimp only
    rw [if_neg hline, if_neg hlimit, if_pos hdata]
    obtain ⟨hne, -⟩ := not_or.mp hline
    have hlimit := Nat.not_lt.mp hlimit
    refine read_readData ?_ (bounded_read hopen hread hne hlimit) ?_ hlimit ?_ _
    · exact hopen
    · exact Nat.lt_add_of_pos_right (Nat.pos_of_ne_zero hne)
    · rfl
  | case5 s line source h hline hlimit s' hdata ih =>
    obtain ⟨hread, -⟩ := ByteSource.reads_readline h
    rw [readLines, h]
    dsimp only
    rw [if_neg hline, if_neg hlimit, if_neg hdata]
    obtain ⟨hne, -⟩ := not_or.mp hline
    have hnext := bounded_read hopen hread hne (Nat.not_lt.mp hlimit)
    refine (ih hopen fun {next} hread' hs' ↦ ?_).after hnext (Nat.le_add_right _ _) rfl
    have hcounted := hs'.counted hopen
    have hbytes := hs'.bytes_le hopen
    omega

/-- What a call ends in. -/
theorem next_cases (s : TextGenerationStream) :
    (s.finished = true ∧ s.next = (.stop, s)) ∨ (s.finished = false ∧ Read s s.next) := by
  unfold next
  cases hfinished : s.finished with
  | true => exact .inl ⟨rfl, rfl⟩
  | false => exact .inr ⟨rfl, read_readLines s hfinished⟩

/-- A chunk counts towards the limit. -/
theorem bytes_of_next {s t : TextGenerationStream} {c : Chunk} (h : s.next = (.item c, t)) :
    s.bytes < t.bytes ∧ t.bytes ≤ maxResponseBytes := by
  obtain ⟨-, hstop⟩ | ⟨-, hread⟩ := s.next_cases
  · rw [hstop] at h
    cases h
  · rw [h] at hread
    cases hread with
    | chunk _ hmore hlimit _ _ => exact ⟨hmore, hlimit⟩

/-- Every call keeps the bounds. -/
theorem bounded_of_next {s t : TextGenerationStream} {x : Next Chunk} (h : s.next = (x, t))
    (hs : Bounded s) : Bounded t := by
  obtain ⟨-, hstop⟩ | ⟨-, hread⟩ := s.next_cases
  · cases hstop.symm.trans h
    exact hs
  · rw [h] at hread
    cases hread with
    | chunk _ _ _ hbounded _ => exact hbounded hs
    | done _ hbounded _ => exact hbounded hs
    | failed _ _ hbounded => exact hbounded hs

/-- What a call raises is caught. -/
theorem isStreamError_of_next {s t : TextGenerationStream} {e : PyError}
    (h : s.next = (.raised e, t)) : isStreamError e = true := by
  obtain ⟨-, hstop⟩ | ⟨-, hread⟩ := s.next_cases
  · cases hstop.symm.trans h
  · rw [h] at hread
    cases hread with
    | failed hcaught _ _ => exact hcaught

/-- How a stream ends. -/
inductive Ending where
  | stopped
  | broken
  deriving DecidableEq

/-- `Delivers s chunks ending`: the stream gives these chunks and then stops or raises. -/
inductive Delivers : TextGenerationStream → List Chunk → Ending → Prop
  | stopped {s t : TextGenerationStream} (h : s.next = (.stop, t)) : Delivers s [] .stopped
  | broken {s t : TextGenerationStream} {e : PyError} (h : s.next = (.raised e, t)) :
      Delivers s [] .broken
  | chunk {s t : TextGenerationStream} {c : Chunk} {cs : List Chunk} {ending : Ending}
      (h : s.next = (.item c, t)) (rest : Delivers t cs ending) : Delivers s (c :: cs) ending

/-- Every stream comes to an end, whatever the provider sends. -/
theorem exists_delivers (s : TextGenerationStream) : ∃ chunks ending, Delivers s chunks ending := by
  induction hleft : maxResponseBytes - s.bytes using Nat.strong_induction_on generalizing s with
  | h left ih =>
    cases hnext : s.next with
    | mk x t =>
      cases x with
      | stop => exact ⟨[], .stopped, .stopped hnext⟩
      | raised e => exact ⟨[], .broken, .broken hnext⟩
      | item c =>
        obtain ⟨hmore, hlimit⟩ := bytes_of_next hnext
        obtain ⟨chunks, ending, hrest⟩ := ih (maxResponseBytes - t.bytes) (by omega) t rfl
        exact ⟨c :: chunks, ending, .chunk hnext hrest⟩

/-- A stream delivers in one way. -/
theorem Delivers.unique {s : TextGenerationStream} {cs cs' : List Chunk} {ending ending' : Ending}
    (h : Delivers s cs ending) (h' : Delivers s cs' ending') : cs = cs' ∧ ending = ending' := by
  induction h generalizing cs' with
  | stopped h =>
    cases h' with
    | stopped => exact ⟨rfl, rfl⟩
    | broken h' => cases h.symm.trans h'
    | chunk h' => cases h.symm.trans h'
  | broken h =>
    cases h' with
    | stopped h' => cases h.symm.trans h'
    | broken => exact ⟨rfl, rfl⟩
    | chunk h' => cases h.symm.trans h'
  | chunk h _ ih =>
    cases h' with
    | stopped h' => cases h.symm.trans h'
    | broken h' => cases h.symm.trans h'
    | chunk h' rest' =>
      cases h.symm.trans h'
      obtain ⟨rfl, rfl⟩ := ih rest'
      exact ⟨rfl, rfl⟩

end TextGenerationStream

end C3RSpec.Adapters
