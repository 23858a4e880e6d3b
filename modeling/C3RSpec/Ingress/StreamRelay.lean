import C3RSpec.Base.JsonAccess
import C3RSpec.Base.JsonLine
import C3RSpec.Base.Served
import C3RSpec.Base.Utf8Lines
import C3RSpec.Ingress.Handler
import C3RSpec.Service.EventGrammar

/-!
# Relayed response streams

`c3r/http_service.py:229–239` on one side of the loopback connection and
`c3r/ingress_proxy.py:323–374` on the other. What the backend writes, the gateway takes apart into
the frames it was written in: each is relayed byte by byte, the first terminal one ends the relay,
and the usage that is recorded is the one its response reports.
-/

namespace C3RSpec.Ingress

open Base ApiAccess Service

/-! ### One frame -/

section Frames

variable [FloatText] [JsonLimits] [JsonBytes]

/-- An event and the bytes of its frame. The data of an event names it, and the JSON text is far
below the limits of the decoder. -/
structure Framed (counts : Invocations) (event : StreamEvent) (bytes : Bytes) : Prop where
  frame_eq : frame counts event = .ok bytes
  name : ∀ c ∈ event.1, 32 ≤ c.val
  type_eq : (Json.obj (annotated counts event.2)).get? "type" = some (.str event.1)
  wf : (Json.obj (annotated counts event.2)).WF
  finite : (Json.obj (annotated counts event.2)).allFinite = true
  decodes : ∀ b, ((Json.obj (annotated counts event.2)).render false).Encodes b →
    JsonBytes.decode b = .ok ((Json.obj (annotated counts event.2)).render false)
  reads : JsonLimits.reading ((Json.obj (annotated counts event.2)).render false) = none

omit [FloatText] [JsonLimits] [JsonBytes] in
private theorem encode_eq_ok {t : Text} {b : Bytes} (h : encode t = .ok b) : t.Encodes b := by
  unfold encode at h
  cases hbytes : t.encodeUtf8 with
  | error e =>
    rw [hbytes] at h
    cases h
  | ok bytes =>
    rw [hbytes] at h
    cases h
    exact ⟨bytes, hbytes, rfl⟩

omit [FloatText] [JsonLimits] [JsonBytes] in
private theorem encodes_plain {s : Text} (hs : s.isAscii = true) {b : Bytes} (h : s.Encodes b) :
    b = Bytes.ofAscii s := h.unique (Text.encodes_ofAscii hs)

omit [JsonLimits] [JsonBytes] in
private theorem dumpsCompact_eq_ok {ascii : Bool} {j : Json} {t : Text}
    (h : Service.dumpsCompact ascii j = .ok t) : j.allShort = true ∧ t = j.render ascii := by
  unfold Service.dumpsCompact at h
  split at h
  · next hshort => exact ⟨hshort, (Except.ok.inj h).symm⟩
  · cases h

/-- The ints of an event that was written can be read. -/
theorem Framed.allShort {counts : Invocations} {event : StreamEvent} {bytes : Bytes}
    (h : Framed counts event bytes) : (Json.obj (annotated counts event.2)).allShort = true := by
  obtain ⟨json, hjson, -⟩ := bind_eq_ok.mp h.frame_eq
  exact (dumpsCompact_eq_ok hjson).1

/-- The three lines of a frame: its name, its data and an empty one. -/
theorem Framed.lines {counts : Invocations} {event : StreamEvent} {bytes : Bytes}
    (h : Framed counts event bytes) : ∃ name data : Bytes, name.Plain ∧
      data.Plain ∧ ((Json.obj (annotated counts event.2)).render false).Encodes data ∧
      bytes = (Bytes.ofAscii "event: " ++ name ++ [10]) ++ (Bytes.ofAscii "data: " ++ data ++ [10]) ++
        [10] := by
  have hframe := h.frame_eq
  unfold frame at hframe
  obtain ⟨json, hjson, hbytes⟩ := bind_eq_ok.mp hframe
  obtain ⟨-, rfl⟩ := dumpsCompact_eq_ok hjson
  unfold frameText at hbytes
  obtain ⟨start, tail, hstart, htail, rfl⟩ := Text.encodes_append.mp (encode_eq_ok hbytes)
  obtain ⟨front, data, hfront, hdata, rfl⟩ := Text.encodes_append.mp hstart
  obtain ⟨label, middle, hlabel, hmiddle, rfl⟩ := Text.encodes_append.mp hfront
  obtain ⟨head, name, hhead, hname, rfl⟩ := Text.encodes_append.mp hlabel
  refine ⟨name, data, hname.plain h.name, hdata.plain fun c hc ↦ (Json.oneLine_render _ c hc).1,
    hdata, ?_⟩
  rw [encodes_plain (by decide) hhead, encodes_plain (by decide) hmiddle,
    encodes_plain (by decide) htail]
  have hmiddle : Bytes.ofAscii (Text.ofString "\ndata: ") = [10] ++ Bytes.ofAscii "data: " := by
    decide
  have htail : Bytes.ofAscii (Text.ofString "\n\n") = [10] ++ [10] := by decide
  rw [hmiddle, htail]
  simp only [List.append_assoc]

omit [FloatText] [JsonLimits] [JsonBytes] in
private theorem plain_ofAscii {t : Text}
    (h : (t.all fun c ↦ decide (32 ≤ c.val) && decide (c.val < 128)) = true) :
    (Bytes.ofAscii t).Plain := by
  have hall : ∀ c ∈ t, 32 ≤ c.val ∧ c.val < 128 := fun c hc ↦ by
    have hc := List.all_eq_true.mp h c hc
    rw [Bool.and_eq_true, decide_eq_true_eq, decide_eq_true_eq] at hc
    exact hc
  have hascii : t.isAscii = true := List.all_eq_true.mpr fun c hc ↦ decide_eq_true (hall c hc).2
  exact (Text.encodes_ofAscii hascii).plain fun c hc ↦ (hall c hc).1

omit [FloatText] [JsonLimits] [JsonBytes] in
private theorem plain_append {a b : Bytes} (ha : a.Plain) (hb : b.Plain) : (a ++ b).Plain := by
  intro x hx
  obtain hx | hx := List.mem_append.mp hx
  · exact ha x hx
  · exact hb x hx

private theorem Framed.three_le {counts : Invocations} {event : StreamEvent} {bytes : Bytes}
    (h : Framed counts event bytes) : 3 ≤ bytes.length := by
  obtain ⟨name, data, -, -, -, rfl⟩ := h.lines
  simp only [List.length_append, List.length_singleton]
  omega

/-- A frame is read in three lines, whatever follows it. -/
theorem Framed.readLines {counts : Invocations} {event : StreamEvent} {bytes : Bytes}
    (h : Framed counts event bytes) : ∃ first second : Bytes, bytes = first ++ second ++ [10] ∧
      first ≠ [10] ∧ first ≠ [13, 10] ∧ second ≠ [10] ∧ second ≠ [13, 10] ∧ first ≠ [] ∧
      second ≠ [] ∧ ∀ rest, Bytes.readLines (bytes ++ rest) =
        first :: second :: [10] :: Bytes.readLines rest := by
  obtain ⟨name, data, hname, hdata, -, rfl⟩ := h.lines
  have hevent : (Bytes.ofAscii "event: ").Plain := plain_ofAscii (by decide)
  have hlabel : (Bytes.ofAscii "data: ").Plain := plain_ofAscii (by decide)
  refine ⟨_, _, rfl, ?_, ?_, ?_, ?_, ?_, ?_, fun rest ↦ ?_⟩
  · exact fun heq ↦ by cases heq
  · exact fun heq ↦ by cases heq
  · exact fun heq ↦ by cases heq
  · exact fun heq ↦ by cases heq
  · exact fun heq ↦ by cases heq
  · exact fun heq ↦ by cases heq
  · have hflat : Bytes.ofAscii "event: " ++ name ++ [10] ++ (Bytes.ofAscii "data: " ++ data ++ [10]) ++
        [10] ++ rest = (Bytes.ofAscii "event: " ++ name) ++ 10 ::
          ((Bytes.ofAscii "data: " ++ data) ++ 10 :: ([] ++ 10 :: rest)) := by
      simp only [List.append_assoc, List.cons_append, List.nil_append]
    rw [hflat, Bytes.readLines_append (plain_append hevent hname),
      Bytes.readLines_append (plain_append hlabel hdata),
      Bytes.readLines_append (fun x hx ↦ by cases hx)]
    rfl

/-- The payload of a frame is read as its data. -/
theorem Framed.loads_frameData {counts : Invocations} {event : StreamEvent} {bytes : Bytes}
    (h : Framed counts event bytes) :
    loadsBytes (frameData bytes) = .ok (.obj (annotated counts event.2)) := by
  obtain ⟨name, data, hname, hdata, hencodes, rfl⟩ := h.lines
  have hevent : (Bytes.ofAscii "event: ").Plain := plain_ofAscii (by decide)
  have hlabel : (Bytes.ofAscii "data: ").Plain := plain_ofAscii (by decide)
  -- the JSON text of an object begins and ends with a brace
  obtain ⟨mid, hbraces⟩ : ∃ mid : Bytes, data = 123 :: (mid ++ [125]) := by
    rw [Json.render, Text.encodes_cons] at hencodes
    obtain ⟨d, tail, hd, htail, rfl⟩ := hencodes
    obtain ⟨mid, last, -, hlast, rfl⟩ := Text.encodes_append.mp htail
    have hopen : Text.Encodes [(123 : CodePoint)] (String.utf8EncodeChar d ++ []) :=
      Text.encodes_cons.mpr ⟨d, [], hd, Text.encodes_nil.mpr rfl, rfl⟩
    have hopen := encodes_plain (by decide) hopen
    rw [List.append_nil] at hopen
    refine ⟨mid, ?_⟩
    rw [hopen, encodes_plain (by decide) hlast]
    rfl
  have hsplit : Bytes.splitLines (Bytes.ofAscii "event: " ++ name ++ [10] ++
      (Bytes.ofAscii "data: " ++ data ++ [10]) ++ [10]) =
        [Bytes.ofAscii "event: " ++ name, Bytes.ofAscii "data: " ++ data, []] := by
    have hflat : Bytes.ofAscii "event: " ++ name ++ [10] ++ (Bytes.ofAscii "data: " ++ data ++ [10]) ++
        [10] = (Bytes.ofAscii "event: " ++ name) ++ 10 ::
          ((Bytes.ofAscii "data: " ++ data) ++ 10 :: ([] ++ 10 :: [])) := by
      simp only [List.append_assoc, List.cons_append, List.nil_append]
    rw [hflat, Bytes.splitLines_append (plain_append hevent hname),
      Bytes.splitLines_append (plain_append hlabel hdata),
      Bytes.splitLines_append (fun x hx ↦ by cases hx)]
    rfl
  have hpayload : frameData (Bytes.ofAscii "event: " ++ name ++ [10] ++
      (Bytes.ofAscii "data: " ++ data ++ [10]) ++ [10]) = data := by
    have hdrop : Bytes.strip ((Bytes.ofAscii "data: " ++ data).drop 5) = data := by
      change Bytes.strip (32 :: data) = data
      rw [hbraces]
      exact Bytes.strip_of_ends (by decide) (by decide) mid
    unfold frameData
    rw [hsplit]
    change Bytes.join [10] [Bytes.strip ((Bytes.ofAscii "data: " ++ data).drop 5)] = data
    rw [hdrop]
    exact List.intercalate_singleton
  rw [hpayload]
  refine bind_eq_ok.mpr ⟨_, h.decodes data hencodes, ?_⟩
  unfold loadsText
  rw [h.reads]
  dsimp only
  rw [loads_render _ h.wf h.finite h.allShort]

end Frames

/-! ### A host that carries a stream -/

/-- What a host still holds of a stream, what was written to the client and the usage that was
recorded. -/
structure Relay where
  lines : List Bytes
  sent : List Bytes
  recorded : List (Principal × Text × Usage)

section Relaying

variable [FloatText] [JsonLimits] [JsonBytes] {H : Type}

/-- The host reads the lines of the stream and the JSON texts in it, writes to a client that is
there and to a store that works, and takes less than the 300 seconds of the deadline. -/
structure Carries (host : H → (o : IngressOp) → o.Res × H) (view : H → Relay) : Prop where
  clock : ∀ h h', (host h' .monotonic).1 < (host h .monotonic).1 + 300
  monotonic : ∀ h, view (host h .monotonic).2 = view h
  sendHead : ∀ h status headers, (host h (.sendHead status headers)).1 = .ok () ∧
    view (host h (.sendHead status headers)).2 = view h
  readLine : ∀ h limit line rest, (view h).lines = line :: rest → line.length ≤ limit →
    (host h (.readLine limit)).1 = .ok line ∧
      view (host h (.readLine limit)).2 = { view h with lines := rest }
  loads : ∀ h data, (host h (.loads data)).1 = loadsBytes data ∧
    view (host h (.loads data)).2 = view h
  write : ∀ h body, (host h (.write body)).1 = .ok () ∧
    view (host h (.write body)).2 = { view h with sent := (view h).sent ++ [body] }
  flush : ∀ h, (host h .flush).1 = .ok () ∧ view (host h .flush).2 = view h
  recordUsage : ∀ h principal requestId usage,
    (host h (.recordUsage principal requestId usage)).1 = .ok () ∧
      view (host h (.recordUsage principal requestId usage)).2 =
        { view h with recorded := (view h).recorded ++ [(principal, requestId, usage)] }

variable {host : H → (o : IngressOp) → o.Res × H} {view : H → Relay} {g : Gateway} {rq : Request}
  {counts : Invocations} {event : StreamEvent} {bytes : Bytes}

/-- The usage of a terminal event is recorded. -/
private theorem leads_recordUsage (rq : Request) (hhost : Carries host view)
    (hstore : g.hasStore = true) {s : Session} {principal : Principal} (hprincipal : s.principal = some principal)
    (hunrecorded : s.usageRecorded = false) (status : Int) (decoded : Members) (h : H) :
    ∃ latency, Act.Leads host view (recordUsage g rq status decoded) s h (.ok ())
      { s with usageRecorded := true } { view h with recorded := (view h).recorded ++
        [(principal, rq.requestId, usageOf rq latency status decoded)] } := by
  obtain ⟨caller, started, usageRecorded, watcher, terminal⟩ := s
  cases hprincipal
  cases hunrecorded
  refine ⟨(host h .monotonic).1 - started, ?_⟩
  unfold recordUsage
  refine Act.leads_read ?_
  dsimp only
  rw [hstore]
  refine Act.leads_perform (Act.leads_raising (hhost.recordUsage _ _ _ _).1 (Act.leads_assign _ ?_))
  rw [(hhost.recordUsage _ _ _ _).2, hhost.monotonic]

private theorem leads_write (hhost : Carries host view) (s : Session) (h : H) (bytes : Bytes) :
    Act.Leads host view (write bytes >>= fun _ ↦ flush) s h (.ok ()) s
      { view h with sent := (view h).sent ++ [bytes] } := by
  refine Act.leads_raising (hhost.write h bytes).1 (Act.leads_answer (hhost.flush _).1 ?_)
  rw [(hhost.flush _).2, (hhost.write h bytes).2]

variable (g rq) in
/-- A frame that does not end the stream is relayed. -/
theorem leads_relayFrame (hhost : Carries host view) (hframed : Framed counts event bytes)
    (hmore : isTerminal event.1 = false) (s : Session) (h : H) :
    Act.Leads host view (relayFrame g rq bytes) s h (.ok ()) s
      { view h with sent := (view h).sent ++ [bytes] } := by
  have hloads : (host h (.loads (frameData bytes))).1 = .ok (.obj (annotated counts event.2)) := by
    rw [(hhost.loads h _).1, hframed.loads_frameData]
  have hevent : streamEvent (.obj (annotated counts event.2)) =
      .ok (event.1, annotated counts event.2) := by
    rw [streamEvent, hframed.type_eq]
  unfold relayFrame
  refine Act.leads_raising hloads (Act.leads_ofExcept hevent ?_)
  dsimp only
  rw [hmore, ← (hhost.loads h (frameData bytes)).2]
  exact leads_write hhost s _ bytes

variable (rq) in
/-- The first frame that ends the stream is relayed once its usage was recorded. -/
theorem leads_relayFrame_terminal (hhost : Carries host view) (hframed : Framed counts event bytes)
    (hterminal : isTerminal event.1 = true) (hstore : g.hasStore = true) {s : Session}
    {principal : Principal} (hprincipal : s.principal = some principal)
    (hunrecorded : s.usageRecorded = false) (h : H) :
    ∃ latency, Act.Leads host view (relayFrame g rq bytes) s h (.ok ())
      { s with usageRecorded := true, terminal := true }
      { view h with
        sent := (view h).sent ++ [bytes]
        recorded := (view h).recorded ++ [(principal, rq.requestId, usageOf rq latency
          (if event.1 = Text.ofString "response.completed" then 200 else 503)
          (payloadOf (annotated counts event.2)))] } := by
  have hloads : (host h (.loads (frameData bytes))).1 = .ok (.obj (annotated counts event.2)) := by
    rw [(hhost.loads h _).1, hframed.loads_frameData]
  have hevent : streamEvent (.obj (annotated counts event.2)) =
      .ok (event.1, annotated counts event.2) := by
    rw [streamEvent, hframed.type_eq]
  obtain ⟨latency, hrecord⟩ := leads_recordUsage rq hhost hstore hprincipal hunrecorded
    (if event.1 = Text.ofString "response.completed" then 200 else 503)
    (payloadOf (annotated counts event.2)) (host h (.loads (frameData bytes))).2
  refine ⟨latency, ?_⟩
  unfold relayFrame
  refine Act.leads_raising hloads (Act.leads_ofExcept hevent ?_)
  dsimp only
  rw [hterminal, if_pos rfl]
  refine hrecord.bind fun h₁ hv₁ ↦ Act.leads_modify ?_
  have hwrite := leads_write hhost { s with usageRecorded := true, terminal := true } h₁ bytes
  rw [hv₁, (hhost.loads h (frameData bytes)).2] at hwrite
  exact hwrite

variable (g rq) in
/-- One line of the stream. -/
private theorem leads_line (hhost : Carries host view) {deadline : ℚ}
    (hdeadline : ∀ h, (host h .monotonic).1 < deadline) {h : H} {line : Bytes} {rest : List Bytes}
    (hlines : (view h).lines = line :: rest) (hne : line ≠ []) (frame : Bytes) (total : Nat)
    (hframe : (frame ++ line).length ≤ maxResponseBytes)
    (htotal : total + line.length ≤ maxStreamBytes) (n : Nat) (s : Session) :
    ∃ h', view h' = { view h with lines := rest } ∧ ∀ x s' v,
      Act.Leads host view (if line = [10] ∨ line = [13, 10] then do
          relayFrame g rq (frame ++ line)
          let s ← Act.read
          if s.terminal then pure () else streamLoop g rq deadline n [] (total + line.length)
        else streamLoop g rq deadline n (frame ++ line) (total + line.length)) s h' x s' v →
      Act.Leads host view (streamLoop g rq deadline (n + 1) frame total) s h x s' v := by
  have hlimit : line.length ≤ maxResponseBytes + 1 := by
    rw [List.length_append] at hframe
    omega
  have hlines' : (view (host h .monotonic).2).lines = line :: rest := by rw [hhost.monotonic, hlines]
  obtain ⟨hread, hview⟩ := hhost.readLine _ _ line rest hlines' hlimit
  refine ⟨_, by rw [hview, hhost.monotonic], fun x s' v hrest ↦ ?_⟩
  unfold streamLoop
  refine Act.leads_perform ?_
  rw [if_pos (hdeadline h)]
  refine Act.leads_raising hread ?_
  rw [if_neg hne, if_neg (by rw [not_or, not_lt, not_lt]; exact ⟨hframe, htotal⟩)]
  exact hrest

/-- What the loop needs of the gateway and the sizes. -/
structure Relayed (host : H → (o : IngressOp) → o.Res × H) (view : H → Relay) (g : Gateway)
    (deadline : ℚ) (s : Session) (principal : Principal) : Prop where
  carries : Carries host view
  deadline : ∀ h, (host h .monotonic).1 < deadline
  store : g.hasStore = true
  principal : s.principal = some principal
  unrecorded : s.usageRecorded = false
  more : s.terminal = false

/-- The bytes of frames, one after another. -/
def wire (frames : List (StreamEvent × Bytes)) : Bytes := frames.flatMap Prod.snd

variable (rq) in
/-- The three lines of a frame, up to the frame itself. -/
private theorem leads_frame {deadline : ℚ} {s : Session} {principal : Principal}
    (hrelayed : Relayed host view g deadline s principal) (hframed : Framed counts event bytes)
    {after : Bytes} {h : H} (hlines : (view h).lines = Bytes.readLines (bytes ++ after))
    {total : Nat} (hsize : bytes.length ≤ maxResponseBytes)
    (htotal : total + bytes.length ≤ maxStreamBytes) (n : Nat) :
    ∃ h', view h' = { view h with lines := Bytes.readLines after } ∧ ∀ x s' v,
      Act.Leads host view (do
          relayFrame g rq bytes
          let s ← Act.read
          if s.terminal then pure ()
          else streamLoop g rq deadline n [] (total + bytes.length)) s h' x s' v →
      Act.Leads host view (streamLoop g rq deadline (n + 3) [] total) s h x s' v := by
  obtain ⟨first, second, rfl, hfirst, hfirst', hsecond, hsecond', hne, hne', hread⟩ := hframed.readLines
  rw [hread after] at hlines
  simp only [List.length_append, List.length_singleton] at hsize htotal
  obtain ⟨h₁, hv₁, hstep₁⟩ := leads_line g rq hrelayed.carries hrelayed.deadline hlines hne [] total
    (by rw [List.nil_append]; omega) (by omega) (n + 2) s
  obtain ⟨h₂, hv₂, hstep₂⟩ := leads_line g rq hrelayed.carries hrelayed.deadline
    (congrArg Relay.lines hv₁) hne' first (total + first.length)
    (by rw [List.length_append]; omega) (by omega) (n + 1) s
  obtain ⟨h₃, hv₃, hstep₃⟩ := leads_line g rq hrelayed.carries hrelayed.deadline
    (congrArg Relay.lines hv₂) (List.cons_ne_nil 10 []) (first ++ second)
    (total + first.length + second.length)
    (by simp only [List.length_append, List.length_singleton]; omega)
    (by rw [List.length_singleton]; omega) n s
  refine ⟨h₃, by rw [hv₃, hv₂, hv₁], fun x s' v hrest ↦ hstep₁ x s' v ?_⟩
  rw [if_neg (not_or.mpr ⟨hfirst, hfirst'⟩)]
  refine hstep₂ x s' v ?_
  rw [if_neg (not_or.mpr ⟨hsecond, hsecond'⟩)]
  refine hstep₃ x s' v ?_
  rw [if_pos (.inl rfl)]
  have hlength : total + first.length + second.length + List.length [(10 : UInt8)] =
      total + (first ++ second ++ [10]).length := by
    simp only [List.length_append, List.length_singleton]
    omega
  rw [hlength]
  exact hrest

omit [FloatText] [JsonLimits] [JsonBytes] in
private theorem three_mul_le_wire {frames : List (StreamEvent × Bytes)}
    (h : ∀ e ∈ frames, 3 ≤ e.2.length) : 3 * frames.length ≤ (wire frames).length := by
  induction frames with
  | nil => exact Nat.zero_le _
  | cons e frames ih =>
    have he := h e List.mem_cons_self
    have ih := ih fun d hd ↦ h d (List.mem_cons_of_mem e hd)
    have hwire : (wire (e :: frames)).length = e.2.length + (wire frames).length := List.length_append
    rw [hwire, List.length_cons]
    omega

/-- What the gateway makes of a stream: every frame, and the usage of the last. -/
def relayed (rq : Request) (principal : Principal) (counts : Invocations) (latency : ℚ)
    (frames : List (StreamEvent × Bytes)) (last : StreamEvent × Bytes) (rest : Bytes) (v : Relay) :
    Relay where
  lines := Bytes.readLines rest
  sent := v.sent ++ (frames ++ [last]).map Prod.snd
  recorded := v.recorded ++ [(principal, rq.requestId, usageOf rq latency
    (if last.1.1 = Text.ofString "response.completed" then 200 else 503)
    (payloadOf (annotated counts last.1.2)))]

/-- Frames of which the last alone ends the stream, within the bounds of the gateway. -/
structure Terminated (counts : Invocations) (frames : List (StreamEvent × Bytes))
    (last : StreamEvent × Bytes) : Prop where
  framed : ∀ e ∈ frames, Framed counts e.1 e.2 ∧ isTerminal e.1.1 = false
  framedLast : Framed counts last.1 last.2
  terminal : isTerminal last.1.1 = true
  sizes : ∀ e ∈ frames ++ [last], e.2.length ≤ maxResponseBytes

/-- The loop relays frame by frame up to the one that ends the stream. -/
theorem leads_streamLoop {deadline : ℚ} {s : Session} {principal : Principal}
    (hrelayed : Relayed host view g deadline s principal) (rq : Request)
    {frames : List (StreamEvent × Bytes)} {last : StreamEvent × Bytes}
    (hframes : Terminated counts frames last) (rest : Bytes) (n total : Nat) (h : H)
    (hfuel : 3 * (frames.length + 1) ≤ n)
    (htotal : total + (wire (frames ++ [last])).length ≤ maxStreamBytes)
    (hlines : (view h).lines = Bytes.readLines (wire (frames ++ [last]) ++ rest)) :
    ∃ latency, Act.Leads host view (streamLoop g rq deadline n [] total) s h (.ok ())
      { s with usageRecorded := true, terminal := true }
      (relayed rq principal counts latency frames last rest (view h)) := by
  induction frames generalizing n total h with
  | nil =>
    obtain ⟨m, rfl⟩ : ∃ m, n = m + 3 := ⟨n - 3, by simp only [List.length_nil] at hfuel; omega⟩
    have hwire : wire ([] ++ [last]) = last.2 := by simp [wire]
    rw [hwire] at hlines htotal
    obtain ⟨h₁, hv₁, hstep⟩ := leads_frame rq hrelayed hframes.framedLast hlines
      (hframes.sizes last (List.mem_append_right _ (List.mem_singleton_self last))) htotal m
    obtain ⟨latency, hrelay⟩ := leads_relayFrame_terminal rq hrelayed.carries hframes.framedLast
      hframes.terminal hrelayed.store hrelayed.principal hrelayed.unrecorded h₁
    refine ⟨latency, hstep _ _ _ (hrelay.bind fun h₂ hv₂ ↦ Act.leads_read ?_)⟩
    refine Act.leads_pure () ?_
    rw [hv₂, hv₁]
    rfl
  | cons e frames ih =>
    obtain ⟨m, rfl⟩ : ∃ m, n = m + 3 := ⟨n - 3, by simp only [List.length_cons] at hfuel; omega⟩
    have hwire : wire (e :: frames ++ [last]) = e.2 ++ wire (frames ++ [last]) := rfl
    rw [hwire, List.length_append] at htotal
    rw [hwire, List.append_assoc] at hlines
    obtain ⟨hframed, hmore⟩ := hframes.framed e List.mem_cons_self
    have hfirst : total + e.2.length ≤ maxStreamBytes := by omega
    obtain ⟨h₁, hv₁, hstep⟩ := leads_frame rq hrelayed hframed hlines
      (hframes.sizes e (List.mem_append_left _ List.mem_cons_self)) hfirst m
    obtain ⟨h₂, hrelay, hv₂⟩ := leads_relayFrame g rq hrelayed.carries hframed hmore s h₁
    have htail : Terminated counts frames last :=
      ⟨fun d hd ↦ hframes.framed d (List.mem_cons_of_mem e hd), hframes.framedLast,
        hframes.terminal, fun d hd ↦ hframes.sizes d (List.mem_cons_of_mem e hd)⟩
    have hlines₂ : (view h₂).lines = Bytes.readLines (wire (frames ++ [last]) ++ rest) := by
      rw [hv₂, hv₁]
    have hfuel₂ : 3 * (frames.length + 1) ≤ m := by
      simp only [List.length_cons] at hfuel
      omega
    have htotal₂ : total + e.2.length + (wire (frames ++ [last])).length ≤ maxStreamBytes := by omega
    obtain ⟨latency, hloop⟩ := ih htail m (total + e.2.length) h₂ hfuel₂ htotal₂ hlines₂
    refine ⟨latency, hstep _ _ _ (Act.leads_of_served hrelay (Act.leads_read ?_))⟩
    rw [hrelayed.more, if_neg Bool.false_ne_true]
    have hview : relayed rq principal counts latency frames last rest (view h₂) =
        relayed rq principal counts latency (e :: frames) last rest (view h) := by
      rw [hv₂, hv₁]
      simp only [relayed, List.cons_append, List.map_cons, List.append_assoc, List.nil_append]
    rw [← hview]
    exact hloop

/-- The gateway relays a stream of the backend unchanged and records the usage of its last event
once. -/
theorem forwardStream_relays (hcarries : Carries host view) (hstore : g.hasStore = true)
    (rq : Request) {s : Session} {principal : Principal} (hprincipal : s.principal = some principal)
    (hunrecorded : s.usageRecorded = false) {frames : List (StreamEvent × Bytes)}
    {last : StreamEvent × Bytes} (hframes : Terminated counts frames last)
    (htotal : (wire (frames ++ [last])).length ≤ maxStreamBytes) (rest : Bytes) {h : H}
    (hlines : (view h).lines = Bytes.readLines (wire (frames ++ [last]) ++ rest)) :
    ∃ latency, Act.Leads host view (forwardStream g rq) s h (.ok ())
      { s with usageRecorded := true, terminal := true }
      (relayed rq principal counts latency frames last rest (view h)) := by
  have hhead := hcarries.sendHead h 200 (streamHeaders rq)
  have hview : view (host (host h (.sendHead 200 (streamHeaders rq))).2 .monotonic).2 = view h := by
    rw [hcarries.monotonic, hhead.2]
  have hrelayed : Relayed host view g
      ((host (host h (.sendHead 200 (streamHeaders rq))).2 .monotonic).1 + 300)
      { s with terminal := false } principal :=
    ⟨hcarries, fun h' ↦ hcarries.clock _ h', hstore, hprincipal, hunrecorded, rfl⟩
  -- every frame has bytes for its three lines
  have hfuel : 3 * (frames.length + 1) ≤ maxStreamBytes + 1 := by
    have hthree : 3 * (frames ++ [last]).length ≤ (wire (frames ++ [last])).length := by
      refine three_mul_le_wire fun e he ↦ ?_
      obtain he | he := List.mem_append.mp he
      · exact (hframes.framed e he).1.three_le
      · rw [List.mem_singleton.mp he]
        exact hframes.framedLast.three_le
    rw [List.length_append, List.length_singleton] at hthree
    omega
  obtain ⟨latency, hloop⟩ := leads_streamLoop hrelayed rq hframes rest (maxStreamBytes + 1) 0
    (host (host h (.sendHead 200 (streamHeaders rq))).2 .monotonic).2 hfuel (by omega)
    (by rw [hview]; exact hlines)
  rw [hview] at hloop
  refine ⟨latency, ?_⟩
  unfold forwardStream
  exact Act.leads_raising hhead.1 (Act.leads_modify (Act.leads_perform hloop.tryExcept))

end Relaying

end C3RSpec.Ingress
