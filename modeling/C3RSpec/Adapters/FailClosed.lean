import C3RSpec.Adapters.Providers
import C3RSpec.Base.JsonWeight

/-!
# Failures of a deliberative provider

The two `except` clauses of `c3r/adapters/providers.py:532,553` cover every failure of a provider
but two, which both lie in the token counts: the usage member is no object, so that `.get` raises
`AttributeError`, and a count is an integer that no `float` holds, so that `_number` raises
`OverflowError`. Whatever else comes back is the fallback or a deliberation within its bounds.
-/

namespace C3RSpec.Adapters

open Base C3RSpec.Runtime

/-! ### What a deliberation promises -/

/-- The bounds of a deliberation and of its token counts. -/
structure WithinBounds (result : ProviderExecutionResult DeliberativeResult) : Prop where
  items : ∀ field ∈ result.deliberation.fields, field.length ≤ maxArrayItems
  chars : ∀ field ∈ result.deliberation.fields, ∀ item ∈ field, item.length ≤ maxItemChars
  total : (result.deliberation.fields.flatten.map List.length).sum ≤ maxStructuredChars
  tokens : ∀ key ∈ [("input_tokens" : Text), ("output_tokens" : Text)],
    ∃ x, result.observedCost.get? key = some x ∧ x.isFinite = true ∧
      PyFloat.le (.fin 0) x = true

/-- The policy fallback, or a deliberation within its bounds. -/
def Controlled (fallbackAction : ActionFamily) (c : ControlledDeliberation) : Prop :=
  (c.result = none ∧ c.selectedAction = fallbackAction ∧ c.fallbackUsed = true) ∨
    (c.fallbackUsed = false ∧ ∃ result, c.result = some result ∧ WithinBounds result)

/-- A usage member that the token counts cannot be read from. -/
def Uncountable (usage : Json) (inputKey outputKey : Text) : Prop :=
  (∀ es, usage ≠ .obj es) ∨
    ∃ key ∈ [inputKey, outputKey], ∃ n : Int,
      usage.get? key = some (.int n) ∧ 2 ^ 1024 - 2 ^ 970 ≤ n.natAbs

/-- A response that passes every check before its token counts, and stops there. -/
structure ProviderAdapter.Miscounted [FloatText] [JsonLimits] (adapter : ProviderAdapter)
    (request : DeliberationRequest) (response : TransportResponse) (text : Text) : Prop where
  answered : ∃ state, request.encode = .ok state ∧ adapter.send state = .ok response
  fits : ∃ bytes, response.encode = .ok bytes ∧ bytes.size ≤ maxResponseBytes
  success : 200 ≤ response.status ∧ response.status < 300
  content : adapter.config.kind.content (.obj response.body.entries) = .ok (.str text)
  bounded : text.length ≤ maxStructuredChars
  usage : Uncountable (usageMember response.body adapter.config.kind.usageKey)
    adapter.config.kind.inputKey adapter.config.kind.outputKey

/-! ### What leaves the inner clause -/

/-- An exception leaves both clauses. -/
def Slips {α : Type} (x : Except PyError α) : Prop := Escapes (rejectMalformed x)

@[simp] private theorem not_slips_ok {α : Type} (a : α) : ¬ Slips (.ok a : Except PyError α) :=
  not_escapes_ok a

private theorem slips_error {α : Type} (e : PyError) :
    Slips (.error e : Except PyError α) ↔
      isResponseFailure e = false ∧ e.isHostFailure = false := by
  unfold Slips rejectMalformed
  dsimp only
  split
  · next h => simp [malformed, PyError.isHostFailure, h]
  · next h => simp [h]

private theorem slips_bind {α β : Type} {x : Except PyError α} {f : α → Except PyError β} :
    Slips (x >>= f) ↔ Slips x ∨ ∃ a, x = .ok a ∧ Slips (f a) := by
  cases x with
  | error e =>
    change Slips (.error e : Except PyError β) ↔ _
    simp [slips_error]
  | ok a =>
    change Slips (f a) ↔ _
    simp

/-- A kind that one of the two clauses names. -/
private def isCaught (kind : ErrorKind) : Bool :=
  isResponseFailure ⟨kind, ""⟩ || PyError.isHostFailure ⟨kind, ""⟩

private theorem not_slips_error {α : Type} {e : PyError} (h : isCaught e.kind = true) :
    ¬ Slips (.error e : Except PyError α) := by
  rw [slips_error]
  rintro ⟨hresponse, hhost⟩
  have hnone : isCaught e.kind = (isResponseFailure e || e.isHostFailure) := rfl
  rw [hnone, hresponse, hhost] at h
  cases h

private theorem not_slips_member (key : Text) (j : Json) : ¬ Slips (j.member key) := by
  cases j with
  | obj es =>
    unfold Json.member
    dsimp only
    split
    · exact not_slips_ok _
    · exact not_slips_error rfl
  | _ => exact not_slips_error rfl

private theorem not_slips_item (i : Nat) (j : Json) : ¬ Slips (j.item i) := by
  cases j with
  | arr xs =>
    unfold Json.item
    dsimp only
    split
    · exact not_slips_ok _
    · exact not_slips_error rfl
  | str t =>
    unfold Json.item
    dsimp only
    split
    · exact not_slips_ok _
    · exact not_slips_error rfl
  | _ => exact not_slips_error rfl

private theorem not_slips_bind {α β : Type} {x : Except PyError α} {f : α → Except PyError β}
    (hx : ¬ Slips x) (hf : ∀ a, ¬ Slips (f a)) : ¬ Slips (x >>= f) := by
  rw [slips_bind]
  rintro (h | ⟨a, -, h⟩)
  · exact hx h
  · exact hf a h

private theorem not_slips_content (kind : ProviderKind) (body : Json) :
    ¬ Slips (kind.content body) := by
  have hopenai : ¬ Slips (OpenAICodec.content body) :=
    not_slips_bind (not_slips_member _ _) fun _ ↦ not_slips_bind (not_slips_item _ _) fun _ ↦
      not_slips_bind (not_slips_member _ _) fun _ ↦ not_slips_member _ _
  cases kind with
  | openai => exact hopenai
  | openaiCompatible => exact hopenai
  | anthropic =>
    exact not_slips_bind (not_slips_member _ _) fun _ ↦ not_slips_bind (not_slips_item _ _)
      fun _ ↦ not_slips_member _ _
  | gemini =>
    exact not_slips_bind (not_slips_member _ _) fun _ ↦ not_slips_bind (not_slips_item _ _)
      fun _ ↦ not_slips_bind (not_slips_member _ _) fun _ ↦
        not_slips_bind (not_slips_member _ _) fun _ ↦ not_slips_bind (not_slips_item _ _)
          fun _ ↦ not_slips_member _ _

private theorem contentText_eq_ok {j : Json} {t : Text} :
    contentText j = .ok t ↔ j = .str t ∧ t.length ≤ maxStructuredChars := by
  cases j with
  | str u =>
    simp only [contentText, Json.str.injEq]
    split
    · next h =>
      constructor
      · intro h'
        cases h'
      · rintro ⟨rfl, hle⟩
        omega
    · next h =>
      constructor
      · intro h'
        cases h'
        exact ⟨rfl, by omega⟩
      · rintro ⟨rfl, -⟩
        rfl
  | _ => simp [contentText]

private theorem not_slips_contentText (j : Json) : ¬ Slips (contentText j) := by
  cases j with
  | str t =>
    unfold contentText
    dsimp only
    split
    · exact not_slips_error rfl
    · exact not_slips_ok _
  | _ => exact not_slips_error rfl

/-! ### Token counts -/

section Counts

variable [FloatRound]

private theorem slips_number (j : Json) :
    Slips (number j) ↔ ∃ n : Int, j = .int n ∧ 2 ^ 1024 - 2 ^ 970 ≤ n.natAbs := by
  cases j with
  | int n =>
    rw [number]
    by_cases h : n.natAbs < 2 ^ 1024 - 2 ^ 970
    · rw [floatOfInt_of_lt h]
      refine iff_of_false (not_slips_ok _) ?_
      rintro ⟨m, hm, hlarge⟩
      cases hm
      exact absurd h (Nat.not_lt.mpr hlarge)
    · rw [floatOfInt_of_le (Nat.not_lt.mp h), slips_bind, slips_error]
      constructor
      · exact fun _ ↦ ⟨n, rfl, Nat.not_lt.mp h⟩
      · exact fun _ ↦ .inl ⟨rfl, rfl⟩
  | float x => simp [number]
  | _ => simp [number]

private theorem slips_of_number_error {j : Json} {e : PyError} (h : number j = .error e) :
    Slips (number j) := by
  cases j with
  | int n =>
    by_cases hn : n.natAbs < 2 ^ 1024 - 2 ^ 970
    · rw [number, floatOfInt_of_lt hn] at h
      cases h
    · exact (slips_number _).mpr ⟨n, rfl, Nat.not_lt.mp hn⟩
  | float x => cases h
  | _ => cases h

private theorem slips_tokenCount_obj (es : List (Text × Json)) (key : Text) :
    Slips (tokenCount (.obj es) key) ↔
      ∃ n : Int, (Json.obj es).get? key = some (.int n) ∧ 2 ^ 1024 - 2 ^ 970 ≤ n.natAbs := by
  unfold tokenCount Json.getMember
  change Slips (number _) ↔ _
  rw [slips_number]
  cases (Json.obj es).get? key with
  | none =>
    simp only [Option.getD_none, Json.int.injEq, reduceCtorEq, false_and, exists_false, iff_false]
    rintro ⟨n, rfl, h⟩
    have hpos : 0 < 2 ^ 1024 - 2 ^ 970 :=
      Nat.sub_pos_of_lt (Nat.pow_lt_pow_right (by decide) (by decide))
    exact absurd h (Nat.not_le.mpr hpos)
  | some v => simp

private theorem slips_tokenCount_of_not_obj {usage : Json} (h : ∀ es, usage ≠ .obj es)
    (key : Text) : Slips (tokenCount usage key) := by
  have hget : ∃ message, usage.getMember key = .error ⟨.attributeError, message⟩ := by
    cases usage with
    | obj es => exact absurd rfl (h es)
    | _ => exact ⟨_, rfl⟩
  obtain ⟨message, hget⟩ := hget
  rw [tokenCount, hget]
  exact (slips_error _).mpr ⟨rfl, rfl⟩

private theorem slips_tokenCounts (usage : Json) (inputKey outputKey : Text) :
    Slips (tokenCounts usage inputKey outputKey) ↔ Uncountable usage inputKey outputKey := by
  unfold tokenCounts Uncountable
  rw [slips_bind]
  by_cases hobj : ∃ es, usage = .obj es
  · obtain ⟨es, rfl⟩ := hobj
    have hnot : ¬ ∀ es', Json.obj es ≠ .obj es' := fun h ↦ h es rfl
    simp only [hnot, false_or, List.mem_cons, List.not_mem_nil, or_false, exists_eq_or_imp,
      exists_eq_left, slips_bind, slips_tokenCount_obj]
    constructor
    · rintro (h | ⟨input, -, h | ⟨output, -, h⟩⟩)
      · exact .inl h
      · exact .inr h
      · exact absurd h (not_slips_ok _)
    · rintro (h | h)
      · exact .inl h
      · -- the first count is read before the second one stops
        cases hinput : tokenCount (.obj es) inputKey with
        | error e =>
          exact .inl ((slips_tokenCount_obj es inputKey).mp (slips_of_number_error hinput))
        | ok input => exact .inr ⟨input, rfl, .inl h⟩
  · have hnot : ∀ es, usage ≠ .obj es := fun es h ↦ hobj ⟨es, h⟩
    constructor
    · exact fun _ ↦ .inl hnot
    · exact fun _ ↦ .inl (slips_tokenCount_of_not_obj hnot inputKey)

omit [FloatRound] in
private theorem le_countOrZero (x : PyFloat) :
    (countOrZero x).isFinite = true ∧ PyFloat.le (.fin 0) (countOrZero x) = true := by
  unfold countOrZero
  split
  · next h => exact Bool.and_eq_true_iff.mp h
  · exact ⟨rfl, by decide⟩

private theorem le_of_number {j : Json} {x : PyFloat} (h : number j = .ok x) :
    x.isFinite = true ∧ PyFloat.le (.fin 0) x = true := by
  cases j with
  | int n =>
    rw [number, bind_eq_ok] at h
    obtain ⟨y, -, hy⟩ := h
    cases hy
    exact le_countOrZero y
  | float y =>
    cases h
    exact le_countOrZero y
  | _ =>
    cases h
    exact ⟨rfl, by decide⟩

private theorem le_of_tokenCount {usage : Json} {key : Text} {x : PyFloat}
    (h : tokenCount usage key = .ok x) : x.isFinite = true ∧ PyFloat.le (.fin 0) x = true := by
  rw [tokenCount, bind_eq_ok] at h
  obtain ⟨v, -, hv⟩ := h
  exact le_of_number hv

end Counts

/-! ### Fields -/

private theorem not_slips_boundedItem (j : Json) : ¬ Slips (boundedItem j) := by
  cases j with
  | str t =>
    unfold boundedItem
    dsimp only
    split
    · exact not_slips_ok _
    · exact not_slips_error rfl
  | _ => exact not_slips_error rfl

private theorem not_slips_mapM {α β : Type} {f : α → Except PyError β} (hf : ∀ a, ¬ Slips (f a))
    (xs : List α) : ¬ Slips (xs.mapM f) := by
  induction xs with
  | nil => exact not_slips_ok _
  | cons x xs ih =>
    rw [List.mapM_cons]
    exact not_slips_bind (hf x) fun _ ↦ not_slips_bind ih fun _ ↦ not_slips_ok _

private theorem not_slips_stringTuple (value : Option Json) : ¬ Slips (stringTuple value) := by
  unfold stringTuple
  split
  · split
    · exact not_slips_error rfl
    · exact not_slips_mapM not_slips_boundedItem _
  · exact not_slips_error rfl

private theorem not_slips_deliberationOf (j : Json) : ¬ Slips (deliberationOf j) := by
  cases j with
  | obj es =>
    exact not_slips_bind (not_slips_stringTuple _) fun _ ↦
      not_slips_bind (not_slips_stringTuple _) fun _ ↦
        not_slips_bind (not_slips_stringTuple _) fun _ ↦
          not_slips_bind (not_slips_stringTuple _) fun _ ↦
            not_slips_bind (not_slips_stringTuple _) fun _ ↦ not_slips_ok _
  | _ => exact not_slips_error rfl

private theorem boundedItem_eq_ok {j : Json} {t : Text} (h : boundedItem j = .ok t) :
    j = .str t ∧ t.length ≤ maxItemChars := by
  cases j with
  | str u =>
    simp only [boundedItem] at h
    split at h
    · next hle =>
      cases h
      exact ⟨rfl, hle⟩
    · cases h
  | _ => cases h

private theorem mapM_boundedItem {xs : List Json} {ts : List Text}
    (h : xs.mapM boundedItem = .ok ts) :
    xs = ts.map Json.str ∧ ∀ t ∈ ts, t.length ≤ maxItemChars := by
  induction xs generalizing ts with
  | nil =>
    cases h
    exact ⟨rfl, fun t ht ↦ by cases ht⟩
  | cons x xs ih =>
    simp only [List.mapM_cons, bind_eq_ok] at h
    obtain ⟨t, hx, us, hxs, h⟩ := h
    cases h
    obtain ⟨rfl, hle⟩ := boundedItem_eq_ok hx
    obtain ⟨rfl, hall⟩ := ih hxs
    exact ⟨rfl, List.forall_mem_cons.mpr ⟨hle, hall⟩⟩

/-- A field comes from an array of as many strings, each within its bound. -/
private theorem stringTuple_eq_ok {value : Option Json} {ts : List Text}
    (h : stringTuple value = .ok ts) :
    value = some (.arr (ts.map .str)) ∧ ts.length ≤ maxArrayItems ∧
      ∀ t ∈ ts, t.length ≤ maxItemChars := by
  unfold stringTuple at h
  split at h
  · next items =>
    split at h
    · cases h
    · next hlen =>
      obtain ⟨rfl, hall⟩ := mapM_boundedItem h
      rw [List.length_map] at hlen
      exact ⟨rfl, Nat.not_lt.mp hlen, hall⟩
  · cases h

private theorem chars_arr_str (ts : List Text) :
    (Json.arr (ts.map .str)).chars = (ts.map List.length).sum := by
  rw [Json.chars]
  induction ts with
  | nil => rfl
  | cons t ts ih => rw [List.map_cons, elementsChars, Json.chars, ih, List.map_cons, List.sum_cons]

/-- The keys of the five fields. -/
private def fieldKeys : List Text :=
  [("plan" : Text), ("assumptions" : Text), ("uncertainty" : Text),
    ("candidate_commitments" : Text), ("requested_actions" : Text)]

private theorem deliberationOf_eq_ok {es : List (Text × Json)} {d : DeliberativeResult}
    (h : deliberationOf (.obj es) = .ok d) :
    fieldKeys.map (fun key ↦ stringTuple ((Json.obj es).get? key)) = d.fields.map .ok := by
  simp only [deliberationOf, bind_eq_ok] at h
  obtain ⟨p, hp, a, ha, u, hu, c, hc, r, hr, h⟩ := h
  cases h
  simp only [fieldKeys, DeliberativeResult.fields, List.map_cons, List.map_nil, hp, ha, hu, hc, hr]

private theorem map_get?_of_stringTuple {es : List (Text × Json)} {keys : List Text}
    {fields : List (List Text)}
    (h : keys.map (fun key ↦ stringTuple ((Json.obj es).get? key)) = fields.map .ok) :
    keys.map (Json.obj es).get? =
      (fields.map fun ts ↦ Json.arr (ts.map .str)).map some := by
  induction keys generalizing fields with
  | nil =>
    cases fields with
    | nil => rfl
    | cons field fields => cases h
  | cons key keys ih =>
    cases fields with
    | nil => cases h
    | cons field fields =>
      rw [List.map_cons, List.map_cons, List.cons.injEq] at h
      rw [List.map_cons, List.map_cons, List.map_cons, ih h.2, (stringTuple_eq_ok h.1).1]

private theorem sum_chars_fields (fields : List (List Text)) :
    ((fields.map fun ts ↦ Json.arr (ts.map .str)).map Json.chars).sum =
      (fields.flatten.map List.length).sum := by
  induction fields with
  | nil => rfl
  | cons field fields ih =>
    rw [List.map_cons, List.map_cons, List.sum_cons, ih, chars_arr_str, List.flatten_cons,
      List.map_append, List.sum_append]

/-- The five fields are bounded one by one, and together by the strings of the content. -/
private theorem bounds_of_deliberationOf {j : Json} {d : DeliberativeResult}
    (h : deliberationOf j = .ok d) :
    (∀ field ∈ d.fields, field.length ≤ maxArrayItems ∧
      ∀ item ∈ field, item.length ≤ maxItemChars) ∧
    (d.fields.flatten.map List.length).sum ≤ j.chars := by
  cases j with
  | obj es =>
    have hfields := deliberationOf_eq_ok h
    constructor
    · intro field hfield
      have hmem : (.ok field : Except PyError (List Text)) ∈ d.fields.map .ok :=
        List.mem_map_of_mem hfield
      rw [← hfields, List.mem_map] at hmem
      obtain ⟨key, -, hkey⟩ := hmem
      exact (stringTuple_eq_ok hkey).2
    · rw [← sum_chars_fields]
      exact sum_chars_get?_le (by decide) (map_get?_of_stringTuple hfields)
  | _ => cases h

/-! ### A response -/

section Responses

variable [FloatText] [FloatRound] [JsonLimits]

omit [FloatRound] in
private theorem not_slips_loadsText (t : Text) : ¬ Slips (loadsText t) := by
  cases h : loadsText t with
  | ok j => exact not_slips_ok j
  | error e =>
    apply not_slips_error
    obtain hkind | hkind := kind_of_loadsText h <;> rw [hkind] <;> rfl

private theorem slips_decodeResponse (kind : ProviderKind) (body : Dict Text Json) :
    Slips (decodeResponse kind body) ↔
      ∃ text, kind.content (.obj body.entries) = .ok (.str text) ∧
        text.length ≤ maxStructuredChars ∧
        Uncountable (usageMember body kind.usageKey) kind.inputKey kind.outputKey := by
  have htail : ∀ extracted : Text × Dict Text PyFloat, ¬ Slips (do
      let decoded ← loadsText extracted.1
      let deliberation ← deliberationOf decoded
      return (deliberation, extracted.2)) := fun _ ↦
    not_slips_bind (not_slips_loadsText _) fun _ ↦
      not_slips_bind (not_slips_deliberationOf _) fun _ ↦ not_slips_ok _
  unfold decodeResponse ProviderKind.extract
  rw [slips_bind, slips_bind, or_iff_right (not_slips_content _ _)]
  constructor
  · rintro (⟨content, hcontent, h⟩ | ⟨extracted, -, h⟩)
    · rw [slips_bind, or_iff_right (not_slips_contentText _)] at h
      obtain ⟨text, htext, h⟩ := h
      obtain ⟨rfl, hle⟩ := contentText_eq_ok.mp htext
      rw [slips_bind, slips_tokenCounts] at h
      obtain h | ⟨usage, -, h⟩ := h
      · exact ⟨text, hcontent, hle, h⟩
      · exact absurd h (not_slips_ok _)
    · exact absurd h (htail extracted)
  · rintro ⟨text, hcontent, hle, h⟩
    refine .inl ⟨_, hcontent, ?_⟩
    rw [slips_bind, or_iff_right (not_slips_contentText _)]
    refine ⟨text, contentText_eq_ok.mpr ⟨rfl, hle⟩, ?_⟩
    rw [slips_bind, slips_tokenCounts]
    exact .inl h

private theorem bounds_of_decodeResponse {kind : ProviderKind} {body : Dict Text Json}
    {d : DeliberativeResult} {usage : Dict Text PyFloat}
    (h : decodeResponse kind body = .ok (d, usage)) :
    (∀ field ∈ d.fields, field.length ≤ maxArrayItems ∧
      ∀ item ∈ field, item.length ≤ maxItemChars) ∧
    (d.fields.flatten.map List.length).sum ≤ maxStructuredChars ∧
    ∃ input output, usage = Dict.ofList [(Text.ofString "input_tokens", input),
        (Text.ofString "output_tokens", output)] ∧
      (input.isFinite = true ∧ PyFloat.le (.fin 0) input = true) ∧
      (output.isFinite = true ∧ PyFloat.le (.fin 0) output = true) := by
  simp only [decodeResponse, ProviderKind.extract, tokenCounts, bind_eq_ok] at h
  obtain ⟨extracted, ⟨content, -, text, htext, counts, ⟨input, hinput, output, houtput, hcounts⟩,
    hextracted⟩, decoded, hdecoded, d', hd, h⟩ := h
  cases hcounts
  cases hextracted
  cases h
  obtain ⟨-, hle⟩ := contentText_eq_ok.mp htext
  obtain ⟨heach, htotal⟩ := bounds_of_deliberationOf hd
  have hchars : decoded.chars ≤ text.length := chars_le_of_loads (loads_of_loadsText hdecoded)
  exact ⟨heach, by omega, input, output, rfl, le_of_tokenCount hinput, le_of_tokenCount houtput⟩

omit [FloatText] [JsonLimits] [FloatRound] in
private theorem rejectMalformed_eq_ok {α : Type} {x : Except PyError α} {a : α}
    (h : rejectMalformed x = .ok a) : x = .ok a := by
  cases x with
  | ok b => exact h
  | error e =>
    simp only [rejectMalformed] at h
    split at h
    · cases h
    · cases h

/-- A deliberation that is returned keeps every bound. -/
theorem ProviderAdapter.withinBounds_of_accept {adapter : ProviderAdapter}
    {response : TransportResponse} {result : ProviderExecutionResult DeliberativeResult}
    (h : adapter.accept response = .ok result) : WithinBounds result := by
  simp only [accept, bind_eq_ok] at h
  obtain ⟨bytes, -, h⟩ := h
  split at h
  · cases h
  · split at h
    · cases h
    · rw [bind_eq_ok] at h
      obtain ⟨⟨d, usage⟩, hdecoded, h⟩ := h
      cases h
      obtain ⟨heach, htotal, input, output, rfl, hinput, houtput⟩ :=
        bounds_of_decodeResponse (rejectMalformed_eq_ok hdecoded)
      refine ⟨fun field hf ↦ (heach field hf).1, fun field hf ↦ (heach field hf).2, htotal, ?_⟩
      intro key hkey
      simp only [List.mem_cons, List.not_mem_nil, or_false] at hkey
      obtain rfl | rfl := hkey
      · exact ⟨input, rfl, hinput⟩
      · exact ⟨output, rfl, houtput⟩

omit [FloatRound] in
private theorem not_escapes_encode_response (response : TransportResponse) :
    ¬ Escapes response.encode := by
  rw [TransportResponse.encode, escapes_bind]
  rintro (⟨e, he, hhost⟩ | ⟨text, -, e, he, hhost⟩)
  · obtain hkind | hkind := kind_of_dumpsCompact he <;>
      simp [PyError.isHostFailure, hkind] at hhost
  · unfold Text.encodeUtf8 at he
    split at he
    · cases he
    · cases he
      cases hhost

omit [FloatRound] in
private theorem not_escapes_encode_request (request : DeliberationRequest) :
    ¬ Escapes request.encode := by
  rintro ⟨e, he, hhost⟩
  unfold DeliberationRequest.encode at he
  split at he
  · cases he
    cases hhost
  · obtain hkind | hkind := kind_of_dumpsCompact he <;>
      simp [PyError.isHostFailure, hkind] at hhost

private theorem ProviderAdapter.escapes_accept (adapter : ProviderAdapter)
    (response : TransportResponse) :
    Escapes (adapter.accept response) ↔
      (∃ bytes, response.encode = .ok bytes ∧ bytes.size ≤ maxResponseBytes) ∧
      (200 ≤ response.status ∧ response.status < 300) ∧
      Slips (decodeResponse adapter.config.kind response.body) := by
  unfold accept
  rw [escapes_bind, or_iff_right (not_escapes_encode_response response)]
  constructor
  · rintro ⟨bytes, hbytes, h⟩
    split at h
    · cases (escapes_error _).mp h
    · next hsize =>
      split at h
      · cases (escapes_error _).mp h
      · next hstatus =>
        rw [escapes_bind] at h
        refine ⟨⟨bytes, hbytes, Nat.not_lt.mp hsize⟩, by omega, ?_⟩
        obtain h | ⟨decoded, -, h⟩ := h
        · exact h
        · exact absurd h (not_escapes_ok _)
  · rintro ⟨⟨bytes, hbytes, hsize⟩, hstatus, h⟩
    refine ⟨bytes, hbytes, ?_⟩
    rw [if_neg (Nat.not_lt.mpr hsize), if_neg (by omega), escapes_bind]
    exact .inl h

/-- What leaves the adapter is exactly a stop at the token counts. -/
theorem ProviderAdapter.escapes_deliberate_iff (adapter : ProviderAdapter)
    (request : DeliberationRequest)
    (hsend : ∀ {state e}, adapter.send state = .error e → e.kind = .osError) :
    Escapes (adapter.deliberate request) ↔
      ∃ response text, adapter.Miscounted request response text := by
  unfold deliberate
  rw [escapes_bind, or_iff_right (not_escapes_encode_request request)]
  constructor
  · rintro ⟨state, hstate, h⟩
    rw [escapes_bind] at h
    obtain ⟨e, he, hhost⟩ | ⟨response, hresponse, h⟩ := h
    · simp [PyError.isHostFailure, hsend he] at hhost
    · rw [escapes_accept] at h
      obtain ⟨hfits, hsuccess, h⟩ := h
      obtain ⟨text, hcontent, hle, husage⟩ := (slips_decodeResponse _ _).mp h
      exact ⟨response, text, ⟨state, hstate, hresponse⟩, hfits, hsuccess, hcontent, hle, husage⟩
  · rintro ⟨response, text, ⟨state, hstate, hresponse⟩, hfits, hsuccess, hcontent, hle, husage⟩
    refine ⟨state, hstate, escapes_bind.mpr (.inr ⟨response, hresponse, ?_⟩)⟩
    rw [escapes_accept]
    exact ⟨hfits, hsuccess, (slips_decodeResponse _ _).mpr ⟨text, hcontent, hle, husage⟩⟩

/-- The controller returns the fallback or a deliberation within its bounds, for every request and
every answer of the transport, unless the token counts of a response stop the adapter. -/
theorem fails_closed_iff (controller : ProviderController) (request : DeliberationRequest)
    (hsend : ∀ {state e}, controller.adapter.send state = .error e → e.kind = .osError) :
    (∃ c, controller.deliberate request = .ok c ∧ Controlled controller.fallbackAction c) ↔
      ¬ ∃ response text, controller.adapter.Miscounted request response text := by
  rw [← controller.adapter.escapes_deliberate_iff request hsend]
  unfold ProviderController.deliberate
  cases h : controller.adapter.deliberate request with
  | ok result =>
    have hbounds : WithinBounds result := by
      simp only [ProviderAdapter.deliberate, bind_eq_ok] at h
      obtain ⟨state, -, response, -, h⟩ := h
      exact ProviderAdapter.withinBounds_of_accept h
    refine iff_of_true ⟨_, rfl, .inr ⟨rfl, result, rfl, hbounds⟩⟩ (not_escapes_ok result)
  | error e =>
    dsimp only
    rw [escapes_error]
    cases he : e.isHostFailure with
    | true => exact iff_of_true ⟨_, rfl, .inl ⟨rfl, rfl, rfl⟩⟩ Bool.true_eq_false.mp
    | false =>
      refine iff_of_false ?_ (not_not_intro rfl)
      rintro ⟨c, hc, -⟩
      cases hc

end Responses

/-! ### Responses with and without usage -/

section Sample

attribute [local instance] FloatText.fraction FloatRound.exact JsonLimits.unreached

/-- A local server of the OpenAI protocol. -/
def localConfig : ProviderConfig where
  providerId := "local"
  kind := .openaiCompatible
  baseUrl := "http://127.0.0.1:8000/v1"
  model := "m"
  apiKey := none
  named := by decide
  timely := by decide

/-- A content whose five fields are empty. -/
def emptyContent : Text :=
  (Json.obj (fieldKeys.map fun key ↦ (key, Json.arr []))).render true

/-- A response with that content and a given usage member. -/
def emptyDeliberation (usage : Json) : TransportResponse where
  status := 200
  body := Dict.ofList [
    ("choices", .arr [.obj [("message", .obj [("content", .str emptyContent)])]]),
    ("usage", usage)]
  latencyMs := .fin 1

/-- A controller over that server that asks the user when it fails. -/
def askingController (usage : Json) : ProviderController where
  adapter := ⟨localConfig, [], fun _ ↦ .ok (emptyDeliberation usage)⟩
  fallbackAction := .askUser

/-- A usage object with a count: the controller returns. -/
theorem fails_closed_iff_counted :
    ∃ c, (askingController (.obj [("prompt_tokens", .int 3)])).deliberate ⟨∅, none⟩ = .ok c ∧
      Controlled .askUser c := by
  refine (fails_closed_iff (askingController (.obj [("prompt_tokens", .int 3)])) ⟨∅, none⟩
    (fun h ↦ by cases h)).mpr ?_
  rintro ⟨response, text, h⟩
  obtain ⟨state, -, hsend⟩ := h.answered
  cases hsend
  obtain hobj | ⟨key, -, n, hn, hle⟩ := h.usage
  · exact hobj _ rfl
  · change ((List.find? _ [(Text.ofString "prompt_tokens", Json.int 3)]).map Prod.snd) = _ at hn
    rw [List.find?_singleton] at hn
    split at hn
    · cases hn
      exact absurd hle (by decide +kernel)
    · cases hn

/-- `"usage": null`: the controller raises. -/
theorem raises_on_usage : ∃ e : PyError, e.kind = .attributeError ∧
    (askingController .null).deliberate ⟨∅, none⟩ = .error e := by
  apply exists_of_raisedKind
  decide +kernel

end Sample

end C3RSpec.Adapters
