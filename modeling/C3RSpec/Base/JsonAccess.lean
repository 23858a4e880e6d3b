import C3RSpec.Base.Bytes
import C3RSpec.Base.JsonParse
import C3RSpec.Base.JsonSpaced

/-!
# Python operations on decoded JSON

Library `Base`. Subscripts, `.get` and conversions to `float` on a value of unknown shape, with
the exception that each raises. An `int` has no bound, so a conversion can overflow: the greatest
`float` is `2^1024 - 2^971`, and what is nearer to `2^1024` is refused. The limits that the
interpreter sets to `json.dumps` and `json.loads` are a parameter (`JsonLimits`), and so is the
decoding of bytes that `json.loads` is given (`JsonBytes`).
-/

namespace C3RSpec.Base

/-- `math.isfinite(n)` of an `int`, which converts it. -/
def isFiniteInt (n : Int) : Except PyError Unit :=
  if n.natAbs < 2 ^ 1024 - 2 ^ 970 then .ok ()
  else .error ⟨.overflowError, "int too large to convert to float"⟩

/-- `float(n)` of an `int`. -/
def floatOfInt [FloatRound] (n : Int) : Except PyError PyFloat := do
  isFiniteInt n
  return FloatRound.round n

theorem floatOfInt_of_lt [FloatRound] {n : Int} (h : n.natAbs < 2 ^ 1024 - 2 ^ 970) :
    floatOfInt n = .ok (FloatRound.round n) := by
  rw [floatOfInt, isFiniteInt, if_pos h]
  rfl

theorem floatOfInt_of_le [FloatRound] {n : Int} (h : 2 ^ 1024 - 2 ^ 970 ≤ n.natAbs) :
    floatOfInt n = .error ⟨.overflowError, "int too large to convert to float"⟩ := by
  rw [floatOfInt, isFiniteInt, if_neg (Nat.not_lt.mpr h)]
  rfl

namespace Json

/-- `value[i]`. -/
def item (i : Nat) : Json → Except PyError Json
  | .arr xs =>
    match xs[i]? with
    | some x => .ok x
    | none => .error ⟨.indexError, "list index out of range"⟩
  | .str t =>
    match t[i]? with
    | some c => .ok (.str [c])
    | none => .error ⟨.indexError, "string index out of range"⟩
  | .obj _ => .error ⟨.keyError, toString i⟩
  | .null | .bool _ | .int _ | .float _ => .error ⟨.typeError, "object is not subscriptable"⟩

/-- `value[key]`. -/
def member (k : Text) : Json → Except PyError Json
  | .obj es =>
    match (Json.obj es).get? k with
    | some v => .ok v
    | none => .error ⟨.keyError, "missing key"⟩
  | .arr _ => .error ⟨.typeError, "list indices must be integers or slices, not str"⟩
  | .str _ => .error ⟨.typeError, "string indices must be integers, not 'str'"⟩
  | .null | .bool _ | .int _ | .float _ => .error ⟨.typeError, "object is not subscriptable"⟩

/-- `bool(value)`. -/
def isTruthy : Json → Bool
  | .null => false
  | .bool b => b
  | .int n => decide (n ≠ 0)
  | .float x => !PyFloat.beq x (.fin 0)
  | .str t => !t.isEmpty
  | .arr xs => !xs.isEmpty
  | .obj es => !es.isEmpty

/-- `value.get(key)`, which only an object has. -/
def getMember (k : Text) : Json → Except PyError (Option Json)
  | .obj es => .ok ((Json.obj es).get? k)
  | .arr _ | .str _ | .null | .bool _ | .int _ | .float _ =>
    .error ⟨.attributeError, "object has no attribute 'get'"⟩

end Json

/-- `str` of a `float`. -/
def floatStr [FloatText] : PyFloat → Text
  | .nan => "nan"
  | .posInf => "inf"
  | .negInf => "-inf"
  | .fin q => FloatText.repr q

/-- What `str.isspace` holds of a character: what `str.strip` removes. -/
def isWhitespace (c : CodePoint) : Bool :=
  (9 ≤ c.val && c.val ≤ 13) || (28 ≤ c.val && c.val ≤ 32) || c == 0x85 || c == 0xa0 ||
    c == 0x1680 || (0x2000 ≤ c.val && c.val ≤ 0x200a) || c == 0x2028 || c == 0x2029 ||
    c == 0x202f || c == 0x205f || c == 0x3000

/-- `not text.strip()`. -/
def isBlankText (t : Text) : Bool := t.all isWhitespace

/-! ### Limits of the interpreter -/

/-- What the interpreter refuses beyond the grammar: an `int` with too many digits raises
`ValueError` (when it is read, in `loads` too), a value nested too deep raises `RecursionError`. -/
class JsonLimits where
  writing : Json → Option PyError
  reading : Text → Option PyError
  kind_writing : ∀ {j : Json} {e : PyError}, writing j = some e →
    e.kind = .valueError ∨ e.kind = .recursionError
  kind_reading : ∀ {t : Text} {e : PyError}, reading t = some e →
    e.kind = .valueError ∨ e.kind = .recursionError

/-- Values far below every limit. -/
@[reducible] def JsonLimits.unreached : JsonLimits where
  writing _ := none
  reading _ := none
  kind_writing h := by cases h
  kind_reading h := by cases h

section Limited

variable [FloatText] [JsonLimits]

/-- `json.dumps(value, separators=(",", ":"))`. -/
def dumpsCompact (j : Json) : Except PyError Text :=
  match JsonLimits.writing j with
  | some e => .error e
  | none => .ok (j.render true)

/-- `json.loads(text)`; `JSONDecodeError` is a subclass of `ValueError`. -/
def loadsText (t : Text) : Except PyError Json :=
  match JsonLimits.reading t with
  | some e => .error e
  | none =>
    match loads t with
    | some j => .ok j
    | none => .error (valueError "invalid JSON")

/-- `json.dumps(value, allow_nan=False, ensure_ascii=False, sort_keys=True)`. -/
def dumpsSpaced (j : Json) : Except PyError Text :=
  match JsonLimits.writing j with
  | some e => .error e
  | none =>
    if j.allFinite then .ok (j.sortKeys.renderSpaced false)
    else .error (valueError "Out of range float values are not JSON compliant")

/-- Writing raises one of the two limits. -/
theorem kind_of_dumpsCompact {j : Json} {e : PyError} (h : dumpsCompact j = .error e) :
    e.kind = .valueError ∨ e.kind = .recursionError := by
  unfold dumpsCompact at h
  split at h
  · next he =>
    cases h
    exact JsonLimits.kind_writing he
  · cases h

/-- Reading raises a decoding error or one of the two limits. -/
theorem kind_of_loadsText {t : Text} {e : PyError} (h : loadsText t = .error e) :
    e.kind = .valueError ∨ e.kind = .recursionError := by
  unfold loadsText at h
  split at h
  · next he =>
    cases h
    exact JsonLimits.kind_reading he
  · split at h
    · cases h
    · cases h
      exact .inl rfl

/-- What is read follows the grammar. -/
theorem loads_of_loadsText {t : Text} {j : Json} (h : loadsText t = .ok j) : loads t = some j := by
  unfold loadsText at h
  split at h
  · cases h
  · split at h
    · next hj =>
      cases h
      exact hj
    · cases h

end Limited

/-- `json.loads` finds the encoding of bytes and decodes them; it raises `UnicodeDecodeError`, a
subclass of `ValueError`. -/
class JsonBytes where
  decode : Bytes → Except PyError Text
  kind_decode : ∀ {b : Bytes} {e : PyError}, decode b = .error e → e.kind = .valueError

/-- Bytes that are UTF-8. -/
@[reducible] def JsonBytes.utf8 : JsonBytes where
  decode b := .ok (Text.ofUtf8 b)
  kind_decode h := by cases h

/-- `json.loads(data)` for bytes. -/
def loadsBytes [FloatText] [JsonLimits] [JsonBytes] (data : Bytes) : Except PyError Json := do
  let text ← JsonBytes.decode data
  loadsText text

end C3RSpec.Base
