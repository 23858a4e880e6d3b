import C3RSpec.Base.Decimal
import C3RSpec.Base.Dict
import C3RSpec.Base.Float
import Mathlib.Data.List.Sort

/-!
# JSON values and `json.dumps`

Library `Base`. Python values that `json.dumps` accepts, with the options the repository
uses: `sort_keys=True`, `separators=(",", ":")`, `ensure_ascii` on or off and `allow_nan` on or
off. The shortest-repr algorithm of `float.__repr__` is a parameter (`FloatText`) with its
documented laws: the text is a JSON number with a fraction or an exponent, and reading it gives
the number back.
-/

namespace C3RSpec.Base

/-- A JSON value as Python builds it; object keys are distinct in a `dict` (`Json.WF`). -/
inductive Json where
  | null
  | bool (b : Bool)
  | int (n : Int)
  | float (x : PyFloat)
  | str (t : Text)
  | arr (xs : List Json)
  | obj (entries : List (Text × Json))

/-! ### Number texts -/

/-- Characters of number texts: digits, signs, point and exponent mark. -/
def isNumberChar (c : CodePoint) : Bool :=
  isDigit c || c == 43 || c == 45 || c == 46 || c == 69 || c == 101

/-- The text after an optional minus sign. -/
def dropMinus : Text → Text
  | [] => []
  | c :: t => if c = 45 then t else c :: t

/-- `0` or digits without a leading zero. -/
def isIntBody (t : Text) : Bool := t == [48] || (t != [] && t.all isDigit && t.head? != some 48)

/-- `[eE][-+]?[0-9]+`. -/
def isExponent : Text → Bool
  | [] => false
  | c :: t =>
    (c == 69 || c == 101) &&
      match t with
      | [] => false
      | d :: u => if d == 43 || d == 45 then u != [] && u.all isDigit else (d :: u).all isDigit

/-- `(\.[0-9]+)?([eE][-+]?[0-9]+)?`, at least one of the two present. -/
def isFloatTail : Text → Bool
  | [] => false
  | c :: t =>
    if c = 46 then
      t.takeWhile isDigit != [] &&
        (t.dropWhile isDigit == [] || isExponent (t.dropWhile isDigit))
    else isExponent (c :: t)

/-- A number text that `json.loads` reads as an `int`. -/
def isIntLexeme (t : Text) : Bool := t.all isNumberChar && isIntBody (dropMinus t)

/-- A number text that `json.loads` reads as a `float`. -/
def isFloatLexeme (t : Text) : Bool :=
  t.all isNumberChar && isIntBody ((dropMinus t).takeWhile isDigit) &&
    isFloatTail ((dropMinus t).dropWhile isDigit)

/-- `float.__repr__` on finite values and `float()` on number texts. -/
class FloatText where
  repr : ℚ → Text
  parse : Text → PyFloat
  isFloatLexeme_repr : ∀ q, isFloatLexeme (repr q) = true
  parse_repr : ∀ q, parse (repr q) = .fin q

/-! ### Strings -/

/-- A lowercase hexadecimal digit. -/
def hexDigit (d : Nat) : CodePoint :=
  if h : d % 16 < 10 then ⟨48 + d % 16, by omega⟩ else ⟨87 + d % 16, by omega⟩

/-- A `\u` escape with four hexadecimal digits. -/
def unicodeEscape (n : Nat) : Text :=
  [92, 117, hexDigit (n / 4096), hexDigit (n / 256), hexDigit (n / 16), hexDigit n]

/-- One character of a JSON string. With `ensure_ascii`, everything outside ASCII is escaped,
beyond the basic plane as a surrogate pair. -/
def escapeChar (ensureAscii : Bool) (c : CodePoint) : Text :=
  if c = 34 then [92, 34]
  else if c = 92 then [92, 92]
  else if c = 10 then [92, 110]
  else if c = 13 then [92, 114]
  else if c = 9 then [92, 116]
  else if c = 12 then [92, 102]
  else if c = 8 then [92, 98]
  else if c.val < 32 then unicodeEscape c.val
  else if ensureAscii && decide (126 < c.val) then
    if c.val < 0x10000 then unicodeEscape c.val
    else unicodeEscape (0xD800 + (c.val - 0x10000) / 1024) ++
      unicodeEscape (0xDC00 + (c.val - 0x10000) % 1024)
  else [c]

/-- A quoted JSON string. -/
def quote (ensureAscii : Bool) (t : Text) : Text :=
  34 :: (t.flatMap (escapeChar ensureAscii) ++ [34])

/-! ### Rendering -/

section Render

variable [FloatText]

/-- A float as `json.dumps` writes it. -/
def renderFloat : PyFloat → Text
  | .nan => "NaN"
  | .posInf => "Infinity"
  | .negInf => "-Infinity"
  | .fin q => FloatText.repr q

mutual

/-- Compact text of a value, keys in the order they have. -/
def Json.render (ensureAscii : Bool) : Json → Text
  | .null => "null"
  | .bool true => "true"
  | .bool false => "false"
  | .int n => decimalInt n
  | .float x => renderFloat x
  | .str t => quote ensureAscii t
  | .arr xs => 91 :: (renderElements ensureAscii xs ++ [93])
  | .obj es => 123 :: (renderMembers ensureAscii es ++ [125])

/-- Array elements separated by commas. -/
def renderElements (ensureAscii : Bool) : List Json → Text
  | [] => []
  | x :: xs =>
    match xs with
    | [] => x.render ensureAscii
    | y :: ys => x.render ensureAscii ++ 44 :: renderElements ensureAscii (y :: ys)

/-- Object members separated by commas. -/
def renderMembers (ensureAscii : Bool) : List (Text × Json) → Text
  | [] => []
  | e :: es =>
    match es with
    | [] => quote ensureAscii e.1 ++ 58 :: e.2.render ensureAscii
    | f :: fs =>
      quote ensureAscii e.1 ++ 58 :: (e.2.render ensureAscii ++
        44 :: renderMembers ensureAscii (f :: fs))

end

/-- What stands around the value of one member does not depend on the value. -/
theorem exists_renderMembers (ensureAscii : Bool) (as bs : List (Text × Json)) (k : Text) :
    ∃ before after : Text, ∀ v : Json,
      renderMembers ensureAscii (as ++ (k, v) :: bs) = before ++ v.render ensureAscii ++ after := by
  induction as with
  | nil =>
    cases bs with
    | nil => exact ⟨quote ensureAscii k ++ [58], [], fun v ↦ by simp [renderMembers]⟩
    | cons b bs =>
      refine ⟨quote ensureAscii k ++ [58], 44 :: renderMembers ensureAscii (b :: bs), fun v ↦ ?_⟩
      simp [renderMembers]
  | cons a as ih =>
    obtain ⟨before, after, h⟩ := ih
    refine ⟨quote ensureAscii a.1 ++ 58 :: (a.2.render ensureAscii ++ 44 :: before), after,
      fun v ↦ ?_⟩
    have hcons : renderMembers ensureAscii (a :: (as ++ (k, v) :: bs)) =
        quote ensureAscii a.1 ++ 58 :: (a.2.render ensureAscii ++
          44 :: renderMembers ensureAscii (as ++ (k, v) :: bs)) := by
      cases as <;> rfl
    rw [List.cons_append, hcons, h]
    simp

end Render

/-- Order of object members by key. -/
def keyLe (a b : Text × Json) : Prop := a.1 ≤ b.1

instance : DecidableRel keyLe := fun a b ↦ inferInstanceAs (Decidable (a.1 ≤ b.1))

mutual

/-- `sort_keys=True`, at every depth. -/
def Json.sortKeys : Json → Json
  | .arr xs => .arr (sortElements xs)
  | .obj es => .obj ((sortMembers es).insertionSort keyLe)
  | .null => .null
  | .bool b => .bool b
  | .int n => .int n
  | .float x => .float x
  | .str t => .str t

/-- Sort the keys inside every element. -/
def sortElements : List Json → List Json
  | [] => []
  | x :: xs => x.sortKeys :: sortElements xs

/-- Sort the keys inside every member value. -/
def sortMembers : List (Text × Json) → List (Text × Json)
  | [] => []
  | e :: es => (e.1, e.2.sortKeys) :: sortMembers es

end

mutual

/-- No float in the value is NaN or infinite. -/
def Json.allFinite : Json → Bool
  | .float x => x.isFinite
  | .arr xs => elementsFinite xs
  | .obj es => membersFinite es
  | .null | .bool _ | .int _ | .str _ => true

/-- No element holds a non-finite float. -/
def elementsFinite : List Json → Bool
  | [] => true
  | x :: xs => x.allFinite && elementsFinite xs

/-- No member holds a non-finite float. -/
def membersFinite : List (Text × Json) → Bool
  | [] => true
  | e :: es => e.2.allFinite && membersFinite es

end

/-- `sys.int_info.default_max_str_digits`. -/
def maxStrDigits : Nat := 4300

/-- What an int with more digits raises. -/
def tooManyDigits : PyError :=
  valueError ("Exceeds the limit (4300 digits) for integer string conversion; " ++
    "use sys.set_int_max_str_digits() to increase the limit")

mutual

/-- The interpreter converts every int in the value from or to a text. -/
def Json.allShort : Json → Bool
  | .int n => decide ((decimal n.natAbs).length ≤ maxStrDigits)
  | .arr xs => elementsShort xs
  | .obj es => membersShort es
  | .null | .bool _ | .float _ | .str _ => true

/-- Every int in an element is converted. -/
def elementsShort : List Json → Bool
  | [] => true
  | x :: xs => x.allShort && elementsShort xs

/-- Every int in a member is converted. -/
def membersShort : List (Text × Json) → Bool
  | [] => true
  | e :: es => e.2.allShort && membersShort es

end

/-- `json.dumps(value, sort_keys=True, separators=(",", ":"), ensure_ascii=…, allow_nan=…)`. -/
def dumps [FloatText] (ensureAscii allowNan : Bool) (j : Json) : Except PyError Text :=
  if !allowNan && !j.allFinite then
    .error (valueError "Out of range float values are not JSON compliant")
  else .ok (j.sortKeys.render ensureAscii)

mutual

/-- Object keys are distinct at every depth, as they are in Python dictionaries. -/
def Json.WF : Json → Prop
  | .arr xs => elementsWF xs
  | .obj es => (es.map Prod.fst).Nodup ∧ membersWF es
  | .null | .bool _ | .int _ | .float _ | .str _ => True

/-- Every element has distinct keys at every depth. -/
def elementsWF : List Json → Prop
  | [] => True
  | x :: xs => x.WF ∧ elementsWF xs

/-- Every member value has distinct keys at every depth. -/
def membersWF : List (Text × Json) → Prop
  | [] => True
  | e :: es => e.2.WF ∧ membersWF es

end

mutual

/-- No string of the value holds a surrogate. -/
def Json.AllScalar : Json → Prop
  | .str t => t.IsScalar
  | .arr xs => ElementsScalar xs
  | .obj es => MembersScalar es
  | .null | .bool _ | .int _ | .float _ => True

/-- No string of an element holds a surrogate. -/
def ElementsScalar : List Json → Prop
  | [] => True
  | x :: xs => x.AllScalar ∧ ElementsScalar xs

/-- No key and no string of a member holds a surrogate. -/
def MembersScalar : List (Text × Json) → Prop
  | [] => True
  | e :: es => e.1.IsScalar ∧ e.2.AllScalar ∧ MembersScalar es

end

/-- Elements have distinct keys one by one. -/
theorem elementsWF_iff (xs : List Json) : elementsWF xs ↔ ∀ x ∈ xs, x.WF := by
  induction xs with
  | nil => simp [elementsWF]
  | cons x xs ih => simp [elementsWF, ih]

/-- Member values have distinct keys one by one. -/
theorem membersWF_iff (es : List (Text × Json)) : membersWF es ↔ ∀ e ∈ es, e.2.WF := by
  induction es with
  | nil => simp [membersWF]
  | cons e es ih => simp [membersWF, ih]

/-- Elements are finite one by one. -/
theorem elementsFinite_iff (xs : List Json) :
    elementsFinite xs = true ↔ ∀ x ∈ xs, x.allFinite = true := by
  induction xs with
  | nil => simp [elementsFinite]
  | cons x xs ih => simp [elementsFinite, ih]

/-- Member values are finite one by one. -/
theorem membersFinite_iff (es : List (Text × Json)) :
    membersFinite es = true ↔ ∀ e ∈ es, e.2.allFinite = true := by
  induction es with
  | nil => simp [membersFinite]
  | cons e es ih => simp [membersFinite, ih]

/-- The ints of elements are short one by one. -/
theorem elementsShort_iff (xs : List Json) :
    elementsShort xs = true ↔ ∀ x ∈ xs, x.allShort = true := by
  induction xs with
  | nil => simp [elementsShort]
  | cons x xs ih => simp [elementsShort, ih]

/-- The ints of member values are short one by one. -/
theorem membersShort_iff (es : List (Text × Json)) :
    membersShort es = true ↔ ∀ e ∈ es, e.2.allShort = true := by
  induction es with
  | nil => simp [membersShort]
  | cons e es ih => simp [membersShort, ih]

end C3RSpec.Base
