import C3RSpec.Base.JsonAccess

/-!
# `str` and `repr` of decoded JSON

Library `Base`. A `str` is its own `str`; every other value is shown by its `repr`, and a `list`
or a `dict` shows the `repr` of what it holds. Which characters are printable is a fact of the
Unicode database and a parameter (`UnicodeData`).
-/

namespace C3RSpec.Base

/-- `str.isprintable` of one character. -/
class UnicodeData where
  isPrintable : CodePoint → Bool

/-- The last `width` hexadecimal digits of a number. -/
def hexDigits (width n : Nat) : Text :=
  (List.range width).reverse.map fun i ↦ hexDigit (n / 16 ^ i)

/-- A character inside the `repr` of a `str` with the given quotation mark. -/
def reprChar [UnicodeData] (mark c : CodePoint) : Text :=
  if c = mark ∨ c = 92 then [92, c]
  else if c = 9 then [92, 116]
  else if c = 10 then [92, 110]
  else if c = 13 then [92, 114]
  else if c.val < 32 ∨ c.val = 127 then [92, 120] ++ hexDigits 2 c.val
  else if c.val < 127 ∨ UnicodeData.isPrintable c then [c]
  else if c.val < 0x100 then [92, 120] ++ hexDigits 2 c.val
  else if c.val < 0x10000 then [92, 117] ++ hexDigits 4 c.val
  else [92, 85] ++ hexDigits 8 c.val

/-- `repr` of a `str`: apostrophes, unless it holds one and no quotation mark. -/
def reprText [UnicodeData] (t : Text) : Text :=
  let mark : CodePoint := if 39 ∈ t ∧ 34 ∉ t then 34 else 39
  mark :: (t.flatMap (reprChar mark) ++ [mark])

section Repr

variable [FloatText] [UnicodeData]

mutual

/-- `repr` of a decoded value. -/
def Json.repr : Json → Text
  | .null => "None"
  | .bool true => "True"
  | .bool false => "False"
  | .int n => decimalInt n
  | .float x => floatStr x
  | .str t => reprText t
  | .arr xs => 91 :: (reprElements xs ++ [93])
  | .obj es => 123 :: (reprMembers es ++ [125])

/-- Elements of a `list`. -/
def reprElements : List Json → Text
  | [] => []
  | x :: xs =>
    match xs with
    | [] => x.repr
    | y :: ys => x.repr ++ 44 :: 32 :: reprElements (y :: ys)

/-- Entries of a `dict`. -/
def reprMembers : List (Text × Json) → Text
  | [] => []
  | e :: es =>
    match es with
    | [] => reprText e.1 ++ 58 :: 32 :: e.2.repr
    | f :: fs => reprText e.1 ++ 58 :: 32 :: (e.2.repr ++ 44 :: 32 :: reprMembers (f :: fs))

end

/-- `str` of a decoded value. -/
def Json.toStr : Json → Text
  | .str t => t
  | j => j.repr

end Repr

end C3RSpec.Base
