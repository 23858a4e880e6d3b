import C3RSpec.Base.Text

/-!
# Byte strings

Library `Base`. Python `bytes` as lists, with the methods that line-oriented readers use.
-/

namespace C3RSpec.Base

/-- Python `bytes`. -/
abbrev Bytes := List UInt8

namespace Bytes

/-- The encoding of ASCII text. -/
def ofAscii (t : Text) : Bytes := t.map fun c ↦ UInt8.ofNat c.val

/-- `bytes.isspace` of one byte. -/
def isBlank (b : UInt8) : Bool := b == 32 || (9 ≤ b && b ≤ 13)

/-- `bytes.strip()`. -/
def strip (b : Bytes) : Bytes := ((b.dropWhile isBlank).reverse.dropWhile isBlank).reverse

/-- `b.startswith(start)`. -/
def startsWith (start b : Bytes) : Bool := start.isPrefixOf b

/-- `sep.join(parts)`. -/
def join (sep : Bytes) (parts : List Bytes) : Bytes := List.intercalate sep parts

/-- `bytes.splitlines()`: lines end at a line feed, a carriage return or the pair of them. -/
def splitLines : Bytes → List Bytes
  | [] => []
  | 10 :: rest => [] :: splitLines rest
  | 13 :: 10 :: rest => [] :: splitLines rest
  | 13 :: rest => [] :: splitLines rest
  | b :: rest =>
    match splitLines rest with
    | [] => [[b]]
    | line :: lines =>
      -- a line break directly after `b` ends the line that `b` starts
      (b :: line) :: lines

end Bytes

end C3RSpec.Base
