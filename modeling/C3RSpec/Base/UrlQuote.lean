import C3RSpec.Base.JsonParse

/-!
# Quoted URL parts

Library `Base`. `urllib.parse.quote` and `quote_plus` with no safe characters: a byte of the UTF-8
encoding is itself or is written with a percent sign and two hexadecimal digits. What was quoted
is determined by the quoted text, also where a separator follows it.
-/

namespace C3RSpec.Base

/-- The bytes that are never escaped. -/
def isUnreserved (b : UInt8) : Bool :=
  (48 ≤ b && b ≤ 57) || (65 ≤ b && b ≤ 90) || (97 ≤ b && b ≤ 122) || b == 45 || b == 46 ||
    b == 95 || b == 126

private theorem decimalDigit_lt (d : Nat) : 48 + d % 16 < 0x110000 := by omega

private theorem upperLetter_lt (d : Nat) : 55 + d % 16 < 0x110000 := by omega

/-- An uppercase hexadecimal digit. -/
def upperHexDigit (d : Nat) : CodePoint :=
  if d % 16 < 10 then ⟨48 + d % 16, decimalDigit_lt d⟩ else ⟨55 + d % 16, upperLetter_lt d⟩

/-- One byte; `quote_plus` writes a blank as a plus sign. -/
def quoteByte (plus : Bool) (b : UInt8) : Text :=
  if isUnreserved b then [⟨b.toNat, by have := b.toNat_lt; omega⟩]
  else if plus && b == 32 then [43]
  else [37, upperHexDigit (b.toNat / 16), upperHexDigit b.toNat]

/-- `quote(t, safe="")`, or `quote_plus(t)`. -/
def urlQuote (plus : Bool) (t : Text) : Except PyError Text := do
  let bytes ← t.encodeUtf8
  return bytes.data.toList.flatMap (quoteByte plus)

/-! ### Reading a code from the front -/

/-- Elements are read from the front of their codes up to where nothing can be read. -/
theorem flatMap_append_inj {A B : Type} {f : A → List B} {read : List B → Option (A × List B)}
    (hread : ∀ a rest, read (f a ++ rest) = some (a, rest)) {xs ys : List A} {s t : List B}
    (hs : read s = none) (ht : read t = none) (h : xs.flatMap f ++ s = ys.flatMap f ++ t) :
    xs = ys ∧ s = t := by
  induction xs generalizing ys with
  | nil =>
    cases ys with
    | nil => exact ⟨rfl, h⟩
    | cons y ys =>
      rw [List.flatMap_nil, List.nil_append, List.flatMap_cons, List.append_assoc] at h
      rw [h, hread] at hs
      cases hs
  | cons x xs ih =>
    cases ys with
    | nil =>
      rw [List.flatMap_nil, List.nil_append, List.flatMap_cons, List.append_assoc] at h
      rw [← h, hread] at ht
      cases ht
    | cons y ys =>
      rw [List.flatMap_cons, List.append_assoc, List.flatMap_cons, List.append_assoc] at h
      have hfirst := congrArg read h
      rw [hread, hread] at hfirst
      obtain ⟨rfl, hrest⟩ := Prod.mk.inj (Option.some.inj hfirst)
      obtain ⟨rfl, hst⟩ := ih hrest
      exact ⟨rfl, hst⟩

/-- The byte of two hexadecimal digits. -/
def readHex : Text → Option (UInt8 × Text)
  | a :: b :: rest => do
    let high ← hexValue? a
    let low ← hexValue? b
    some (UInt8.ofNat (high * 16 + low), rest)
  | _ => none

/-- The byte at the start of a quoted text; a separator starts none. -/
def readQuoted : Text → Option (UInt8 × Text)
  | [] => none
  | c :: t =>
    if c = 37 then readHex t
    else if c = 43 then some (32, t)
    else if c.val < 256 ∧ isUnreserved (UInt8.ofNat c.val) then some (UInt8.ofNat c.val, t)
    else none

private theorem hexValue?_upperHexDigit (d : Nat) :
    hexValue? (upperHexDigit d) = some (d % 16) := by
  have hd : d % 16 < 16 := Nat.mod_lt d (by decide)
  unfold upperHexDigit
  split
  · next h =>
    have h1 : 48 ≤ 48 + d % 16 ∧ 48 + d % 16 ≤ 57 := by omega
    simp only [hexValue?, h1, and_self, if_true, Option.some.injEq]
    omega
  · next h =>
    have h1 : ¬ (48 ≤ 55 + d % 16 ∧ 55 + d % 16 ≤ 57) := by omega
    have h2 : ¬ (97 ≤ 55 + d % 16 ∧ 55 + d % 16 ≤ 102) := by omega
    have h3 : 65 ≤ 55 + d % 16 ∧ 55 + d % 16 ≤ 70 := by omega
    simp only [hexValue?, h1, h2, h3, and_self, if_true, if_false, Option.some.injEq]
    omega

private theorem readQuoted_quoteByte (plus : Bool) (b : UInt8) (rest : Text) :
    readQuoted (quoteByte plus b ++ rest) = some (b, rest) := by
  have hlt := b.toNat_lt
  unfold quoteByte
  by_cases hun : isUnreserved b = true
  · have hne : ∀ d : Nat, isUnreserved (UInt8.ofNat d) = false → b.toNat ≠ d := by
      rintro d hd rfl
      rw [UInt8.ofNat_toNat, hun] at hd
      cases hd
    have h37 := hne 37 (by decide)
    have h43 := hne 43 (by decide)
    rw [if_pos hun, List.singleton_append, readQuoted, if_neg (by simpa [Fin.ext_iff] using h37),
      if_neg (by simpa [Fin.ext_iff] using h43)]
    simp only [UInt8.ofNat_toNat, hun, and_true]
    rw [if_pos (by omega)]
  · rw [if_neg hun]
    by_cases hplus : (plus && b == 32) = true
    · rw [if_pos hplus]
      rw [Bool.and_eq_true, beq_iff_eq] at hplus
      rw [hplus.2]
      rfl
    · rw [if_neg hplus]
      have hv : b.toNat / 16 % 16 * 16 + b.toNat % 16 = b.toNat := by omega
      simp only [List.cons_append, List.nil_append, readQuoted, readHex, if_true,
        hexValue?_upperHexDigit, Option.bind_eq_bind, Option.bind_some, hv, UInt8.ofNat_toNat]

/-- Quoted texts are told apart at the first separator behind them. -/
theorem urlQuote_append_inj {plus : Bool} {a b x y s t : Text} (ha : urlQuote plus a = .ok x)
    (hb : urlQuote plus b = .ok y) (hs : readQuoted s = none) (ht : readQuoted t = none)
    (h : x ++ s = y ++ t) : a = b ∧ s = t := by
  obtain ⟨bytes, hbytes, hx⟩ := bind_eq_ok.mp ha
  obtain ⟨bytes', hbytes', hy⟩ := bind_eq_ok.mp hb
  rw [← Except.ok.inj hx, ← Except.ok.inj hy] at h
  obtain ⟨hsame, hst⟩ := flatMap_append_inj (readQuoted_quoteByte plus) hs ht h
  refine ⟨?_, hst⟩
  rw [← Text.ofUtf8_of_encodeUtf8 hbytes, ← Text.ofUtf8_of_encodeUtf8 hbytes', hsame]

/-- A quoted text determines what was quoted. -/
theorem urlQuote_inj {plus : Bool} {a b x : Text} (ha : urlQuote plus a = .ok x)
    (hb : urlQuote plus b = .ok x) : a = b :=
  (urlQuote_append_inj ha hb (s := []) (t := []) rfl rfl rfl).1

end C3RSpec.Base
