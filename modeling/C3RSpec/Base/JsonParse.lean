import C3RSpec.Base.Json

/-!
# `json.loads` and the canonical round trip

Library `Base`. The decoder accepts what the standard library's does: insignificant
whitespace, every string escape with surrogate pairs joined, number texts by the grammar of
`isIntLexeme` and `isFloatLexeme`, and the constants `NaN`, `Infinity` and `-Infinity`. A
repeated object key keeps its first position and its last value, and an `int` of more than 4300
digits is refused. Fuel is the length of the text, which every well-formed text needs at most.
-/

namespace C3RSpec.Base

/-- JSON whitespace. -/
def isSpace (c : CodePoint) : Bool := c == 32 || c == 9 || c == 10 || c == 13

/-- Skip insignificant whitespace. -/
def skipSpace (t : Text) : Text := t.dropWhile isSpace

/-- The text after one expected character. -/
def expect (c : CodePoint) : Text → Option Text
  | [] => none
  | d :: t => if d = c then some t else none

/-- The text after an expected literal. -/
def expectText : Text → Text → Option Text
  | [], t => some t
  | c :: cs, t => (expect c t).bind (expectText cs)

/-- The value of a hexadecimal digit of either case. -/
def hexValue? (c : CodePoint) : Option Nat :=
  if 48 ≤ c.val ∧ c.val ≤ 57 then some (c.val - 48)
  else if 97 ≤ c.val ∧ c.val ≤ 102 then some (c.val - 87)
  else if 65 ≤ c.val ∧ c.val ≤ 70 then some (c.val - 55)
  else none

/-- Four hexadecimal digits. -/
def hex4? : Text → Option (Nat × Text)
  | a :: b :: c :: d :: t => do
    let a ← hexValue? a
    let b ← hexValue? b
    let c ← hexValue? c
    let d ← hexValue? d
    some (((a * 16 + b) * 16 + c) * 16 + d, t)
  | _ => none

/-- A code point from a number that is small enough. -/
def codePoint? (n : Nat) : Option CodePoint := if h : n < 0x110000 then some ⟨n, h⟩ else none

/-- The low surrogate escape that may follow a high one. -/
def lowSurrogate? (t : Text) : Option (Nat × Text) := do
  let t ← expectText [92, 117] t
  let (n, t) ← hex4? t
  if 0xDC00 ≤ n ∧ n ≤ 0xDFFF then some (n, t) else none

/-- A `\u` escape: one code unit, or a surrogate pair joined into one code point. -/
def unicodeUnit? (t : Text) : Option (CodePoint × Text) := do
  let (n, rest) ← hex4? t
  if 0xD800 ≤ n ∧ n ≤ 0xDBFF then
    match lowSurrogate? rest with
    | some (m, rest') =>
      (codePoint? (0x10000 + (n - 0xD800) * 1024 + (m - 0xDC00))).map fun c ↦ (c, rest')
    | none => (codePoint? n).map fun c ↦ (c, rest)
  else (codePoint? n).map fun c ↦ (c, rest)

/-- The character after a backslash. -/
def simpleEscape? (c : CodePoint) : Option CodePoint :=
  if c = 34 then some 34
  else if c = 92 then some 92
  else if c = 47 then some 47
  else if c = 98 then some 8
  else if c = 102 then some 12
  else if c = 110 then some 10
  else if c = 114 then some 13
  else if c = 116 then some 9
  else none

/-- What follows a backslash. -/
def scanEscape : Text → Option (CodePoint × Text)
  | [] => none
  | d :: t => if d = 117 then unicodeUnit? t else (simpleEscape? d).map fun x ↦ (x, t)

/-- One character of a string, or its closing quote; control characters are refused. -/
def scanChar : Text → Option (Option CodePoint × Text)
  | [] => none
  | c :: t =>
    if c = 34 then some (none, t)
    else if c = 92 then (scanEscape t).map fun p ↦ (some p.1, p.2)
    else if c.val < 32 then none
    else some (some c, t)

/-- The rest of a string after its opening quote. -/
def scanString : Nat → Text → Option (Text × Text)
  | 0, _ => none
  | n + 1, t =>
    match scanChar t with
    | none => none
    | some (none, rest) => some ([], rest)
    | some (some c, rest) => (scanString n rest).map fun p ↦ (c :: p.1, p.2)

/-- The integer of an integer text. -/
def intValue (t : Text) : Int :=
  if t.head? = some 45 then -(decimalValue (dropMinus t) : Int) else decimalValue t

section Parse

variable [FloatText]

/-- Literals, constants and numbers. -/
def parseScalar (t : Text) : Option (Json × Text) :=
  let run := t.takeWhile isNumberChar
  let rest := t.dropWhile isNumberChar
  if isIntLexeme run then some (.int (intValue run), rest)
  else if isFloatLexeme run then some (.float (FloatText.parse run), rest)
  else
    match expectText "null" t with
    | some r => some (.null, r)
    | none =>
      match expectText "true" t with
      | some r => some (.bool true, r)
      | none =>
        match expectText "false" t with
        | some r => some (.bool false, r)
        | none =>
          match expectText "NaN" t with
          | some r => some (.float .nan, r)
          | none =>
            match expectText "Infinity" t with
            | some r => some (.float .posInf, r)
            | none => (expectText "-Infinity" t).map fun r ↦ (.float .negInf, r)

mutual

/-- One value at the start of the text. -/
def parseValue : Nat → Text → Option (Json × Text)
  | 0, _ => none
  | _ + 1, [] => none
  | n + 1, c :: t =>
    if c = 34 then (scanString t.length t).map fun p ↦ (.str p.1, p.2)
    else if c = 91 then
      match expect 93 (skipSpace t) with
      | some rest => some (.arr [], rest)
      | none => (parseElements n (skipSpace t)).map fun p ↦ (.arr p.1, p.2)
    else if c = 123 then
      match expect 125 (skipSpace t) with
      | some rest => some (.obj [], rest)
      | none => (parseMembers n (skipSpace t)).map fun p ↦ (.obj (Dict.ofList p.1).entries, p.2)
    else (parseScalar (c :: t)).filter fun p ↦ p.1.allShort

/-- Array elements up to the closing bracket. -/
def parseElements : Nat → Text → Option (List Json × Text)
  | 0, _ => none
  | n + 1, t =>
    (parseValue n t).bind fun p ↦
      match expect 44 (skipSpace p.2) with
      | some rest => (parseElements n (skipSpace rest)).map fun q ↦ (p.1 :: q.1, q.2)
      | none => (expect 93 (skipSpace p.2)).map fun rest ↦ ([p.1], rest)

/-- Object members up to the closing brace. -/
def parseMembers : Nat → Text → Option (List (Text × Json) × Text)
  | 0, _ => none
  | n + 1, t =>
    (expect 34 t).bind fun t ↦ (scanString t.length t).bind fun k ↦
      (expect 58 (skipSpace k.2)).bind fun t ↦ (parseValue n (skipSpace t)).bind fun p ↦
        match expect 44 (skipSpace p.2) with
        | some rest => (parseMembers n (skipSpace rest)).map fun q ↦ ((k.1, p.1) :: q.1, q.2)
        | none => (expect 125 (skipSpace p.2)).map fun rest ↦ ([(k.1, p.1)], rest)

end

/-- `json.loads`; `none` is a `JSONDecodeError`, or the `ValueError` of an int with too many
digits. -/
def loads (t : Text) : Option Json :=
  (parseValue (t.length + 1) (skipSpace t)).bind fun p ↦
    if skipSpace p.2 = [] then some p.1 else none

end Parse

/-! ### Strings read back -/

/-- A written digit is read back. -/
theorem hexValue?_hexDigit (d : Nat) : hexValue? (hexDigit d) = some (d % 16) := by
  have hd : d % 16 < 16 := Nat.mod_lt d (by decide)
  unfold hexDigit
  split
  · next h =>
    have h1 : 48 ≤ 48 + d % 16 ∧ 48 + d % 16 ≤ 57 := by omega
    simp only [hexValue?, h1, and_self, if_true, Option.some.injEq]
    omega
  · next h =>
    have h1 : ¬ (48 ≤ 87 + d % 16 ∧ 87 + d % 16 ≤ 57) := by omega
    have h2 : 97 ≤ 87 + d % 16 ∧ 87 + d % 16 ≤ 102 := by omega
    simp only [hexValue?, h1, h2, and_self, if_true, if_false, Option.some.injEq]
    omega

private theorem hex4?_unicodeEscape (n : Nat) (h : n < 0x10000) (rest : Text) :
    hex4? ((unicodeEscape n).drop 2 ++ rest) = some (n, rest) := by
  have hv : ((n / 4096 % 16 * 16 + n / 256 % 16) * 16 + n / 16 % 16) * 16 + n % 16 = n := by omega
  simp [unicodeEscape, hex4?, hexValue?_hexDigit, hv]

-- The reader joins a high surrogate with what follows it, so its escape alone is left out.
private theorem unicodeUnit?_basic {c : CodePoint} (h : c.val < 0x10000)
    (hhigh : ¬ (0xD800 ≤ c.val ∧ c.val ≤ 0xDBFF)) (rest : Text) :
    unicodeUnit? ((unicodeEscape c.val).drop 2 ++ rest) = some (c, rest) := by
  have hc : codePoint? c.val = some c := by simp [codePoint?, c.isLt]
  simp [unicodeUnit?, hex4?_unicodeEscape c.val h, hhigh, hc]

private theorem lowSurrogate?_unicodeEscape {n : Nat} (h : 0xDC00 ≤ n ∧ n ≤ 0xDFFF) (rest : Text) :
    lowSurrogate? (unicodeEscape n ++ rest) = some (n, rest) := by
  change lowSurrogate? (92 :: 117 :: ((unicodeEscape n).drop 2 ++ rest)) = _
  have hexp (t : Text) : expectText [92, 117] (92 :: 117 :: t) = some t := by
    simp [expectText, expect]
  rw [lowSurrogate?, hexp]
  simp only [Option.bind_eq_bind, Option.bind_some, hex4?_unicodeEscape n (by omega), if_pos h]

private theorem unicodeUnit?_pair {c : CodePoint} {high low : Nat}
    (hhigh : 0xD800 ≤ high ∧ high ≤ 0xDBFF) (hlow : 0xDC00 ≤ low ∧ low ≤ 0xDFFF)
    (hc : 0x10000 + (high - 0xD800) * 1024 + (low - 0xDC00) = c.val) (rest : Text) :
    unicodeUnit? ((unicodeEscape high).drop 2 ++ (unicodeEscape low ++ rest)) = some (c, rest) := by
  have hpoint : codePoint? c.val = some c := by simp [codePoint?, c.isLt]
  rw [unicodeUnit?, hex4?_unicodeEscape _ (by omega)]
  simp only [Option.bind_eq_bind, Option.bind_some, if_pos hhigh,
    lowSurrogate?_unicodeEscape hlow, hc, hpoint, Option.map_some]

/-- Without `ensure_ascii` a character is a two-character escape, a control escape or itself. -/
theorem escapeChar_cases (c : CodePoint) :
    (∃ d, d ≠ 117 ∧ simpleEscape? d = some c ∧ escapeChar false c = [92, d]) ∨
    (c.val < 32 ∧ escapeChar false c = unicodeEscape c.val) ∨
    (¬ c = 34 ∧ ¬ c = 92 ∧ ¬ c.val < 32 ∧ escapeChar false c = [c]) := by
  unfold escapeChar
  by_cases h1 : c = 34
  · exact .inl ⟨34, by decide, by rw [h1]; rfl, if_pos h1⟩
  rw [if_neg h1]
  by_cases h2 : c = 92
  · exact .inl ⟨92, by decide, by rw [h2]; rfl, if_pos h2⟩
  rw [if_neg h2]
  by_cases h3 : c = 10
  · exact .inl ⟨110, by decide, by rw [h3]; rfl, if_pos h3⟩
  rw [if_neg h3]
  by_cases h4 : c = 13
  · exact .inl ⟨114, by decide, by rw [h4]; rfl, if_pos h4⟩
  rw [if_neg h4]
  by_cases h5 : c = 9
  · exact .inl ⟨116, by decide, by rw [h5]; rfl, if_pos h5⟩
  rw [if_neg h5]
  by_cases h6 : c = 12
  · exact .inl ⟨102, by decide, by rw [h6]; rfl, if_pos h6⟩
  rw [if_neg h6]
  by_cases h7 : c = 8
  · exact .inl ⟨98, by decide, by rw [h7]; rfl, if_pos h7⟩
  rw [if_neg h7]
  by_cases h8 : c.val < 32
  · exact .inr (.inl ⟨h8, if_pos h8⟩)
  · exact .inr (.inr ⟨h1, h2, h8, by rw [if_neg h8]; rfl⟩)

/-- Beyond `~` a character is escaped, outside the basic plane by its two surrogates. -/
theorem escapeChar_of_gt {c : CodePoint} (h : 126 < c.val) : escapeChar true c =
    if c.val < 0x10000 then unicodeEscape c.val
    else unicodeEscape (0xD800 + (c.val - 0x10000) / 1024) ++
      unicodeEscape (0xDC00 + (c.val - 0x10000) % 1024) := by
  have hne : ∀ d : CodePoint, d.val ≤ 126 → c ≠ d := by
    rintro d hd rfl
    omega
  unfold escapeChar
  iterate 7 rw [if_neg (hne _ (by decide))]
  rw [if_neg (by omega), Bool.true_and, if_pos (decide_eq_true h)]

/-- Up to `~` the option changes nothing. -/
theorem escapeChar_of_not_gt {c : CodePoint} (h : ¬ 126 < c.val) :
    escapeChar true c = escapeChar false c := by
  rw [escapeChar, escapeChar, decide_eq_false h, Bool.and_false, Bool.and_false]

section Quoted

variable {ascii : Bool}

private theorem escapeChar_eq_false {c : CodePoint} (h : ascii = true → ¬ 126 < c.val) :
    escapeChar ascii c = escapeChar false c := by
  cases ascii with
  | false => rfl
  | true => exact escapeChar_of_not_gt (h rfl)

private theorem length_escapeChar_pos (ascii : Bool) (c : CodePoint) :
    1 ≤ (escapeChar ascii c).length := by
  by_cases h : ascii = true ∧ 126 < c.val
  · obtain ⟨rfl, hgt⟩ := h
    rw [escapeChar_of_gt hgt]
    split <;> simp [unicodeEscape]
  · rw [escapeChar_eq_false fun ha hgt ↦ h ⟨ha, hgt⟩]
    obtain ⟨d, -, -, he⟩ | ⟨-, he⟩ | ⟨-, -, -, he⟩ := escapeChar_cases c <;>
      simp [he, unicodeEscape]

private theorem length_le_escape (ascii : Bool) (t : Text) :
    t.length ≤ (t.flatMap (escapeChar ascii)).length := by
  induction t with
  | nil => simp
  | cons c t ih =>
    have hc := length_escapeChar_pos ascii c
    simp only [List.flatMap_cons, List.length_append, List.length_cons]
    omega

private theorem scanChar_unicode (t : Text) :
    scanChar (92 :: 117 :: t) = (unicodeUnit? t).map fun p ↦ (some p.1, p.2) := by
  rw [scanChar, if_neg (by decide), if_pos rfl, scanEscape, if_pos rfl]

private theorem scanChar_plain (c : CodePoint) (rest : Text) :
    scanChar (escapeChar false c ++ rest) = some (some c, rest) := by
  obtain ⟨d, hd, hx, he⟩ | ⟨h, he⟩ | ⟨h1, h2, h3, he⟩ := escapeChar_cases c
  · rw [he, List.cons_append, List.singleton_append, scanChar, if_neg (by decide), if_pos rfl,
      scanEscape, if_neg hd, hx]
    rfl
  · rw [he]
    change scanChar (92 :: 117 :: ((unicodeEscape c.val).drop 2 ++ rest)) = _
    rw [scanChar_unicode, unicodeUnit?_basic (by omega) (by omega)]
    rfl
  · rw [he, List.singleton_append, scanChar, if_neg h1, if_neg h2, if_neg h3]

private theorem scanChar_escapeChar {c : CodePoint}
    (h : ascii = true → (CodePoint.toChar? c).isSome) (rest : Text) :
    scanChar (escapeChar ascii c ++ rest) = some (some c, rest) := by
  by_cases hgt : ascii = true ∧ 126 < c.val
  · obtain ⟨rfl, hgt⟩ := hgt
    rw [escapeChar_of_gt hgt]
    split
    · next hbasic =>
      have hhigh : ¬ (0xD800 ≤ c.val ∧ c.val ≤ 0xDBFF) := by
        intro hs
        obtain hl | hl := CodePoint.isValidChar_of_isSome (h rfl)
        · omega
        · omega
      change scanChar (92 :: 117 :: ((unicodeEscape c.val).drop 2 ++ rest)) = _
      rw [scanChar_unicode, unicodeUnit?_basic hbasic hhigh]
      rfl
    · next hbeyond =>
      rw [List.append_assoc]
      change scanChar (92 :: 117 :: ((unicodeEscape (0xD800 + (c.val - 0x10000) / 1024)).drop 2 ++
        (unicodeEscape (0xDC00 + (c.val - 0x10000) % 1024) ++ rest))) = _
      have hlt := c.isLt
      rw [scanChar_unicode, unicodeUnit?_pair (c := c) (by omega) (by omega) (by omega)]
      rfl
  · rw [escapeChar_eq_false fun ha hc ↦ hgt ⟨ha, hc⟩]
    exact scanChar_plain c rest

private theorem scanString_body (t rest : Text) (ht : ascii = true → t.IsScalar) (n : Nat)
    (h : t.length < n) :
    scanString n (t.flatMap (escapeChar ascii) ++ 34 :: rest) = some (t, rest) := by
  induction t generalizing n with
  | nil =>
    obtain ⟨m, rfl⟩ : ∃ m, n = m + 1 := ⟨n - 1, by simp at h; omega⟩
    rfl
  | cons c t ih =>
    obtain ⟨m, rfl⟩ : ∃ m, n = m + 1 := ⟨n - 1, by omega⟩
    have hrest := ih (fun ha d hd ↦ ht ha d (List.mem_cons_of_mem c hd)) m (by simpa using h)
    rw [List.flatMap_cons, List.append_assoc, scanString,
      scanChar_escapeChar fun ha ↦ ht ha c List.mem_cons_self]
    simp only [hrest, Option.map_some]

/-- A quoted string is read back, whatever follows it; with `ensure_ascii` it holds no
surrogate. -/
theorem scanString_quote_escaped {t : Text} (ht : ascii = true → t.IsScalar) (rest : Text) :
    ∃ u, quote ascii t ++ rest = 34 :: u ∧ scanString u.length u = some (t, rest) := by
  refine ⟨t.flatMap (escapeChar ascii) ++ 34 :: rest, by simp [quote], ?_⟩
  apply scanString_body t rest ht
  have := length_le_escape ascii t
  simp only [List.length_append, List.length_cons]
  omega

/-- Without `ensure_ascii` every quoted string is read back. -/
theorem scanString_quote (t rest : Text) :
    ∃ u, quote false t ++ rest = 34 :: u ∧ scanString u.length u = some (t, rest) :=
  scanString_quote_escaped (by simp) rest

end Quoted

/-! ### Numbers and literals read back -/

/-- The text does not continue a number. -/
def Stops (rest : Text) : Prop := ∀ c, rest.head? = some c → isNumberChar c = false

private theorem span_append {p : CodePoint → Bool} {a rest : Text} (ha : a.all p = true)
    (hr : ∀ c, rest.head? = some c → p c = false) :
    (a ++ rest).takeWhile p = a ∧ (a ++ rest).dropWhile p = rest := by
  induction a with
  | nil =>
    cases rest with
    | nil => simp
    | cons c t => simp [hr c rfl]
  | cons c a ih =>
    rw [List.all_cons, Bool.and_eq_true] at ha
    simp [ha.1, ih ha.2]

private theorem isNumberChar_of_isDigit {c : CodePoint} (h : isDigit c = true) :
    isNumberChar c = true := by
  simp [isNumberChar, h]

private theorem dropMinus_of_isDigit {t : Text} (h : t.all isDigit = true) :
    dropMinus t = t ∧ t.head? ≠ some 45 := by
  cases t with
  | nil => simp [dropMinus]
  | cons c t =>
    rw [List.all_cons, Bool.and_eq_true] at h
    have hc : c ≠ 45 := by
      intro he
      rw [he] at h
      exact absurd h.1 (by decide)
    simp [dropMinus, hc]

private theorem isIntBody_decimal (n : Nat) : isIntBody (decimal n) = true := by
  rcases decimal_leading n with h | h
  · rw [h]
    decide
  · have hz : digitChar 0 = 48 := by decide
    rw [hz] at h
    simp [isIntBody, decimal_ne_nil, all_isDigit_decimal, h]

private theorem all_isNumberChar_decimal (n : Nat) : (decimal n).all isNumberChar = true :=
  List.all_eq_true.mpr fun c hc ↦
    isNumberChar_of_isDigit (List.all_eq_true.mp (all_isDigit_decimal n) c hc)

private theorem isIntLexeme_decimalInt (n : Int) : isIntLexeme (decimalInt n) = true := by
  cases n with
  | ofNat n =>
    simp [isIntLexeme, decimalInt, all_isNumberChar_decimal,
      (dropMinus_of_isDigit (all_isDigit_decimal n)).1, isIntBody_decimal]
  | negSucc n =>
    have h45 : isNumberChar 45 = true := by decide
    simp [isIntLexeme, decimalInt, dropMinus, h45, all_isNumberChar_decimal, isIntBody_decimal]

/-- A written integer is read back. -/
theorem intValue_decimalInt (n : Int) : intValue (decimalInt n) = n := by
  cases n with
  | ofNat n =>
    have h := (dropMinus_of_isDigit (all_isDigit_decimal n)).2
    simp [intValue, decimalInt, h, decimalValue_decimal]
  | negSucc n =>
    simp [intValue, decimalInt, dropMinus, decimalValue_decimal, Int.negSucc_eq]

private theorem not_isIntLexeme_of_isFloatLexeme {t : Text} (h : isFloatLexeme t = true) :
    isIntLexeme t = false := by
  simp only [isFloatLexeme, Bool.and_eq_true] at h
  have hd : (dropMinus t).all isDigit = false := by
    by_contra hne
    rw [Bool.not_eq_false] at hne
    have he : (dropMinus t).dropWhile isDigit = [] := by
      have hnil : ∀ c, ([] : Text).head? = some c → isDigit c = false := by simp
      simpa using (span_append hne hnil).2
    rw [he] at h
    exact absurd h.2 (by decide)
  have h48 : dropMinus t ≠ [48] := by
    intro he
    rw [he] at hd
    exact absurd hd (by decide)
  simp [isIntLexeme, isIntBody, hd, h48]

private theorem number_head {t : Text} (ha : t.all isNumberChar = true) (hne : t ≠ []) :
    ∃ c u, t = c :: u ∧ isNumberChar c = true := by
  cases t with
  | nil => exact absurd rfl hne
  | cons c u =>
    rw [List.all_cons, Bool.and_eq_true] at ha
    exact ⟨c, u, rfl, ha.1⟩

private theorem number_ne {c d : CodePoint} (h : isNumberChar c = true)
    (hd : isNumberChar d = false) : c ≠ d := by
  rintro rfl
  rw [h] at hd
  cases hd

private theorem skipSpace_cons {c : CodePoint} (t : Text) (h : isSpace c = false) :
    skipSpace (c :: t) = c :: t := by
  simp [skipSpace, h]

theorem stops_cons {c : CodePoint} (t : Text) (h : isNumberChar c = false) :
    Stops (c :: t) := by
  intro d hd
  cases hd
  exact h

private theorem expect_self (c : CodePoint) (t : Text) : expect c (c :: t) = some t :=
  if_pos rfl

private theorem expect_ne {c d : CodePoint} (t : Text) (h : d ≠ c) : expect c (d :: t) = none :=
  if_neg h

private theorem int_head (n : Int) :
    ∃ c u, decimalInt n = c :: u ∧ isNumberChar c = true := by
  have hl := isIntLexeme_decimalInt n
  simp only [isIntLexeme, Bool.and_eq_true] at hl
  refine number_head hl.1 ?_
  cases n with
  | ofNat n => exact decimal_ne_nil n
  | negSucc n => simp [decimalInt]

section RoundTrip

variable [FloatText]

/-- An integer is read up to where it stops. -/
theorem parseScalar_int (n : Int) {rest : Text} (h : Stops rest) :
    parseScalar (decimalInt n ++ rest) = some (.int n, rest) := by
  have hl := isIntLexeme_decimalInt n
  have ha : (decimalInt n).all isNumberChar = true := by
    simp only [isIntLexeme, Bool.and_eq_true] at hl
    exact hl.1
  obtain ⟨ht, hd⟩ := span_append ha h
  simp only [parseScalar, ht, hd, hl, if_true, intValue_decimalInt]

/-- A finite float is read up to where it stops. -/
theorem parseScalar_float (q : ℚ) {rest : Text} (h : Stops rest) :
    parseScalar (FloatText.repr q ++ rest) = some (.float (.fin q), rest) := by
  have hl := FloatText.isFloatLexeme_repr q
  have ha : (FloatText.repr q).all isNumberChar = true := by
    simp only [isFloatLexeme, Bool.and_eq_true] at hl
    exact hl.1.1
  obtain ⟨ht, hd⟩ := span_append ha h
  simp only [parseScalar, ht, hd, hl, not_isIntLexeme_of_isFloatLexeme hl, if_true,
    Bool.false_eq_true, if_false, FloatText.parse_repr]

-- A literal starts outside the number characters, so no number is read there.
private theorem parseScalar_null (rest : Text) :
    parseScalar (Text.ofString "null" ++ rest) = some (.null, rest) := rfl

private theorem parseScalar_true (rest : Text) :
    parseScalar (Text.ofString "true" ++ rest) = some (.bool true, rest) := rfl

private theorem parseScalar_false (rest : Text) :
    parseScalar (Text.ofString "false" ++ rest) = some (.bool false, rest) := rfl

private theorem float_head (q : ℚ) :
    ∃ c u, FloatText.repr q = c :: u ∧ isNumberChar c = true := by
  have hl := FloatText.isFloatLexeme_repr q
  refine number_head ?_ ?_
  · simp only [isFloatLexeme, Bool.and_eq_true] at hl
    exact hl.1.1
  · intro he
    rw [he] at hl
    exact absurd hl (by decide)

/-- A value starts with a character that is neither whitespace nor a closing bracket. -/
private theorem render_head (ascii : Bool) (j : Json) (hf : j.allFinite = true) :
    ∃ c u, j.render ascii = c :: u ∧ isSpace c = false ∧ c ≠ 93 := by
  have number {c : CodePoint} (h : isNumberChar c = true) : isSpace c = false ∧ c ≠ 93 := by
    refine ⟨?_, number_ne h (by decide)⟩
    have h1 := number_ne h (show isNumberChar 32 = false by decide)
    have h2 := number_ne h (show isNumberChar 9 = false by decide)
    have h3 := number_ne h (show isNumberChar 10 = false by decide)
    have h4 := number_ne h (show isNumberChar 13 = false by decide)
    simp [isSpace, h1, h2, h3, h4]
  cases j with
  | null => exact ⟨_, _, rfl, by decide, by decide⟩
  | bool b => cases b <;> exact ⟨_, _, rfl, by decide, by decide⟩
  | int n =>
    obtain ⟨c, u, he, hc⟩ := int_head n
    exact ⟨c, u, he, number hc⟩
  | float x =>
    obtain ⟨q, rfl⟩ := PyFloat.exists_of_isFinite hf
    obtain ⟨c, u, he, hc⟩ := float_head q
    exact ⟨c, u, he, number hc⟩
  | str t => exact ⟨34, _, rfl, by decide, by decide⟩
  | arr xs => exact ⟨91, _, rfl, by decide, by decide⟩
  | obj es => exact ⟨123, _, rfl, by decide, by decide⟩

private theorem parseValue_scalar (n : Nat) {c : CodePoint} {u rest : Text} {j : Json}
    (h1 : c ≠ 34) (h2 : c ≠ 91) (h3 : c ≠ 123) (hj : j.allShort = true)
    (h : parseScalar (c :: u) = some (j, rest)) : parseValue (n + 1) (c :: u) = some (j, rest) := by
  rw [parseValue, if_neg h1, if_neg h2, if_neg h3, h]
  exact Option.filter_some_pos hj

private theorem parseValue_number (n : Nat) {t rest : Text} {j : Json}
    (h : ∃ c u, t = c :: u ∧ isNumberChar c = true) (hj : j.allShort = true)
    (hscalar : parseScalar (t ++ rest) = some (j, rest)) :
    parseValue (n + 1) (t ++ rest) = some (j, rest) := by
  obtain ⟨c, u, rfl, hc⟩ := h
  exact parseValue_scalar n (number_ne hc (by decide)) (number_ne hc (by decide))
    (number_ne hc (by decide)) hj hscalar

private theorem render_pos (ascii : Bool) (j : Json) (hf : j.allFinite = true) :
    1 ≤ (j.render ascii).length := by
  obtain ⟨c, u, he, -⟩ := render_head ascii j hf
  simp [he]

private theorem elements_head (ascii : Bool) (x : Json) (xs : List Json) (hf : x.allFinite = true)
    (rest : Text) :
    ∃ c u, renderElements ascii (x :: xs) ++ rest = c :: u ∧ isSpace c = false ∧ c ≠ 93 := by
  obtain ⟨c, u, he, hc⟩ := render_head ascii x hf
  cases xs with
  | nil => exact ⟨c, _, by rw [renderElements, he]; rfl, hc⟩
  | cons y ys => exact ⟨c, _, by rw [renderElements, he]; rfl, hc⟩

private theorem members_head (ascii : Bool) (e : Text × Json) (es : List (Text × Json))
    (rest : Text) :
    ∃ u, renderMembers ascii (e :: es) ++ rest = 34 :: u := by
  cases es with
  | nil => exact ⟨_, by rw [renderMembers]; rfl⟩
  | cons f fs => exact ⟨_, by rw [renderMembers]; rfl⟩

variable {ascii : Bool}

mutual

private theorem parse_value (j : Json) (hw : j.WF) (hf : j.allFinite = true)
    (hi : j.allShort = true) (ha : ascii = true → j.AllScalar) (n : Nat) (rest : Text)
    (hn : (j.render ascii).length ≤ n) (hs : Stops rest) :
    parseValue n (j.render ascii ++ rest) = some (j, rest) := by
  obtain ⟨m, rfl⟩ : ∃ m, n = m + 1 := ⟨n - 1, by have := render_pos ascii j hf; omega⟩
  cases j with
  | null =>
    exact parseValue_scalar m (c := 110) (u := Text.ofString "ull" ++ rest) (by decide)
      (by decide) (by decide) hi (parseScalar_null rest)
  | bool b =>
    cases b with
    | true =>
      exact parseValue_scalar m (c := 116) (u := Text.ofString "rue" ++ rest) (by decide)
        (by decide) (by decide) hi (parseScalar_true rest)
    | false =>
      exact parseValue_scalar m (c := 102) (u := Text.ofString "alse" ++ rest) (by decide)
        (by decide) (by decide) hi (parseScalar_false rest)
  | int k => exact parseValue_number m (int_head k) hi (parseScalar_int k hs)
  | float x =>
    obtain ⟨q, rfl⟩ := PyFloat.exists_of_isFinite hf
    exact parseValue_number m (float_head q) hi (parseScalar_float q hs)
  | str t =>
    obtain ⟨u, hu, hq⟩ := scanString_quote_escaped ha rest
    rw [Json.render, hu, parseValue, if_pos rfl, hq]
    rfl
  | arr xs =>
    rw [Json.render, List.cons_append, List.append_assoc, List.singleton_append, parseValue,
      if_neg (by decide), if_pos rfl]
    cases xs with
    | nil => rfl
    | cons x xs =>
      have hx : x.allFinite = true := by
        simp only [Json.allFinite, elementsFinite, Bool.and_eq_true] at hf
        exact hf.1
      obtain ⟨c, u, hc, hsp, h93⟩ := elements_head ascii x xs hx (93 :: rest)
      have hp := parse_elements (x :: xs) (by simp) hw hf hi ha m rest (by
        simp only [Json.render, List.length_cons, List.length_append] at hn
        simp only [List.length_nil] at hn
        omega)
      rw [hc] at hp ⊢
      rw [skipSpace_cons u hsp, expect_ne u h93]
      simp only [hp, Option.map_some]
  | obj es =>
    rw [Json.render, List.cons_append, List.append_assoc, List.singleton_append, parseValue,
      if_neg (by decide), if_neg (by decide), if_pos rfl]
    cases es with
    | nil => rfl
    | cons e es =>
      obtain ⟨u, hc⟩ := members_head ascii e es (125 :: rest)
      have hp := parse_members (e :: es) (by simp) hw.2 hf hi ha m rest (by
        simp only [Json.render, List.length_cons, List.length_append] at hn
        simp only [List.length_nil] at hn
        omega)
      rw [hc] at hp ⊢
      rw [skipSpace_cons u (by decide), expect_ne u (by decide)]
      simp only [hp, Option.map_some, Dict.entries_ofList hw.1]

private theorem parse_elements (xs : List Json) (hne : xs ≠ []) (hw : elementsWF xs)
    (hf : elementsFinite xs = true) (hi : elementsShort xs = true)
    (ha : ascii = true → ElementsScalar xs) (n : Nat) (rest : Text)
    (hn : (renderElements ascii xs).length < n) :
    parseElements n (renderElements ascii xs ++ 93 :: rest) = some (xs, rest) := by
  obtain ⟨m, rfl⟩ : ∃ m, n = m + 1 := ⟨n - 1, by omega⟩
  cases xs with
  | nil => exact absurd rfl hne
  | cons x xs =>
    simp only [elementsFinite, Bool.and_eq_true] at hf
    simp only [elementsShort, Bool.and_eq_true] at hi
    cases xs with
    | nil =>
      have hp := parse_value x hw.1 hf.1 hi.1 (fun h ↦ (ha h).1) m (93 :: rest)
        (by rw [renderElements] at hn; omega) (stops_cons rest (by decide))
      rw [renderElements, parseElements, hp]
      rfl
    | cons y ys =>
      have hy : y.allFinite = true := by
        simp only [elementsFinite, Bool.and_eq_true] at hf
        exact hf.2.1
      have hx := render_pos ascii x hf.1
      rw [renderElements, List.length_append, List.length_cons] at hn
      have hp := parse_value x hw.1 hf.1 hi.1 (fun h ↦ (ha h).1) m
        (44 :: (renderElements ascii (y :: ys) ++ 93 :: rest)) (by omega)
        (stops_cons _ (by decide))
      have hq := parse_elements (y :: ys) (by simp) hw.2 hf.2 hi.2 (fun h ↦ (ha h).2) m rest
        (by omega)
      obtain ⟨c, u, hc, hsp, -⟩ := elements_head ascii y ys hy (93 :: rest)
      rw [renderElements, List.append_assoc, List.cons_append, parseElements, hp]
      simp only [Option.bind_some, skipSpace_cons _ (show isSpace 44 = false by decide),
        expect_self]
      rw [hc] at hq ⊢
      rw [skipSpace_cons u hsp, hq]
      rfl

private theorem parse_members (es : List (Text × Json)) (hne : es ≠ []) (hw : membersWF es)
    (hf : membersFinite es = true) (hi : membersShort es = true)
    (ha : ascii = true → MembersScalar es) (n : Nat) (rest : Text)
    (hn : (renderMembers ascii es).length < n) :
    parseMembers n (renderMembers ascii es ++ 125 :: rest) = some (es, rest) := by
  obtain ⟨m, rfl⟩ : ∃ m, n = m + 1 := ⟨n - 1, by omega⟩
  cases es with
  | nil => exact absurd rfl hne
  | cons e es =>
    obtain ⟨k, v⟩ := e
    simp only [membersFinite, Bool.and_eq_true] at hf
    simp only [membersShort, Bool.and_eq_true] at hi
    obtain ⟨c, w, hv, hsp, -⟩ := render_head ascii v hf.1
    cases es with
    | nil =>
      rw [renderMembers, List.length_append, List.length_cons] at hn
      dsimp only at hn
      have hp := parse_value v hw.1 hf.1 hi.1 (fun h ↦ (ha h).2.1) m (125 :: rest) (by omega)
        (stops_cons rest (by decide))
      obtain ⟨u, hu, hk⟩ := scanString_quote_escaped (fun h ↦ (ha h).1)
        (58 :: (v.render ascii ++ 125 :: rest))
      rw [renderMembers, List.append_assoc, List.cons_append, hu, parseMembers, expect_self]
      simp only [Option.bind_some, hk, skipSpace_cons _ (show isSpace 58 = false by decide),
        expect_self]
      rw [hv] at hp ⊢
      rw [List.cons_append] at hp ⊢
      rw [skipSpace_cons _ hsp, hp]
      rfl
    | cons f fs =>
      rw [renderMembers, List.length_append, List.length_cons, List.length_append,
        List.length_cons] at hn
      dsimp only at hn
      have hp := parse_value v hw.1 hf.1 hi.1 (fun h ↦ (ha h).2.1) m
        (44 :: (renderMembers ascii (f :: fs) ++ 125 :: rest)) (by omega)
        (stops_cons _ (by decide))
      have hq := parse_members (f :: fs) (by simp) hw.2 hf.2 hi.2 (fun h ↦ (ha h).2.2) m rest
        (by omega)
      obtain ⟨x, hx⟩ := members_head ascii f fs (125 :: rest)
      obtain ⟨u, hu, hk⟩ := scanString_quote_escaped (fun h ↦ (ha h).1)
        (58 :: (v.render ascii ++ 44 :: (renderMembers ascii (f :: fs) ++ 125 :: rest)))
      rw [renderMembers, List.append_assoc, List.cons_append, List.append_assoc,
        List.cons_append, hu, parseMembers, expect_self]
      simp only [Option.bind_some, hk, skipSpace_cons _ (show isSpace 58 = false by decide),
        expect_self]
      rw [hv] at hp ⊢
      rw [List.cons_append] at hp ⊢
      rw [skipSpace_cons _ hsp, hp]
      simp only [Option.bind_some, skipSpace_cons _ (show isSpace 44 = false by decide),
        expect_self]
      rw [hx] at hq ⊢
      rw [skipSpace_cons x (by decide), hq]
      rfl

end

/-- Reading the compact text of a value gives the value back; with `ensure_ascii` no string of it
holds a surrogate. -/
theorem loads_render_escaped {j : Json} (hw : j.WF) (hf : j.allFinite = true)
    (hi : j.allShort = true) (ha : ascii = true → j.AllScalar) : loads (j.render ascii) = some j := by
  obtain ⟨c, u, hc, hsp, -⟩ := render_head ascii j hf
  have hp := parse_value j hw hf hi ha ((j.render ascii).length + 1) [] (by omega) (by simp [Stops])
  rw [List.append_nil] at hp
  have hk : skipSpace (j.render ascii) = j.render ascii := by rw [hc, skipSpace_cons u hsp]
  rw [loads, hk, hp]
  rfl

/-- Without `ensure_ascii` every value is read back. -/
theorem loads_render (j : Json) (hw : j.WF) (hf : j.allFinite = true) (hi : j.allShort = true) :
    loads (j.render false) = some j :=
  loads_render_escaped hw hf hi (by simp)

end RoundTrip

/-! ### A concrete float text -/

private def denominatorText (q : ℚ) : Text := decimal (if q.den = 1 then 0 else q.den)

private def pointText (q : ℚ) : Text := decimalInt q.num ++ 46 :: denominatorText q

private def fractionValue (whole : Int) (den : Nat) : ℚ := if den = 0 then whole else whole / den

private def pointValue (t : Text) : PyFloat :=
  .fin (fractionValue (intValue (t.takeWhile fun c ↦ c != 46))
    (decimalValue ((t.dropWhile fun c ↦ c != 46).drop 1)))

private theorem decimalInt_eq (n : Int) :
    decimalInt n = decimal n.natAbs ∨ decimalInt n = 45 :: decimal n.natAbs := by
  cases n with
  | ofNat n => exact .inl rfl
  | negSucc n => exact .inr rfl

private theorem dropMinus_decimalInt_append (n : Int) (x : Text) :
    dropMinus (decimalInt n ++ x) = decimal n.natAbs ++ x := by
  rcases decimalInt_eq n with h | h
  · rw [h]
    cases hd : decimal n.natAbs with
    | nil => exact absurd hd (decimal_ne_nil _)
    | cons c t =>
      have := (dropMinus_of_isDigit (all_isDigit_decimal n.natAbs)).2
      rw [hd] at this
      have hc : c ≠ 45 := by simpa using this
      simp [dropMinus, hc]
  · rw [h]
    simp [dropMinus]

private theorem isFloatLexeme_pointText (q : ℚ) : isFloatLexeme (pointText q) = true := by
  have hall : (pointText q).all isNumberChar = true := by
    have hi := isIntLexeme_decimalInt q.num
    rw [isIntLexeme, Bool.and_eq_true] at hi
    have h46 : isNumberChar 46 = true := by decide
    rw [pointText, denominatorText, List.all_append, List.all_cons, hi.1, h46,
      all_isNumberChar_decimal]
    rfl
  have hs := span_append (all_isDigit_decimal q.num.natAbs)
    (fun c hc ↦ show isDigit c = false by
      have hc : c = 46 := by simpa using hc.symm
      rw [hc]
      decide : ∀ c, (46 :: denominatorText q).head? = some c → isDigit c = false)
  have hd := span_append (all_isDigit_decimal (if q.den = 1 then 0 else q.den))
    (by simp : ∀ c, ([] : Text).head? = some c → isDigit c = false)
  rw [List.append_nil] at hd
  rw [isFloatLexeme, hall, pointText, dropMinus_decimalInt_append, hs.1, hs.2,
    isIntBody_decimal]
  simp [isFloatTail, denominatorText, hd.1, hd.2, decimal_ne_nil]

private theorem pointValue_pointText (q : ℚ) : pointValue (pointText q) = .fin q := by
  have hall : (decimalInt q.num).all (fun c ↦ c != 46) = true := by
    have hdig : (decimal q.num.natAbs).all (fun c ↦ c != 46) = true := by
      rw [List.all_eq_true]
      intro c hc
      have := List.all_eq_true.mp (all_isDigit_decimal q.num.natAbs) c hc
      rw [bne_iff_ne]
      rintro rfl
      exact absurd this (by decide)
    rcases decimalInt_eq q.num with h | h
    · rw [h, hdig]
    · rw [h, List.all_cons, hdig]
      decide
  have hs := span_append hall
    (by simp : ∀ c, (46 :: denominatorText q).head? = some c → (c != 46) = false)
  rw [pointValue, pointText, hs.1, hs.2, List.drop_succ_cons, List.drop_zero,
    intValue_decimalInt, denominatorText, decimalValue_decimal, fractionValue]
  by_cases h1 : q.den = 1
  · simp only [h1, ↓reduceIte]
    rw [Rat.coe_int_num_of_den_eq_one h1]
  · simp only [h1, q.den_ne_zero, ↓reduceIte]
    rw [Rat.num_div_den]

/-- Integral values as Python writes them (`2.0`); other values as numerator and denominator
around the point, which keeps the laws. -/
@[reducible] def FloatText.fraction : FloatText where
  repr := pointText
  parse := pointValue
  isFloatLexeme_repr := isFloatLexeme_pointText
  parse_repr := pointValue_pointText

/-! ### Sorted keys -/

/-- `value[k]` on an object; any other value raises. -/
def Json.get? : Json → Text → Option Json
  | .obj es, k => (es.find? fun e ↦ decide (e.1 = k)).map Prod.snd
  | _, _ => none

private theorem sortMembers_eq_map (es : List (Text × Json)) :
    sortMembers es = es.map fun e ↦ (e.1, e.2.sortKeys) := by
  induction es with
  | nil => rfl
  | cons e es ih => rw [sortMembers, ih, List.map_cons]

private theorem fst_sorted (es : List (Text × Json)) :
    (((sortMembers es).insertionSort keyLe).map Prod.fst).Perm (es.map Prod.fst) := by
  refine ((List.perm_insertionSort keyLe (sortMembers es)).map Prod.fst).trans ?_
  rw [sortMembers_eq_map, List.map_map]
  exact List.Perm.refl _

/-- The members of a sorted object. -/
theorem mem_sorted {es : List (Text × Json)} {e : Text × Json} :
    e ∈ (sortMembers es).insertionSort keyLe ↔ ∃ d ∈ es, (d.1, d.2.sortKeys) = e := by
  rw [List.mem_insertionSort, sortMembers_eq_map, List.mem_map]

mutual

/-- Sorting keeps keys distinct. -/
theorem Json.sortKeys_wf (j : Json) (h : j.WF) : j.sortKeys.WF := by
  cases j with
  | arr xs => exact sortElements_wf xs h
  | obj es =>
    refine ⟨(fst_sorted es).nodup_iff.mpr h.1, (membersWF_iff _).mpr fun e he ↦ ?_⟩
    obtain ⟨d, hd, rfl⟩ := mem_sorted.mp he
    exact sortMembers_wf es h.2 d hd
  | null => trivial
  | bool b => trivial
  | int n => trivial
  | float x => trivial
  | str t => trivial

private theorem sortElements_wf (xs : List Json) (h : elementsWF xs) :
    elementsWF (sortElements xs) := by
  cases xs with
  | nil => trivial
  | cons x xs => exact ⟨Json.sortKeys_wf x h.1, sortElements_wf xs h.2⟩

private theorem sortMembers_wf (es : List (Text × Json)) (h : membersWF es) :
    ∀ d ∈ es, d.2.sortKeys.WF := by
  cases es with
  | nil => simp
  | cons e es =>
    obtain ⟨k, v⟩ := e
    have hv := Json.sortKeys_wf v h.1
    have hes := sortMembers_wf es h.2
    intro d hd
    rcases List.mem_cons.mp hd with rfl | hd
    · exact hv
    · exact hes d hd

end

mutual

/-- Sorting keeps every float. -/
theorem Json.allFinite_sortKeys (j : Json) : j.sortKeys.allFinite = j.allFinite := by
  cases j with
  | arr xs => exact elementsFinite_sort xs
  | obj es =>
    change membersFinite ((sortMembers es).insertionSort keyLe) = membersFinite es
    rw [Bool.eq_iff_iff, membersFinite_iff, membersFinite_iff]
    constructor
    · intro h e he
      rw [← membersFinite_sort es e he]
      exact h _ (mem_sorted.mpr ⟨e, he, rfl⟩)
    · intro h e he
      obtain ⟨d, hd, rfl⟩ := mem_sorted.mp he
      rw [membersFinite_sort es d hd]
      exact h d hd
  | null => rfl
  | bool b => rfl
  | int n => rfl
  | float x => rfl
  | str t => rfl

private theorem elementsFinite_sort (xs : List Json) :
    elementsFinite (sortElements xs) = elementsFinite xs := by
  cases xs with
  | nil => rfl
  | cons x xs =>
    rw [sortElements, elementsFinite, elementsFinite, Json.allFinite_sortKeys x,
      elementsFinite_sort xs]

private theorem membersFinite_sort (es : List (Text × Json)) :
    ∀ d ∈ es, d.2.sortKeys.allFinite = d.2.allFinite := by
  cases es with
  | nil => simp
  | cons e es =>
    obtain ⟨k, v⟩ := e
    have hv := Json.allFinite_sortKeys v
    have hes := membersFinite_sort es
    intro d hd
    rcases List.mem_cons.mp hd with rfl | hd
    · exact hv
    · exact hes d hd

end

mutual

/-- Sorting keeps every int. -/
theorem Json.allShort_sortKeys (j : Json) (h : j.allShort = true) : j.sortKeys.allShort = true := by
  cases j with
  | arr xs => exact sortElements_short xs h
  | obj es =>
    refine (membersShort_iff _).mpr fun e he ↦ ?_
    obtain ⟨d, hd, rfl⟩ := mem_sorted.mp he
    exact sortMembers_short es h d hd
  | null => rfl
  | bool b => rfl
  | int n => exact h
  | float x => rfl
  | str t => rfl

private theorem sortElements_short (xs : List Json) (h : elementsShort xs = true) :
    elementsShort (sortElements xs) = true := by
  cases xs with
  | nil => rfl
  | cons x xs =>
    simp only [elementsShort, Bool.and_eq_true] at h
    rw [sortElements, elementsShort, Json.allShort_sortKeys x h.1, sortElements_short xs h.2]
    rfl

private theorem sortMembers_short (es : List (Text × Json)) (h : membersShort es = true) :
    ∀ d ∈ es, d.2.sortKeys.allShort = true := by
  cases es with
  | nil => simp
  | cons e es =>
    obtain ⟨k, v⟩ := e
    simp only [membersShort, Bool.and_eq_true] at h
    have hv := Json.allShort_sortKeys v h.1
    have hes := sortMembers_short es h.2
    intro d hd
    rcases List.mem_cons.mp hd with rfl | hd
    · exact hv
    · exact hes d hd

end

instance : IsTrans (Text × Json) keyLe := ⟨fun _ _ _ h1 h2 ↦ le_trans h1 h2⟩

instance : Std.Total (α := Text × Json) keyLe := ⟨fun a b ↦ le_total a.1 b.1⟩

private theorem pairwise_sorted (es : List (Text × Json)) :
    ((sortMembers es).insertionSort keyLe).Pairwise keyLe :=
  List.pairwise_insertionSort keyLe _

mutual

/-- Sorted keys stay as they are when sorted again. -/
theorem Json.sortKeys_sortKeys (j : Json) : j.sortKeys.sortKeys = j.sortKeys := by
  cases j with
  | arr xs => exact congrArg Json.arr (sortElements_sort xs)
  | obj es =>
    change Json.obj ((sortMembers ((sortMembers es).insertionSort keyLe)).insertionSort keyLe) =
      Json.obj ((sortMembers es).insertionSort keyLe)
    have hmap : sortMembers ((sortMembers es).insertionSort keyLe) =
        (sortMembers es).insertionSort keyLe := by
      rw [sortMembers_eq_map]
      refine (List.map_congr_left fun e he ↦ ?_).trans (List.map_id _)
      obtain ⟨d, hd, rfl⟩ := mem_sorted.mp he
      exact Prod.ext rfl (sortMembers_sort es d hd)
    rw [hmap, (pairwise_sorted es).insertionSort_eq]
  | null => rfl
  | bool b => rfl
  | int n => rfl
  | float x => rfl
  | str t => rfl

private theorem sortElements_sort (xs : List Json) :
    sortElements (sortElements xs) = sortElements xs := by
  cases xs with
  | nil => rfl
  | cons x xs =>
    rw [sortElements, sortElements, Json.sortKeys_sortKeys x, sortElements_sort xs]

private theorem sortMembers_sort (es : List (Text × Json)) :
    ∀ d ∈ es, d.2.sortKeys.sortKeys = d.2.sortKeys := by
  cases es with
  | nil => simp
  | cons e es =>
    obtain ⟨k, v⟩ := e
    have hv := Json.sortKeys_sortKeys v
    have hes := sortMembers_sort es
    intro d hd
    rcases List.mem_cons.mp hd with rfl | hd
    · exact hv
    · exact hes d hd

end

/-- Canonical text is a fixed point: reading it and writing it again changes nothing. -/
theorem dumps_loads_dumps [FloatText] {j : Json} {t : Text} (hw : j.WF) (hi : j.allShort = true)
    (h : dumps false false j = .ok t) :
    loads t = some j.sortKeys ∧ dumps false false j.sortKeys = .ok t := by
  unfold dumps at h
  split at h
  · cases h
  · next hf =>
    have hf : j.allFinite = true := by simpa using hf
    cases h
    refine ⟨loads_render _ (j.sortKeys_wf hw) (by rw [Json.allFinite_sortKeys, hf])
      (j.allShort_sortKeys hi), ?_⟩
    rw [dumps, Json.allFinite_sortKeys, hf, Json.sortKeys_sortKeys]
    rfl

private theorem find?_key_of_mem {es : List (Text × Json)} (hn : (es.map Prod.fst).Nodup)
    {k : Text} {v : Json} (h : (k, v) ∈ es) :
    es.find? (fun e ↦ decide (e.1 = k)) = some (k, v) := by
  induction es with
  | nil => cases h
  | cons e es ih =>
    rw [List.map_cons, List.nodup_cons] at hn
    rcases List.mem_cons.mp h with rfl | h
    · simp
    · have hne : ¬ e.1 = k := fun he ↦ hn.1 (he ▸ List.mem_map.mpr ⟨(k, v), h, rfl⟩)
      rw [List.find?_cons_of_neg (by simpa using hne)]
      exact ih hn.2 h

/-- Looking a key up commutes with sorting. -/
theorem Json.get?_sortKeys {es : List (Text × Json)} (hn : (es.map Prod.fst).Nodup) (k : Text) :
    (Json.obj es).sortKeys.get? k = ((Json.obj es).get? k).map Json.sortKeys := by
  change (((sortMembers es).insertionSort keyLe).find? fun e ↦ decide (e.1 = k)).map Prod.snd =
    ((es.find? fun e ↦ decide (e.1 = k)).map Prod.snd).map Json.sortKeys
  have hs : (((sortMembers es).insertionSort keyLe).map Prod.fst).Nodup :=
    (fst_sorted es).nodup_iff.mpr hn
  cases hf : es.find? fun e ↦ decide (e.1 = k) with
  | none =>
    have hnone : ((sortMembers es).insertionSort keyLe).find? (fun e ↦ decide (e.1 = k)) =
        none := by
      rw [List.find?_eq_none] at hf ⊢
      intro e he
      obtain ⟨d, hd, rfl⟩ := mem_sorted.mp he
      exact hf d hd
    rw [hnone]
    rfl
  | some d =>
    have hd := List.mem_of_find?_eq_some hf
    have hk : d.1 = k := by simpa using List.find?_some hf
    have hm : (k, d.2.sortKeys) ∈ (sortMembers es).insertionSort keyLe :=
      mem_sorted.mpr ⟨d, hd, by rw [hk]⟩
    rw [find?_key_of_mem hs hm]
    rfl

end C3RSpec.Base
