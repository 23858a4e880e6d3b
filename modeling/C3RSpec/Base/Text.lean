import Mathlib.Data.List.Lex

/-!
# Python text and the errors that carry it

Library `Base`. A Python `str` is a sequence of Unicode code points, lone surrogates
included, compared element by element. UTF-8 encoding is therefore partial: a surrogate
raises `UnicodeEncodeError`. The bounded-token and digest patterns are those of
`c3r/telemetry/governed_store.py:26–27`.
-/

namespace C3RSpec.Base

/-- The exception classes that the modelled `except` clauses tell apart. -/
inductive ErrorKind where
  | valueError
  | unicodeEncodeError
  | typeError
  | keyError
  | indexError
  | attributeError
  | osError
  | runtimeError
  | overflowError
  | sqliteError
  | httpException
  | recursionError
  | driverError
  | other
  deriving DecidableEq, Repr

/-- A raised exception: its class and its message. -/
structure PyError where
  kind : ErrorKind
  message : String
  deriving DecidableEq, Repr

/-- A `ValueError` with the given message. -/
def valueError (message : String) : PyError := ⟨.valueError, message⟩

/-- Membership in `except (OSError, RuntimeError, TypeError, ValueError)`;
`UnicodeEncodeError` is a subclass of `ValueError`, `RecursionError` of `RuntimeError`. -/
def PyError.isHostFailure (e : PyError) : Bool :=
  match e.kind with
  | .valueError | .unicodeEncodeError | .typeError | .osError | .runtimeError
  | .recursionError => true
  | .keyError | .indexError | .attributeError | .overflowError | .sqliteError | .httpException
  | .driverError | .other => false

/-- A composed computation fails in one of its parts. -/
theorem bind_eq_error {ε α β : Type} {x : Except ε α} {f : α → Except ε β} {e : ε} :
    (x >>= f) = .error e ↔ x = .error e ∨ ∃ a, x = .ok a ∧ f a = .error e := by
  cases x with
  | error e' =>
    constructor
    · intro h
      cases h
      exact .inl rfl
    · rintro (h | ⟨a, h, -⟩)
      · cases h
        rfl
      · cases h
  | ok a =>
    constructor
    · intro h
      exact .inr ⟨a, rfl, h⟩
    · rintro (h | ⟨a', h, h'⟩)
      · cases h
      · cases h
        exact h'

/-- A composed computation succeeds when both parts do. -/
theorem bind_eq_ok {ε α β : Type} {x : Except ε α} {f : α → Except ε β} {b : β} :
    (x >>= f) = .ok b ↔ ∃ a, x = .ok a ∧ f a = .ok b := by
  cases x with
  | error e =>
    constructor
    · intro h
      cases h
    · rintro ⟨a, h, -⟩
      cases h
  | ok a =>
    constructor
    · exact fun h ↦ ⟨a, rfl, h⟩
    · rintro ⟨a', h, h'⟩
      cases h
      exact h'

/-- An exception leaves a computation that the four clauses of `isHostFailure` do not catch. -/
def Escapes {α : Type} (x : Except PyError α) : Prop :=
  ∃ e, x = .error e ∧ e.isHostFailure = false

@[simp] theorem not_escapes_ok {α : Type} (a : α) : ¬ Escapes (.ok a : Except PyError α) := by
  rintro ⟨e, he, -⟩
  cases he

@[simp] theorem escapes_error {α : Type} (e : PyError) :
    Escapes (.error e : Except PyError α) ↔ e.isHostFailure = false := by
  constructor
  · rintro ⟨e', he, h⟩
    cases he
    exact h
  · exact fun h ↦ ⟨e, rfl, h⟩

/-- An exception leaves a composed computation from its first part, or from its second. -/
theorem escapes_bind {α β : Type} {x : Except PyError α} {f : α → Except PyError β} :
    Escapes (x >>= f) ↔ Escapes x ∨ ∃ a, x = .ok a ∧ Escapes (f a) := by
  cases x with
  | error e =>
    change Escapes (.error e : Except PyError β) ↔ _
    simp
  | ok a =>
    change Escapes (f a) ↔ _
    simp

/-- The class of the exception that a computation raises. -/
def raisedKind {α : Type} : Except PyError α → Option ErrorKind
  | .ok _ => none
  | .error e => some e.kind

/-- A class is raised by an exception. -/
theorem exists_of_raisedKind {α : Type} {x : Except PyError α} {kind : ErrorKind}
    (h : raisedKind x = some kind) : ∃ e : PyError, e.kind = kind ∧ x = .error e := by
  cases x with
  | ok a => cases h
  | error e => exact ⟨e, Option.some.inj h, rfl⟩

/-- The value of a computation that succeeded. -/
theorem toOption_eq_some {ε α : Type} {x : Except ε α} {a : α} :
    x.toOption = some a ↔ x = .ok a := by
  cases x with
  | error e => simp [Except.toOption]
  | ok b => simp [Except.toOption]

/-- A composed computation succeeds after its first part has. -/
theorem exists_bind_ok {ε α β : Type} {x : Except ε α} {f : α → Except ε β} {a : α}
    (hx : x = .ok a) (hf : ∃ b, f a = .ok b) : ∃ b, (x >>= f) = .ok b := by
  obtain ⟨b, hb⟩ := hf
  exact ⟨b, bind_eq_ok.mpr ⟨a, hx, hb⟩⟩

/-- One element of a Python `str`: any code point, surrogates included. -/
abbrev CodePoint := Fin 0x110000

instance neZero_codePoints : @NeZero Nat Zero.ofOfNat0 0x110000 := ⟨by decide⟩

/-- Python `str`, compared lexicographically by code point. -/
abbrev Text := List CodePoint

instance lawfulBEq_codePoint : LawfulBEq CodePoint := inferInstance

instance lawfulBEq_text : LawfulBEq Text := inferInstance

namespace CodePoint

/-- The code point of a Unicode scalar value. -/
def ofChar (c : Char) : CodePoint :=
  ⟨c.val.toNat, by
    have h := c.valid
    simp only [UInt32.isValidChar, Nat.isValidChar] at h
    omega⟩

/-- The scalar value of a code point; a surrogate has none. -/
def toChar? (c : CodePoint) : Option Char :=
  if h : c.val.isValidChar then some (Char.ofNatAux c.val h) else none

/-- A code point that is a scalar value is no surrogate. -/
theorem isValidChar_of_isSome {c : CodePoint} (h : (toChar? c).isSome) : c.val.isValidChar := by
  by_contra hv
  rw [toChar?, dif_neg hv] at h
  cases h

/-- A scalar value is recovered from its code point. -/
theorem toChar?_ofChar (c : Char) : toChar? (ofChar c) = some c := by
  have h : (ofChar c).val.isValidChar := c.valid
  rw [toChar?, dif_pos h]
  rfl

/-- A code point is recovered from its scalar value. -/
theorem ofChar_of_toChar? {c : CodePoint} {d : Char} (h : toChar? c = some d) :
    ofChar d = c := by
  by_cases hv : c.val.isValidChar
  · rw [toChar?, dif_pos hv] at h
    cases h
    rfl
  · rw [toChar?, dif_neg hv] at h
    cases h

end CodePoint

namespace Text

/-- The code points of well-formed UTF-8 bytes. -/
def ofUtf8 : List UInt8 → Text
  | [] => []
  | a :: t =>
    if a.toNat < 0x80 then Fin.ofNat _ a.toNat :: ofUtf8 t
    else match t with
      | [] => []
      | b :: t =>
        if a.toNat < 0xe0 then Fin.ofNat _ (a.toNat % 32 * 64 + b.toNat % 64) :: ofUtf8 t
        else match t with
          | [] => []
          | c :: t =>
            if a.toNat < 0xf0 then
              Fin.ofNat _ (a.toNat % 16 * 4096 + b.toNat % 64 * 64 + c.toNat % 64) :: ofUtf8 t
            else match t with
              | [] => []
              | d :: t =>
                Fin.ofNat _ (a.toNat % 8 * 262144 + b.toNat % 64 * 4096 + c.toNat % 64 * 64 +
                  d.toNat % 64) :: ofUtf8 t

/-- The text of a literal, read from its bytes: they evaluate faster than its characters. -/
def ofString (s : String) : Text := ofUtf8 s.toByteArray.data.toList

instance : Coe String Text := ⟨ofString⟩

private theorem ofUtf8_utf8EncodeChar (c : Char) (rest : List UInt8) :
    ofUtf8 (String.utf8EncodeChar c ++ rest) = CodePoint.ofChar c :: ofUtf8 rest := by
  have hc : c.val.toNat < 0x110000 := (CodePoint.ofChar c).isLt
  have hbyte : ∀ n, n < 256 → (UInt8.ofNat n).toNat = n := fun n ↦ UInt8.toNat_ofNat_of_lt
  have hcode : ∀ n, n = c.val.toNat → Fin.ofNat 0x110000 n = CodePoint.ofChar c := fun n hn ↦
    Fin.ext ((Nat.mod_eq_of_lt (hn ▸ hc)).trans hn)
  generalize hv : c.val.toNat = v at hc hcode
  dsimp only [String.utf8EncodeChar]
  rw [hv]
  split
  · next h =>
    rw [ofUtf8.eq_def]
    dsimp only [List.cons_append, List.nil_append]
    rw [hbyte v (by omega), if_pos (by omega), hcode v rfl]
  · next h =>
    split
    · next h' =>
      rw [ofUtf8.eq_def]
      dsimp only [List.cons_append, List.nil_append]
      rw [hbyte (v / 64 % 32 + 192) (by omega), hbyte (v % 64 + 128) (by omega),
        if_neg (by omega), if_pos (by omega), hcode _ (by omega)]
    · next h' =>
      split
      · next h'' =>
        rw [ofUtf8.eq_def]
        dsimp only [List.cons_append, List.nil_append]
        rw [hbyte (v / 4096 % 16 + 224) (by omega), hbyte (v / 64 % 64 + 128) (by omega),
          hbyte (v % 64 + 128) (by omega), if_neg (by omega), if_neg (by omega),
          if_pos (by omega), hcode _ (by omega)]
      · next h'' =>
        rw [ofUtf8.eq_def]
        dsimp only [List.cons_append, List.nil_append]
        rw [hbyte (v / 262144 % 8 + 240) (by omega), hbyte (v / 4096 % 64 + 128) (by omega),
          hbyte (v / 64 % 64 + 128) (by omega), hbyte (v % 64 + 128) (by omega),
          if_neg (by omega), if_neg (by omega), if_neg (by omega), hcode _ (by omega)]

private theorem ofUtf8_flatMap (cs : List Char) :
    ofUtf8 (cs.flatMap String.utf8EncodeChar) = cs.map CodePoint.ofChar := by
  induction cs with
  | nil => rfl
  | cons c cs ih => rw [List.flatMap_cons, ofUtf8_utf8EncodeChar, ih, List.map_cons]

/-- A literal is read character by character. -/
theorem ofString_eq (s : String) : ofString s = s.toList.map CodePoint.ofChar := by
  have hs : s.toByteArray.data.toList = s.toList.flatMap String.utf8EncodeChar := by
    rw [← List.toList_data_toByteArray (l := s.toList.flatMap String.utf8EncodeChar)]
    exact congrArg (·.data.toList) ((congrArg String.toByteArray String.ofList_toList).symm.trans
      String.toByteArray_ofList)
  rw [ofString, hs, ofUtf8_flatMap]

/-- `str.encode("utf-8")`. -/
def encodeUtf8 (t : Text) : Except PyError ByteArray :=
  match t.mapM CodePoint.toChar? with
  | some cs => .ok ⟨⟨cs.flatMap String.utf8EncodeChar⟩⟩
  | none => .error ⟨.unicodeEncodeError, "surrogates not allowed"⟩

private theorem eq_map_of_mapM_toChar? {t : Text} {cs : List Char}
    (h : t.mapM CodePoint.toChar? = some cs) : t = cs.map CodePoint.ofChar := by
  induction t generalizing cs with
  | nil =>
    simp only [List.mapM_nil, Option.pure_def, Option.some.injEq] at h
    subst cs
    rfl
  | cons x xs ih =>
    simp only [List.mapM_cons, Option.bind_eq_bind, Option.bind_eq_some_iff,
      Option.pure_def, Option.some.injEq] at h
    obtain ⟨c, hx, ds, hxs, rfl⟩ := h
    rw [List.map_cons, CodePoint.ofChar_of_toChar? hx, ← ih hxs]

/-- Every element is a scalar value. -/
def IsScalar (t : Text) : Prop := ∀ c ∈ t, (CodePoint.toChar? c).isSome

/-- Everything is below 128. -/
def isAscii (t : Text) : Bool := t.all fun c ↦ decide (c.val < 128)

/-- ASCII text holds no surrogate. -/
theorem isScalar_of_isAscii {t : Text} (h : t.isAscii = true) : IsScalar t := by
  intro c hc
  have hlt : c.val < 128 := of_decide_eq_true (List.all_eq_true.mp h c hc)
  rw [CodePoint.toChar?, dif_pos (.inl (by omega))]
  rfl

private theorem mapM_toChar?_isSome {t : Text} :
    (t.mapM CodePoint.toChar?).isSome ↔ IsScalar t := by
  induction t with
  | nil => simp [IsScalar]
  | cons c t ih =>
    have hc : IsScalar (c :: t) ↔ (CodePoint.toChar? c).isSome ∧ IsScalar t := by
      simp [IsScalar]
    rw [hc, ← ih, List.mapM_cons]
    cases CodePoint.toChar? c with
    | none => simp
    | some d => cases t.mapM CodePoint.toChar? <;> simp

/-- Exactly the texts without surrogates can be encoded. -/
theorem exists_encodeUtf8_iff {t : Text} :
    (∃ bytes, encodeUtf8 t = .ok bytes) ↔ IsScalar t := by
  rw [← mapM_toChar?_isSome, encodeUtf8]
  cases t.mapM CodePoint.toChar? with
  | none => simp
  | some cs => simp

/-- The bytes of a text are read back as it. -/
theorem ofUtf8_of_encodeUtf8 {t : Text} {bytes : ByteArray} (h : encodeUtf8 t = .ok bytes) :
    ofUtf8 bytes.data.toList = t := by
  unfold encodeUtf8 at h
  split at h
  · next cs hcs =>
    cases h
    rw [eq_map_of_mapM_toChar? hcs]
    exact ofUtf8_flatMap cs
  · cases h

/-- No character takes less than a byte. -/
theorem length_le_of_encodeUtf8 {t : Text} {bytes : ByteArray} (h : encodeUtf8 t = .ok bytes) :
    t.length ≤ bytes.size := by
  unfold encodeUtf8 at h
  split at h
  · next cs hcs =>
    cases h
    rw [eq_map_of_mapM_toChar? hcs, List.length_map]
    change cs.length ≤ (cs.flatMap String.utf8EncodeChar).length
    clear hcs
    induction cs with
    | nil => exact Nat.zero_le _
    | cons c cs ih =>
      rw [List.flatMap_cons, List.length_append, List.length_cons, String.length_utf8EncodeChar]
      have := c.utf8Size_pos
      omega
  · cases h

/-- Two texts with the same encoding are equal. -/
theorem encodeUtf8_inj {a b : Text} {bytes : ByteArray}
    (ha : encodeUtf8 a = .ok bytes) (hb : encodeUtf8 b = .ok bytes) : a = b :=
  (ofUtf8_of_encodeUtf8 ha).symm.trans (ofUtf8_of_encodeUtf8 hb)

/-- `sep.join(fields)` for a one-element separator. -/
def join (sep : CodePoint) (fields : List Text) : Text := List.intercalate [sep] fields

/-- Joining at least two fields puts the separator after the first one. -/
theorem join_cons_cons (sep : CodePoint) (a b : Text) (rest : List Text) :
    join sep (a :: b :: rest) = a ++ sep :: join sep (b :: rest) := by
  simp [join, List.intercalate, List.intersperse]

/-- A single field is its own join. -/
theorem join_singleton (sep : CodePoint) (a : Text) : join sep [a] = a := by
  simp [join, List.intercalate, List.intersperse]

end Text

/-- Membership in `[A-Za-z0-9_.:-]`. -/
def isTokenChar (c : CodePoint) : Bool :=
  (65 ≤ c.val && c.val ≤ 90) || (97 ≤ c.val && c.val ≤ 122) || (48 ≤ c.val && c.val ≤ 57) ||
    c.val == 95 || c.val == 46 || c.val == 58 || c.val == 45

/-- `_TOKEN.fullmatch`: one to 128 token characters. -/
def isToken (t : Text) : Bool := 1 ≤ t.length && t.length ≤ 128 && t.all isTokenChar

/-- Membership in `[0-9a-f]`. -/
def isHexChar (c : CodePoint) : Bool :=
  (48 ≤ c.val && c.val ≤ 57) || (97 ≤ c.val && c.val ≤ 102)

/-- `_HASH.fullmatch`: exactly 64 lowercase hexadecimal digits. -/
def isHash (t : Text) : Bool := t.length == 64 && t.all isHexChar

/-- Hexadecimal text is ASCII. -/
theorem isAscii_of_hex {t : Text} (h : t.all isHexChar = true) : t.isAscii = true := by
  rw [Text.isAscii, List.all_eq_true]
  intro c hc
  have := List.all_eq_true.mp h c hc
  simp only [isHexChar, Bool.or_eq_true, Bool.and_eq_true, decide_eq_true_eq] at this
  exact decide_eq_true (by omega)

/-- A token is ASCII. -/
theorem isAscii_of_isToken {t : Text} (h : isToken t = true) : t.isAscii = true := by
  rw [isToken, Bool.and_eq_true] at h
  rw [Text.isAscii, List.all_eq_true]
  intro c hc
  have := List.all_eq_true.mp h.2 c hc
  simp only [isTokenChar, Bool.or_eq_true, Bool.and_eq_true, decide_eq_true_eq, beq_iff_eq] at this
  exact decide_eq_true (by omega)

end C3RSpec.Base
