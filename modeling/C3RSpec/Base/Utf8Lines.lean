import C3RSpec.Base.Bytes

/-!
# Lines of encoded text

Library `Base`. In UTF-8 a byte below 128 is a character of its own. The bytes of a text without
control characters hold no line break, so what was written line by line is read back line by line.
-/

namespace C3RSpec.Base

/-- `t.encode("utf-8")` is `b`. -/
def Text.Encodes (t : Text) (b : Bytes) : Prop :=
  ∃ bytes, t.encodeUtf8 = .ok bytes ∧ bytes.data.toList = b

/-- No byte is a control character. -/
def Bytes.Plain (b : Bytes) : Prop := ∀ x ∈ b, 32 ≤ x.toNat

/-- `readline` of a binary stream, again and again: the line break stays at the end of a line. -/
def Bytes.readLines : Bytes → List Bytes
  | [] => []
  | 10 :: rest => [10] :: readLines rest
  | b :: rest =>
    match readLines rest with
    | [] => [[b]]
    | line :: lines => (b :: line) :: lines

namespace Text

/-- The bytes of a text begin with those of its first character. -/
theorem encodes_cons {c : CodePoint} {t : Text} {b : Bytes} : Encodes (c :: t) b ↔
    ∃ d rest, CodePoint.toChar? c = some d ∧ Encodes t rest ∧ b = String.utf8EncodeChar d ++ rest := by
  unfold Encodes encodeUtf8
  rw [List.mapM_cons]
  cases CodePoint.toChar? c with
  | none => simp
  | some d =>
    cases t.mapM CodePoint.toChar? with
    | none => simp
    | some cs =>
      constructor
      · rintro ⟨bytes, h, rfl⟩
        cases h
        exact ⟨d, cs.flatMap String.utf8EncodeChar, rfl, ⟨_, rfl, rfl⟩, rfl⟩
      · rintro ⟨d', rest, hd, ⟨bytes, h, rfl⟩, rfl⟩
        cases hd
        cases h
        exact ⟨_, rfl, rfl⟩

/-- No text, no bytes. -/
@[simp] theorem encodes_nil {b : Bytes} : Encodes [] b ↔ b = [] := by
  constructor
  · rintro ⟨bytes, h, rfl⟩
    cases h
    rfl
  · rintro rfl
    exact ⟨⟨#[]⟩, rfl, rfl⟩

/-- The bytes of two texts, one after the other. -/
theorem encodes_append {s t : Text} {b : Bytes} :
    Encodes (s ++ t) b ↔ ∃ x y, Encodes s x ∧ Encodes t y ∧ b = x ++ y := by
  induction s generalizing b with
  | nil => simp
  | cons c s ih =>
    rw [List.cons_append, encodes_cons]
    constructor
    · rintro ⟨d, rest, hd, hrest, rfl⟩
      obtain ⟨x, y, hx, hy, rfl⟩ := ih.mp hrest
      refine ⟨String.utf8EncodeChar d ++ x, y, encodes_cons.mpr ⟨d, x, hd, hx, rfl⟩, hy, ?_⟩
      rw [List.append_assoc]
    · rintro ⟨x, y, hx, hy, rfl⟩
      obtain ⟨d, rest, hd, hrest, rfl⟩ := encodes_cons.mp hx
      refine ⟨d, rest ++ y, hd, ih.mpr ⟨rest, y, hrest, hy, rfl⟩, ?_⟩
      rw [List.append_assoc]

/-- The bytes of a text are its own. -/
theorem Encodes.unique {t : Text} {b b' : Bytes} (h : Encodes t b) (h' : Encodes t b') : b = b' := by
  obtain ⟨bytes, hb, rfl⟩ := h
  obtain ⟨bytes', hb', rfl⟩ := h'
  rw [hb] at hb'
  cases hb'
  rfl

/-- An ASCII character is one byte. -/
private theorem utf8EncodeChar_of_lt {c : CodePoint} {d : Char} (h : CodePoint.toChar? c = some d)
    (hlt : c.val < 128) : String.utf8EncodeChar d = [UInt8.ofNat c.val] := by
  have hval : d.val.toNat = c.val := congrArg Fin.val (CodePoint.ofChar_of_toChar? h).symm ▸ rfl
  unfold String.utf8EncodeChar
  simp only [hval]
  rw [if_pos (by omega)]

/-- ASCII text is its bytes. -/
theorem encodes_ofAscii {t : Text} (h : t.isAscii = true) : Encodes t (Bytes.ofAscii t) := by
  induction t with
  | nil => exact encodes_nil.mpr rfl
  | cons c t ih =>
    rw [isAscii, List.all_cons, Bool.and_eq_true, decide_eq_true_eq] at h
    obtain ⟨d, hd⟩ := Option.isSome_iff_exists.mp
      (isScalar_of_isAscii (t := [c]) (by rw [isAscii, List.all_cons, decide_eq_true h.1]; rfl) c
        (List.mem_singleton_self c))
    refine encodes_cons.mpr ⟨d, _, hd, ih h.2, ?_⟩
    rw [utf8EncodeChar_of_lt hd h.1]
    rfl

/-- The bytes of a character that is no control character. -/
private theorem plain_utf8EncodeChar {c : CodePoint} {d : Char} (h : CodePoint.toChar? c = some d)
    (hplain : 32 ≤ c.val) : Bytes.Plain (String.utf8EncodeChar d) := by
  have hval : d.val.toNat = c.val := congrArg Fin.val (CodePoint.ofChar_of_toChar? h).symm ▸ rfl
  have hbyte : ∀ n, n < 256 → (UInt8.ofNat n).toNat = n := fun n ↦ UInt8.toNat_ofNat_of_lt
  intro x hx
  unfold String.utf8EncodeChar at hx
  simp only [hval] at hx
  split at hx
  · next hlt =>
    rw [List.mem_singleton.mp hx, hbyte _ (by omega)]
    exact hplain
  · split at hx
    · simp only [List.mem_cons, List.not_mem_nil, or_false] at hx
      obtain rfl | rfl := hx <;> (rw [hbyte _ (by omega)]; omega)
    · split at hx
      · simp only [List.mem_cons, List.not_mem_nil, or_false] at hx
        obtain rfl | rfl | rfl := hx <;> (rw [hbyte _ (by omega)]; omega)
      · simp only [List.mem_cons, List.not_mem_nil, or_false] at hx
        obtain rfl | rfl | rfl | rfl := hx <;> (rw [hbyte _ (by omega)]; omega)

/-- The bytes of a text without control characters. -/
theorem Encodes.plain {t : Text} {b : Bytes} (h : Encodes t b) (ht : ∀ c ∈ t, 32 ≤ c.val) :
    b.Plain := by
  induction t generalizing b with
  | nil =>
    rw [encodes_nil.mp h]
    exact fun x hx ↦ by cases hx
  | cons c t ih =>
    obtain ⟨d, rest, hd, hrest, rfl⟩ := encodes_cons.mp h
    intro x hx
    obtain hx | hx := List.mem_append.mp hx
    · exact plain_utf8EncodeChar hd (ht c List.mem_cons_self) x hx
    · exact ih hrest (fun c' hc' ↦ ht c' (List.mem_cons_of_mem c hc')) x hx

end Text

namespace Bytes

/-- No line break. -/
theorem Plain.ne_break {b : Bytes} (h : b.Plain) {x : UInt8} (hx : x ∈ b) : x ≠ 10 ∧ x ≠ 13 := by
  have hle := h x hx
  constructor
  · rintro rfl
    exact absurd hle (by decide)
  · rintro rfl
    exact absurd hle (by decide)

/-- A line without line breaks is read up to the break that follows it. -/
theorem readLines_append {a : Bytes} (ha : a.Plain) (rest : Bytes) :
    readLines (a ++ 10 :: rest) = (a ++ [10]) :: readLines rest := by
  induction a with
  | nil => rw [List.nil_append, readLines, List.nil_append]
  | cons x a ih =>
    have hx := (ha.ne_break List.mem_cons_self).1
    have ih := ih fun y hy ↦ ha y (List.mem_cons_of_mem x hy)
    rw [List.cons_append, readLines, ih]
    · rfl
    · exact hx

/-- The same of `splitlines`, which drops the break. -/
theorem splitLines_append {a : Bytes} (ha : a.Plain) (rest : Bytes) :
    splitLines (a ++ 10 :: rest) = a :: splitLines rest := by
  induction a with
  | nil => rw [List.nil_append, splitLines]
  | cons x a ih =>
    obtain ⟨hten, hthirteen⟩ := ha.ne_break List.mem_cons_self
    have ih := ih fun y hy ↦ ha y (List.mem_cons_of_mem x hy)
    rw [List.cons_append, splitLines, ih]
    · exact hten
    · exact fun _ h _ ↦ hthirteen h
    · exact hthirteen

/-- Nothing is stripped where the first and the last byte are not blank. -/
theorem strip_of_ends {x y : UInt8} (hx : isBlank x = false) (hy : isBlank y = false) (mid : Bytes) :
    strip (32 :: x :: (mid ++ [y])) = x :: (mid ++ [y]) := by
  have hspace : isBlank 32 = true := by decide
  have hreverse : (x :: (mid ++ [y])).reverse = y :: (mid.reverse ++ [x]) := by simp
  unfold strip
  rw [List.dropWhile_cons_of_pos hspace,
    List.dropWhile_cons_of_neg (by rw [hx]; exact Bool.false_ne_true), hreverse,
    List.dropWhile_cons_of_neg (by rw [hy]; exact Bool.false_ne_true), ← hreverse, List.reverse_reverse]

end Bytes

end C3RSpec.Base
