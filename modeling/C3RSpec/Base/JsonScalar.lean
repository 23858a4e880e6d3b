import C3RSpec.Base.JsonSpaced

/-!
# Encodable JSON

Library `Base`. With `ensure_ascii=False` a JSON text holds the characters of its strings as they
are, so it can be encoded in UTF-8 exactly when no string holds a surrogate. With
`ensure_ascii=True` it always can.
-/

namespace C3RSpec.Base

namespace Text

/-- Two texts are encodable together when each is. -/
theorem isScalar_append_iff {a b : Text} : IsScalar (a ++ b) ↔ IsScalar a ∧ IsScalar b :=
  List.forall_mem_append

/-- A leading ASCII character changes nothing. -/
theorem isScalar_cons_iff {c : CodePoint} {t : Text} (hc : c.val < 128) :
    IsScalar (c :: t) ↔ IsScalar t := by
  have hone : IsScalar [c] := isScalar_of_isAscii (by simpa [isAscii] using hc)
  constructor
  · exact fun h d hd ↦ h d (List.mem_cons_of_mem c hd)
  · intro h d hd
    obtain rfl | hd := List.mem_cons.mp hd
    · exact hone d (List.mem_singleton_self d)
    · exact h d hd

end Text

/-- Elements are scalar one by one. -/
theorem elementsScalar_iff (xs : List Json) : ElementsScalar xs ↔ ∀ x ∈ xs, x.AllScalar := by
  induction xs with
  | nil => simp [ElementsScalar]
  | cons x xs ih => simp [ElementsScalar, ih]

/-- Members are scalar one by one. -/
theorem membersScalar_iff (es : List (Text × Json)) :
    MembersScalar es ↔ ∀ e ∈ es, e.1.IsScalar ∧ e.2.AllScalar := by
  induction es with
  | nil => simp [MembersScalar]
  | cons e es ih => simp [MembersScalar, ih, and_assoc]

mutual

/-- Sorting keeps every string. -/
theorem Json.allScalar_sortKeys (j : Json) : j.sortKeys.AllScalar ↔ j.AllScalar := by
  cases j with
  | arr xs => exact elementsScalar_sort xs
  | obj es =>
    rw [Json.sortKeys, Json.AllScalar, Json.AllScalar, membersScalar_iff, ← membersScalar_sort es,
      membersScalar_iff]
    exact forall_congr' fun e ↦ by rw [List.mem_insertionSort]
  | str t => exact Iff.rfl
  | null => exact Iff.rfl
  | bool b => exact Iff.rfl
  | int n => exact Iff.rfl
  | float x => exact Iff.rfl

private theorem elementsScalar_sort (xs : List Json) :
    ElementsScalar (sortElements xs) ↔ ElementsScalar xs := by
  cases xs with
  | nil => exact Iff.rfl
  | cons x xs => exact and_congr (Json.allScalar_sortKeys x) (elementsScalar_sort xs)

private theorem membersScalar_sort (es : List (Text × Json)) :
    MembersScalar (sortMembers es) ↔ MembersScalar es := by
  cases es with
  | nil => exact Iff.rfl
  | cons e es =>
    obtain ⟨k, v⟩ := e
    exact and_congr_right fun _ ↦ and_congr (Json.allScalar_sortKeys v) (membersScalar_sort es)

end

private theorem isScalar_hexDigit (n : Nat) : (hexDigit n).val < 128 := by
  unfold hexDigit
  split
  · simp only
    omega
  · simp only
    omega

private theorem isScalar_ascii {t : Text} (h : t.isAscii = true := by decide) : t.IsScalar :=
  Text.isScalar_of_isAscii h

private theorem isScalar_nil : Text.IsScalar [] := fun _ hc ↦ (nomatch hc)

private theorem isScalar_literal (s : String) (h : (Text.ofString s).isAscii = true := by decide) :
    (Text.ofString s).IsScalar :=
  Text.isScalar_of_isAscii h

private theorem isScalar_unicodeEscape (n : Nat) : Text.IsScalar (unicodeEscape n) := by
  unfold unicodeEscape
  iterate 2 rw [Text.isScalar_cons_iff (by decide)]
  iterate 4 rw [Text.isScalar_cons_iff (isScalar_hexDigit _)]
  exact isScalar_ascii

private theorem isScalar_escapeChar {ascii : Bool} {c : CodePoint}
    (h : ascii = false → Text.IsScalar [c]) : Text.IsScalar (escapeChar ascii c) := by
  unfold escapeChar
  split
  · exact isScalar_ascii
  · split
    · exact isScalar_ascii
    · split
      · exact isScalar_ascii
      · split
        · exact isScalar_ascii
        · split
          · exact isScalar_ascii
          · split
            · exact isScalar_ascii
            · split
              · exact isScalar_ascii
              · split
                · exact isScalar_unicodeEscape _
                · split
                  · split
                    · exact isScalar_unicodeEscape _
                    · exact Text.isScalar_append_iff.mpr
                        ⟨isScalar_unicodeEscape _, isScalar_unicodeEscape _⟩
                  · next hkept =>
                    -- an ASCII character, or one that `ensure_ascii` left alone
                    cases ascii with
                    | false => exact h rfl
                    | true =>
                      refine Text.isScalar_of_isAscii ?_
                      simp only [Bool.true_and, decide_eq_true_eq, not_lt] at hkept
                      simp only [Text.isAscii, List.all_cons, List.all_nil, Bool.and_true,
                        decide_eq_true_eq]
                      omega

private theorem escapeChar_of_le {c : CodePoint} (h : 128 ≤ c.val) : escapeChar false c = [c] := by
  have hne : ∀ d : CodePoint, d.val < 128 → c ≠ d := by
    rintro d hd rfl
    omega
  unfold escapeChar
  iterate 7 rw [if_neg (hne _ (by decide))]
  rw [if_neg (by omega), Bool.false_and, if_neg Bool.false_ne_true]

private theorem isScalar_escapeChar_iff {ascii : Bool} {c : CodePoint} :
    Text.IsScalar (escapeChar ascii c) ↔ (ascii = false → Text.IsScalar [c]) := by
  refine ⟨?_, isScalar_escapeChar⟩
  rintro h rfl
  by_cases hc : c.val < 128
  · exact (Text.isScalar_cons_iff hc).mpr isScalar_ascii
  · rwa [escapeChar_of_le (not_lt.mp hc)] at h

private theorem isScalar_quote_iff {ascii : Bool} {t : Text} :
    Text.IsScalar (quote ascii t) ↔ (ascii = false → t.IsScalar) := by
  rw [quote, Text.isScalar_cons_iff (by decide), Text.isScalar_append_iff,
    and_iff_left isScalar_ascii]
  induction t with
  | nil => exact ⟨fun _ _ ↦ isScalar_nil, fun _ ↦ isScalar_nil⟩
  | cons c t ih =>
    rw [List.flatMap_cons, Text.isScalar_append_iff, isScalar_escapeChar_iff, ih, ← imp_and,
      ← Text.isScalar_append_iff, List.singleton_append]

private theorem isScalar_of_numberChars {t : Text} (h : t.all isNumberChar = true) :
    t.IsScalar := by
  refine Text.isScalar_of_isAscii (List.all_eq_true.mpr fun c hc ↦ decide_eq_true ?_)
  have hn := List.all_eq_true.mp h c hc
  simp only [isNumberChar, isDigit, Bool.or_eq_true, Bool.and_eq_true, decide_eq_true_eq,
    beq_iff_eq] at hn
  have hlit : ∀ d : CodePoint, d.val < 128 → c = d → c.val < 128 := fun d hd he ↦ he ▸ hd
  obtain ((((h | h) | h) | h) | h) | h := hn
  · omega
  · exact hlit _ (by decide) h
  · exact hlit _ (by decide) h
  · exact hlit _ (by decide) h
  · exact hlit _ (by decide) h
  · exact hlit _ (by decide) h

private theorem isScalar_decimal (n : Nat) : (decimal n).IsScalar := by
  refine Text.isScalar_of_isAscii (List.all_eq_true.mpr fun c hc ↦ decide_eq_true ?_)
  have hd := List.all_eq_true.mp (all_isDigit_decimal n) c hc
  simp only [isDigit, Bool.and_eq_true, decide_eq_true_eq] at hd
  omega

private theorem isScalar_decimalInt (n : Int) : (decimalInt n).IsScalar := by
  cases n with
  | ofNat n => exact isScalar_decimal n
  | negSucc n => exact (Text.isScalar_cons_iff (by decide)).mpr (isScalar_decimal (n + 1))

section Render

variable [FloatText]

private theorem isScalar_renderFloat (x : PyFloat) : (renderFloat x).IsScalar := by
  cases x with
  | nan => exact isScalar_literal "NaN"
  | negInf => exact isScalar_literal "-Infinity"
  | posInf => exact isScalar_literal "Infinity"
  | fin q =>
    have h := FloatText.isFloatLexeme_repr q
    simp only [isFloatLexeme, Bool.and_eq_true] at h
    exact isScalar_of_numberChars h.1.1

variable (ascii : Bool)

omit [FloatText] in
-- A value without strings, whose text is ASCII.
private theorem isScalar_iff_of_plain {t : Text} (h : t.IsScalar) :
    t.IsScalar ↔ (ascii = false → True) :=
  ⟨fun _ _ ↦ trivial, fun _ ↦ h⟩

mutual

/-- A text is encodable when everything was escaped, or when no string holds a surrogate. -/
theorem Json.isScalar_render (j : Json) :
    (j.render ascii).IsScalar ↔ (ascii = false → j.AllScalar) := by
  cases j with
  | null => exact isScalar_iff_of_plain ascii (isScalar_literal "null")
  | bool b =>
    cases b with
    | true => exact isScalar_iff_of_plain ascii (isScalar_literal "true")
    | false => exact isScalar_iff_of_plain ascii (isScalar_literal "false")
  | int n => exact isScalar_iff_of_plain ascii (isScalar_decimalInt n)
  | float x => exact isScalar_iff_of_plain ascii (isScalar_renderFloat x)
  | str t => exact isScalar_quote_iff
  | arr xs =>
    rw [Json.render, Text.isScalar_cons_iff (by decide), Text.isScalar_append_iff,
      and_iff_left isScalar_ascii]
    exact isScalar_elements xs
  | obj es =>
    rw [Json.render, Text.isScalar_cons_iff (by decide), Text.isScalar_append_iff,
      and_iff_left isScalar_ascii]
    exact isScalar_members es

private theorem isScalar_elements (xs : List Json) :
    (renderElements ascii xs).IsScalar ↔ (ascii = false → ElementsScalar xs) := by
  cases xs with
  | nil => exact isScalar_iff_of_plain ascii isScalar_nil
  | cons x xs =>
    have hx := Json.isScalar_render x
    have hxs := isScalar_elements xs
    rw [ElementsScalar, imp_and, ← hx, ← hxs]
    cases xs with
    | nil => exact (and_iff_left isScalar_nil).symm
    | cons y ys =>
      rw [renderElements, Text.isScalar_append_iff, Text.isScalar_cons_iff (by decide)]

private theorem isScalar_members (es : List (Text × Json)) :
    (renderMembers ascii es).IsScalar ↔ (ascii = false → MembersScalar es) := by
  cases es with
  | nil => exact isScalar_iff_of_plain ascii isScalar_nil
  | cons e es =>
    obtain ⟨k, v⟩ := e
    have hv := Json.isScalar_render v
    have hes := isScalar_members es
    rw [MembersScalar, imp_and, imp_and, ← isScalar_quote_iff, ← hv, ← hes]
    cases es with
    | nil =>
      rw [renderMembers]
      change Text.IsScalar (quote ascii k ++ 58 :: v.render ascii) ↔ _
      rw [Text.isScalar_append_iff, Text.isScalar_cons_iff (by decide)]
      exact and_congr_right fun _ ↦ (and_iff_left isScalar_nil).symm
    | cons f fs =>
      rw [renderMembers, Text.isScalar_append_iff, Text.isScalar_cons_iff (by decide),
        Text.isScalar_append_iff, Text.isScalar_cons_iff (by decide)]

end

mutual

/-- The same with the default separators. -/
theorem Json.isScalar_renderSpaced (j : Json) :
    (j.renderSpaced ascii).IsScalar ↔ (ascii = false → j.AllScalar) := by
  cases j with
  | null => exact isScalar_iff_of_plain ascii (isScalar_literal "null")
  | bool b =>
    cases b with
    | true => exact isScalar_iff_of_plain ascii (isScalar_literal "true")
    | false => exact isScalar_iff_of_plain ascii (isScalar_literal "false")
  | int n => exact isScalar_iff_of_plain ascii (isScalar_decimalInt n)
  | float x => exact isScalar_iff_of_plain ascii (isScalar_renderFloat x)
  | str t => exact isScalar_quote_iff
  | arr xs =>
    rw [Json.renderSpaced, Text.isScalar_cons_iff (by decide), Text.isScalar_append_iff,
      and_iff_left isScalar_ascii]
    exact isScalar_spacedElements xs
  | obj es =>
    rw [Json.renderSpaced, Text.isScalar_cons_iff (by decide), Text.isScalar_append_iff,
      and_iff_left isScalar_ascii]
    exact isScalar_spacedMembers es

private theorem isScalar_spacedElements (xs : List Json) :
    (spacedElements ascii xs).IsScalar ↔ (ascii = false → ElementsScalar xs) := by
  cases xs with
  | nil => exact isScalar_iff_of_plain ascii isScalar_nil
  | cons x xs =>
    have hx := Json.isScalar_renderSpaced x
    have hxs := isScalar_spacedElements xs
    rw [ElementsScalar, imp_and, ← hx, ← hxs]
    cases xs with
    | nil => exact (and_iff_left isScalar_nil).symm
    | cons y ys =>
      rw [spacedElements, Text.isScalar_append_iff]
      iterate 2 rw [Text.isScalar_cons_iff (by decide)]

private theorem isScalar_spacedMembers (es : List (Text × Json)) :
    (spacedMembers ascii es).IsScalar ↔ (ascii = false → MembersScalar es) := by
  cases es with
  | nil => exact isScalar_iff_of_plain ascii isScalar_nil
  | cons e es =>
    obtain ⟨k, v⟩ := e
    have hv := Json.isScalar_renderSpaced v
    have hes := isScalar_spacedMembers es
    rw [MembersScalar, imp_and, imp_and, ← isScalar_quote_iff, ← hv, ← hes]
    cases es with
    | nil =>
      rw [spacedMembers]
      change Text.IsScalar (quote ascii k ++ 58 :: 32 :: v.renderSpaced ascii) ↔ _
      rw [Text.isScalar_append_iff]
      iterate 2 rw [Text.isScalar_cons_iff (by decide)]
      exact and_congr_right fun _ ↦ (and_iff_left isScalar_nil).symm
    | cons f fs =>
      rw [spacedMembers, Text.isScalar_append_iff]
      iterate 2 rw [Text.isScalar_cons_iff (by decide)]
      rw [Text.isScalar_append_iff]
      iterate 2 rw [Text.isScalar_cons_iff (by decide)]

end

/-- What was escaped is encodable. -/
theorem Json.isScalar_render_escaped (j : Json) : (j.render true).IsScalar := by
  rw [Json.isScalar_render]
  intro h
  cases h

/-- What `json.dumps` returns is encodable when everything was escaped, or when no string holds a
surrogate. -/
theorem isScalar_dumps {allowNan : Bool} {j : Json} {t : Text}
    (hd : dumps ascii allowNan j = .ok t) : t.IsScalar ↔ (ascii = false → j.AllScalar) := by
  unfold dumps at hd
  split at hd
  · cases hd
  · cases hd
    rw [Json.isScalar_render, Json.allScalar_sortKeys]

end Render

end C3RSpec.Base
