import C3RSpec.Base.JsonScalar

/-!
# JSON texts on one line

Library `Base`. `json.dumps` escapes every control character, so a JSON text holds no line break;
with `ensure_ascii` it is ASCII.
-/

namespace C3RSpec.Base

/-- No character is a control character; with the flag every one is ASCII. -/
def OneLine (ensureAscii : Bool) (t : Text) : Prop :=
  ∀ c ∈ t, 32 ≤ c.val ∧ (ensureAscii = true → c.val < 128)

variable {ensureAscii : Bool}

private theorem oneLine_nil : OneLine ensureAscii [] := fun _ hc ↦ by cases hc

private theorem oneLine_append {a b : Text} (ha : OneLine ensureAscii a)
    (hb : OneLine ensureAscii b) : OneLine ensureAscii (a ++ b) := by
  intro c hc
  obtain hc | hc := List.mem_append.mp hc
  · exact ha c hc
  · exact hb c hc

private theorem oneLine_cons {c : CodePoint} {t : Text} (hc : 32 ≤ c.val ∧ c.val < 128)
    (ht : OneLine ensureAscii t) : OneLine ensureAscii (c :: t) := by
  intro d hd
  obtain rfl | hd := List.mem_cons.mp hd
  · exact ⟨hc.1, fun _ ↦ hc.2⟩
  · exact ht d hd

private theorem oneLine_hexDigit (n : Nat) : 32 ≤ (hexDigit n).val ∧ (hexDigit n).val < 128 := by
  unfold hexDigit
  split
  · simp only
    omega
  · simp only
    omega

private theorem oneLine_unicodeEscape (n : Nat) : OneLine ensureAscii (unicodeEscape n) :=
  oneLine_cons (by decide) (oneLine_cons (by decide) (oneLine_cons (oneLine_hexDigit _)
    (oneLine_cons (oneLine_hexDigit _) (oneLine_cons (oneLine_hexDigit _)
      (oneLine_cons (oneLine_hexDigit _) oneLine_nil)))))

private theorem oneLine_escapeChar (c : CodePoint) :
    OneLine ensureAscii (escapeChar ensureAscii c) := by
  have two : ∀ d : CodePoint, 32 ≤ d.val ∧ d.val < 128 → OneLine ensureAscii [92, d] := fun d hd ↦
    oneLine_cons (by decide) (oneLine_cons hd oneLine_nil)
  unfold escapeChar
  split
  · exact two _ (by decide)
  · split
    · exact two _ (by decide)
    · split
      · exact two _ (by decide)
      · split
        · exact two _ (by decide)
        · split
          · exact two _ (by decide)
          · split
            · exact two _ (by decide)
            · split
              · exact two _ (by decide)
              · split
                · exact oneLine_unicodeEscape _
                · next hlow =>
                  split
                  · split
                    · exact oneLine_unicodeEscape _
                    · exact oneLine_append (oneLine_unicodeEscape _) (oneLine_unicodeEscape _)
                  · next hhigh =>
                    intro d hd
                    rw [List.mem_singleton.mp hd]
                    refine ⟨by omega, fun he ↦ ?_⟩
                    rw [he, Bool.true_and, decide_eq_true_eq] at hhigh
                    omega

private theorem oneLine_quote (t : Text) : OneLine ensureAscii (quote ensureAscii t) := by
  refine oneLine_cons (by decide) (oneLine_append ?_ (oneLine_cons (by decide) oneLine_nil))
  intro c hc
  obtain ⟨d, -, hc⟩ := List.mem_flatMap.mp hc
  exact oneLine_escapeChar d c hc

private theorem oneLine_of_numberChars {t : Text} (h : t.all isNumberChar = true) :
    OneLine ensureAscii t := by
  intro c hc
  have hn := List.all_eq_true.mp h c hc
  simp only [isNumberChar, isDigit, Bool.or_eq_true, Bool.and_eq_true, decide_eq_true_eq,
    beq_iff_eq] at hn
  have hlit : ∀ d : CodePoint, 32 ≤ d.val ∧ d.val < 128 → c = d →
      32 ≤ c.val ∧ (ensureAscii = true → c.val < 128) := fun d hd he ↦
    ⟨he ▸ hd.1, fun _ ↦ he ▸ hd.2⟩
  obtain ((((h | h) | h) | h) | h) | h := hn
  · exact ⟨by omega, fun _ ↦ by omega⟩
  · exact hlit _ (by decide) h
  · exact hlit _ (by decide) h
  · exact hlit _ (by decide) h
  · exact hlit _ (by decide) h
  · exact hlit _ (by decide) h

private theorem oneLine_of_all {t : Text}
    (h : t.all (fun c ↦ decide (32 ≤ c.val ∧ c.val < 128)) = true) : OneLine ensureAscii t := by
  intro c hc
  have hb := of_decide_eq_true (List.all_eq_true.mp h c hc)
  exact ⟨hb.1, fun _ ↦ hb.2⟩

private theorem oneLine_decimal (n : Nat) : OneLine ensureAscii (decimal n) := by
  intro c hc
  have hd := List.all_eq_true.mp (all_isDigit_decimal n) c hc
  simp only [isDigit, Bool.and_eq_true, decide_eq_true_eq] at hd
  exact ⟨by omega, fun _ ↦ by omega⟩

private theorem oneLine_decimalInt (n : Int) : OneLine ensureAscii (decimalInt n) := by
  cases n with
  | ofNat n => exact oneLine_decimal n
  | negSucc n => exact oneLine_cons (by decide) (oneLine_decimal (n + 1))

section Render

variable [FloatText]

private theorem oneLine_renderFloat (x : PyFloat) : OneLine ensureAscii (renderFloat x) := by
  cases x with
  | nan => exact oneLine_of_all (t := Text.ofString "NaN") (by decide)
  | negInf => exact oneLine_of_all (t := Text.ofString "-Infinity") (by decide)
  | posInf => exact oneLine_of_all (t := Text.ofString "Infinity") (by decide)
  | fin q =>
    have h := FloatText.isFloatLexeme_repr q
    simp only [isFloatLexeme, Bool.and_eq_true] at h
    exact oneLine_of_numberChars h.1.1

mutual

/-- The text of a value is on one line. -/
theorem Json.oneLine_render (j : Json) : OneLine ensureAscii (j.render ensureAscii) := by
  cases j with
  | null => exact oneLine_of_all (t := Text.ofString "null") (by decide)
  | bool b =>
    cases b with
    | true => exact oneLine_of_all (t := Text.ofString "true") (by decide)
    | false => exact oneLine_of_all (t := Text.ofString "false") (by decide)
  | int n => exact oneLine_decimalInt n
  | float x => exact oneLine_renderFloat x
  | str t => exact oneLine_quote t
  | arr xs =>
    exact oneLine_cons (by decide)
      (oneLine_append (oneLine_elements xs) (oneLine_cons (by decide) oneLine_nil))
  | obj es =>
    exact oneLine_cons (by decide)
      (oneLine_append (oneLine_members es) (oneLine_cons (by decide) oneLine_nil))

private theorem oneLine_elements (xs : List Json) :
    OneLine ensureAscii (renderElements ensureAscii xs) := by
  cases xs with
  | nil => exact oneLine_nil
  | cons x xs =>
    have hx := Json.oneLine_render x
    have hxs := oneLine_elements xs
    cases xs with
    | nil => exact hx
    | cons y ys => exact oneLine_append hx (oneLine_cons (by decide) hxs)

private theorem oneLine_members (es : List (Text × Json)) :
    OneLine ensureAscii (renderMembers ensureAscii es) := by
  cases es with
  | nil => exact oneLine_nil
  | cons e es =>
    obtain ⟨k, v⟩ := e
    have hk : OneLine ensureAscii (quote ensureAscii k) := oneLine_quote k
    have hv := Json.oneLine_render v
    have hes := oneLine_members es
    cases es with
    | nil => exact oneLine_append hk (oneLine_cons (by decide) hv)
    | cons f fs =>
      exact oneLine_append hk (oneLine_cons (by decide)
        (oneLine_append hv (oneLine_cons (by decide) hes)))

end

/-- A serialized value is on one line. -/
theorem oneLine_dumps {allowNan : Bool} {j : Json} {t : Text}
    (h : dumps ensureAscii allowNan j = .ok t) : OneLine ensureAscii t := by
  unfold dumps at h
  split at h
  · cases h
  · cases h
    exact Json.oneLine_render _

end Render

/-- There is no line break on one line. -/
theorem OneLine.notMem_newline {t : Text} (h : OneLine ensureAscii t) : 10 ∉ t := by
  intro hc
  have := (h 10 hc).1
  exact absurd this (by decide)

/-- Two lines with their rests are told apart at the first line break. -/
theorem append_newline_inj {a b r s : Text} (ha : 10 ∉ a) (hb : 10 ∉ b)
    (h : a ++ 10 :: r = b ++ 10 :: s) : a = b ∧ r = s := by
  induction a generalizing b with
  | nil =>
    cases b with
    | nil => exact ⟨rfl, (List.cons.inj h).2⟩
    | cons d b =>
      have hd := (List.cons.inj h).1
      exact absurd (hd ▸ List.mem_cons_self) hb
  | cons c a ih =>
    cases b with
    | nil =>
      have hc := (List.cons.inj h).1
      exact absurd (hc ▸ List.mem_cons_self) ha
    | cons d b =>
      obtain ⟨rfl, ht⟩ := List.cons.inj h
      obtain ⟨rfl, rfl⟩ := ih (fun hm ↦ ha (List.mem_cons_of_mem _ hm))
        (fun hm ↦ hb (List.mem_cons_of_mem _ hm)) ht
      exact ⟨rfl, rfl⟩

/-- Two rests before their last lines are told apart at the last line break. -/
theorem newline_append_inj {a b r s : Text} (hr : 10 ∉ r) (hs : 10 ∉ s)
    (h : a ++ 10 :: r = b ++ 10 :: s) : a = b ∧ r = s := by
  have hrev : r.reverse ++ 10 :: a.reverse = s.reverse ++ 10 :: b.reverse := by
    have := congrArg List.reverse h
    simpa using this
  obtain ⟨h1, h2⟩ := append_newline_inj (fun hm ↦ hr (List.mem_reverse.mp hm))
    (fun hm ↦ hs (List.mem_reverse.mp hm)) hrev
  exact ⟨List.reverse_injective h2, List.reverse_injective h1⟩

end C3RSpec.Base
