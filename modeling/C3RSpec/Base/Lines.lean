import C3RSpec.Base.JsonLine

/-!
# Lines of a text

Library `Base`. `str.splitlines` ends a line at eleven characters and at the pair of a carriage
return and a line feed. Lines that hold none of them are found again in the text that joins them.
-/

namespace C3RSpec.Base

/-- The characters that end a line. -/
def isLineBreak (c : CodePoint) : Bool :=
  (10 ≤ c.val && c.val ≤ 13) || (28 ≤ c.val && c.val ≤ 30) || c == 0x85 || c == 0x2028 ||
    c == 0x2029

namespace Text

/-- `str.splitlines()`. -/
def splitLines : Text → List Text
  | [] => []
  | [c] => if isLineBreak c then [[]] else [[c]]
  | c :: d :: rest =>
    if c = 13 ∧ d = 10 then [] :: splitLines rest
    else if isLineBreak c then [] :: splitLines (d :: rest)
    else
      match splitLines (d :: rest) with
      | [] => [[c]]
      | line :: lines =>
        -- a line break directly after `c` ends the line that `c` starts
        (c :: line) :: lines

private theorem splitLines_break {c : CodePoint} (h : isLineBreak c = true) (hc : c ≠ 13)
    (t : Text) : splitLines (c :: t) = [] :: splitLines t := by
  cases t with
  | nil => simp only [splitLines, h, if_true]
  | cons d t => rw [splitLines, if_neg fun hp ↦ hc hp.1, if_pos h]

private theorem splitLines_cons {c : CodePoint} (h : isLineBreak c = false) {t line : Text}
    {lines : List Text} (ht : splitLines t = line :: lines) :
    splitLines (c :: t) = (c :: line) :: lines := by
  have hc : c ≠ 13 := by
    rintro rfl
    exact absurd h (by decide)
  cases t with
  | nil => cases ht
  | cons d t =>
    rw [splitLines, if_neg fun hp ↦ hc hp.1, h, ht]
    rfl

/-- A line is cut off at the line feed after it. -/
theorem splitLines_append {a : Text} (ha : ∀ c ∈ a, isLineBreak c = false) (t : Text) :
    splitLines (a ++ 10 :: t) = a :: splitLines t := by
  induction a with
  | nil => exact splitLines_break (by decide) (by decide) t
  | cons c a ih =>
    exact splitLines_cons (ha c List.mem_cons_self)
      (ih fun d hd ↦ ha d (List.mem_cons_of_mem c hd))

/-- A text without line breaks is one line. -/
theorem splitLines_of_forall {a : Text} (hne : a ≠ []) (ha : ∀ c ∈ a, isLineBreak c = false) :
    splitLines a = [a] := by
  induction a with
  | nil => exact absurd rfl hne
  | cons c a ih =>
    have hc := ha c List.mem_cons_self
    cases a with
    | nil =>
      rw [splitLines, hc]
      rfl
    | cons d a =>
      exact splitLines_cons hc (ih (by simp) fun e he ↦ ha e (List.mem_cons_of_mem c he))

/-- Splitting finds the lines that were joined by line feeds. -/
theorem splitLines_join {lines : List Text}
    (h : ∀ a ∈ lines, a ≠ [] ∧ ∀ c ∈ a, isLineBreak c = false) :
    splitLines (join 10 lines) = lines := by
  induction lines with
  | nil => rfl
  | cons a lines ih =>
    obtain ⟨hne, ha⟩ := h a List.mem_cons_self
    cases lines with
    | nil =>
      rw [join_singleton]
      exact splitLines_of_forall hne ha
    | cons b lines =>
      rw [join_cons_cons, splitLines_append ha, ih fun d hd ↦ h d (List.mem_cons_of_mem a hd)]

end Text

/-- What `ensure_ascii` writes holds no line break. -/
theorem OneLine.isLineBreak_eq_false {t : Text} (h : OneLine true t) {c : CodePoint} (hc : c ∈ t) :
    isLineBreak c = false := by
  obtain ⟨hlow, hhigh⟩ := h c hc
  have hlt := hhigh rfl
  have hne : ∀ d : CodePoint, 128 ≤ d.val → (c == d) = false := by
    intro d hd
    rw [beq_eq_false_iff_ne]
    rintro rfl
    omega
  rw [isLineBreak, hne 0x85 (by decide), hne 0x2028 (by decide), hne 0x2029 (by decide)]
  simp only [Bool.or_false, Bool.or_eq_false_iff, Bool.and_eq_false_iff, decide_eq_false_iff_not]
  omega

end C3RSpec.Base
