import C3RSpec.Base.Text
import Mathlib.Data.Nat.Digits.Lemmas
import Mathlib.Data.Nat.Digits.Defs

/-!
# Decimal text

Library `Base`. `str(n)` of a natural number and of an integer, its inverse, and zero-padded
fixed-width fields. Texts of fixed-width fields are ordered as their numbers, which is what
lets ISO timestamps be compared as strings.
-/

namespace C3RSpec.Base

/-- The ASCII digit of a number below ten. -/
def digitChar (d : Nat) : CodePoint := ⟨48 + d % 10, by omega⟩

/-- Membership in `[0-9]`. -/
def isDigit (c : CodePoint) : Bool := 48 ≤ c.val && c.val ≤ 57

/-- `str(n)` of a natural number. -/
def decimal (n : Nat) : Text :=
  if n = 0 then [digitChar 0] else (Nat.digits 10 n).reverse.map digitChar

/-- The number a digit text denotes. -/
def decimalValue (t : Text) : Nat := Nat.ofDigits 10 (t.reverse.map fun c ↦ c.val - 48)

/-- Every decimal digit is a digit. -/
theorem isDigit_digitChar (d : Nat) : isDigit (digitChar d) = true := by
  have h : 48 ≤ 48 + d % 10 ∧ 48 + d % 10 ≤ 57 := by omega
  simp [isDigit, digitChar, h]

private theorem map_digit_roundtrip {ds : List Nat} (h : ∀ d ∈ ds, d < 10) :
    (ds.map digitChar).map (fun c ↦ c.val - 48) = ds := by
  induction ds with
  | nil => rfl
  | cons d ds ih =>
    have hd : d < 10 := h d (by simp)
    rw [List.map_cons, List.map_cons, ih fun e he ↦ h e (by simp [he])]
    simp only [digitChar, List.cons.injEq, and_true]
    omega

/-- The text of a number denotes it. -/
theorem decimalValue_decimal (n : Nat) : decimalValue (decimal n) = n := by
  unfold decimal decimalValue
  split
  · next h =>
    subst h
    rfl
  · rw [← List.map_reverse, List.reverse_reverse,
      map_digit_roundtrip fun d hd ↦ Nat.digits_lt_base (by decide) hd,
      Nat.ofDigits_digits]

/-- A decimal text consists of digits. -/
theorem all_isDigit_decimal (n : Nat) : (decimal n).all isDigit = true := by
  unfold decimal
  split
  · simp [isDigit_digitChar]
  · simp [List.all_map, isDigit_digitChar]

/-- A decimal text is not empty. -/
theorem decimal_ne_nil (n : Nat) : decimal n ≠ [] := by
  unfold decimal
  split
  · simp
  · next h => simpa using Nat.digits_ne_nil_iff_ne_zero.mpr h

/-- Only zero has a leading zero. -/
theorem decimal_leading (n : Nat) :
    decimal n = [digitChar 0] ∨ (decimal n).head? ≠ some (digitChar 0) := by
  unfold decimal
  split
  · exact .inl rfl
  · next h =>
    refine .inr ?_
    have hne : Nat.digits 10 n ≠ [] := Nat.digits_ne_nil_iff_ne_zero.mpr h
    have hlast := Nat.getLast_digit_ne_zero 10 h
    have hlt : (Nat.digits 10 n).getLast hne < 10 :=
      Nat.digits_lt_base (by decide) (List.getLast_mem hne)
    rw [List.head?_map, List.head?_reverse, List.getLast?_eq_some_getLast hne, Option.map_some]
    intro he
    have hv := congrArg Fin.val (Option.some.inj he)
    simp only [digitChar] at hv
    omega

/-- `str(n)` of an integer. -/
def decimalInt : Int → Text
  | .ofNat n => decimal n
  | .negSucc n => 45 :: decimal (n + 1)

/-- `n` in exactly `width` digits; meaningful below `10 ^ width`. -/
def padded : Nat → Nat → Text
  | 0, _ => []
  | w + 1, n => digitChar (n / 10 ^ w) :: padded w (n % 10 ^ w)

/-- A field has its width. -/
@[simp] theorem length_padded (w n : Nat) : (padded w n).length = w := by
  induction w generalizing n with
  | zero => rfl
  | succ w ih => simp [padded, ih]

private theorem digitChar_lt_iff {a b : Nat} (ha : a < 10) (hb : b < 10) :
    digitChar a < digitChar b ↔ a < b := by
  simp only [digitChar, Fin.lt_def]
  omega

private theorem digitChar_inj {a b : Nat} (ha : a < 10) (hb : b < 10) :
    digitChar a = digitChar b ↔ a = b := by
  simp only [digitChar, Fin.mk.injEq]
  omega

private theorem div_pow_lt {n w : Nat} (h : n < 10 ^ (w + 1)) : n / 10 ^ w < 10 := by
  rw [Nat.div_lt_iff_lt_mul (by positivity)]
  rwa [Nat.pow_succ, Nat.mul_comm] at h

/-- Equal fields hold equal numbers. -/
theorem padded_inj {w m n : Nat} (hm : m < 10 ^ w) (hn : n < 10 ^ w) :
    padded w m = padded w n ↔ m = n := by
  induction w generalizing m n with
  | zero =>
    simp only [pow_zero, Nat.lt_one_iff] at hm hn
    simp [hm, hn]
  | succ w ih =>
    have hp : 0 < 10 ^ w := by positivity
    simp only [padded, List.cons.injEq, digitChar_inj (div_pow_lt hm) (div_pow_lt hn),
      ih (Nat.mod_lt m hp) (Nat.mod_lt n hp)]
    constructor
    · rintro ⟨hq, hr⟩
      rw [← Nat.div_add_mod m (10 ^ w), ← Nat.div_add_mod n (10 ^ w), hq, hr]
    · rintro rfl
      exact ⟨rfl, rfl⟩

/-- Fields are ordered as their numbers. -/
theorem padded_lt_iff {w m n : Nat} (hm : m < 10 ^ w) (hn : n < 10 ^ w) :
    padded w m < padded w n ↔ m < n := by
  induction w generalizing m n with
  | zero =>
    simp only [pow_zero, Nat.lt_one_iff] at hm hn
    simp [hm, hn, padded]
  | succ w ih =>
    have hp : 0 < 10 ^ w := by positivity
    simp only [padded, List.cons_lt_cons_iff, digitChar_lt_iff (div_pow_lt hm) (div_pow_lt hn),
      digitChar_inj (div_pow_lt hm) (div_pow_lt hn), ih (Nat.mod_lt m hp) (Nat.mod_lt n hp)]
    have em := Nat.div_add_mod m (10 ^ w)
    have en := Nat.div_add_mod n (10 ^ w)
    have rm := Nat.mod_lt m hp
    have rn := Nat.mod_lt n hp
    constructor
    · rintro (hq | ⟨hq, hr⟩)
      · have := Nat.mul_le_mul_left (10 ^ w) (Nat.succ_le_of_lt hq)
        rw [Nat.mul_succ] at this
        omega
      · rw [hq] at em
        omega
    · intro h
      have hle : m / 10 ^ w ≤ n / 10 ^ w := Nat.div_le_div_right h.le
      rcases Nat.lt_or_eq_of_le hle with hq | hq
      · exact .inl hq
      · refine .inr ⟨hq, ?_⟩
        rw [hq] at em
        omega

/-- Blocks of equal length are compared before what follows them. -/
theorem append_lt_append_iff {a b x y : Text} (h : a.length = b.length) :
    a ++ x < b ++ y ↔ a < b ∨ a = b ∧ x < y := by
  induction a generalizing b with
  | nil =>
    cases b with
    | nil => simp
    | cons c cs => simp at h
  | cons c cs ih =>
    cases b with
    | nil => simp at h
    | cons d ds =>
      have h' : cs.length = ds.length := by simpa using h
      simp only [List.cons_append, List.cons_lt_cons_iff, ih h', List.cons.injEq]
      tauto

end C3RSpec.Base
