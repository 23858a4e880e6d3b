import Mathlib.Algebra.Order.Ring.Rat
import Mathlib.Order.WithBot
import Mathlib.Tactic.NormNum.Basic

/-!
# Python floats

Library `Base`. A `float` is a finite number, an infinity or NaN; comparisons with NaN are
false. The operations on finite values are exact; where a computation depends on rounding and
overflow, the arithmetic of the machine is a parameter (`FloatRound`).
-/

namespace C3RSpec.Base

/-- A Python `float`, exact where it is finite. -/
inductive PyFloat where
  | nan
  | negInf
  | posInf
  | fin (q : ℚ)
  deriving DecidableEq

namespace PyFloat

/-- `math.isfinite`. -/
def isFinite : PyFloat → Bool
  | .fin _ => true
  | .nan | .negInf | .posInf => false

/-- The value of a finite float. -/
def toRat : PyFloat → ℚ
  | .fin q => q
  | .nan | .negInf | .posInf => 0

/-- `x < y`. -/
def lt : PyFloat → PyFloat → Bool
  | .nan, _ => false
  | _, .nan => false
  | _, .negInf => false
  | .negInf, _ => true
  | .posInf, _ => false
  | _, .posInf => true
  | .fin a, .fin b => decide (a < b)

/-- `x == y`, which NaN never satisfies. -/
def beq : PyFloat → PyFloat → Bool
  | .nan, _ => false
  | .negInf, .negInf => true
  | .posInf, .posInf => true
  | .fin a, .fin b => decide (a = b)
  | _, _ => false

/-- `x <= y`. -/
def le (x y : PyFloat) : Bool := lt x y || beq x y

/-- `-x`. -/
def neg : PyFloat → PyFloat
  | .nan => .nan
  | .negInf => .posInf
  | .posInf => .negInf
  | .fin a => .fin (-a)

/-- `x - y`. -/
def sub : PyFloat → PyFloat → PyFloat
  | .nan, _ => .nan
  | _, .nan => .nan
  | .posInf, .posInf => .nan
  | .negInf, .negInf => .nan
  | .posInf, _ => .posInf
  | .negInf, _ => .negInf
  | _, .posInf => .negInf
  | _, .negInf => .posInf
  | .fin a, .fin b => .fin (a - b)

/-- `x + y`. -/
def add (x y : PyFloat) : PyFloat := sub x (neg y)

/-- `x / y`, where `y` is not zero. -/
def div : PyFloat → PyFloat → PyFloat
  | .fin a, .fin b => .fin (a / b)
  | .nan, _ => .nan
  | _, .nan => .nan
  | .fin _, .posInf => .fin 0
  | .fin _, .negInf => .fin 0
  | .posInf, y => if y.isFinite then (if lt y (.fin 0) then .negInf else .posInf) else .nan
  | .negInf, y => if y.isFinite then (if lt y (.fin 0) then .posInf else .negInf) else .nan

/-- `x * y`; zero times an infinity is NaN. -/
def mul : PyFloat → PyFloat → PyFloat
  | .fin a, .fin b => .fin (a * b)
  | .nan, _ => .nan
  | _, .nan => .nan
  | x, y =>
    if beq x (.fin 0) || beq y (.fin 0) then .nan
    else if lt x (.fin 0) == lt y (.fin 0) then .posInf else .negInf

attribute [grind] lt beq le neg sub add div mul

@[simp] theorem lt_fin (a b : ℚ) : lt (.fin a) (.fin b) = decide (a < b) := rfl

@[simp] theorem beq_fin (a b : ℚ) : beq (.fin a) (.fin b) = decide (a = b) := rfl

/-- Finite values are compared as rationals. -/
@[simp] theorem le_fin (a b : ℚ) : le (.fin a) (.fin b) = decide (a ≤ b) := by
  simp [le, le_iff_lt_or_eq]

@[simp] theorem sub_fin (a b : ℚ) : sub (.fin a) (.fin b) = .fin (a - b) := rfl

/-- Outside NaN, what is not at most `y` is above `y`. -/
theorem lt_of_not_le {x y : PyFloat} (hx : x ≠ .nan) (hy : y ≠ .nan) (h : le x y = false) :
    lt y x = true := by
  cases x with
  | nan => exact absurd rfl hx
  | negInf => cases y <;> simp_all [le, lt, beq]
  | posInf => cases y <;> simp_all [le, lt, beq]
  | fin a =>
    cases y with
    | nan => exact absurd rfl hy
    | negInf => rfl
    | posInf => simp [le, lt] at h
    | fin b =>
      rw [le_fin, decide_eq_false_iff_not, not_le] at h
      rw [lt_fin]
      exact decide_eq_true h

/-- Outside NaN, what is not below `y` is at least `y`. -/
theorem le_of_not_lt {x y : PyFloat} (hx : x ≠ .nan) (hy : y ≠ .nan) (h : lt x y = false) :
    le y x = true := by
  cases x with
  | nan => exact absurd rfl hx
  | negInf => cases y <;> simp_all [le, lt, beq]
  | posInf => cases y <;> simp_all [le, lt, beq]
  | fin a =>
    cases y with
    | nan => exact absurd rfl hy
    | negInf => rfl
    | posInf => simp [lt] at h
    | fin b =>
      rw [lt_fin, decide_eq_false_iff_not, not_lt] at h
      rw [le_fin]
      exact decide_eq_true h

/-- What is below is at most. -/
theorem le_of_lt {x y : PyFloat} (h : lt x y = true) : le x y = true := by
  rw [le, h, Bool.true_or]

theorem le_self {x : PyFloat} (h : x ≠ .nan) : le x x = true := by
  cases x with
  | nan => exact absurd rfl h
  | negInf => rfl
  | posInf => rfl
  | fin a => simp

theorem le_trans {x y z : PyFloat} (h : le x y = true) (h' : le y z = true) : le x z = true := by
  cases x <;> cases y <;> cases z <;> simp_all [le, lt, beq]
  next a b c =>
    rw [← le_iff_lt_or_eq] at h h' ⊢
    exact h.trans h'

/-- What is below a value is below what it is at most. -/
theorem lt_of_le_of_lt {x y z : PyFloat} (h : le x y = true) (h' : lt y z = true) : lt x z = true := by
  cases x <;> cases y <;> cases z <;> simp_all [le, lt, beq]
  next a b c =>
    rw [← le_iff_lt_or_eq] at h
    exact h.trans_lt h'

/-- A comparison that holds has no NaN on its right. -/
theorem ne_nan_of_le {x y : PyFloat} (h : le x y = true) : y ≠ .nan := by
  rintro rfl
  cases x <;> cases h

/-- A comparison that holds has no NaN on its left. -/
theorem ne_nan_of_le_left {x y : PyFloat} (h : le x y = true) : x ≠ .nan := by
  rintro rfl
  cases h

/-- Two values that are at most each other are the same. -/
theorem le_antisymm {x y : PyFloat} (h : le x y = true) (h' : le y x = true) : x = y := by
  cases x <;> cases y <;> simp_all [le, lt, beq]
  next a b =>
    rw [← le_iff_lt_or_eq] at h h'
    exact h.antisymm h'

/-- Subtracting less leaves more, from a value with a difference. -/
theorem sub_le_sub {x y z : PyFloat} (h : le z y = true) (hx : x ≠ .negInf)
    (hn : sub x y ≠ .nan) : le (sub x y) (sub x z) = true := by
  cases x with
  | nan => exact absurd rfl hn
  | negInf => exact absurd rfl hx
  | posInf => cases y <;> cases z <;> simp_all [le, lt, beq, sub]
  | fin a =>
    cases y with
    | nan => exact absurd rfl hn
    | negInf => cases z <;> simp_all [le, lt, beq, sub]
    | posInf => cases z <;> simp_all [le, lt, beq, sub]
    | fin b =>
      cases z with
      | nan => cases h
      | negInf => rfl
      | posInf => cases h
      | fin c =>
        rw [le_fin, decide_eq_true_eq] at h
        rw [sub_fin, sub_fin, le_fin, decide_eq_true_eq]
        exact sub_le_sub_left h a

/-- A finite value has a rational. -/
theorem exists_of_isFinite {x : PyFloat} (h : x.isFinite = true) : ∃ q, x = .fin q := by
  cases x with
  | fin q => exact ⟨q, rfl⟩
  | nan => cases h
  | negInf => cases h
  | posInf => cases h

/-! ### The order outside NaN -/

/-- The place of a value between the infinities. -/
def rank : PyFloat → WithBot (WithTop ℚ)
  | .nan | .negInf => ⊥
  | .posInf => ((⊤ : WithTop ℚ) : WithBot (WithTop ℚ))
  | .fin q => ((q : WithTop ℚ) : WithBot (WithTop ℚ))

/-- Outside NaN values are compared by their places. -/
theorem lt_eq_decide_rank {x y : PyFloat} (hx : x ≠ .nan) (hy : y ≠ .nan) :
    lt x y = decide (rank x < rank y) := by
  cases x <;> cases y <;> simp_all [rank, lt]
  next q => exact decide_eq_true (WithBot.coe_lt_coe.mpr (WithTop.coe_lt_top q))

/-- Outside NaN values are equal when their places are. -/
theorem beq_eq_decide_rank {x y : PyFloat} (hx : x ≠ .nan) (hy : y ≠ .nan) :
    beq x y = decide (rank x = rank y) := by
  cases x <;> cases y <;> simp_all [rank, beq]

/-- Outside NaN, at most is at most by place. -/
theorem le_iff_rank {x y : PyFloat} (hx : x ≠ .nan) (hy : y ≠ .nan) :
    le x y = true ↔ rank x ≤ rank y := by
  rw [le, lt_eq_decide_rank hx hy, beq_eq_decide_rank hx hy, Bool.or_eq_true, decide_eq_true_eq,
    decide_eq_true_eq, le_iff_lt_or_eq]

end PyFloat

/-! ### Rounding -/

/-- The arithmetic of the machine: the nearest `float` of a number, and the difference and the
product of two finite `float`s. An integer that 53 bits hold is a `float`, and integers below
`2^1024 - 2^970` do not overflow. -/
class FloatRound where
  round : ℚ → PyFloat
  sub : ℚ → ℚ → PyFloat
  mul : ℚ → ℚ → PyFloat
  round_of_small : ∀ n : Int, n.natAbs ≤ 2 ^ 53 → round n = .fin n
  round_isInt : ∀ (n : Int) (q : ℚ), round n = .fin q → ∃ m : Int, q = m
  round_of_lt : ∀ n : Int, n.natAbs < 2 ^ 1024 - 2 ^ 970 → ∃ q, round n = .fin q ∧ (0 ≤ n → 0 ≤ q)
  sub_of_nonneg : ∀ a b, 0 ≤ b → sub a b = .negInf ∨ ∃ q, sub a b = .fin q
  mul_of_nonneg : ∀ a b, 0 ≤ a → 0 ≤ b → mul a b = .posInf ∨ ∃ q, mul a b = .fin q ∧ 0 ≤ q

/-- Arithmetic in which every number is a `float`. -/
@[reducible] def FloatRound.exact : FloatRound where
  round q := .fin q
  sub a b := .fin (a - b)
  mul a b := .fin (a * b)
  round_of_small _ _ := rfl
  round_isInt n _ h := ⟨n, (PyFloat.fin.inj h).symm⟩
  round_of_lt n _ := ⟨n, rfl, fun h ↦ by exact_mod_cast h⟩
  sub_of_nonneg a b _ := .inr ⟨a - b, rfl⟩
  mul_of_nonneg a b ha hb := .inr ⟨a * b, rfl, mul_nonneg ha hb⟩

namespace PyFloat

variable [FloatRound]

/-- A finite value as a `float`. -/
def rounded : PyFloat → PyFloat
  | .fin q => FloatRound.round q
  | x => x

/-- `x - y` with rounding. -/
def subRounded : PyFloat → PyFloat → PyFloat
  | .fin a, .fin b => FloatRound.sub a b
  | x, y => sub x y

/-- `x * y` with rounding. -/
def mulRounded : PyFloat → PyFloat → PyFloat
  | .fin a, .fin b => FloatRound.mul a b
  | x, y => mul x y

/-- Taking away what is not negative does not overflow upwards. -/
theorem subRounded_cases {x y : PyFloat} (hx : x = .negInf ∨ ∃ q, x = .fin q)
    (hy : y = .posInf ∨ ∃ q, y = .fin q ∧ 0 ≤ q) :
    subRounded x y = .negInf ∨ ∃ q, subRounded x y = .fin q := by
  obtain rfl | ⟨a, rfl⟩ := hx
  · obtain rfl | ⟨b, rfl, -⟩ := hy
    · exact .inl rfl
    · exact .inl rfl
  · obtain rfl | ⟨b, rfl, hb⟩ := hy
    · exact .inl rfl
    · exact FloatRound.sub_of_nonneg a b hb

end PyFloat

end C3RSpec.Base
