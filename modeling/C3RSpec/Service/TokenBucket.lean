import Mathlib.Algebra.Order.Field.Rat
import Mathlib.Data.List.Basic
import Mathlib.Order.Lattice
import Mathlib.Tactic.FieldSimp
import Mathlib.Tactic.Linarith

/-!
# The token bucket

`c3r/http_service.py:37–64`, with exact arithmetic. A bucket refills with time up to its capacity
and every admitted call takes one token. The tokens left are the potential: a run takes no more
than it finds and what time adds, so every stretch of calls admits at most the capacity and the
refill between its ends.
-/

namespace C3RSpec.Service

/-- `TokenBucket`, with the check of its constructor. -/
structure TokenBucket where
  capacity : Int
  refill : ℚ
  tokens : ℚ
  last : ℚ
  positive : 1 ≤ capacity ∧ 0 < refill

namespace TokenBucket

/-- `__init__`, at the clock reading `now`. -/
def start (capacity : Int) (refillPerSecond now : ℚ) (h : 1 ≤ capacity ∧ 0 < refillPerSecond) :
    TokenBucket where
  capacity := capacity
  refill := refillPerSecond
  tokens := capacity
  last := now
  positive := h

/-- The tokens a call finds at the clock reading `now`. -/
def available (b : TokenBucket) (now : ℚ) : ℚ :=
  min b.capacity (b.tokens + max 0 (now - b.last) * b.refill)

/-- `take`, at the clock reading `now`. -/
def take (b : TokenBucket) (now : ℚ) : Bool × TokenBucket :=
  if b.available now < 1 then (false, { b with tokens := b.available now, last := now })
  else (true, { b with tokens := b.available now - 1, last := now })

/-- Calls of `take` at successive clock readings: their results and the bucket they leave. -/
def takes (b : TokenBucket) : List ℚ → List Bool × TokenBucket
  | [] => ([], b)
  | now :: rest =>
    let (taken, b) := b.take now
    let (results, b) := b.takes rest
    (taken :: results, b)

/-- The token count is between zero and the capacity. -/
def InBounds (b : TokenBucket) : Prop := 0 ≤ b.tokens ∧ b.tokens ≤ b.capacity

/-! ### One call -/

@[simp] theorem capacity_take (b : TokenBucket) (now : ℚ) : (b.take now).2.capacity = b.capacity := by
  rw [take]
  split <;> rfl

@[simp] theorem refill_take (b : TokenBucket) (now : ℚ) : (b.take now).2.refill = b.refill := by
  rw [take]
  split <;> rfl

@[simp] theorem last_take (b : TokenBucket) (now : ℚ) : (b.take now).2.last = now := by
  rw [take]
  split <;> rfl

/-- A call is refused exactly when it finds less than one token. -/
theorem take_eq_false_iff (b : TokenBucket) (now : ℚ) :
    (b.take now).1 = false ↔ b.available now < 1 := by
  rw [take]
  split
  · next h => exact ⟨fun _ ↦ h, fun _ ↦ rfl⟩
  · next h => exact ⟨fun hf ↦ Bool.noConfusion hf, fun hlt ↦ absurd hlt h⟩

/-- What a call finds, it takes or leaves. -/
theorem tokens_take (b : TokenBucket) (now : ℚ) :
    (b.take now).2.tokens + (if (b.take now).1 then 1 else 0) = b.available now := by
  rw [take]
  split
  · simp
  · simp

theorem available_le (b : TokenBucket) (now : ℚ) : b.available now ≤ b.capacity :=
  min_le_left _ _

private theorem available_le_add {b : TokenBucket} {now : ℚ} (h : b.last ≤ now) :
    b.available now ≤ b.tokens + b.refill * (now - b.last) := by
  rw [available, max_eq_right (sub_nonneg.mpr h), mul_comm]
  exact min_le_right _ _

private theorem available_nonneg {b : TokenBucket} (h : b.InBounds) (now : ℚ) :
    0 ≤ b.available now := by
  have hrefill : 0 ≤ max 0 (now - b.last) * b.refill :=
    mul_nonneg (le_max_left _ _) b.positive.2.le
  have hcapacity : (0 : ℚ) ≤ b.capacity := h.1.trans h.2
  exact le_min hcapacity (by linarith [h.1])

/-- A call keeps the count between zero and the capacity. -/
theorem InBounds.take {b : TokenBucket} (h : b.InBounds) (now : ℚ) : (b.take now).2.InBounds := by
  have hle := available_le b now
  rw [InBounds, capacity_take, TokenBucket.take]
  split
  · exact ⟨available_nonneg h now, hle⟩
  · next hlt =>
    constructor
    · exact sub_nonneg.mpr (not_lt.mp hlt)
    · simp only
      linarith

/-- A bucket that has refilled for long enough has a token. -/
theorem take_of_refilled {b : TokenBucket} (h : b.InBounds) {now : ℚ}
    (hnow : 1 / b.refill ≤ now - b.last) : (b.take now).1 = true := by
  apply Bool.eq_true_of_not_eq_false
  rw [take_eq_false_iff, not_lt]
  have hpos := b.positive.2
  have hone : 1 ≤ max 0 (now - b.last) * b.refill := by
    calc (1 : ℚ) = 1 / b.refill * b.refill := by field_simp
      _ ≤ (now - b.last) * b.refill := mul_le_mul_of_nonneg_right hnow hpos.le
      _ ≤ max 0 (now - b.last) * b.refill :=
          mul_le_mul_of_nonneg_right (le_max_right _ _) hpos.le
  have hcapacity : (1 : ℚ) ≤ b.capacity := by exact_mod_cast b.positive.1
  exact le_min hcapacity (by linarith [h.1])

/-! ### A run of calls -/

theorem takes_cons (b : TokenBucket) (now : ℚ) (rest : List ℚ) :
    b.takes (now :: rest) =
      ((b.take now).1 :: ((b.take now).2.takes rest).1, ((b.take now).2.takes rest).2) := rfl

@[simp] theorem length_takes (b : TokenBucket) (times : List ℚ) :
    (b.takes times).1.length = times.length := by
  induction times generalizing b with
  | nil => rfl
  | cons now rest ih => rw [takes_cons, List.length_cons, List.length_cons, ih]

/-- Runs compose. -/
theorem takes_append (b : TokenBucket) (xs ys : List ℚ) :
    b.takes (xs ++ ys) =
      ((b.takes xs).1 ++ ((b.takes xs).2.takes ys).1, ((b.takes xs).2.takes ys).2) := by
  induction xs generalizing b with
  | nil => rfl
  | cons now rest ih => rw [List.cons_append, takes_cons, takes_cons, ih, List.cons_append]

@[simp] theorem capacity_takes (b : TokenBucket) (times : List ℚ) :
    (b.takes times).2.capacity = b.capacity := by
  induction times generalizing b with
  | nil => rfl
  | cons now rest ih => rw [takes_cons, ih, capacity_take]

@[simp] theorem refill_takes (b : TokenBucket) (times : List ℚ) :
    (b.takes times).2.refill = b.refill := by
  induction times generalizing b with
  | nil => rfl
  | cons now rest ih => rw [takes_cons, ih, refill_take]

/-- The bucket remembers its last call. -/
theorem last_takes (b : TokenBucket) (times : List ℚ) :
    (b.takes times).2.last = (times.getLast?).getD b.last := by
  induction times generalizing b with
  | nil => rfl
  | cons now rest ih =>
    rw [takes_cons, ih, last_take, List.getLast?_cons]
    rfl

/-- Every run keeps the count between zero and the capacity. -/
theorem InBounds.takes {b : TokenBucket} (h : b.InBounds) (times : List ℚ) :
    (b.takes times).2.InBounds := by
  induction times generalizing b with
  | nil => exact h
  | cons now rest ih => exact ih (h.take now)

private theorem count_true_cons (taken : Bool) (results : List Bool) :
    ((taken :: results).count true : ℚ) = results.count true + if taken then 1 else 0 := by
  rw [List.count_cons]
  cases taken <;> simp

/-- Potential: what a run leaves and what it takes is at most what it found and what time added. -/
theorem tokens_takes_le {b : TokenBucket} {times : List ℚ} (h : (b.last :: times).Pairwise (· ≤ ·)) :
    (b.takes times).2.tokens + (b.takes times).1.count true ≤
      b.tokens + b.refill * ((b.takes times).2.last - b.last) := by
  induction times generalizing b with
  | nil => simp [TokenBucket.takes]
  | cons now rest ih =>
    obtain ⟨hlast, hrest⟩ := List.pairwise_cons.mp h
    have hstep := tokens_take b now
    have hfound := available_le_add (hlast now List.mem_cons_self)
    have hih := ih (b := (b.take now).2) (by rw [last_take]; exact hrest)
    rw [refill_take, last_take] at hih
    rw [takes_cons, count_true_cons]
    linarith

/-- A stretch of calls admits at most the capacity and the refill between its ends. -/
theorem count_takes_le {b : TokenBucket} (hb : b.InBounds) {first : ℚ} {rest : List ℚ}
    (h : (first :: rest).Pairwise (· ≤ ·)) :
    ((b.takes (first :: rest)).1.count true : ℚ) ≤
      b.capacity + b.refill * ((first :: rest).getLast (List.cons_ne_nil first rest) - first) := by
  have hlast : ((b.take first).2.takes rest).2.last =
      (first :: rest).getLast (List.cons_ne_nil first rest) := by
    rw [last_takes, last_take, ← Option.some_inj, ← List.getLast?_eq_some_getLast,
      List.getLast?_cons]
  have hpotential := tokens_takes_le (b := (b.take first).2) (by rw [last_take]; exact h)
  have hleft := (hb.take first).takes rest
  have hstep := tokens_take b first
  have hfound := available_le b first
  rw [hlast, refill_take, last_take] at hpotential
  rw [takes_cons, count_true_cons]
  linarith [hleft.1]

/-- The result of a call is that of `take` on the bucket the calls before it leave. -/
theorem getElem?_takes (b : TokenBucket) (times : List ℚ) {i : Nat} (hi : i < times.length) :
    (b.takes times).1[i]? = some ((b.takes (times.take i)).2.take times[i]).1 := by
  have hsplit : times = times.take i ++ times[i] :: times.drop (i + 1) := by
    rw [← List.drop_eq_getElem_cons hi, List.take_append_drop]
  have hlength : (b.takes (times.take i)).1.length = i := by
    rw [length_takes, List.length_take, Nat.min_eq_left hi.le]
  conv_lhs => rw [hsplit]
  rw [takes_append, takes_cons, List.getElem?_append_right (by rw [hlength]), hlength, Nat.sub_self,
    List.getElem?_cons_zero]

/-- A stretch of results is the run of its calls. -/
theorem stretch_takes (b : TokenBucket) (times : List ℚ) (i n : Nat) :
    ((b.takes times).1.drop i).take n =
      ((b.takes (times.take i)).2.takes ((times.drop i).take n)).1 := by
  have hsplit : times = times.take i ++ ((times.drop i).take n ++ (times.drop i).drop n) := by
    rw [List.take_append_drop, List.take_append_drop]
  conv_lhs => rw [hsplit]
  rw [takes_append, takes_append]
  by_cases hi : i ≤ times.length
  · have hlength : (b.takes (times.take i)).1.length = i := by
      rw [length_takes, List.length_take, Nat.min_eq_left hi]
    rw [List.drop_append_of_le_length hlength.ge, List.drop_of_length_le hlength.le, List.nil_append]
    by_cases hn : n ≤ (times.drop i).length
    · apply List.take_left'
      rw [length_takes, List.length_take, Nat.min_eq_left hn]
    · rw [List.drop_of_length_le (not_le.mp hn).le, List.take_of_length_le]
      · simp [TokenBucket.takes]
      · simp only [TokenBucket.takes, List.append_nil, length_takes, List.length_take]
        omega
  · have hdrop : times.drop i = [] := List.drop_of_length_le (not_le.mp hi).le
    simp [hdrop, TokenBucket.takes, (not_le.mp hi).le]

end TokenBucket

/-- A bucket of any positive capacity and refill rate, called at clock readings that do not run
backwards. The token count stays between zero and the capacity; the calls from the `i`th to the
`j`th admit at most the capacity and the refill between their times; a call is refused exactly
when it finds less than one token; and a call that comes `1 / refill` after the one before it is
admitted. -/
theorem token_bucket_bound (capacity : Int) (refill t : ℚ) (h : 1 ≤ capacity ∧ 0 < refill)
    (times : List ℚ) (hclock : (t :: times).Pairwise (· ≤ ·)) :
    ((TokenBucket.start capacity refill t h).takes times).2.InBounds ∧
    (∀ i j (hij : i ≤ j) (hj : j < times.length),
      (((((TokenBucket.start capacity refill t h).takes times).1.drop i).take
        (j + 1 - i)).count true : ℚ) ≤ capacity + refill * (times[j] - times[i])) ∧
    (∀ i (hi : i < times.length),
      ((TokenBucket.start capacity refill t h).takes times).1[i]? = some false ↔
        ((TokenBucket.start capacity refill t h).takes (times.take i)).2.available times[i] < 1) ∧
    ∀ i (hi : i + 1 < times.length), 1 / refill ≤ times[i + 1] - times[i] →
      ((TokenBucket.start capacity refill t h).takes times).1[i + 1]? = some true := by
  have hstart : (TokenBucket.start capacity refill t h).InBounds := by
    constructor
    · change (0 : ℚ) ≤ capacity
      exact_mod_cast le_trans (by decide) h.1
    · exact le_refl _
  have hsorted : times.Pairwise (· ≤ ·) := (List.pairwise_cons.mp hclock).2
  refine ⟨hstart.takes times, fun i j hij hj ↦ ?_, fun i hi ↦ ?_, fun i hi hwait ↦ ?_⟩
  · have hi : i < times.length := lt_of_le_of_lt hij hj
    obtain ⟨rest, hrest⟩ : ∃ rest, (times.drop i).take (j + 1 - i) = times[i] :: rest := by
      rw [List.drop_eq_getElem_cons hi, show j + 1 - i = (j - i) + 1 by omega, List.take_succ_cons]
      exact ⟨_, rfl⟩
    have hlast : (times[i] :: rest).getLast (List.cons_ne_nil times[i] rest) = times[j] := by
      simp only [← hrest, List.getLast_eq_getElem, List.getElem_take, List.getElem_drop,
        List.length_take, List.length_drop]
      congr 1
      omega
    have hstretch : (times[i] :: rest).Pairwise (· ≤ ·) := by
      rw [← hrest]
      exact hsorted.sublist ((List.take_sublist _ _).trans (List.drop_sublist _ _))
    have hcount := TokenBucket.count_takes_le (hstart.takes (times.take i)) hstretch
    rw [TokenBucket.capacity_takes, TokenBucket.refill_takes, hlast] at hcount
    rw [TokenBucket.stretch_takes, hrest]
    exact hcount
  · rw [TokenBucket.getElem?_takes _ _ hi, Option.some_inj]
    exact TokenBucket.take_eq_false_iff _ _
  · rw [TokenBucket.getElem?_takes _ _ hi, Option.some_inj]
    apply TokenBucket.take_of_refilled (hstart.takes _)
    have hprevious : (times.take (i + 1)).getLast? = some times[i] := by
      rw [List.getLast?_eq_getElem?, List.length_take, Nat.min_eq_left hi.le]
      simp [List.getElem?_eq_getElem (Nat.lt_of_succ_lt hi)]
    rw [TokenBucket.refill_takes, TokenBucket.last_takes, hprevious]
    exact hwait

/-- Two tokens, one more each second: a burst of three, then a call two seconds later. -/
theorem token_bucket_bound_burst :
    (((((TokenBucket.start 2 1 0 (by decide)).takes [0, 0, 0, 2]).1.drop 0).take
      (3 + 1 - 0)).count true : ℚ) ≤ (2 : Int) + 1 * (2 - 0) ∧
    ((TokenBucket.start 2 1 0 (by decide)).takes [0, 0, 0, 2]).1 = [true, true, false, true] :=
  ⟨(token_bucket_bound 2 1 0 (by decide) [0, 0, 0, 2] (by decide)).2.1 0 3 (by decide) (by decide),
    by decide +kernel⟩

end C3RSpec.Service
