import C3RSpec.Base.Decimal

/-!
# UTC timestamps

Library `Base`. A `datetime` of the proleptic Gregorian calendar in UTC, years 1 to 9999, as
Python has it: `toordinal`, subtraction of whole days, which raises `OverflowError` below year 1,
and `isoformat(timespec="microseconds")`. ISO texts are ordered as the instants they denote.
-/

namespace C3RSpec.Base

/-- Leap years. -/
def isLeap (year : Nat) : Bool := year % 4 == 0 && (year % 100 != 0 || year % 400 == 0)

/-- `_days_in_month`. -/
def daysInMonth (year month : Nat) : Nat :=
  if month = 2 then if isLeap year then 29 else 28
  else if month = 4 ∨ month = 6 ∨ month = 9 ∨ month = 11 then 30 else 31

/-- A UTC `datetime`; a value out of range cannot be built. -/
structure DateTime where
  year : Nat
  month : Nat
  day : Nat
  hour : Nat := 0
  minute : Nat := 0
  second : Nat := 0
  microsecond : Nat := 0
  year_valid : 1 ≤ year ∧ year ≤ 9999 := by decide
  month_valid : 1 ≤ month ∧ month ≤ 12 := by decide
  day_valid : 1 ≤ day ∧ day ≤ daysInMonth year month := by decide
  hour_valid : hour < 24 := by decide
  minute_valid : minute < 60 := by decide
  second_valid : second < 60 := by decide
  microsecond_valid : microsecond < 1000000 := by decide

namespace DateTime

/-- `_days_before_year`. -/
def daysBeforeYear (year : Nat) : Nat :=
  (year - 1) * 365 + (year - 1) / 4 - (year - 1) / 100 + (year - 1) / 400

/-- `_days_before_month`. -/
def daysBeforeMonth (year : Nat) : Nat → Nat
  | 0 => 0
  | 1 => 0
  | m + 2 => daysBeforeMonth year (m + 1) + daysInMonth year (m + 1)

/-- `toordinal`. -/
def toOrdinal (t : DateTime) : Nat :=
  daysBeforeYear t.year + daysBeforeMonth t.year t.month + t.day

/-- Microseconds of a day. -/
def dayMicros : Nat := 86400000000

/-- Microseconds since midnight. -/
def timeOfDay (t : DateTime) : Nat :=
  ((t.hour * 60 + t.minute) * 60 + t.second) * 1000000 + t.microsecond

/-- The instant, counted in microseconds. -/
def micros (t : DateTime) : Nat := t.toOrdinal * dayMicros + t.timeOfDay

/-- `isoformat(timespec="microseconds")`. -/
def isoformat (t : DateTime) : Text :=
  padded 4 t.year ++ 45 :: (padded 2 t.month ++ 45 :: (padded 2 t.day ++ 84 ::
    (padded 2 t.hour ++ 58 :: (padded 2 t.minute ++ 58 :: (padded 2 t.second ++ 46 ::
      (padded 6 t.microsecond ++ Text.ofString "+00:00"))))))

private theorem daysInMonth_pos (year month : Nat) : 1 ≤ daysInMonth year month := by
  unfold daysInMonth
  split
  · split <;> omega
  · split <;> omega

/-- The same time on the day before. -/
def prevDay (t : DateTime) : Option DateTime :=
  if hd : 1 < t.day then
    some { t with day := t.day - 1, day_valid := by have := t.day_valid; omega }
  else if hm : 1 < t.month then
    some { t with
      month := t.month - 1
      day := daysInMonth t.year (t.month - 1)
      month_valid := by have := t.month_valid; omega
      day_valid := ⟨daysInMonth_pos _ _, le_rfl⟩ }
  else if hy : 1 < t.year then
    some { t with
      year := t.year - 1
      month := 12
      day := 31
      year_valid := by have := t.year_valid; omega
      month_valid := by decide
      day_valid := ⟨by decide, le_rfl⟩ }
  else none

/-- `t - timedelta(days=n)`; nothing where Python raises `OverflowError`. -/
def minusDays : Nat → DateTime → Option DateTime
  | 0, t => some t
  | n + 1, t => (prevDay t).bind (minusDays n)

/-! ### The calendar -/

private theorem daysBeforeYear_succ {year : Nat} (h : 1 ≤ year) :
    daysBeforeYear (year + 1) = daysBeforeYear year + (if isLeap year then 366 else 365) := by
  have h4 : year / 4 = (year - 1) / 4 + if year % 4 = 0 then 1 else 0 := by split <;> omega
  have h100 : year / 100 = (year - 1) / 100 + if year % 100 = 0 then 1 else 0 := by
    split <;> omega
  have h400 : year / 400 = (year - 1) / 400 + if year % 400 = 0 then 1 else 0 := by
    split <;> omega
  have hle : (year - 1) / 100 ≤ (year - 1) * 365 := by omega
  rw [daysBeforeYear, daysBeforeYear, Nat.add_sub_cancel, h4, h100, h400]
  by_cases d400 : year % 400 = 0
  · have d100 : year % 100 = 0 := by omega
    have d4 : year % 4 = 0 := by omega
    simp only [isLeap, d400, d100, d4, beq_self_eq_true, Bool.or_true, Bool.and_true, if_true]
    omega
  · by_cases d100 : year % 100 = 0
    · have d4 : year % 4 = 0 := by omega
      have hl : isLeap year = false := by simp [isLeap, d400, d100]
      rw [hl, if_pos d4, if_pos d100, if_neg d400, if_neg Bool.false_ne_true]
      omega
    · by_cases d4 : year % 4 = 0
      · have hl : isLeap year = true := by simp [isLeap, d100, d4]
        rw [hl, if_pos d4, if_neg d100, if_neg d400, if_pos rfl]
        omega
      · have hl : isLeap year = false := by simp [isLeap, d4]
        rw [hl, if_neg d4, if_neg d100, if_neg d400, if_neg Bool.false_ne_true]
        omega

private theorem daysBeforeMonth_twelve (year : Nat) :
    daysBeforeMonth year 12 + 31 = if isLeap year then 366 else 365 := by
  cases h : isLeap year with
  | true => simp [daysBeforeMonth, daysInMonth, h]
  | false => simp [daysBeforeMonth, daysInMonth, h]

private theorem daysBeforeMonth_succ {year month : Nat} (h : 1 ≤ month) :
    daysBeforeMonth year (month + 1) = daysBeforeMonth year month + daysInMonth year month := by
  obtain ⟨m, rfl⟩ : ∃ m, month = m + 1 := ⟨month - 1, by omega⟩
  rfl

private theorem daysBeforeMonth_mono (year : Nat) {a b : Nat} (ha : 1 ≤ a) (h : a ≤ b) :
    daysBeforeMonth year a ≤ daysBeforeMonth year b := by
  induction b, h using Nat.le_induction with
  | base => exact le_rfl
  | succ b hb ih =>
    rw [daysBeforeMonth_succ (ha.trans hb)]
    omega

private theorem daysBeforeYear_mono {a b : Nat} (ha : 1 ≤ a) (h : a ≤ b) :
    daysBeforeYear a ≤ daysBeforeYear b := by
  induction b, h using Nat.le_induction with
  | base => exact le_rfl
  | succ b hb ih =>
    rw [daysBeforeYear_succ (ha.trans hb)]
    omega

/-- The day of a year is within the year. -/
private theorem dayOfYear_le (t : DateTime) :
    daysBeforeMonth t.year t.month + t.day ≤ if isLeap t.year then 366 else 365 := by
  have hd := t.day_valid.2
  have hm := t.month_valid
  rw [← daysBeforeMonth_twelve]
  by_cases h12 : t.month = 12
  · have h31 : daysInMonth t.year 12 = 31 := rfl
    rw [h12] at hd ⊢
    omega
  · have hs := @daysBeforeMonth_succ t.year t.month hm.1
    have hle := daysBeforeMonth_mono t.year (by omega : 1 ≤ t.month + 1) (by omega : t.month + 1 ≤ 12)
    omega

/-- The day before has the ordinal before. -/
theorem toOrdinal_prevDay {t u : DateTime} (h : prevDay t = some u) :
    u.toOrdinal + 1 = t.toOrdinal ∧ u.timeOfDay = t.timeOfDay := by
  have hm := t.month_valid
  have hd := t.day_valid
  have hy := t.year_valid
  unfold prevDay at h
  split at h
  · next hday =>
    cases h
    refine ⟨?_, rfl⟩
    simp only [toOrdinal]
    omega
  · next hday =>
    split at h
    · next hmonth =>
      cases h
      refine ⟨?_, rfl⟩
      have hs := @daysBeforeMonth_succ t.year (t.month - 1) (by omega)
      rw [Nat.sub_add_cancel hm.1] at hs
      simp only [toOrdinal]
      omega
    · next hmonth =>
      split at h
      · next hyear =>
        cases h
        refine ⟨?_, rfl⟩
        have h1 : t.month = 1 := by omega
        have hs := @daysBeforeYear_succ (t.year - 1) (by omega)
        rw [Nat.sub_add_cancel hy.1, ← daysBeforeMonth_twelve] at hs
        have h0 : daysBeforeMonth t.year 1 = 0 := rfl
        simp only [toOrdinal, h1]
        omega
      · cases h

/-- Only 1 January of year 1 has no day before. -/
theorem prevDay_eq_none {t : DateTime} (h : prevDay t = none) : t.toOrdinal = 1 := by
  have hm := t.month_valid
  have hd := t.day_valid
  have hy := t.year_valid
  unfold prevDay at h
  split at h
  · cases h
  · next hday =>
    split at h
    · cases h
    · next hmonth =>
      split at h
      · cases h
      · next hyear =>
        have h1 : t.month = 1 := by omega
        have h2 : t.year = 1 := by omega
        simp only [toOrdinal, h1, h2]
        have h3 : daysBeforeYear 1 = 0 := by decide
        have h4 : daysBeforeMonth 1 1 = 0 := rfl
        omega

/-- Subtracting days subtracts their microseconds. -/
theorem micros_minusDays {n : Nat} {t u : DateTime} (h : minusDays n t = some u) :
    u.micros + n * dayMicros = t.micros := by
  induction n generalizing t with
  | zero =>
    cases h
    rw [Nat.zero_mul, Nat.add_zero]
  | succ n ih =>
    obtain ⟨v, hv, h⟩ := Option.bind_eq_some_iff.mp h
    obtain ⟨ho, ht⟩ := toOrdinal_prevDay hv
    have hu := ih h
    have hmul : (v.toOrdinal + 1) * dayMicros = v.toOrdinal * dayMicros + dayMicros :=
      Nat.succ_mul _ _
    rw [micros, micros] at hu ⊢
    rw [← ho, ← ht, hmul, Nat.succ_mul]
    omega

private theorem toOrdinal_pos (t : DateTime) : 0 < t.toOrdinal := by
  have hd := t.day_valid
  simp only [toOrdinal]
  omega

/-- Days can be subtracted unless the calendar ends first. -/
theorem exists_minusDays_iff {n : Nat} {t : DateTime} :
    (∃ u, minusDays n t = some u) ↔ n < t.toOrdinal := by
  induction n generalizing t with
  | zero => exact ⟨fun _ ↦ t.toOrdinal_pos, fun _ ↦ ⟨t, rfl⟩⟩
  | succ n ih =>
    cases hp : prevDay t with
    | none =>
      have hone := prevDay_eq_none hp
      simp only [minusDays, hp, Option.bind_none, reduceCtorEq, exists_false, false_iff]
      omega
    | some v =>
      have ho := (toOrdinal_prevDay hp).1
      rw [minusDays, hp, Option.bind_some, ih]
      omega

/-! ### Order -/

/-- Later in the order of the fields, the greatest unit first. -/
def FieldsLt (a b : DateTime) : Prop :=
  a.year < b.year ∨ a.year = b.year ∧ (a.month < b.month ∨ a.month = b.month ∧
    (a.day < b.day ∨ a.day = b.day ∧ (a.hour < b.hour ∨ a.hour = b.hour ∧
      (a.minute < b.minute ∨ a.minute = b.minute ∧ (a.second < b.second ∨ a.second = b.second ∧
        a.microsecond < b.microsecond)))))

private theorem toOrdinal_lt {a b : DateTime}
    (h : a.year < b.year ∨ a.year = b.year ∧ (a.month < b.month ∨ a.month = b.month ∧
      a.day < b.day)) : a.toOrdinal < b.toOrdinal := by
  have hb := b.day_valid.1
  unfold toOrdinal
  obtain hy | ⟨hy, hm | ⟨hm, hd⟩⟩ := h
  · have hle := dayOfYear_le a
    have hs := daysBeforeYear_succ a.year_valid.1
    have hmono := daysBeforeYear_mono (by omega : 1 ≤ a.year + 1) (Nat.succ_le_of_lt hy)
    omega
  · have hs := @daysBeforeMonth_succ b.year a.month a.month_valid.1
    have hmono := daysBeforeMonth_mono b.year (by omega : 1 ≤ a.month + 1) (Nat.succ_le_of_lt hm)
    have hd := a.day_valid.2
    rw [hy] at hd ⊢
    omega
  · rw [hy, hm]
    omega

private theorem timeOfDay_lt (t : DateTime) : t.timeOfDay < dayMicros := by
  have := t.hour_valid
  have := t.minute_valid
  have := t.second_valid
  have := t.microsecond_valid
  unfold timeOfDay dayMicros
  omega

private theorem micros_lt_of_fieldsLt {a b : DateTime} (h : FieldsLt a b) :
    a.micros < b.micros := by
  -- a later date wins whatever the time of day; on one date the time of day decides
  have date : a.toOrdinal < b.toOrdinal → a.micros < b.micros := by
    intro ho
    have hmul := Nat.mul_le_mul_right dayMicros (Nat.succ_le_of_lt ho)
    rw [Nat.succ_mul] at hmul
    have ha := timeOfDay_lt a
    unfold micros
    omega
  obtain hy | ⟨hy, hm | ⟨hm, hd | ⟨hd, ht⟩⟩⟩ := h
  · exact date (toOrdinal_lt (.inl hy))
  · exact date (toOrdinal_lt (.inr ⟨hy, .inl hm⟩))
  · exact date (toOrdinal_lt (.inr ⟨hy, .inr ⟨hm, hd⟩⟩))
  · have ho : a.toOrdinal = b.toOrdinal := by rw [toOrdinal, toOrdinal, hy, hm, hd]
    have := a.minute_valid
    have := a.second_valid
    have := a.microsecond_valid
    unfold micros timeOfDay
    rw [ho]
    omega

/-- The fields order instants. -/
theorem fieldsLt_iff {a b : DateTime} : FieldsLt a b ↔ a.micros < b.micros := by
  refine ⟨micros_lt_of_fieldsLt, fun h ↦ ?_⟩
  by_contra hn
  by_cases hb : FieldsLt b a
  · have := micros_lt_of_fieldsLt hb
    omega
  · -- neither is later, so all fields agree
    have heq : a.year = b.year ∧ a.month = b.month ∧ a.day = b.day ∧ a.hour = b.hour ∧
        a.minute = b.minute ∧ a.second = b.second ∧ a.microsecond = b.microsecond := by
      unfold FieldsLt at hn hb
      omega
    have : a.micros = b.micros := by
      unfold micros toOrdinal timeOfDay
      rw [heq.1, heq.2.1, heq.2.2.1, heq.2.2.2.1, heq.2.2.2.2.1, heq.2.2.2.2.2.1,
        heq.2.2.2.2.2.2]
    omega

-- one zero-padded field and its separator, compared before the rest
private theorem field_lt_iff {w m n : Nat} {sep : CodePoint} {x y : Text} (hm : m < 10 ^ w)
    (hn : n < 10 ^ w) :
    padded w m ++ sep :: x < padded w n ++ sep :: y ↔ m < n ∨ m = n ∧ x < y := by
  rw [append_lt_append_iff (by rw [length_padded, length_padded]), padded_lt_iff hm hn,
    padded_inj hm hn, List.cons_lt_cons_iff]
  simp only [lt_self_iff_false, false_or, true_and]

private theorem daysInMonth_le (year month : Nat) : daysInMonth year month ≤ 31 := by
  unfold daysInMonth
  split
  · split <;> omega
  · split <;> omega

/-- ISO texts are ordered as the instants they denote. -/
theorem isoformat_lt_iff {a b : DateTime} : a.isoformat < b.isoformat ↔ a.micros < b.micros := by
  have width : ∀ t : DateTime, t.year < 10 ^ 4 ∧ t.month < 10 ^ 2 ∧ t.day < 10 ^ 2 ∧
      t.hour < 10 ^ 2 ∧ t.minute < 10 ^ 2 ∧ t.second < 10 ^ 2 ∧ t.microsecond < 10 ^ 6 := by
    intro t
    have := t.year_valid
    have := t.month_valid
    have := t.day_valid
    have := daysInMonth_le t.year t.month
    have := t.hour_valid
    have := t.minute_valid
    have := t.second_valid
    have := t.microsecond_valid
    omega
  obtain ⟨ay, am, ad, ah, ai, as, au⟩ := width a
  obtain ⟨by', bm, bd, bh, bi, bs, bu⟩ := width b
  rw [← fieldsLt_iff, isoformat, isoformat, field_lt_iff ay by', field_lt_iff am bm,
    field_lt_iff ad bd, field_lt_iff ah bh, field_lt_iff ai bi, field_lt_iff as bs,
    append_lt_append_iff (by rw [length_padded, length_padded]), padded_lt_iff au bu,
    padded_inj au bu]
  simp only [lt_self_iff_false, and_false, or_false, FieldsLt]

/-- ISO texts are compared as the instants they denote. -/
theorem isoformat_le_iff {a b : DateTime} : a.isoformat ≤ b.isoformat ↔ a.micros ≤ b.micros := by
  rw [← not_lt, ← not_lt, isoformat_lt_iff]

private theorem all_padded (w n : Nat) :
    (padded w n).all (fun c ↦ decide (c.val < 128)) = true := by
  induction w generalizing n with
  | zero => rfl
  | succ w ih =>
    rw [padded, List.all_cons, ih, Bool.and_true]
    exact decide_eq_true (by simp only [digitChar]; omega)

/-- An ISO text is ASCII. -/
theorem isAscii_isoformat (t : DateTime) : t.isoformat.isAscii = true := by
  simp only [Text.isAscii, isoformat, List.all_append, List.all_cons, all_padded, Bool.true_and]
  decide

end DateTime

end C3RSpec.Base
