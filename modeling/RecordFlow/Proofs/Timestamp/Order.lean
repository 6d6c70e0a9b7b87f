import RecordFlow.Binary64.Basic
import RecordFlow.Proofs.Comparison
import RecordFlow.Timestamp.Basic

/-!
# The order of the calendar is that of seconds

Later dates have greater day numbers (`Date.compare_dayNumber`) and later times of day greater
seconds, so timestamps compare by their seconds and then by their nanoseconds
(`Timestamp.compare_eq`). The years of the calendar keep the seconds within 64 bits
(`Timestamp.epochSeconds_bounds`).
-/

namespace RecordFlow

namespace Date

/-! ### Days of a year -/

theorem daysBeforeMonth_succ (year : Int) {month : Nat} (h : 1 ≤ month) :
    daysBeforeMonth year (month + 1) = daysBeforeMonth year month + daysInMonth year month := by
  cases month with
  | zero => cases h
  | succ month => rfl

theorem daysBeforeMonth_mono (year : Int) {m n : Nat} (hm : 1 ≤ m) (h : m ≤ n) :
    daysBeforeMonth year m ≤ daysBeforeMonth year n := by
  induction h with
  | refl => exact Nat.le_refl _
  | @step n hle ih =>
    rw [daysBeforeMonth_succ year (Nat.le_trans hm hle)]
    exact Nat.le_trans ih (Nat.le_add_right _ _)

/-- The day after the last one of the year has the number of the first one of the next year. -/
theorem daysBeforeYear_succ (year : Int) :
    daysBeforeYear (year + 1) = daysBeforeYear year + daysBeforeMonth year 13 := by
  have hlength : daysBeforeMonth year 13 = if isLeapYear year then 366 else 365 := by
    cases h : isLeapYear year <;> simp [daysBeforeMonth, daysInMonth, h]
  rw [hlength]
  simp only [daysBeforeYear, isLeapYear, Bool.and_eq_true, Bool.or_eq_true, beq_iff_eq,
    bne_iff_ne]
  split <;> omega

theorem daysBeforeYear_mono {m n : Int} (h : m ≤ n) : daysBeforeYear m ≤ daysBeforeYear n := by
  simp only [daysBeforeYear]
  omega

theorem dayOfYear_le (d : Date) : d.dayOfYear ≤ daysBeforeMonth d.year (d.month + 1) := by
  rw [daysBeforeMonth_succ d.year d.month_bounds.1, dayOfYear]
  exact Nat.add_le_add_left d.day_bounds.2 _

theorem one_le_dayOfYear (d : Date) : 1 ≤ d.dayOfYear :=
  Nat.le_trans d.day_bounds.1 (Nat.le_add_left _ _)

/-! ### Day numbers -/

theorem dayNumber_lt_of_year_lt {a b : Date} (h : a.year < b.year) :
    a.dayNumber < b.dayNumber := by
  have hyear := daysBeforeYear_mono (show a.year + 1 ≤ b.year from h)
  have hmonth := daysBeforeMonth_mono a.year (Nat.le_add_left 1 a.month)
    (show a.month + 1 ≤ 13 by have := a.month_bounds; omega)
  have ha := a.dayOfYear_le
  have hb := b.one_le_dayOfYear
  rw [daysBeforeYear_succ] at hyear
  simp only [dayNumber]
  omega

theorem dayNumber_lt_of_month_lt {a b : Date} (hyear : a.year = b.year) (h : a.month < b.month) :
    a.dayNumber < b.dayNumber := by
  have hmonth := daysBeforeMonth_mono a.year (Nat.le_add_left 1 a.month)
    (show a.month + 1 ≤ b.month from h)
  have ha := a.dayOfYear_le
  have hb := b.day_bounds.1
  rw [hyear] at ha hmonth
  simp only [dayNumber, hyear]
  simp only [dayOfYear, hyear] at ha ⊢
  omega

/-- Dates compare by year, month and day as they do by their numbers. -/
theorem compare_dayNumber (a b : Date) : compare a.dayNumber b.dayNumber =
    (compare a.year b.year).then ((compare a.month b.month).then (compare a.day b.day)) := by
  apply eq_then
  · intro h
    exact Int.compare_eq_lt.2 (dayNumber_lt_of_year_lt (Int.compare_eq_lt.1 h))
  · intro h
    have hyear := Int.compare_eq_eq.1 h
    apply eq_then
    · intro h
      exact Int.compare_eq_lt.2 (dayNumber_lt_of_month_lt hyear (Nat.compare_eq_lt.1 h))
    · intro h
      rw [dayNumber, dayNumber, dayOfYear, dayOfYear, hyear, Nat.compare_eq_eq.1 h,
        compare_add_natCast, compare_add_left]
    · intro h
      exact Int.compare_eq_gt.2 (dayNumber_lt_of_month_lt hyear.symm (Nat.compare_eq_gt.1 h))
  · intro h
    exact Int.compare_eq_gt.2 (dayNumber_lt_of_year_lt (Int.compare_eq_gt.1 h))

/-- No calendar date is further than a hundred million days away from the first one. -/
theorem dayNumber_bounds (d : Date) : -100000000 < d.dayNumber ∧ d.dayNumber < 100000000 := by
  have hyear : -262143 ≤ d.year ∧ d.year ≤ 262142 := by
    simpa [yearInRange] using d.year_inRange
  have hmonth := daysBeforeMonth_mono d.year (Nat.le_add_left 1 d.month)
    (show d.month + 1 ≤ 13 by have := d.month_bounds; omega)
  have hday := d.dayOfYear_le
  have hlast := daysBeforeYear_succ d.year
  simp only [dayNumber]
  simp only [daysBeforeYear] at hlast ⊢
  omega

end Date

/-! ### Times of day -/

theorem TimeOfDay.secondOfDay_lt (t : TimeOfDay) : t.secondOfDay < 86400 := by
  have hhour := t.hour_lt
  have hminute := t.minute_lt
  have hsecond := t.second_lt
  rw [secondOfDay]
  omega

/-- The nanoseconds of a time, also those of a leap second, fit a word of 32 bits. -/
theorem TimeOfDay.nanosecond_lt_word (t : TimeOfDay) : t.nanosecond < 256 ^ 4 :=
  Nat.lt_trans t.nanosecond_lt (by decide)

theorem TimeOfDay.compare_secondOfDay (a b : TimeOfDay) : compare a.secondOfDay b.secondOfDay =
    (compare a.hour b.hour).then
      ((compare a.minute b.minute).then (compare a.second b.second)) := by
  have ha := a.second_lt
  have hb := b.second_lt
  have ham := a.minute_lt
  have hbm := b.minute_lt
  rw [secondOfDay, secondOfDay, Nat.add_assoc, Nat.add_assoc,
    compare_mul_add _ _ (by omega) (by omega), compare_mul_add _ _ ha hb]

/-! ### Timestamps -/

namespace Timestamp

theorem epochSeconds_lt {a b : Timestamp} (h : a.date.dayNumber < b.date.dayNumber) :
    a.epochSeconds < b.epochSeconds := by
  have ha := a.time.secondOfDay_lt
  rw [epochSeconds, epochSeconds]
  omega

theorem compare_epochSeconds (a b : Timestamp) : Ord.compare a.epochSeconds b.epochSeconds =
    (Ord.compare a.date.dayNumber b.date.dayNumber).then
      (Ord.compare a.time.secondOfDay b.time.secondOfDay) := by
  apply eq_then
  · intro h
    exact Int.compare_eq_lt.2 (epochSeconds_lt (Int.compare_eq_lt.1 h))
  · intro h
    rw [epochSeconds, epochSeconds, Int.compare_eq_eq.1 h, compare_add_natCast]
  · intro h
    exact Int.compare_eq_gt.2 (epochSeconds_lt (Int.compare_eq_gt.1 h))

/-- Timestamps compare by their seconds and, within one, by their nanoseconds. -/
theorem compare_eq (a b : Timestamp) : a.compare b =
    (Ord.compare a.epochSeconds b.epochSeconds).then
      (Ord.compare a.time.nanosecond b.time.nanosecond) := by
  rw [compare, compare_epochSeconds, Date.compare_dayNumber, TimeOfDay.compare_secondOfDay]
  simp only [Ordering.then_assoc]

/-- The calendar tells timestamps apart. -/
theorem compare_eq_eq_iff {a b : Timestamp} : a.compare b = .eq ↔ a = b := by
  obtain ⟨⟨_, _, _, _, _, _⟩, ⟨_, _, _, _, _, _, _, _⟩⟩ := a
  obtain ⟨⟨_, _, _, _, _, _⟩, ⟨_, _, _, _, _, _, _, _⟩⟩ := b
  simp only [compare, Ordering.then_eq_eq, Int.compare_eq_eq, Nat.compare_eq_eq, mk.injEq,
    Date.mk.injEq, TimeOfDay.mk.injEq, and_assoc]

theorem epochSeconds_bounds (t : Timestamp) :
    -2 ^ 63 ≤ t.epochSeconds ∧ t.epochSeconds < 2 ^ 63 := by
  have hday := t.date.dayNumber_bounds
  have hsecond := t.time.secondOfDay_lt
  rw [epochSeconds, epochDay]
  omega

end Timestamp

end RecordFlow
