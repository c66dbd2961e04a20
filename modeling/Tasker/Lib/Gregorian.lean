import Mathlib.Tactic

/-!
The Gregorian calendar, and a clock with days of one length.

* `Leap`, `daysIn`, `daysThrough`, `daysBefore`: the lengths of months and years;
  `daysBefore_succ` adds one year, and `daysBefore_le`, `le_daysBefore` bound the
  days before a year by its mean length.
* `Day`: a day of the calendar, and its `number`; `number_lt_iff`: days are
  ordered by year, month and day.
* `yearOf`, `Day.ofNumber`, `number_ofNumber`: every number is that of a day.
* `Day.addYears`: the same day in another year, 28 February for 29 February if
  need be.
* `Day.birthday`, `completedYears`: birthdays on 29 February are on 1 March in
  other years. `le_completedYears_iff`: a number of years is completed exactly if
  the day of birth is not after the day that many years ago.
* `Clock`: instants, the days they are in, and `Clock.addingYears`.
-/

namespace Gregorian

/-- A leap year. -/
def Leap (y : ℤ) : Prop := y % 4 = 0 ∧ (y % 100 ≠ 0 ∨ y % 400 = 0)

instance : DecidablePred Leap := fun _ => inferInstanceAs (Decidable (_ ∧ _))

/-- The days in a month. -/
def daysIn (y : ℤ) : ℕ → ℕ
  | 2 => if Leap y then 29 else 28
  | 4 | 6 | 9 | 11 => 30
  | _ => 31

/-- The days in the first `m` months of a year. -/
def daysThrough (y : ℤ) : ℕ → ℕ
  | 0 => 0
  | m + 1 => daysThrough y m + daysIn y (m + 1)

/-- The days from 1 January of the year 1 to 1 January of the year `y`. -/
def daysBefore (y : ℤ) : ℤ := 365 * (y - 1) + (y - 1) / 4 - (y - 1) / 100 + (y - 1) / 400

/-- Only the length of February depends on the year. -/
lemma daysIn_eq (y y' : ℤ) {m : ℕ} (hm : m ≠ 2) : daysIn y m = daysIn y' m := by
  unfold daysIn
  split
  · exact absurd rfl hm
  · rfl
  · rfl
  · rfl
  · rfl
  · rfl

lemma daysIn_two (y : ℤ) : daysIn y 2 = if Leap y then 29 else 28 := rfl

/-- A year has 365 or 366 days. -/
lemma daysThrough_twelve (y : ℤ) : daysThrough y 12 = if Leap y then 366 else 365 := by
  simp only [daysThrough, daysIn]
  split <;> rfl

/-- The months of a year are one after the other. -/
lemma daysThrough_mono (y : ℤ) : Monotone (daysThrough y) :=
  monotone_nat_of_le_succ fun m => Nat.le_add_right (daysThrough y m) _

/-- The years are one after the other. -/
lemma daysBefore_succ (y : ℤ) : daysBefore (y + 1) = daysBefore y + daysThrough y 12 := by
  rw [daysThrough_twelve]
  by_cases hleap : Leap y
  · rw [if_pos hleap]
    unfold Leap at hleap
    unfold daysBefore
    omega
  · rw [if_neg hleap]
    unfold Leap at hleap
    unfold daysBefore
    omega

lemma daysBefore_mono : Monotone daysBefore :=
  monotone_int_of_le_succ fun y => by rw [daysBefore_succ]; omega

/-- In four centuries there are 146097 days, and no year is far from its place
among them. -/
lemma daysBefore_le (y : ℤ) : 400 * daysBefore y ≤ 146097 * (y - 1) + 396 := by
  unfold daysBefore
  omega

lemma le_daysBefore (y : ℤ) : 146097 * (y - 1) - 699 ≤ 400 * daysBefore y := by
  unfold daysBefore
  omega

/-! ### Days -/

/-- A day of the calendar. -/
@[ext]
structure Day where
  year : ℤ
  month : ℕ
  day : ℕ
  month_pos : 1 ≤ month
  month_le : month ≤ 12
  day_pos : 1 ≤ day
  day_le : day ≤ daysIn year month
  deriving DecidableEq, Repr

namespace Day

/-- The days from 1 January of the year 1 to the day. -/
def number (d : Day) : ℤ := daysBefore d.year + daysThrough d.year (d.month - 1) + d.day - 1

/-- The calendar's order. -/
def Before (a b : Day) : Prop :=
  a.year < b.year ∨ a.year = b.year ∧
    (a.month < b.month ∨ a.month = b.month ∧ a.day < b.day)

instance (a b : Day) : Decidable (Before a b) := inferInstanceAs (Decidable (_ ∨ _))

variable {a b : Day}

lemma before_trichotomy (a b : Day) : Before a b ∨ a = b ∨ Before b a := by
  unfold Before
  rw [Day.ext_iff]
  omega

/-- A day is in its month. -/
lemma number_lt_monthEnd (d : Day) :
    d.number < daysBefore d.year + daysThrough d.year d.month := by
  have hmonth : daysThrough d.year d.month =
      daysThrough d.year (d.month - 1) + daysIn d.year d.month := by
    obtain ⟨m, hm⟩ : ∃ m, d.month = m + 1 := ⟨d.month - 1, by have := d.month_pos; omega⟩
    rw [hm, Nat.add_sub_cancel, daysThrough]
  have := d.day_le
  rw [number, hmonth]
  omega

lemma monthStart_le_number (d : Day) :
    daysBefore d.year + daysThrough d.year (d.month - 1) ≤ d.number := by
  have := d.day_pos
  rw [number]
  omega

/-- Later days have greater numbers. -/
lemma Before.number_lt (h : Before a b) : a.number < b.number := by
  rcases h with hyear | ⟨hyear, hmonth | ⟨hmonth, hday⟩⟩
  · calc a.number < daysBefore a.year + daysThrough a.year a.month := a.number_lt_monthEnd
      _ ≤ daysBefore a.year + daysThrough a.year 12 := by
          have := daysThrough_mono a.year a.month_le
          omega
      _ = daysBefore (a.year + 1) := (daysBefore_succ a.year).symm
      _ ≤ daysBefore b.year := daysBefore_mono (by omega)
      _ ≤ daysBefore b.year + daysThrough b.year (b.month - 1) := by omega
      _ ≤ b.number := b.monthStart_le_number
  · calc a.number < daysBefore a.year + daysThrough a.year a.month := a.number_lt_monthEnd
      _ ≤ daysBefore a.year + daysThrough a.year (b.month - 1) := by
          have := daysThrough_mono a.year (show a.month ≤ b.month - 1 by omega)
          omega
      _ = daysBefore b.year + daysThrough b.year (b.month - 1) := by rw [hyear]
      _ ≤ b.number := b.monthStart_le_number
  · rw [number, number, hyear, hmonth]
    omega

/-- **Days are ordered by year, month and day.** -/
theorem number_lt_iff : a.number < b.number ↔ Before a b := by
  constructor
  · intro h
    rcases before_trichotomy a b with hab | rfl | hba
    · exact hab
    · exact absurd h (lt_irrefl _)
    · exact absurd h hba.number_lt.asymm
  · exact Before.number_lt

end Day

/-! ### The day with a number -/

/-- The year of the day with a number. -/
def yearOf (n : ℤ) : ℤ :=
  let y := 400 * n / 146097 + 1
  if daysBefore (y + 1) ≤ n then y + 1 else y

/-- The mean length of a year misses it by one year at most. -/
lemma yearOf_spec (n : ℤ) :
    daysBefore (yearOf n) ≤ n ∧ n < daysBefore (yearOf n) + daysThrough (yearOf n) 12 := by
  rw [← daysBefore_succ, yearOf]
  have hle := daysBefore_le (400 * n / 146097 + 1)
  have hlt := le_daysBefore (400 * n / 146097 + 1 + 1 + 1)
  split
  · next h => exact ⟨h, by omega⟩
  · next h => exact ⟨by omega, by omega⟩

/-- The months of a year that are over after `r` of its days. -/
def monthsOver (y : ℤ) (r : ℕ) : ℕ := Nat.findGreatest (fun m => daysThrough y m ≤ r) 11

lemma monthsOver_le (y : ℤ) (r : ℕ) : monthsOver y r ≤ 11 := Nat.findGreatest_le 11

lemma monthsOver_spec {y : ℤ} {r : ℕ} (hr : r < daysThrough y 12) :
    daysThrough y (monthsOver y r) ≤ r ∧ r < daysThrough y (monthsOver y r + 1) := by
  have hle := monthsOver_le y r
  constructor
  · exact Nat.findGreatest_spec (P := fun m => daysThrough y m ≤ r) (Nat.zero_le 11)
      (Nat.zero_le r)
  · by_cases hlast : monthsOver y r + 1 ≤ 11
    · exact not_le.mp (Nat.findGreatest_is_greatest (P := fun m => daysThrough y m ≤ r)
        (Nat.lt_succ_self _) hlast)
    · rw [show monthsOver y r + 1 = 12 by omega]
      exact hr

/-- The days of its year before the day with a number. -/
def dayOfYear (n : ℤ) : ℕ := (n - daysBefore (yearOf n)).toNat

lemma dayOfYear_spec (n : ℤ) :
    (dayOfYear n : ℤ) = n - daysBefore (yearOf n) ∧ dayOfYear n < daysThrough (yearOf n) 12 := by
  have hyear := yearOf_spec n
  unfold dayOfYear
  omega

/-- The day with a number. -/
def Day.ofNumber (n : ℤ) : Day where
  year := yearOf n
  month := monthsOver (yearOf n) (dayOfYear n) + 1
  day := dayOfYear n - daysThrough (yearOf n) (monthsOver (yearOf n) (dayOfYear n)) + 1
  month_pos := by omega
  month_le := by have := monthsOver_le (yearOf n) (dayOfYear n); omega
  day_pos := by omega
  day_le := by
    have hmonth := monthsOver_spec (dayOfYear_spec n).2
    rw [daysThrough] at hmonth
    omega

/-- **Every number is that of a day.** -/
theorem number_ofNumber (n : ℤ) : (Day.ofNumber n).number = n := by
  have hyear := (dayOfYear_spec n).1
  have hmonth := (monthsOver_spec (dayOfYear_spec n).2).1
  simp only [Day.number, Day.ofNumber, Nat.add_sub_cancel]
  omega

/-! ### Years -/

lemma one_le_daysIn (y : ℤ) (m : ℕ) : 1 ≤ daysIn y m := by
  unfold daysIn
  split
  · split <;> omega
  · omega
  · omega
  · omega
  · omega
  · omega

/-- A month has as many days in every year, unless it is February. -/
lemma daysIn_lt {y y' : ℤ} {m : ℕ} (h : daysIn y m < daysIn y' m) :
    m = 2 ∧ daysIn y m = 28 ∧ daysIn y' m = 29 := by
  by_cases hm : m = 2
  · subst hm
    rw [daysIn_two, daysIn_two] at *
    split at h <;> split at h <;> simp_all
  · exact absurd h (by rw [daysIn_eq y y' hm]; omega)

namespace Day

/-- The same day in another year; 29 February becomes 28 February if need be. -/
def addYears (d : Day) (n : ℤ) : Day where
  year := d.year + n
  month := d.month
  day := min d.day (daysIn (d.year + n) d.month)
  month_pos := d.month_pos
  month_le := d.month_le
  day_pos := le_min d.day_pos (one_le_daysIn _ _)
  day_le := min_le_right _ _

/-- The birthday in a year: 29 February is followed by 1 March. -/
def birthday (dob : Day) (y : ℤ) : Day :=
  if h : dob.day ≤ daysIn y dob.month then { dob with year := y, day_le := h }
  else {
    year := y, month := 3, day := 1, month_pos := by omega, month_le := by omega
    day_pos := le_rfl, day_le := one_le_daysIn _ _ }

/-- The years completed on a day by who was born on `dob`. -/
def completedYears (dob today : Day) : ℤ :=
  if today.Before (dob.birthday today.year) then today.year - dob.year - 1
  else today.year - dob.year

variable {dob today : Day}

/-- Earlier in its year, be the years what they are. -/
def EarlierInYear (a b : Day) : Prop := a.month < b.month ∨ a.month = b.month ∧ a.day < b.day

/-- A day before the birthday in its year. -/
lemma before_birthday_iff : today.Before (dob.birthday today.year) ↔ today.EarlierInYear dob := by
  unfold birthday
  split
  · simp [Before, EarlierInYear]
  · next h =>
      -- the birthday is on 29 February, which is not in this year
      obtain ⟨hmonth, hthis, -⟩ := daysIn_lt (lt_of_lt_of_le (not_le.mp h) dob.day_le)
      have hpos := today.day_pos
      have hle : today.month = 2 → today.day ≤ 28 := by
        intro htoday
        have hday := today.day_le
        rw [htoday, ← hmonth, hthis] at hday
        exact hday
      simp only [Before, EarlierInYear, lt_irrefl, true_and, false_or]
      omega

/-- The day some years ago is before the birth. -/
lemma addYears_before_iff {n : ℤ} : (today.addYears n).Before dob ↔
    today.year + n < dob.year ∨ today.year + n = dob.year ∧ today.EarlierInYear dob := by
  have hday := dob.day_le
  simp only [Before, EarlierInYear, addYears]
  refine or_congr_right (and_congr_right fun hyear =>
    or_congr_right (and_congr_right fun hmonth => ?_))
  rw [hyear, hmonth]
  omega

/-- **Completed years**: a number of years is completed exactly if the day that many
years ago is not before the birth. -/
theorem le_completedYears_iff {n : ℤ} :
    n ≤ completedYears dob today ↔ ¬ (today.addYears (-n)).Before dob := by
  rw [addYears_before_iff, completedYears]
  by_cases hearlier : today.EarlierInYear dob
  · rw [if_pos (before_birthday_iff.mpr hearlier)]
    simp only [hearlier, and_true]
    omega
  · rw [if_neg (before_birthday_iff.not.mpr hearlier)]
    simp only [hearlier, and_false, or_false]
    omega

end Day

/-! ### Instants -/

/-- A clock on which every day has the same length, and the instant 0 is so much
later than the beginning of the year 1. -/
structure Clock where
  dayLength : ℤ
  offset : ℤ
  dayLength_pos : 0 < dayLength

namespace Clock

variable (c : Clock)

/-- The first instant of a day. -/
def midnight (d : Day) : ℤ := d.number * c.dayLength - c.offset

/-- The day an instant is in. -/
def dayOf (t : ℤ) : Day := .ofNumber ((t + c.offset) / c.dayLength)

/-- What has passed of this day. -/
def timeOfDay (t : ℤ) : ℤ := (t + c.offset) % c.dayLength

/-- The same time of the same day in another year. -/
def addingYears (n t : ℤ) : ℤ := c.midnight ((c.dayOf t).addYears n) + c.timeOfDay t

/-- An instant is the time of its day on its day. -/
lemma midnight_add_timeOfDay (t : ℤ) : c.midnight (c.dayOf t) + c.timeOfDay t = t := by
  rw [midnight, dayOf, timeOfDay, number_ofNumber]
  have := Int.ediv_mul_add_emod (t + c.offset) c.dayLength
  omega

/-- A midnight is after an instant exactly if its day is after that of the
instant. -/
lemma add_timeOfDay_lt_midnight_iff {d e : Day} {t : ℤ} :
    c.midnight d + c.timeOfDay t < c.midnight e ↔ d.Before e := by
  have hpos := Int.emod_nonneg (t + c.offset) c.dayLength_pos.ne'
  have hlt := Int.emod_lt_of_pos (t + c.offset) c.dayLength_pos
  rw [← Day.number_lt_iff, midnight, midnight, timeOfDay]
  constructor
  · intro h
    by_contra hle
    have := mul_le_mul_of_nonneg_right (not_lt.mp hle) c.dayLength_pos.le
    omega
  · intro h
    have := mul_le_mul_of_nonneg_right (Int.add_one_le_iff.mpr h) c.dayLength_pos.le
    rw [add_mul, one_mul] at this
    omega

/-- The same for an instant in another year. -/
lemma addingYears_lt_midnight_iff {n t : ℤ} {d : Day} :
    c.addingYears n t < c.midnight d ↔ ((c.dayOf t).addYears n).Before d :=
  c.add_timeOfDay_lt_midnight_iff

end Clock

end Gregorian
