import Tasker.Lib.Gregorian
import Tasker.Utilities

/-!
The age check, on a device with the Gregorian calendar and days of one length.

* `isAgeValid_iff`: a date of birth is accepted exactly if 18 years are completed,
  and it is not before this instant 99 years ago.
* `isAgeValid_of_completedYears`: with less than 18 years completed it is refused,
  with 18 to 98 it is accepted.

Instants are in any unit, of which a day has `clock.dayLength`.
-/

namespace Tasker

open Gregorian

variable {dates : Dates} {clock : Clock} {dob : Day} {date : String} {now : ℤ}

/-- The age check of a date that is a day's midnight. -/
lemma isAgeValid_iff (hadd : dates.addingYears = clock.addingYears)
    (hdob : dates.date date = some (clock.midnight dob)) :
    isAgeValid dates now date = true ↔ 18 ≤ dob.completedYears (clock.dayOf now) ∧
      clock.addingYears (-99) now ≤ clock.midnight dob := by
  rw [Day.le_completedYears_iff, ← clock.addingYears_lt_midnight_iff, not_lt]
  simp only [isAgeValid, hdob, hadd]
  split
  · next hgt => simp [not_le.mpr hgt]
  · next hle =>
      split
      · next hlt => simp [not_le.mpr hlt]
      · next hge => simp [not_lt.mp hle, not_lt.mp hge]

/-- **The age check**: at every instant a date of birth is refused with less than 18
years completed, and accepted with 18 to 98. -/
theorem isAgeValid_of_completedYears (hadd : dates.addingYears = clock.addingYears)
    (hdob : dates.date date = some (clock.midnight dob)) :
    (dob.completedYears (clock.dayOf now) < 18 → isAgeValid dates now date = false) ∧
    (18 ≤ dob.completedYears (clock.dayOf now) → dob.completedYears (clock.dayOf now) ≤ 98 →
      isAgeValid dates now date = true) := by
  have hvalid : isAgeValid dates now date = true ↔ _ := isAgeValid_iff hadd hdob
  constructor
  · intro hyoung
    refine Bool.eq_false_of_not_eq_true fun h => ?_
    exact absurd (hvalid.mp h).1 (not_le.mpr hyoung)
  · intro hadult hold
    -- in the 99th year the birth is after the day 99 years ago
    have hbefore : ((clock.dayOf now).addYears (-99)).Before dob := by
      by_contra hnot
      have := Day.le_completedYears_iff.mpr hnot
      omega
    exact hvalid.mpr ⟨hadult, (clock.addingYears_lt_midnight_iff.mpr hbefore).le⟩

/-! ### Born on 29 February -/

/-- Seconds since 1 January 1970 in Greenwich. -/
def greenwich : Clock where
  dayLength := 86400
  offset := 719162 * 86400
  dayLength_pos := by decide

/-- 29 February 2004. -/
def leapDay : Day where
  year := 2004
  month := 2
  day := 29
  month_pos := by decide
  month_le := by decide
  day_pos := by decide
  day_le := by decide

/-- A device that reads this date. -/
def greenwichDates : Dates where
  date s := if s = "02/29/2004" then some (greenwich.midnight leapDay) else none
  string _ := "02/29/2004"
  addingYears := greenwich.addingYears

/-- In 2022 eighteen years are completed on 1 March at midnight, and not one second
before. -/
theorem isAgeValid_of_completedYears_leapDay :
    isAgeValid greenwichDates 1646092799 "02/29/2004" = false ∧
    isAgeValid greenwichDates 1646092800 "02/29/2004" = true := by
  have hdob : greenwichDates.date "02/29/2004" = some (greenwich.midnight leapDay) := rfl
  constructor
  · exact (isAgeValid_of_completedYears rfl hdob).1 (by decide +kernel)
  · exact (isAgeValid_of_completedYears rfl hdob).2 (by decide +kernel) (by decide +kernel)

end Tasker
