import Fieldwork.Moment.Basic

/-!
# Counted Days Are Real Dates

Every day count names a day that the calendar has.

`toDays_ofDays` says that the count of a date can be got back, and that holds
of a date with a thirtieth of February too. Whether the day exists is a
question of its own, and it comes down to one day: the last of February in a
year that starts in March is its three hundred and sixty-sixth, and only a
leap year has one. `isLeapYear_of_dayOfYear` is that fact. All other days are
settled by the linear rule for the months.

A clock set by a count of milliseconds then shows a real date and a time of
day, whatever the count.

## Theorems

* `dayOfYear_le`: A year of an era has no more than its days.
* `isLeapYear_of_dayOfYear`: A year with one day more is a leap year.
* `month_day_le_of_isReal`: The bounds of a month and a day.
* `isReal_ofMarchYear`: A day of a year that starts in March is real.
* `isReal_ofDays`: Every day count names a real date.
-/

namespace Fieldwork

namespace Date

/-- A year of an era whose days do not suffice is one that has a day more:
    the fourth of its cycle, and the last of its century only at the end of
    the era. -/
theorem dayOfYear_le {doe : Int} (h : 0 ≤ doe ∧ doe < 146097) :
    doe - (yearOfDay doe * 365 + yearOfDay doe / 4 - yearOfDay doe / 100) ≤ 364 ∨
      (yearOfDay doe + 1) % 4 = 0 ∧
        ((yearOfDay doe + 1) % 100 ≠ 0 ∨ (yearOfDay doe + 1) % 400 = 0) := by
  simp only [yearOfDay]
  -- An era is taken apart as `yearOfDay` does it, each part with its bounds:
  -- `omega` could not find the quotients in one go.
  generalize hc : min (doe / 36524) 3 = century
  have centuries : 0 ≤ century ∧ century ≤ 3 ∧ century * 36524 ≤ doe ∧
      doe ≤ century * 36524 + 36524 ∧ (century < 3 → doe < century * 36524 + 36524) := by omega
  generalize hd : doe - century * 36524 = day
  have cycles : 0 ≤ day / 1461 ∧ day / 1461 ≤ 24 := by omega
  have days : day = day / 1461 * 1461 + day % 1461 := by omega
  generalize day / 1461 = cycle at *
  generalize hr : day % 1461 = rest at *
  have years : 0 ≤ rest ∧ rest < 1461 := by omega
  generalize hy : min (rest / 365) 3 = year
  have parts : (century * 100 + cycle * 4 + year) / 4 = century * 25 + cycle ∧
      (century * 100 + cycle * 4 + year) / 100 = century := by omega
  rw [parts.1, parts.2]
  omega

/-- A year with one day more is a leap year, also when whole eras are added
    to it. -/
theorem isLeapYear_of_dayOfYear {doe : Int} (h : 0 ≤ doe ∧ doe < 146097) (era : Int)
    (hd : 364 < doe - (yearOfDay doe * 365 + yearOfDay doe / 4 - yearOfDay doe / 100)) :
    isLeapYear (yearOfDay doe + era * 400 + 1) = true := by
  rcases dayOfYear_le h with hle | ⟨h4, h100⟩
  · omega
  · have four : (yearOfDay doe + era * 400 + 1) % 4 = 0 := by omega
    rcases h100 with h100 | h400
    · have hundred : (yearOfDay doe + era * 400 + 1) % 100 ≠ 0 := by omega
      simp [isLeapYear, four, hundred]
    · have fourHundred : (yearOfDay doe + era * 400 + 1) % 400 = 0 := by omega
      simp [isLeapYear, four, fourHundred]

/-- A day of a year that starts in March is real. The last day of February is
    the only one that depends on the year. -/
theorem isReal_ofMarchYear {year doy : Int} (h : 0 ≤ doy ∧ doy ≤ 365)
    (hleap : 364 < doy → isLeapYear (year + 1) = true) :
    (ofMarchYear year ((5 * doy + 2) / 153)
      (doy - (153 * ((5 * doy + 2) / 153) + 2) / 5 + 1)).IsReal := by
  generalize hm : (5 * doy + 2) / 153 = month
  unfold IsReal
  by_cases hfeb : month = 11
  · -- February ends the year, so its days are what the year has left.
    subst hfeb
    simp only [ofMarchYear, monthOfYear, daysInMonth]
    by_cases hlast : 364 < doy
    · simp [hleap hlast]
      omega
    · simp
      split <;> omega
  · -- The rule for the months is checked month by month.
    have months : month = 0 ∨ month = 1 ∨ month = 2 ∨ month = 3 ∨ month = 4 ∨ month = 5 ∨
        month = 6 ∨ month = 7 ∨ month = 8 ∨ month = 9 ∨ month = 10 := by omega
    rcases months with rfl | rfl | rfl | rfl | rfl | rfl | rfl | rfl | rfl | rfl | rfl
    all_goals
      simp [ofMarchYear, monthOfYear, daysInMonth]
      omega

theorem month_day_le_of_isReal {date : Date} (h : date.IsReal) :
    date.month ≤ 12 ∧ date.day ≤ 31 := by
  rcases h with ⟨hpos, hle⟩
  unfold daysInMonth at hle
  split at hle
  case h_12 => split at hle <;> omega
  all_goals omega

/-- Every day count names a real date. -/
theorem isReal_ofDays (days : Int) : (ofDays days).IsReal := by
  have range : 0 ≤ (days + 719468) % 146097 ∧ (days + 719468) % 146097 < 146097 := by omega
  have bounds := yearOfDay_bounds range
  have leap := isLeapYear_of_dayOfYear range ((days + 719468) / 146097)
  exact isReal_ofMarchYear ⟨bounds.2.2.1, bounds.2.2.2⟩ leap

end Date

end Fieldwork
