/-!
# Calendar Dates

Dates of the Gregorian calendar, carried back before its introduction, with a
year zero and negative years.

Days are counted from the first of January 1970. The count runs through eras
of four hundred years, which all have the same number of days, and through
years that start in March: a leap day is then the last day of its year, and
the months before it follow one linear rule.

## Main definitions

* `Date`: A year, a month and a day.
* `Date.IsReal`: The month and the day exist.
* `Date.toDays`: The days since the epoch.
* `Date.ofDays`: The date of a day count.

## Theorems

* `yearOfDay_bounds`: The year of a day, and what is left of the day.
* `toDays_ofDays`: Counting the days of a date gives back the count.
-/

namespace Fieldwork

/-- A date, also one that the calendar does not have. -/
@[ext]
structure Date where
  /-- The year, zero for the year before the first. -/
  year : Int
  /-- The month, counted from one. -/
  month : Nat
  /-- The day of the month, counted from one. -/
  day : Nat
  deriving DecidableEq, Inhabited

namespace Date

/-- Every fourth year, except those of full centuries that four does not
    divide. -/
def isLeapYear (year : Int) : Bool :=
  year % 4 == 0 && (year % 100 != 0 || year % 400 == 0)

/-- The number of days of a month, zero if there is no such month. -/
def daysInMonth (year : Int) (month : Nat) : Nat :=
  match month with
  | 1 | 3 | 5 | 7 | 8 | 10 | 12 => 31
  | 4 | 6 | 9 | 11 => 30
  | 2 => if isLeapYear year then 29 else 28
  | _ => 0

/-- The month and the day exist. -/
def IsReal (date : Date) : Prop :=
  1 ≤ date.day ∧ date.day ≤ daysInMonth date.year date.month

instance (date : Date) : Decidable date.IsReal :=
  inferInstanceAs (Decidable (_ ∧ _))

/-- The day of an era, by the year of the era, the month counted from March
    and the day counted from zero. -/
def dayOfEra (yearOfEra monthFromMarch day : Int) : Int :=
  yearOfEra * 365 + yearOfEra / 4 - yearOfEra / 100 + (153 * monthFromMarch + 2) / 5 + day

/-- The days from the first of January 1970. -/
def toDays (date : Date) : Int :=
  let month : Int := date.month
  let year := if month ≤ 2 then date.year - 1 else date.year
  let monthFromMarch := if month ≤ 2 then month + 9 else month - 3
  year / 400 * 146097 + dayOfEra (year % 400) monthFromMarch (date.day - 1) - 719468

/-- The year of an era to which a day of the era belongs: its century, the
    cycle of four years in the century and the year in the cycle. The last
    century and the last year of a cycle are a day longer than the others. -/
def yearOfDay (dayOfEra : Int) : Int :=
  let century := min (dayOfEra / 36524) 3
  let dayOfCentury := dayOfEra - century * 36524
  let cycle := dayOfCentury / 1461
  let year := min (dayOfCentury % 1461 / 365) 3
  century * 100 + cycle * 4 + year

/-- The month counted from January, of one counted from March. -/
def monthOfYear (monthFromMarch : Int) : Int :=
  if monthFromMarch < 10 then monthFromMarch + 3 else monthFromMarch - 9

/-- The date of a day in a year that starts in March. -/
def ofMarchYear (year monthFromMarch day : Int) : Date :=
  let month := monthOfYear monthFromMarch
  ⟨if month ≤ 2 then year + 1 else year, month.toNat, day.toNat⟩

/-- The date of a day count. -/
def ofDays (days : Int) : Date :=
  let shifted := days + 719468
  let era := shifted / 146097
  let dayOfEra := shifted % 146097
  let yearOfEra := yearOfDay dayOfEra
  let dayOfYear := dayOfEra - (yearOfEra * 365 + yearOfEra / 4 - yearOfEra / 100)
  let monthFromMarch := (5 * dayOfYear + 2) / 153
  ofMarchYear (yearOfEra + era * 400) monthFromMarch
    (dayOfYear - (153 * monthFromMarch + 2) / 5 + 1)

/-- The day count of a date in a year that starts in March. -/
theorem toDays_ofMarchYear {year month day : Int} (hm : 0 ≤ month ∧ month ≤ 11) (hd : 1 ≤ day) :
    (ofMarchYear year month day).toDays =
      year / 400 * 146097 + dayOfEra (year % 400) month (day - 1) - 719468 := by
  have hday : ((day.toNat : Nat) : Int) = day := by omega
  by_cases h : month < 10
  · have hmonth : ((monthOfYear month).toNat : Int) = month + 3 := by simp [monthOfYear, h]; omega
    have hgt : ¬ monthOfYear month ≤ 2 := by simp [monthOfYear, h]; omega
    simp only [ofMarchYear, toDays, hmonth, hday, hgt, if_false,
      show ¬ month + 3 ≤ 2 by omega, show month + 3 - 3 = month by omega]
  · have hmonth : ((monthOfYear month).toNat : Int) = month - 9 := by simp [monthOfYear, h]; omega
    have hle : monthOfYear month ≤ 2 := by simp [monthOfYear, h]; omega
    simp only [ofMarchYear, toDays, hmonth, hday, hle, if_true,
      show month - 9 ≤ 2 by omega, show month - 9 + 9 = month by omega,
      show year + 1 - 1 = year by omega]

/-- The year of a day of an era, and what is left of the day. -/
theorem yearOfDay_bounds {doe : Int} (h : 0 ≤ doe ∧ doe < 146097) :
    0 ≤ yearOfDay doe ∧ yearOfDay doe < 400 ∧
      0 ≤ doe - (yearOfDay doe * 365 + yearOfDay doe / 4 - yearOfDay doe / 100) ∧
      doe - (yearOfDay doe * 365 + yearOfDay doe / 4 - yearOfDay doe / 100) ≤ 365 := by
  simp only [yearOfDay]
  -- The last day of a leap year would begin one year more, so both quotients are
  -- cut at three.
  generalize hc : min (doe / 36524) 3 = century
  have centuries : 0 ≤ century ∧ century ≤ 3 ∧ century * 36524 ≤ doe ∧
      doe ≤ century * 36524 + 36524 := by omega
  generalize hd : doe - century * 36524 = day
  have cycles : 0 ≤ day / 1461 ∧ day / 1461 ≤ 24 := by omega
  have days : day = day / 1461 * 1461 + day % 1461 := by omega
  generalize day / 1461 = cycle at *
  generalize hr : day % 1461 = rest at *
  have years : 0 ≤ rest ∧ rest < 1461 := by omega
  generalize hy : min (rest / 365) 3 = year
  have parts : (century * 100 + cycle * 4 + year) / 4 = century * 25 + cycle ∧
      (century * 100 + cycle * 4 + year) / 100 = century := by omega
  rw [parts.1, parts.2]
  omega

/-- Counting the days of a date gives back the count. -/
theorem toDays_ofDays (days : Int) : (ofDays days).toDays = days := by
  have range : 0 ≤ (days + 719468) % 146097 ∧ (days + 719468) % 146097 < 146097 := by omega
  -- From here on only the linear parts are left; the products of the count are
  -- names for the solver.
  have bounds := yearOfDay_bounds range
  have split := Int.mul_ediv_add_emod (days + 719468) 146097
  simp only [ofDays]
  generalize (days + 719468) / 146097 = era at *
  generalize (days + 719468) % 146097 = doe at *
  generalize yearOfDay doe = yoe at *
  generalize hdoy : doe - (yoe * 365 + yoe / 4 - yoe / 100) = doy at *
  rw [toDays_ofMarchYear (by omega) (by omega)]
  rw [show (yoe + era * 400) / 400 = era by omega, show (yoe + era * 400) % 400 = yoe by omega]
  simp only [dayOfEra]
  omega

end Date

end Fieldwork
