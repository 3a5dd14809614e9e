import Mathlib.Data.Int.Basic

/-!
# Months

The UTC calendar, as far as the billing code uses it: `Date` counts milliseconds since 1970-01-01.
-/

namespace CloudMesh

/-- Year, month and day of a number of days since 1970-01-01, in the proleptic Gregorian calendar.
Years are counted from March here, in eras of 400 years. -/
def civilFromDays (days : ℤ) : ℤ × ℤ × ℤ :=
  let z := days + 719468
  let era := z / 146097
  let dayOfEra := z % 146097
  let yearOfEra := (dayOfEra - dayOfEra / 1460 + dayOfEra / 36524 - dayOfEra / 146096) / 365
  let dayOfYear := dayOfEra - (365 * yearOfEra + yearOfEra / 4 - yearOfEra / 100)
  let monthFromMarch := (5 * dayOfYear + 2) / 153
  let day := dayOfYear - (153 * monthFromMarch + 2) / 5 + 1
  let month := if monthFromMarch < 10 then monthFromMarch + 3 else monthFromMarch - 9
  (yearOfEra + era * 400 + (if month ≤ 2 then 1 else 0), month, day)

def daysOf (now : ℤ) : ℤ := now / 86400000

/-- The month as a key, e.g. `"2026-07"`. -/
def currentPeriodKey (now : ℤ) : String :=
  let (year, month, _) := civilFromDays (daysOf now)
  toString year ++ "-" ++ (if month < 10 then "0" else "") ++ toString month

def startOfCurrentMonthUtc (now : ℤ) : ℤ :=
  let (_, _, day) := civilFromDays (daysOf now)
  (daysOf now - (day - 1)) * 86400000

example : (civilFromDays 0, civilFromDays 59, civilFromDays 11016, civilFromDays 20658) =
    ((1970, 1, 1), (1970, 3, 1), (2000, 2, 29), (2026, 7, 24)) := by decide

end CloudMesh
