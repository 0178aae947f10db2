/-
  Days of the Gregorian calendar, extended to all years.

  * `Date`: a day of a year and a month; `Date.ofYmd?` refuses days that do not exist and
    years outside `minYear` to `maxYear`;
  * `Date.dayNumber`, `Date.ofDayNumber?`: days counted from the first day of year 1;
  * `Weekday`, `Date.weekday`: the first day of year 1 is a Monday.
-/
import Reckoner.Decimal.Digits

namespace Reckoner.Calendar

/-! ## Years and months -/

/-- The first year that has dates. -/
def minYear : Int := -262143

/-- The last year that has dates. -/
def maxYear : Int := 262142

/-- A year with a 29 February. -/
def isLeap (year : Int) : Bool :=
  year % 4 == 0 && (year % 100 != 0 || year % 400 == 0)

/-- The number of days of a month. -/
def monthLength (year : Int) (month : Nat) : Nat :=
  match month with
  | 4 | 6 | 9 | 11 => 30
  | 2 => if isLeap year then 29 else 28
  | _ => 31

/-- The number of days of a year. -/
def yearLength (year : Int) : Nat := if isLeap year then 366 else 365

/-- The number of days from the first day of year 1 to the first of a year. -/
def daysBeforeYear (year : Int) : Int :=
  let y := year - 1
  365 * y + y / 4 - y / 100 + y / 400

/-- The number of days of a year before a month. -/
def daysBeforeMonth (year : Int) : (month : Nat) → Nat
  | 0 | 1 => 0
  | month + 2 => daysBeforeMonth year (month + 1) + monthLength year (month + 1)

/-! ## Dates -/

/-- A day of a year and a month. -/
structure Date where
  year : Int
  month : Nat
  day : Nat
  deriving DecidableEq, Repr

namespace Date

/-- The day exists and its year has dates. -/
def isValid (d : Date) : Bool :=
  minYear ≤ d.year && d.year ≤ maxYear && 1 ≤ d.month && d.month ≤ 12 && 1 ≤ d.day &&
    d.day ≤ monthLength d.year d.month

/-- The day of a year and a month, if it exists. -/
def ofYmd? (year : Int) (month day : Nat) : Option Date :=
  let d : Date := ⟨year, month, day⟩
  if d.isValid then some d else none

/-- The last day that has a date. -/
def last : Date := ⟨maxYear, 12, 31⟩

/-- Days since the first day of year 1. -/
def dayNumber (d : Date) : Int :=
  daysBeforeYear d.year + daysBeforeMonth d.year d.month + d.day - 1

/-- The year of a day number, and the days before it in that year. -/
def splitYear (n : Int) : Int × Nat :=
  -- 400 years have 146097 days; the last century of four, and the last year, are the longer
  let era := n / 146097
  let inEra := (n % 146097).toNat
  let century := min (inEra / 36524) 3
  let inCentury := inEra - century * 36524
  let four := inCentury / 1461
  let inFour := inCentury - four * 1461
  let one := min (inFour / 365) 3
  (400 * era + 100 * century + 4 * four + one + 1, inFour - one * 365)

/-- The month and the day after `rest` days from the first of a month, looking at `months`
more months at most. -/
def walkMonths (year : Int) (month rest : Nat) : (months : Nat) → Nat × Nat
  | 0 => (month, rest + 1)
  | months + 1 =>
    if rest < monthLength year month then (month, rest + 1)
    else walkMonths year (month + 1) (rest - monthLength year month) months

/-- The day of a day number, whatever its year. -/
def ofDayNumber (n : Int) : Date :=
  let (year, rest) := splitYear n
  let (month, day) := walkMonths year 1 rest 11
  ⟨year, month, day⟩

/-- The day of a day number, if its year has dates. -/
def ofDayNumber? (n : Int) : Option Date :=
  let d := ofDayNumber n
  if minYear ≤ d.year && d.year ≤ maxYear then some d else none

/-- One day is before another. -/
def before (a b : Date) : Bool :=
  a.year < b.year || (a.year == b.year &&
    (a.month < b.month || (a.month == b.month && a.day < b.day)))

end Date

/-! ## Weekdays -/

/-- A day of the week. -/
inductive Weekday where
  | monday
  | tuesday
  | wednesday
  | thursday
  | friday
  | saturday
  | sunday
  deriving DecidableEq, Repr

namespace Weekday

/-- The days of a week from Monday on. -/
def all : List Weekday := [monday, tuesday, wednesday, thursday, friday, saturday, sunday]

/-- The name of a weekday. -/
def name : Weekday → String
  | monday => "Monday"
  | tuesday => "Tuesday"
  | wednesday => "Wednesday"
  | thursday => "Thursday"
  | friday => "Friday"
  | saturday => "Saturday"
  | sunday => "Sunday"

/-- Days since Monday. -/
def index : Weekday → Nat
  | monday => 0
  | tuesday => 1
  | wednesday => 2
  | thursday => 3
  | friday => 4
  | saturday => 5
  | sunday => 6

/-- The weekday a number of days after a Monday. -/
def ofIndex (n : Nat) : Weekday :=
  match n % 7 with
  | 0 => monday
  | 1 => tuesday
  | 2 => wednesday
  | 3 => thursday
  | 4 => friday
  | 5 => saturday
  | _ => sunday

/-- The weekday is neither Saturday nor Sunday. -/
def isWorkday (w : Weekday) : Bool := w != saturday && w != sunday

end Weekday

/-- The weekday of a day. -/
def Date.weekday (d : Date) : Weekday := .ofIndex (d.dayNumber % 7).toNat

end Reckoner.Calendar
