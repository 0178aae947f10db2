/-
  Units of time between dates.

  * `DateUnit`: from seconds to years, and business days;
  * `shift`: an instant moved by a number of units; months and years keep to the end of a
    shorter month;
  * `difference`: how many units lie between two instants, never negative;
  * `businessDays`: the days from Monday to Friday between two days, both included;
  * `ageInYears`: the whole years since a birth.
-/
import Reckoner.Calendar.Format
import Reckoner.Failure

namespace Reckoner.Dates

open Calendar

/-! ## Units -/

/-- A unit of time between dates. -/
inductive DateUnit where
  | second
  | minute
  | hour
  | day
  | week
  | month
  | year
  | businessDay
  deriving DecidableEq, Repr

namespace DateUnit

/-- Every unit. -/
def all : List DateUnit := [second, minute, hour, day, week, month, year, businessDay]

/-- The name of a unit. -/
def name : DateUnit → String
  | second => "Second"
  | minute => "Minute"
  | hour => "Hour"
  | day => "Day"
  | week => "Week"
  | month => "Month"
  | year => "Year"
  | businessDay => "BusinessDay"

/-- A text without the letters `s` it ends with. -/
def singular (text : String) : String :=
  String.ofList (text.toList.reverse.dropWhile (· == 's')).reverse

/-- The unit of a word in the singular or the plural. -/
def ofText? (text : String) : Option DateUnit :=
  let word := singular (Text.trimmed text)
  if word == "second" then some second
  else if word == "minute" then some minute
  else if word == "hour" then some hour
  else if word == "day" then some day
  else if word == "week" then some week
  else if word == "month" then some month
  else if word == "year" then some year
  else if word == "business day" || word == "workday" then some businessDay
  else none

/-- The seconds of a unit of fixed length. -/
def length? : DateUnit → Option Nat
  | second => some 1
  | minute => some 60
  | hour => some 3600
  | day => some 86400
  | week => some 604800
  | month | year | businessDay => none

/-- The unit is shorter than a day, so it counts from the time of day. -/
def isClockTime (u : DateUnit) : Bool := u == second || u == minute || u == hour

end DateUnit

/-! ## Formats -/

/-- The format `2024-01-15`. -/
def dayFormat : Format := [.year, .literal '-', .month, .literal '-', .day]

/-- The format `10:30:00`. -/
def timeFormat : Format := [.hour, .literal ':', .minute, .literal ':', .second]

/-- The format `2024-01-15 10:30:00`. -/
def instantFormat : Format := dayFormat ++ [.space] ++ timeFormat

/-- The day of an instant as it is shown. -/
def dayText (i : Instant) : String := String.ofList (dayFormat.write i)

/-- An instant as it is shown. -/
def instantText (i : Instant) : String := String.ofList (instantFormat.write i)

/-! ## Moving and measuring -/

/-- An amount of a unit in a smaller one, `count` of which make it up, if it fits into 64
bits. -/
def scale? (amount : Int) (count : Nat) : Option Int :=
  (some (amount * count)).filter Decimal.fitsInt64

/-- A number of months forward or back, unless it takes more than 32 bits. -/
def monthsOf? (months : Int) : Option Int := (some months).filter (·.natAbs < Nat.pow 2 32)

/-- The failure of an instant that would leave the years with dates. -/
def outOfRange (i : Instant) (unit : DateUnit) (amount : Int) : Failure :=
  .dateOutOfRange ("cannot move " ++ dayText i ++ " by " ++ Decimal.integerText amount ++ " " ++
    unit.name)

/-- An instant moved by an amount of a unit. -/
def shift (i : Instant) (unit : DateUnit) (amount : Int) : Except Failure Instant :=
  let moved : Except Failure (Option Instant) :=
    match unit, unit.length? with
    | _, some length => .ok do
      let seconds ← scale? amount length
      let span ← Instant.spanOf? seconds
      i.addSeconds? span
    | .month, none => .ok do
      let months ← monthsOf? amount
      i.addMonths? months
    | .year, none => .ok do
      let amount ← scale? amount 12
      let months ← monthsOf? amount
      i.addMonths? months
    | _, none => .error .invalidDateExpression
  match moved with
  | .ok (some j) => .ok j
  | .ok none => .error (outOfRange i unit amount)
  | .error f => .error f

/-- The days from Monday to Friday with a smaller day number, less those before year 1. -/
def workdaysBefore (n : Int) : Int := 5 * (n / 7) + min (n % 7) 5

/-- The days from Monday to Friday from one day to another, both included; the very last day
that has a date is not counted. -/
def businessDays (first last : Date) : Int :=
  let stop := min last.dayNumber (Date.last.dayNumber - 1)
  if first.dayNumber ≤ stop then
    workdaysBefore (stop + 1) - workdaysBefore first.dayNumber
  else 0

/-- How many whole units lie between two instants; months and years count by their numbers
alone. -/
def difference (unit : DateUnit) (a b : Instant) : Int :=
  let (first, last) := if a.notAfter b then (a, b) else (b, a)
  let seconds := last.secondsSince first
  let years := last.date.year - first.date.year
  match unit with
  | .second => seconds
  | .minute => seconds.tdiv 60
  | .hour => seconds.tdiv 3600
  | .day => seconds.tdiv 86400
  | .week => (seconds.tdiv 86400).tdiv 7
  | .month => (years * 12 + last.date.month - first.date.month).natAbs
  | .year => years.natAbs
  | .businessDay => businessDays first.date last.date

/-- The whole years from a birth to a day. -/
def ageInYears (birth today : Date) : Except Failure Int :=
  if today.before birth then
    .error (.dateOutOfRange ("birth date " ++ dayText (.midnight birth) ++ " is in the future"))
  else
    let years := today.year - birth.year
    let early := today.month < birth.month ||
      (today.month == birth.month && today.day < birth.day)
    .ok (if early then years - 1 else years)

end Reckoner.Dates
