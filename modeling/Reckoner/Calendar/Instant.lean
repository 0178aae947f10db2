/-
  Instants: a day and a time of day.

  * `Instant`: with seconds since midnight, and nanoseconds that pass 10⁹ within a leap
    second;
  * `Instant.seconds`, `Instant.timestamp`: the seconds since the start of year 1 and since
    the start of 1970, leap seconds apart;
  * `spanOf?`: a stretch of time, unless it is too long;
  * `Instant.addSeconds?`: the instant a number of seconds later or earlier;
  * `Instant.addMonths?`: the same day of another month, or that month's last;
  * `Instant.since`: the seconds and nanoseconds between two instants.
-/
import Reckoner.Calendar.Date
import Reckoner.Decimal.Numeral

namespace Reckoner.Calendar

/-- The number of seconds of a day. -/
def dayLength : Nat := 86400

/-- The number of nanoseconds of a second. -/
def nanos : Nat := 1000000000

/-- A day and a time of day. -/
structure Instant where
  date : Date
  /-- seconds since midnight -/
  second : Nat := 0
  /-- nanoseconds; those of a leap second count on from `nanos` -/
  nano : Nat := 0
  deriving DecidableEq, Repr

namespace Instant

/-- The start of a day. -/
def midnight (d : Date) : Instant := { date := d }

/-- The start of the instant's day. -/
def startOfDay (i : Instant) : Instant := midnight i.date

/-- The instant lies in a leap second. -/
def isLeapSecond (i : Instant) : Bool := nanos ≤ i.nano

/-- Seconds since the start of year 1; those of a leap second are the ones before it. -/
def seconds (i : Instant) : Int := i.date.dayNumber * dayLength + i.second

/-- The day number of the first day of 1970. -/
def epochDay : Int := 719162

/-- Seconds since the start of 1970. -/
def timestamp (i : Instant) : Int := i.seconds - epochDay * dayLength

/-- The most seconds that a stretch of time can have; its milliseconds fit into 64 bits. -/
def maxSpan : Int := Decimal.maxInt64 / 1000

/-- A stretch of time of a number of seconds, unless it is too long. -/
def spanOf? (seconds : Int) : Option Int :=
  if -maxSpan ≤ seconds && seconds ≤ maxSpan then some seconds else none

/-- The instant of a number of seconds since the start of year 1. -/
def ofSeconds? (total : Int) (nano : Nat) : Option Instant :=
  (Date.ofDayNumber? (total / dayLength)).map fun d =>
    ⟨d, (total % dayLength).toNat, nano⟩

/-- The instant `n` seconds later, if it has a date. Who leaves a leap second forward starts
from the second before it, and backward from the second after it. -/
def addSeconds? (i : Instant) (n : Int) : Option Instant :=
  if n = 0 then some i
  else if i.isLeapSecond then
    ofSeconds? (i.seconds + n + if n < 0 then 1 else 0) (i.nano - nanos)
  else ofSeconds? (i.seconds + n) i.nano

/-- The instant `n` months later, if it has a date; a day that the month does not have gives
way to the month's last. -/
def addMonths? (i : Instant) (n : Int) : Option Instant :=
  let index := 12 * i.date.year + (i.date.month - 1 : Int) + n
  let year := index / 12
  let month := (index % 12).toNat + 1
  (Date.ofYmd? year month (min i.date.day (monthLength year month))).map fun d =>
    { i with date := d }

/-- One instant is not after another. -/
def notAfter (a b : Instant) : Bool :=
  a.date.before b.date || (a.date == b.date &&
    (a.second < b.second || (a.second == b.second && a.nano ≤ b.nano)))

/-- Nanoseconds from an earlier instant to a later one. A leap second between their times of
day counts, on whatever days they lie. -/
def nanosSince (later earlier : Instant) : Int :=
  let leap : Int :=
    if earlier.second < later.second && earlier.isLeapSecond then 1
    else if later.second < earlier.second && later.isLeapSecond then -1
    else 0
  (later.seconds - earlier.seconds + leap) * nanos + (later.nano : Int) - (earlier.nano : Int)

/-- Whole seconds from an earlier instant to a later one. -/
def secondsSince (later earlier : Instant) : Int :=
  (nanosSince later earlier).tdiv nanos

end Instant

end Reckoner.Calendar
