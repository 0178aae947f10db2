/-
  Dates as they are written in queries.

  * `instantFormats`, `dayFormats`: the formats that are understood, in the order in which
    they are tried;
  * `readDate`: the instant of a keyword or of a date in one of the formats.
-/
import Reckoner.Dates.Unit

namespace Reckoner.Dates

open Calendar Text

/-- The words that stand for a date. -/
def keywords : List String := ["today", "now", "yesterday", "tomorrow"]

/-- Formats with a time of day. -/
def instantFormats : List Format :=
  [instantFormat,
    dayFormat ++ [.literal 'T'] ++ timeFormat,
    [.year, .literal '/', .month, .literal '/', .day, .space] ++ timeFormat,
    [.month, .literal '/', .day, .literal '/', .year, .space] ++ timeFormat,
    [.day, .literal '/', .month, .literal '/', .year, .space] ++ timeFormat]

/-- Formats of a day alone. -/
def dayFormats : List Format :=
  [dayFormat,
    [.year, .literal '/', .month, .literal '/', .day],
    [.month, .literal '/', .day, .literal '/', .year],
    [.day, .literal '/', .month, .literal '/', .year],
    [.monthAbbreviation, .space, .day, .literal ',', .space, .year],
    [.monthName, .space, .day, .literal ',', .space, .year],
    [.day, .space, .monthAbbreviation, .space, .year],
    [.day, .space, .monthName, .space, .year]]

/-- The instant of a date in the first format that fits. -/
def readFormats? (cs : List Char) : Option Instant :=
  match (instantFormats ++ dayFormats).findSome? fun f => f.readInstant? cs with
  | some i => some i
  | none => readStamp? cs

/-- The instant of a keyword, counted from `now`, or of a date. -/
def readDate (now : Instant) (text : String) : Except Failure Instant :=
  let cs := lower (trim text.toList)
  let word := String.ofList cs
  if word == "now" then .ok now
  else if word == "today" then .ok now.startOfDay
  else if word == "yesterday" then shift now.startOfDay .day (-1)
  else if word == "tomorrow" then shift now.startOfDay .day 1
  else
    match readFormats? cs with
    | some i => .ok i
    | none => .error (.unparseableDate word)

end Reckoner.Dates
