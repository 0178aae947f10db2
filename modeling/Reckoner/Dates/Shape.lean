/-
  The shapes of date queries.

  * `Shape`: what a date query asks for;
  * `Shape.pattern`: how a query of each shape reads, with the parts that matter;
  * `Shape.recognize?`: the first shape that a query has, with its parts.
-/
import Reckoner.Text.Pattern

namespace Reckoner.Dates

open Text

/-- What a date query asks for. -/
inductive Shape where
  /-- `2024-01-01 + 5 days` -/
  | arithmetic
  /-- `days between 2024-01-01 and 2024-01-31` -/
  | difference
  /-- `next monday` -/
  | relativeWeekday
  /-- `3 days ago` -/
  | relativeOffset
  /-- `age of 1990-05-20` -/
  | age
  /-- `what day is 2024-07-04` -/
  | weekday
  deriving DecidableEq, Repr

namespace Shape

open Pattern

/-- Every shape, in the order in which they are tried. -/
def all : List Shape := [arithmetic, difference, relativeWeekday, relativeOffset, age, weekday]

/-- The name of a shape. -/
def name : Shape → String
  | arithmetic => "Arithmetic"
  | difference => "Difference"
  | relativeWeekday => "RelativeWeekday"
  | relativeOffset => "RelativeOffset"
  | age => "Age"
  | weekday => "Weekday"

/-- A word in the singular or the plural. -/
def counted (word : String) : Pattern := seq (text word) (maybe 's')

/-- The units a date can be moved by. -/
def shiftUnits : List Pattern :=
  ["second", "minute", "hour", "day", "week", "month", "year"].map counted

/-- The names of the weekdays in lower case. -/
def weekdayNames : List String :=
  ["monday", "tuesday", "wednesday", "thursday", "friday", "saturday", "sunday"]

/-- How a query of a shape reads. -/
def pattern : Shape → Pattern
  | arithmetic =>
    chain [start, group (seq (one line) (few line)), gap, group (oneOf "+-"), gap,
      group digits, blanks, group (choice shiftUnits), finish]
  | difference =>
    chain [boundary, group (choice (counted "business day" :: counted "workday" :: shiftUnits)),
      blanks, text "between", blanks, group (seq (one line) (few line)), blanks, text "and",
      blanks, group (some_ line), finish]
  | relativeWeekday =>
    chain [start, group (anyText ["next", "last"]), blanks, group (anyText weekdayNames), finish]
  | relativeOffset =>
    chain [start, group digits, blanks, group (choice shiftUnits), blanks,
      group (anyText ["ago", "from now"]), finish]
  | age => chain [start, text "age", blanks, text "of", blanks, group (some_ line), finish]
  | weekday =>
    chain [start, anyText ["what", "which"], blanks, text "day", blanks, text "is", blanks,
      group (some_ line), finish]

/-- The first shape a lower-case query has, with its parts. -/
def recognize? (cs : List Char) : Option (Shape × List String) :=
  all.findSome? fun shape =>
    (shape.pattern.groups? cs).map fun groups => (shape, groups.map String.ofList)

/-- The first shape a lower-case query has. -/
def detect? (cs : List Char) : Option Shape := (recognize? cs).map (·.1)

end Shape

end Reckoner.Dates
