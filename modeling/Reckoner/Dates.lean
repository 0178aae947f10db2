/-
  Answers to date queries.

  * `answerShape`: the answer to a query of a known shape;
  * `evaluate`: the answer to a date query; what has no shape is read as a date.
-/
import Reckoner.Answer
import Reckoner.Dates.Reader
import Reckoner.Dates.Shape
import Reckoner.Settings

namespace Reckoner.Dates

open Calendar

/-- The answer that is an instant; its number is the timestamp. -/
def instantAnswer (input : String) (at_ : Instant) (subtitle : String) : Answer :=
  .success input (instantText at_) .dateCalculation subtitle (some (Float.ofInt at_.timestamp))

/-- The answer that is a number of something. -/
def countAnswer (input result subtitle : String) (count : Int) : Answer :=
  .success input result .dateCalculation subtitle (some (Float.ofInt count))

/-- A whole number of 64 bits written in digits. -/
def readAmount (text : String) : Except Failure Int :=
  match Decimal.readInt64? 10 text.toList with
  | some n => .ok n
  | none => .error (.invalidNumber text)

/-- The unit of a word. -/
def readUnit (text : String) : Except Failure DateUnit :=
  match DateUnit.ofText? text with
  | some unit => .ok unit
  | none => .error .invalidDateExpression

/-- A date moved forward or back. -/
def arithmetic (now : Instant) (input date sign amount unit : String) :
    Except Failure Answer := do
  let date := Text.trimmed date
  let base ← readDate now date
  let u ← readUnit unit
  let n ← readAmount amount
  let moved ← shift base u (if sign == "-" then -n else n)
  let label := if keywords.contains date then date else dayText base
  return instantAnswer input moved
    (label ++ " " ++ sign ++ " " ++ Decimal.integerText n ++ " " ++ unit ++ " = " ++
      dayText moved)

/-- The units between two dates. -/
def between (now : Instant) (input unit first second : String) : Except Failure Answer := do
  let u ← readUnit unit
  let a ← readDate now first
  let b ← readDate now second
  let count := difference u a b
  let label := if count = 1 then DateUnit.singular unit else unit
  let text := Decimal.integerText count
  return countAnswer input text
    (text ++ " " ++ label ++ " between " ++ dayText a ++ " and " ++ dayText b) count

/-- The days from a weekday to the next or the last other of a name. -/
def daysTo (last : Bool) (start goal : Weekday) : Int :=
  let ahead := ((goal.index : Int) - start.index + 7) % 7
  if last then ahead - 7 else if ahead = 0 then 7 else ahead

/-- The next or the last day of a weekday. -/
def relativeWeekday (now : Instant) (input direction weekday : String) :
    Except Failure Answer := do
  match Weekday.all.find? fun w => w.name.toLower == weekday with
  | none => .error (.unparseableDate weekday)
  | some target =>
    let today := now.startOfDay
    let moved ← shift today .day (daysTo (direction == "last") today.date.weekday target)
    return instantAnswer input moved ("Date: " ++ dayText moved)

/-- A date some time ago or from now; days and more count from midnight. -/
def relativeOffset (now : Instant) (input amount unit direction : String) :
    Except Failure Answer := do
  let n ← readAmount amount
  let u ← readUnit unit
  let base := if u.isClockTime then now else now.startOfDay
  let moved ← shift base u (if direction == "ago" then -n else n)
  return instantAnswer input moved ("Date: " ++ dayText moved)

/-- The age of someone born on a date. -/
def ageOf (now : Instant) (input date : String) : Except Failure Answer := do
  let birth ← readDate now date
  let years ← ageInYears birth.date now.date
  let text := Decimal.integerText years ++ " years"
  return countAnswer input text ("Age: " ++ text) years

/-- The weekday of a date. -/
def weekdayOf (now : Instant) (input date : String) : Except Failure Answer := do
  let day ← readDate now date
  let name := day.date.weekday.name
  return .success input name .dateCalculation (dayText day ++ " is a " ++ name)

/-- The answer to a query of a shape with its parts. -/
def answerShape (now : Instant) (input : String) : Shape × List String → Except Failure Answer
  | (.arithmetic, [date, sign, amount, unit]) => arithmetic now input date sign amount unit
  | (.difference, [unit, first, second]) => between now input unit first second
  | (.relativeWeekday, [direction, weekday]) => relativeWeekday now input direction weekday
  | (.relativeOffset, [amount, unit, direction]) => relativeOffset now input amount unit direction
  | (.age, [date]) => ageOf now input date
  | (.weekday, [date]) => weekdayOf now input date
  | _ => .error .invalidDateExpression

/-- The answer to a query that is a date by itself. -/
def dateAnswer (now : Instant) (input : String) (cs : List Char) : Except Failure Answer :=
  match readDate now (String.ofList cs) with
  | .ok day => .ok (instantAnswer input day ("Date: " ++ instantText day))
  | .error _ => .error .invalidDateExpression

/-- The answer to a query without blanks around it, or its failure. -/
def answer? (now : Instant) (input : String) : Except Failure Answer :=
  if input.isEmpty then .error .emptyExpression
  else
    let cs := Text.canonical input.toList
    match Shape.recognize? cs with
    | some parts => answerShape now input parts
    | none => dateAnswer now input cs

/-- The answer to a date query, with `now` for the present. -/
def evaluate (now : Instant) (query : String) : Answer :=
  let input := Text.trimmed query
  Answer.ofExcept input (answer? now input)

end Reckoner.Dates
