/-
  How dates and times are written and read.

  * `Item`, `Format`: the parts of a written date, and a written date as a row of parts;
  * `Format.write`: an instant written in a format;
  * `Format.readInstant?`: the instant of a text in a format, midnight if the format has no
    time;
  * `readStamp?`: the instant of a text such as `2024-01-15t10:30:00.5+01:00`, at the
    offset given in it.
-/
import Reckoner.Calendar.Instant
import Reckoner.Decimal.Numeral
import Reckoner.Text.Blank

namespace Reckoner.Calendar

open Text

/-! ## Formats -/

/-- A part of a written date. -/
inductive Item where
  | year
  | month
  | day
  | hour
  | minute
  | second
  /-- the first three letters of the month's name -/
  | monthAbbreviation
  /-- the month's name; its first three letters are read as well -/
  | monthName
  | literal (c : Char)
  | space
  deriving DecidableEq, Repr

/-- A written date as a row of parts. -/
abbrev Format := List Item

/-- The names of the months. -/
def monthNames : List String :=
  ["January", "February", "March", "April", "May", "June", "July", "August", "September",
    "October", "November", "December"]

/-- The name of a month. -/
def monthNameOf (month : Nat) : String := (monthNames[month - 1]?).getD ""

/-! ## Writing -/

/-- A year in at least four digits, with a sign outside 0 to 9999. -/
def yearText (year : Int) : List Char :=
  let digits := Decimal.paddedDigits 4 year.natAbs
  if year < 0 then '-' :: digits else if year > 9999 then '+' :: digits else digits

/-- A part of an instant as it is written. -/
def Item.write (i : Instant) : Item → List Char
  | year => yearText i.date.year
  | month => Decimal.paddedDigits 2 i.date.month
  | day => Decimal.paddedDigits 2 i.date.day
  | hour => Decimal.paddedDigits 2 (i.second / 3600)
  | minute => Decimal.paddedDigits 2 (i.second / 60 % 60)
  | second => Decimal.paddedDigits 2 (i.second % 60 + i.nano / nanos)
  | monthAbbreviation => (monthNameOf i.date.month).toList.take 3
  | monthName => (monthNameOf i.date.month).toList
  | literal c => [c]
  | space => [' ']

/-- An instant as it is written in a format. -/
def Format.write (f : Format) (i : Instant) : List Char := f.flatMap (Item.write i)

/-! ## Reading -/

/-- The parts of a date as they have been read. -/
structure Fields where
  year : Int := 0
  month : Nat := 0
  day : Nat := 0
  hour : Nat := 0
  minute : Nat := 0
  second : Nat := 0

/-- A number of at least one digit and at most `most`. -/
def readUpTo (most : Nat) (cs : List Char) : Option (Nat × List Char) :=
  let digits := (cs.take most).takeWhile isAsciiDigit
  (Decimal.readNatural? 10 digits).map fun n => (n, cs.drop digits.length)

/-- A number of any length. -/
def readAll (cs : List Char) : Option (Nat × List Char) := readUpTo cs.length cs

/-- A year: up to four digits, or any number of digits after a sign. -/
def readYear (cs : List Char) : Option (Int × List Char) :=
  match cs with
  | '-' :: cs => (readAll cs).map fun (n, rest) => (-(n : Int), rest)
  | '+' :: cs => (readAll cs).map fun (n, rest) => ((n : Int), rest)
  | cs => (readUpTo 4 cs).map fun (n, rest) => ((n : Int), rest)

/-- What follows a word at the start of a text, in any ASCII case. -/
def readWord? (word : String) (cs : List Char) : Option (List Char) :=
  let length := word.length
  if (cs.take length).map Char.toLower = word.toList.map Char.toLower then some (cs.drop length)
  else none

/-- The month whose first three letters start the text. -/
def readAbbreviation (cs : List Char) : Option (Nat × List Char) :=
  ((List.range 12).map (· + 1)).findSome? fun month =>
    (readWord? (String.ofList ((monthNameOf month).toList.take 3)) cs).map fun rest =>
      (month, rest)

/-- The month whose name, or whose first three letters, start the text. -/
def readMonthName (cs : List Char) : Option (Nat × List Char) :=
  (readAbbreviation cs).map fun (month, rest) =>
    match readWord? (monthNameOf month) cs with
    | some rest => (month, rest)
    | none => (month, rest)

/-- Reads a part; blanks before a number are passed over. -/
def Item.read (item : Item) (f : Fields) (cs : List Char) : Option (Fields × List Char) :=
  match item with
  | year => (readYear (trimStart cs)).map fun (n, rest) => ({ f with year := n }, rest)
  | month => (readUpTo 2 (trimStart cs)).map fun (n, rest) => ({ f with month := n }, rest)
  | day => (readUpTo 2 (trimStart cs)).map fun (n, rest) => ({ f with day := n }, rest)
  | hour => (readUpTo 2 (trimStart cs)).map fun (n, rest) => ({ f with hour := n }, rest)
  | minute => (readUpTo 2 (trimStart cs)).map fun (n, rest) => ({ f with minute := n }, rest)
  | second => (readUpTo 2 (trimStart cs)).map fun (n, rest) => ({ f with second := n }, rest)
  | monthAbbreviation => (readAbbreviation cs).map fun (n, rest) => ({ f with month := n }, rest)
  | monthName => (readMonthName cs).map fun (n, rest) => ({ f with month := n }, rest)
  | literal c =>
    match cs with
    | d :: rest => if d = c then some (f, rest) else none
    | [] => none
  | space => some (f, trimStart cs)

/-- Reads the parts of a format one after another. -/
def Format.readFields (format : Format) (f : Fields) (cs : List Char) :
    Option (Fields × List Char) :=
  match format with
  | [] => some (f, cs)
  | item :: format => do
    let (f, rest) ← item.read f cs
    Format.readFields format f rest

/-- The instant of a day and a time; second 60 is the leap second after second 59. -/
def Fields.instant? (f : Fields) (nano : Nat) : Option Instant := do
  let date ← Date.ofYmd? f.year f.month f.day
  if f.hour < 24 && f.minute < 60 && f.second ≤ 60 then
    let (second, nano) := if f.second = 60 then (59, nano + nanos) else (f.second, nano)
    some ⟨date, f.hour * 3600 + f.minute * 60 + second, nano⟩
  else none

/-- The instant of a text that is written in a format from start to end. -/
def Format.readInstant? (format : Format) (cs : List Char) : Option Instant :=
  match format.readFields {} cs with
  | some (f, []) => f.instant? 0
  | _ => none

/-! ## Stamps with an offset -/

/-- A number of exactly `count` digits. -/
def readExactly (count : Nat) (cs : List Char) : Option (Nat × List Char) :=
  match readUpTo count cs with
  | some (n, rest) => if rest.length + count = cs.length then some (n, rest) else none
  | none => none

/-- What follows a character at the start of a text. -/
def readChar (has : Char → Bool) : List Char → Option (List Char)
  | c :: cs => if has c then some cs else none
  | [] => none

/-- A fraction of a second in nanoseconds: at least one digit after a point, of which nine
count; or nothing. -/
def readFraction : List Char → Option (Nat × List Char)
  | '.' :: cs =>
    let digits := (cs.take 9).takeWhile isAsciiDigit
    (Decimal.readNatural? 10 digits).map fun n =>
      (n * Nat.pow 10 (9 - digits.length), cs.dropWhile isAsciiDigit)
  | cs => some (0, cs)

/-- Passes over an offset from universal time, `z` or hours and minutes below 24:00. -/
def readOffset (cs : List Char) : Option (List Char) :=
  match readChar (fun c => c == 'z' || c == 'Z') cs with
  | some rest => some rest
  | none => do
    let cs ← readChar (fun c => c == '+' || c == '-' || c == '−') cs
    let (hours, cs) ← readExactly 2 cs
    let cs ← readChar (· == ':') cs
    let (minutes, cs) ← readExactly 2 cs
    if hours < 24 && minutes < 60 then some cs else none

/-- The instant of a day, a time, and an offset; the offset does not move it. -/
def readStamp? (cs : List Char) : Option Instant := do
  let (year, cs) ← readExactly 4 cs
  let cs ← readChar (· == '-') cs
  let (month, cs) ← readExactly 2 cs
  let cs ← readChar (· == '-') cs
  let (day, cs) ← readExactly 2 cs
  let cs ← readChar (fun c => c == 't' || c == 'T' || c == ' ') cs
  let (hour, cs) ← readExactly 2 cs
  let cs ← readChar (· == ':') cs
  let (minute, cs) ← readExactly 2 cs
  let cs ← readChar (· == ':') cs
  let (second, cs) ← readExactly 2 cs
  let (nano, cs) ← readFraction cs
  let cs ← readOffset cs
  if cs.isEmpty then Fields.instant? ⟨year, month, day, hour, minute, second⟩ nano else none

end Reckoner.Calendar
