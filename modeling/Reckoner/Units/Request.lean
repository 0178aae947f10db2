/-
  Requests for a conversion.

  * `Request`: a value, the unit it is in, and the unit it is wanted in;
  * `Request.read`: from `10 km to miles`, with units of several words, or from
    `5km miles`, with units of one word each.
-/
import Reckoner.Decimal.Numeral
import Reckoner.Failure
import Reckoner.Text.Pattern

namespace Reckoner.Units

open Text

/-- A value to convert, with the names of its unit and of the wanted one. -/
structure Request where
  value : Float
  source : String
  target : String

namespace Request

/-- A character of the name of a unit. -/
def isUnitChar (c : Char) : Bool := isAsciiLower c || c == '°' || c == '²' || c == '/'

/-- A character of a name of several words. -/
def isUnitPhraseChar (c : Char) : Bool := isUnitChar c || c == ' '

/-- A number with an optional minus sign. -/
def numeral : Pattern :=
  .chain [.maybe '-', .choice [.chain [.digits, .optional (.chain [.char '.', .many isDigit])],
    .chain [.char '.', .digits]]]

/-- The word between the units. -/
def separator : Pattern := .anyText ["to", "in"]

/-- A number, a unit, `to` or `in`, and a unit; the first separator that fits divides. -/
def explicit : Pattern :=
  .chain [.start, .group numeral, .gap,
    .group (.chain [.one isUnitChar, .few isUnitPhraseChar]), .blanks, separator, .blanks,
    .group (.chain [.one isUnitChar, .many isUnitPhraseChar]), .finish]

/-- A number and two units of one word each. -/
def compact : Pattern :=
  .chain [.start, .group numeral, .gap, .group (.some_ isUnitChar), .blanks,
    .group (.some_ isUnitChar), .finish]

/-- The value and the names in a canonical text. -/
def groups? (cs : List Char) : Option (List (List Char)) :=
  match explicit.groups? cs with
  | some groups => some groups
  | none => compact.groups? cs

/-- The request that a text makes. -/
def read (text : String) : Except Failure Request :=
  match groups? (canonical text.toList) with
  | some [numeral, source, target] =>
    match Decimal.readFloat? numeral with
    | some value => .ok ⟨value, String.ofList (trim source), String.ofList (trim target)⟩
    | none => .error (.invalidNumber (String.ofList numeral))
  | _ => .error .invalidConversionFormat

end Request

end Reckoner.Units
