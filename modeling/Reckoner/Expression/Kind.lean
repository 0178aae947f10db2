/-
  The kinds of expressions.

  * `Kind`: what an expression is taken for;
  * `Kind.detect`: the kind of a canonical text, by the words and signs in it; dates come
    first, then conversions, logic and arithmetic.
-/
import Reckoner.Answer
import Reckoner.Arithmetic.Function
import Reckoner.Logic.Bitwise
import Reckoner.Token
import Reckoner.Units.Request
import Reckoner.Units.Table

namespace Reckoner.Expression

open Text Pattern

/-- What an expression is taken for. -/
inductive Kind where
  | unknown
  | arithmetic
  | logic
  | unitConversion
  | dateCalculation
  | naturalLanguage
  deriving DecidableEq, Repr

namespace Kind

/-- Every kind. -/
def all : List Kind :=
  [unknown, arithmetic, logic, unitConversion, dateCalculation, naturalLanguage]

/-- The name of a kind in words. -/
def name : Kind → String
  | unknown => "unknown"
  | arithmetic => "arithmetic"
  | logic => "logic"
  | unitConversion => "unit conversion"
  | dateCalculation => "date calculation"
  | naturalLanguage => "natural language"

/-- The name of a kind as one word. -/
def key : Kind → String
  | unknown => "unknown"
  | arithmetic => "arithmetic"
  | logic => "logic"
  | unitConversion => "unit_conversion"
  | dateCalculation => "date_calculation"
  | naturalLanguage => "natural_language"

/-- The domain that answers expressions of a kind. -/
def domain? : Kind → Option Domain
  | unknown => none
  | arithmetic => some .arithmetic
  | logic => some .logicEvaluation
  | unitConversion => some .unitConversion
  | dateCalculation => some .dateCalculation
  | naturalLanguage => some .naturalLanguage

end Kind

/-! ## Signs of a date -/

/-- The words that occur in date queries only. -/
def dateWords : List String :=
  ["today", "yesterday", "tomorrow", "now", "ago", "between", "next", "last", "age of",
    "what day is", "which day is"]

/-- One digit or two. -/
def oneOrTwoDigits : Pattern := seq (one isDigit) (optional (one isDigit))

/-- A date word, or a date that starts with the year. -/
def dateHint : Pattern :=
  alt (word (anyText dateWords))
    (chain [times isDigit 4, oneOf "-/", oneOrTwoDigits, oneOf "-/", oneOrTwoDigits])

/-! ## Signs of a conversion -/

/-- A number with an optional minus sign, digits at its end. -/
def plainNumeral : Pattern :=
  seq (maybe '-') (alt (seq digits (optional (seq (char '.') digits))) (seq (char '.') digits))

/-- A number, a unit, `to` or `in`, and a unit. -/
def explicitConversion : Pattern :=
  chain [start, plainNumeral, gap, one Units.Request.isUnitChar,
    few Units.Request.isUnitPhraseChar, blanks, Units.Request.separator, blanks,
    one Units.Request.isUnitChar, many Units.Request.isUnitPhraseChar, finish]

/-- A number and two words. -/
def compactConversion : Pattern :=
  chain [start, plainNumeral, gap, some_ Units.Request.isUnitChar, blanks,
    some_ Units.Request.isUnitChar, finish]

/-- Both units of the request that a text makes are known. -/
def hasKnownUnits (cs : List Char) : Bool :=
  match Units.Request.read (String.ofList cs) with
  | .ok request => (Units.lookup? request.source).isSome && (Units.lookup? request.target).isSome
  | .error _ => false

/-- The text is a conversion: with `to` or `in` in any case, else only if both units are
known. -/
def isConversion (cs : List Char) : Bool :=
  explicitConversion.occursIn cs || (compactConversion.occursIn cs && hasKnownUnits cs)

/-! ## Signs of logic -/

/-- The words of logic. -/
def logicWords : List String :=
  ["and", "or", "not", "xor", "nand", "nor", "xnor", "true", "false"]

/-- A word or a sign of logic. -/
def logicHint : Pattern := alt (word (anyText logicWords)) (oneOf "&|~!<>=")

/-- A literal in base 2, 8 or 16. -/
def baseLiteral : Pattern :=
  word (seq (char '0') (choice
    [seq (char 'x') (some_ (Logic.Bitwise.isBaseDigit 16)),
      seq (char 'b') (some_ (Logic.Bitwise.isBaseDigit 2)),
      seq (char 'o') (some_ (Logic.Bitwise.isBaseDigit 8))]))

/-- The text is logic; `^` counts between literals of bitwise expressions. -/
def isLogic (cs : List Char) : Bool :=
  logicHint.occursIn cs || (cs.contains '^' && baseLiteral.occursIn cs)

/-! ## Signs of arithmetic -/

/-- The names in a text: lower-case letters and the letters and digits after them. -/
def names (cs : List Char) : List String :=
  let slices := Slice.cut (fun c => !isAsciiLower c)
    (fun _ cs => ((), (cs.takeWhile fun d => isAsciiLower d || isAsciiDigit d).length)) 0 cs
  slices.map fun s => String.ofList s.text

/-- A character of an expression without names. -/
def isNumericChar (c : Char) : Bool := isDigit c || isBlank c || ".()+-*/^%".toList.contains c

/-- A digit or the name of a constant. -/
def operandHint : Pattern :=
  alt (one isDigit) (word (anyText (Arithmetic.constants.map (·.1))))

/-- The text is arithmetic: it names a function, or it has numbers and operators only, or it
has an operand and an operator. -/
def isArithmetic (cs : List Char) : Bool :=
  (names cs).any (fun n => (Arithmetic.Function.ofName? n).isSome) ||
    (cs.all isNumericChar && cs.any isDigit) ||
    (operandHint.occursIn cs && cs.any fun c => "+-*/^%".toList.contains c)

/-! ## Detection -/

/-- The kind of a canonical text. -/
def Kind.detect (cs : List Char) : Kind :=
  if dateHint.occursIn cs then .dateCalculation
  else if isConversion cs then .unitConversion
  else if isLogic cs then .logic
  else if isArithmetic cs then .arithmetic
  else .naturalLanguage

end Reckoner.Expression
