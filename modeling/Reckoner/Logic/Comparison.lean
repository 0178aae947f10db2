/-
  Comparisons of two numbers.

  * `Relation`: the six comparisons, with their signs;
  * `evaluate`: the truth of `<number> <sign> <number>`.
-/
import Reckoner.Decimal.Numeral
import Reckoner.Failure
import Reckoner.Text.Pattern

namespace Reckoner.Logic.Comparison

open Text

/-- A comparison. -/
inductive Relation where
  | equal
  | notEqual
  | less
  | lessOrEqual
  | greater
  | greaterOrEqual
  deriving DecidableEq, Repr

namespace Relation

/-- The comparison of a sign. -/
def ofSymbol? (s : String) : Option Relation :=
  if s == "==" then some equal
  else if s == "!=" || s == "<>" then some notEqual
  else if s == "<" then some less
  else if s == "<=" then some lessOrEqual
  else if s == ">" then some greater
  else if s == ">=" then some greaterOrEqual
  else none

/-- The comparison holds between two numbers. -/
def holds : Relation → Float → Float → Bool
  | equal, x, y => x == y
  | notEqual, x, y => x != y
  | less, x, y => x < y
  | lessOrEqual, x, y => x ≤ y
  | greater, x, y => y < x
  | greaterOrEqual, x, y => y ≤ x

end Relation

/-- The text has a sign of comparison. -/
def isComparison : List Char → Bool
  | [] => false
  | c :: cs =>
    c == '<' || c == '>' || ((c == '=' || c == '!') && cs.head? == some '=') || isComparison cs

/-- A sign, and digits with or without a point. -/
def numeral : Pattern :=
  .chain [.optional (.oneOf "-+"),
    .choice [.chain [.digits, .optional (.chain [.char '.', .many isDigit])],
      .chain [.char '.', .digits]]]

/-- The signs of comparison, longer ones first. -/
def sign : Pattern := .anyText ["==", "!=", "<>", "<=", ">=", "<", ">"]

/-- Two numerals with a sign between them. -/
def shape : Pattern :=
  .chain [.start, .group numeral, .gap, .group sign, .gap, .group numeral, .finish]

/-- The number of a numeral; digits of other scripts have none. -/
def readOperand (cs : List Char) : Except Failure Float :=
  match Decimal.readFloat? cs with
  | some x => .ok x
  | none => .error (.invalidNumber (String.ofList cs))

/-- The truth of a comparison. -/
def evaluate (cs : List Char) : Except Failure Bool :=
  match shape.groups? (trim cs) with
  | some [left, symbol, right] => do
    let x ← readOperand left
    let y ← readOperand right
    match Relation.ofSymbol? (String.ofList symbol) with
    | some relation => return relation.holds x y
    | none => .error (.unknownOperator (String.ofList symbol))
  | _ => .error .invalidComparison

end Reckoner.Logic.Comparison
