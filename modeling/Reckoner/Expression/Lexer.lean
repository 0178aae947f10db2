/-
  The tokens of expressions of every kind.

  * `lexeme`: numbers, words, signs, parentheses and commas; every other character stands by
    itself;
  * `tokenize`: cuts a text into lexemes; what a word is depends on the kind of the
    expression (`in` is a keyword of conversions, `and` an operator of logic).
-/
import Reckoner.Expression.Kind

namespace Reckoner.Expression

open Text

/-- The shape of a lexeme. -/
inductive Lexeme where
  | number
  | word
  | sign
  | parenthesis
  | comma
  | other
  deriving DecidableEq, Repr

/-- A space, a tab or the end of a line. -/
def isSpace (c : Char) : Bool := c == ' ' || c == '\t' || c == '\r' || c == '\n'

/-- The length of a fraction: a point and digits. -/
def fractionRun : List Char → Nat
  | '.' :: cs =>
    let digits := (cs.takeWhile isAsciiDigit).length
    if digits = 0 then 0 else digits + 1
  | _ => 0

/-- The length of a decimal number after its first digit. -/
def decimalRun (cs : List Char) : Nat :=
  let whole := (cs.takeWhile isAsciiDigit).length
  whole + fractionRun (cs.drop whole)

/-- A hexadecimal digit in either case. -/
def isHexDigit (c : Char) : Bool :=
  isAsciiDigit c || ('a' ≤ c && c ≤ 'f') || ('A' ≤ c && c ≤ 'F')

/-- The length of a base letter and the digits after it, 0 unless both are there. -/
def basedRun : List Char → Nat
  | [] => 0
  | c :: cs =>
    let digits :=
      if c == 'x' then (cs.takeWhile isHexDigit).length
      else if c == 'b' || c == 'o' then
        (cs.takeWhile (Logic.Bitwise.isBaseDigit (if c == 'b' then 2 else 8))).length
      else 0
    if digits = 0 then 0 else digits + 1

/-- The length of a number after its first digit. -/
def numberRun (c : Char) (cs : List Char) : Nat :=
  let based := if c == '0' then basedRun cs else 0
  if based = 0 then decimalRun cs else based

/-- The signs of one character. -/
def signs : List Char := ['+', '-', '*', '/', '^', '%', '<', '>', '&', '|', '!', '~', '=']

/-- The signs of two characters. -/
def doubleSigns : List (Char × Char) :=
  [('<', '<'), ('>', '>'), ('=', '='), ('!', '='), ('<', '>'), ('<', '='), ('>', '='),
    ('&', '&'), ('|', '|')]

/-- A character that starts a word. -/
def startsWord (c : Char) : Bool := isLetter c || c == '°'

/-- A character that continues a word; a slash only where units are meant. -/
def continuesWord (slash : Bool) (c : Char) : Bool :=
  isLetter c || isNumeral c || c == '_' || c == '°' || c == '²' || (slash && c == '/')

/-- The shape of what starts with a character, and its length after it. -/
def lexeme (slash : Bool) (c : Char) (cs : List Char) : Lexeme × Nat :=
  if isAsciiDigit c then (.number, numberRun c cs)
  else if c == '.' && cs.head?.any isAsciiDigit then
    (.number, (cs.takeWhile isAsciiDigit).length)
  else if startsWord c then (.word, (cs.takeWhile (continuesWord slash)).length)
  else if cs.head?.any fun d => doubleSigns.contains (c, d) then (.sign, 1)
  else if signs.contains c then (.sign, 0)
  else if c == '(' || c == ')' then (.parenthesis, 0)
  else if c == ',' then (.comma, 0)
  else (.other, 0)

/-- What a word is in an expression of a kind. -/
def wordKind (kind : Kind) (word : String) : TokenKind :=
  match kind with
  | .arithmetic =>
    if (Arithmetic.Function.ofName? word).isSome then .function
    else if Arithmetic.constants.any fun c => c.1 == word then .identifier
    else .unknown
  | .logic =>
    if word == "true" || word == "false" then .keyword
    else if logicWords.contains word then .operator
    else .unknown
  | .unitConversion => if word == "to" || word == "in" then .keyword else .unit
  | .dateCalculation => .keyword
  | .naturalLanguage | .unknown => .identifier

/-- What a lexeme is in an expression of a kind. -/
def lexemeKind (kind : Kind) (s : Slice Lexeme) : TokenKind :=
  match s.tag with
  | .number => .number
  | .word => wordKind kind (String.ofList s.text)
  | .sign => .operator
  | .parenthesis => .parenthesis
  | .comma => .comma
  | .other => .unknown

/-- The tokens of an expression of a kind. -/
def tokenize (kind : Kind) (cs : List Char) : List Token :=
  (Slice.cut isSpace (lexeme (kind == .unitConversion)) 0 cs).map fun s =>
    s.token (lexemeKind kind s)

end Reckoner.Expression
