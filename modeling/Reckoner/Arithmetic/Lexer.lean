/-
  The tokens of arithmetic.

  * `lexeme`: a numeral, an operator, a parenthesis, a comma or a name;
  * `tokenize`: cuts a text into them; a name has to be that of a function, and nothing
    else is admitted.
-/
import Reckoner.Arithmetic.Function
import Reckoner.Text.Blank
import Reckoner.Token

namespace Reckoner.Arithmetic

open Text

/-- The number of digits at the start of a text. -/
def digitRun (cs : List Char) : Nat := (cs.takeWhile isDigit).length

/-- The length of what follows the first digit of a numeral: digits, a point, digits. -/
def numeralRun (cs : List Char) : Nat :=
  let whole := digitRun cs
  match cs.drop whole with
  | '.' :: rest => whole + 1 + digitRun rest
  | _ => whole

/-- The characters that are operators. -/
def operatorChars : List Char := ['+', '-', '*', '/', '^', '%']

/-- The kind of what starts with a character, and its length after it. A name counts as that
of a function, and what nothing starts with as unknown. -/
def lexeme (c : Char) (cs : List Char) : TokenKind × Nat :=
  if isDigit c then (.number, numeralRun cs)
  else if c == '.' && cs.head?.any isDigit then (.number, digitRun cs)
  else if operatorChars.contains c then (.operator, 0)
  else if c == '(' || c == ')' then (.parenthesis, 0)
  else if c == ',' then (.comma, 0)
  else if isAsciiLower c then
    (.function, (cs.takeWhile fun d => isAsciiLower d || isAsciiDigit d).length)
  else (.unknown, 0)

/-- A slice as a token, if it is one. -/
def toToken (s : Slice TokenKind) : Except Failure Token :=
  let text := String.ofList s.text
  match s.tag with
  | .unknown => .error (.unknownToken text)
  | .function =>
    if (Function.ofName? text).isSome then .ok (s.token .function)
    else .error (.unknownToken text)
  | kind => .ok (s.token kind)

/-- The tokens of an expression. -/
def tokenize (cs : List Char) : Except Failure (List Token) :=
  (Slice.cut isBlank lexeme 0 cs).mapM toToken

end Reckoner.Arithmetic
