/-
  Arithmetic as it may be spelled, brought to one spelling.

  * `explicitProducts`: a product sign goes between a number and a name or an open
    parenthesis that follow it directly (`2pi`, `3(4)`);
  * `groupProducts`: and between a closing parenthesis and an operand (`(1)(2)`);
  * `putConstants`: names of constants give way to their numerals;
  * `spell`: lower case, no blanks, then all of these.

  A number is a run of digits that does not belong to a word: in `log2(8)` the digit is part
  of the name. Blanks are gone before, so the digits of `2 3` join up.
-/
import Reckoner.Arithmetic.Function
import Reckoner.Text.Words
import Reckoner.Text.Blank

namespace Reckoner.Arithmetic

open Text

/-- What the characters read so far end in. -/
inductive Tail where
  /-- a character that belongs to no word, or nothing -/
  | gap
  /-- a word, digits of a word included -/
  | word
  /-- digits that belong to no word -/
  | number

/-- What the text ends in after one more character. -/
def Tail.push (t : Tail) (c : Char) : Tail :=
  if isDigit c then
    match t with
    | gap | number => number
    | word => word
  else if isWordChar c then word
  else gap

/-- A name or a group starts with the character. -/
def startsOperand (c : Char) : Bool := isAsciiLower c || c == '('

/-- Puts a product sign before each name or group that follows a number. -/
def explicitProducts (t : Tail) : List Char → List Char
  | [] => []
  | c :: cs =>
    match t, startsOperand c with
    | .number, true => '*' :: c :: explicitProducts (t.push c) cs
    | _, _ => c :: explicitProducts (t.push c) cs

/-- Puts a product sign after each closing parenthesis before an operand. -/
def groupProducts : List Char → List Char
  | [] => []
  | c :: cs =>
    if c == ')' && cs.head?.any (fun d => isDigit d || d == '.' || startsOperand d) then
      c :: '*' :: groupProducts cs
    else c :: groupProducts cs

/-- Puts the numerals of the constants in place of their names. -/
def putConstants (cs : List Char) : List Char :=
  constants.foldl (fun cs c => replaceWord c.1.toList c.2.toList cs) cs

/-- An expression in lower case and without blanks, with explicit products and numerals for
constants. -/
def spell (cs : List Char) : List Char :=
  -- a numeral put in for a constant may stand before a parenthesis
  groupProducts (explicitProducts .gap (putConstants (explicitProducts .gap (strip (lower cs)))))

end Reckoner.Arithmetic
