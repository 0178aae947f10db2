/-
  Boolean expressions.

  * `Connective`: `or` and `nor` bind least, then `xor` and `xnor`, then `and` and `nand`, and
    `not` most; all but `not` are left-associative;
  * `substituteWords`: words give way to signs (`and` to `&&`, `nand` to `!&`, `true` to `1`);
  * `evaluate`: the truth of an expression in words, signs and the digits `1` and `0`.
-/
import Reckoner.Logic.Infix
import Reckoner.Text.Words
import Reckoner.Text.Blank
import Reckoner.Token

namespace Reckoner.Logic.Boolean

open Text

/-! ## Connectives -/

/-- A connective of truth values. -/
inductive Connective where
  | or
  | nor
  | xor
  | xnor
  | and
  | nand
  | not
  deriving DecidableEq, Repr

namespace Connective

/-- The sign of a connective. -/
def symbol : Connective → String
  | or => "||"
  | nor => "!|"
  | xor => "^"
  | xnor => "!^"
  | and => "&&"
  | nand => "!&"
  | not => "!"

/-- The connective of a sign. -/
def ofSymbol? (s : String) : Option Connective :=
  [or, nor, xor, xnor, and, nand, not].find? fun op => op.symbol == s

/-- How strongly a connective binds. -/
def level : Connective → Nat
  | or | nor => 0
  | xor | xnor => 1
  | and | nand => 2
  | not => 3

end Connective

/-- Works on the values, latest first. -/
def apply (op : Connective) (values : List Bool) : Except Failure (List Bool) :=
  match op, values with
  | .not, v :: values => .ok ((!v) :: values)
  | .or, b :: a :: values => .ok ((a || b) :: values)
  | .nor, b :: a :: values => .ok ((!(a || b)) :: values)
  | .xor, b :: a :: values => .ok ((a != b) :: values)
  | .xnor, b :: a :: values => .ok ((a == b) :: values)
  | .and, b :: a :: values => .ok ((a && b) :: values)
  | .nand, b :: a :: values => .ok ((!(a && b)) :: values)
  | op, _ => .error (.insufficientOperands op.symbol)

/-- The connectives as operators. -/
def rules : Rules Connective Bool := ⟨Connective.level, apply⟩

/-! ## Words -/

/-- The words that stand for signs and digits. -/
def words : List (String × String) :=
  [("xnor", "!^"), ("nand", "!&"), ("nor", "!|"), ("and", "&&"), ("or", "||"), ("xor", "^"),
    ("not", "!"), ("true", "1"), ("false", "0")]

/-- Puts signs and digits in place of words, one word after another. -/
def substituteWords (cs : List Char) : List Char :=
  words.foldl (fun cs w => replaceWord w.1.toList w.2.toList cs) cs

/-! ## Tokens -/

/-- A character that continues a name. -/
def continuesName (c : Char) : Bool := isAsciiLower c || isAsciiDigit c || c == '_'

/-- The length of what follows the first digit of a numeral: digits, and a point with digits
after it. -/
def numeralRun (cs : List Char) : Nat :=
  let whole := (cs.takeWhile isDigit).length
  match cs.drop whole with
  | '.' :: rest =>
    let fraction := (rest.takeWhile isDigit).length
    if fraction = 0 then whole else whole + 1 + fraction
  | _ => whole

/-- The length of what starts with a character, after it. -/
def lexeme (c : Char) (cs : List Char) : Unit × Nat :=
  let more :=
    if c == '!' then
      if cs.head?.any fun d => d == '&' || d == '|' || d == '^' then 1 else 0
    else if c == '&' || c == '|' then if cs.head? == some c then 1 else 0
    else if isDigit c then numeralRun cs
    else if isAsciiLower c || c == '_' then (cs.takeWhile continuesName).length
    else 0
  ((), more)

/-- The lexemes of a text in signs and digits. -/
def lexemes (cs : List Char) : List String :=
  (Slice.cut isBlank lexeme 0 cs).map fun s => String.ofList s.text

/-! ## Evaluation -/

/-- An expression under way; after an operand no `!` may stand. -/
structure State where
  expr : Infix Connective Bool := {}
  expectOperand : Bool := true

/-- Reads one lexeme. -/
def step (s : State) (lexeme : String) : Except Failure State :=
  if lexeme == "1" then .ok ⟨s.expr.value true, false⟩
  else if lexeme == "0" then .ok ⟨s.expr.value false, false⟩
  else if lexeme == "(" then .ok ⟨s.expr.open_, true⟩
  else if lexeme == ")" then do return ⟨← s.expr.close rules, false⟩
  else
    match Connective.ofSymbol? lexeme with
    | some .not =>
      if s.expectOperand then .ok { s with expr := s.expr.prefixed .not }
      else .error (.misplacedOperator "!")
    | some op => do return ⟨← s.expr.operator rules op, true⟩
    | none => .error (.unknownToken lexeme)

/-- The truth of a lower-case expression. -/
def evaluate (cs : List Char) : Except Failure Bool := do
  (← (lexemes (substituteWords cs)).foldlM step {}).expr.finish rules

end Reckoner.Logic.Boolean
