/-
  Bitwise expressions over 64-bit integers.

  * `Operator`: `|` binds least, then `^`, `&`, and the shifts; all are left-associative;
  * `tokenize`: literals in base 10, or in base 2, 8 or 16 after `0b`, `0o` or `0x`;
  * `readLiteral`: the value of a literal;
  * `evaluate`: the value of an expression. A complement `~` may only stand at its start and
    takes the literal or the group that follows.
-/
import Reckoner.Decimal.Numeral
import Reckoner.Logic.Infix
import Reckoner.Text.Blank
import Reckoner.Token

namespace Reckoner.Logic.Bitwise

open Text

/-! ## Operators -/

/-- A bitwise operator. -/
inductive Operator where
  | or
  | xor
  | and
  | shiftLeft
  | shiftRight
  | complement
  deriving DecidableEq, Repr

namespace Operator

/-- The sign of an operator. -/
def symbol : Operator → String
  | or => "|"
  | xor => "^"
  | and => "&"
  | shiftLeft => "<<"
  | shiftRight => ">>"
  | complement => "~"

/-- The operator of a sign. -/
def ofSymbol? (s : String) : Option Operator :=
  [or, xor, and, shiftLeft, shiftRight, complement].find? fun op => op.symbol == s

/-- How strongly an operator binds. -/
def level : Operator → Nat
  | or => 0
  | xor => 1
  | and => 2
  | shiftLeft | shiftRight => 3
  | complement => 4

end Operator

/-- How strongly the operator of a sign binds, 0 for any other text. -/
def precedence (symbol : String) : Nat := ((Operator.ofSymbol? symbol).map (·.level)).getD 0

/-- A shift amount that is not too large. -/
def shiftAmount (b : Int64) : Except Failure Int64 :=
  if 0 ≤ b && b < 64 then .ok b else .error (.shiftOutOfRange b.toInt)

/-- Works on the values, latest first. -/
def apply (op : Operator) : List Int64 → Except Failure (List Int64)
  | b :: a :: values =>
    match op with
    | .or => .ok ((a ||| b) :: values)
    | .xor => .ok ((a ^^^ b) :: values)
    | .and => .ok ((a &&& b) :: values)
    | .shiftLeft => do return (a <<< (← shiftAmount b)) :: values
    | .shiftRight => do return (a >>> (← shiftAmount b)) :: values
    | .complement => .ok ((~~~b) :: a :: values)
  | _ => .error (.insufficientOperands op.symbol)

/-- The bitwise operators. -/
def rules : Rules Operator Int64 := ⟨Operator.level, apply⟩

/-! ## Detection -/

/-- A character occurs that has no like neighbour. -/
def hasSingle (needle : Char) (before : Option Char) : List Char → Bool
  | [] => false
  | c :: cs =>
    (c == needle && before != some needle && cs.head? != some needle) ||
      hasSingle needle (some c) cs

/-- A character is followed by itself somewhere. -/
def hasDouble (needle : Char) : List Char → Bool
  | [] => false
  | c :: cs => (c == needle && cs.head? == some needle) || hasDouble needle cs

/-- The text uses a bitwise operator; `&&` and `||` are none. -/
def isBitwise (cs : List Char) : Bool :=
  hasDouble '<' cs || hasDouble '>' cs || cs.contains '~' || cs.contains '^' ||
    hasSingle '&' none cs || hasSingle '|' none cs

/-! ## Tokens -/

/-- A digit of a base up to 16; letters are lower-case. -/
def isBaseDigit (base : Nat) (c : Char) : Bool :=
  if isAsciiDigit c then digitValue c < base else base == 16 && 'a' ≤ c && c ≤ 'f'

/-- The base that a letter after `0` stands for. -/
def baseOf? (c : Char) : Option Nat :=
  if c == 'b' then some 2 else if c == 'o' then some 8 else if c == 'x' then some 16 else none

/-- The length of a base letter and the digits after it, 0 unless both are there. -/
def basedRun : List Char → Nat
  | [] => 0
  | c :: cs =>
    match baseOf? c with
    | none => 0
    | some base =>
      let digits := (cs.takeWhile (isBaseDigit base)).length
      if digits = 0 then 0 else digits + 1

/-- A character that continues a name. -/
def continuesName (c : Char) : Bool := isAsciiLower c || isAsciiDigit c || c == '_'

/-- The kind of what starts with a character, and its length after it. -/
def lexeme (c : Char) (cs : List Char) : TokenKind × Nat :=
  if isDigit c then
    let based := if c == '0' then basedRun cs else 0
    let length := if based = 0 then (cs.takeWhile isDigit).length else based
    (if isAsciiDigit c then .number else .unknown, length)
  else if (c == '<' || c == '>') && cs.head? == some c then (.operator, 1)
  else if ['&', '|', '^', '~'].contains c then (.operator, 0)
  else if c == '(' || c == ')' then (.parenthesis, 0)
  else if isAsciiLower c || c == '_' then (.unknown, (cs.takeWhile continuesName).length)
  else (.unknown, 0)

/-- A slice as a token, if it is one. -/
def toToken (s : Slice TokenKind) : Except Failure Token :=
  match s.tag with
  | .unknown => .error (.unknownToken (String.ofList s.text))
  | kind => .ok (s.token kind)

/-- The tokens of an expression. -/
def tokenize (cs : List Char) : Except Failure (List Token) :=
  (Slice.cut isBlank lexeme 0 cs).mapM toToken

/-! ## Literals -/

/-- The base of a literal and its digits. -/
def splitBase : List Char → Nat × List Char
  | '0' :: 'b' :: cs => (2, cs)
  | '0' :: 'o' :: cs => (8, cs)
  | '0' :: 'x' :: cs => (16, cs)
  | cs => (10, cs)

/-- The value of a literal. -/
def readLiteral (literal : String) : Except Failure Int64 :=
  let (base, digits) := splitBase literal.toList
  match Decimal.readInt64? base digits with
  | some i => .ok (Int64.ofInt i)
  | none => .error (.invalidNumber literal)

/-! ## Evaluation -/

/-- An expression under way, and the depth of the group to complement, if one is open. -/
structure State where
  expr : Infix Operator Int64 := {}
  complemented : Option Nat := none

/-- Complements the latest value. -/
def complementTop : List Int64 → Except Failure (List Int64)
  | v :: values => .ok (~~~v :: values)
  | [] => .error (.insufficientOperands "~")

/-- Reads one token. -/
def step (s : State) (t : Token) : Except Failure State :=
  match t.kind with
  | .number => do return { s with expr := s.expr.value (← readLiteral t.value) }
  | .parenthesis =>
    if t.value == "(" then .ok { s with expr := s.expr.open_ }
    else do
      let expr ← s.expr.close rules
      if s.complemented == some expr.waiting.length then
        return ⟨{ expr with values := ← complementTop expr.values }, none⟩
      else return { s with expr }
  | .operator =>
    match Operator.ofSymbol? t.value with
    | some .complement => .error (.misplacedOperator "~")
    | some op => do return { s with expr := ← s.expr.operator rules op }
    | none => .error (.unknownToken t.value)
  | _ => .error (.unknownToken t.value)

/-- Reads a complement at the start; gives the tokens that are left. -/
def start : List Token → Except Failure (State × List Token)
  | [] => .ok ({}, [])
  | first :: tail =>
    if first.value != "~" then .ok ({}, first :: tail)
    else
      match tail with
      | [] => .error (.insufficientOperands "~")
      | operand :: after =>
        if operand.kind == .number then do
          return ({ expr := { values := [~~~(← readLiteral operand.value)] } }, after)
        else if operand.isOpen then .ok ({ complemented := some 0 }, tail)
        else .error (.insufficientOperands "~")

/-- The value of a lower-case expression. -/
def evaluate (cs : List Char) : Except Failure Int64 := do
  let (state, rest) ← start (← tokenize cs)
  (← rest.foldlM step state).expr.finish rules

end Reckoner.Logic.Bitwise
