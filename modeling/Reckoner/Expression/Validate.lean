/-
  Whether a row of tokens can be an expression of its kind.

  * `validate`: refuses a row at its first token that cannot stand where it does, or at its
    end if more has to come; the index is given;
  * `validateArithmetic`, `validateLogic`, `validateConversion`, `validateDate`: the rules of
    each kind.
-/
import Reckoner.Dates.Reader
import Reckoner.Expression.Kind

namespace Reckoner.Expression

/-- A row is accepted, or refused at an index. -/
abbrev Verdict := Except Nat Unit

/-! ## Operands and operators in turn -/

/-- How far a row of operands and operators has come. -/
structure Progress where
  /-- the number of open groups -/
  depth : Nat := 0
  /-- an operand has to come next -/
  expectOperand : Bool := true
  /-- the token before -/
  previous : Option Token := none

/-- No group is open and no operand is missing. -/
def Progress.isComplete (p : Progress) : Bool := p.depth == 0 && !p.expectOperand

/-- Runs through a row from index `i` on with a step that refuses what cannot stand. -/
def run (step : Progress → Token → Option Progress) (p : Progress) (i : Nat) :
    List Token → Verdict
  | [] => if p.isComplete then .ok () else .error i
  | t :: ts =>
    match step p t with
    | some p => run step p (i + 1) ts
    | none => .error i

/-- A product sign may be left out between two tokens: after a closing parenthesis, and
between a number and a name or a group. -/
def joins (before t : Token) : Bool :=
  before.isClose || (before.kind == .number &&
    (t.kind == .identifier || t.kind == .function || t.kind == .parenthesis))

/-- The signs that may stand before an operand. -/
def isSign (t : Token) : Bool := t.value == "-" || t.value == "+"

/-- The operators between two operands. -/
def isArithmeticOperator (t : Token) : Bool :=
  ["+", "-", "*", "/", "%", "^"].contains t.value

/-- One token of arithmetic. -/
def arithmeticStep (p : Progress) (t : Token) : Option Progress :=
  let mayStart := p.expectOperand || p.previous.any fun before => joins before t
  let next (depth : Nat) (expectOperand : Bool) : Option Progress :=
    some ⟨depth, expectOperand, some t⟩
  if p.previous.any (fun before => before.kind == .function) && !t.isOpen then none
  else
    match t.kind with
    | .number | .identifier => if mayStart then next p.depth false else none
    | .function => if mayStart then next p.depth true else none
    | .operator =>
      if p.expectOperand then if isSign t then next p.depth true else none
      else if isArithmeticOperator t then next p.depth true
      else none
    | .parenthesis =>
      if t.isOpen then if mayStart then next (p.depth + 1) true else none
      else if p.expectOperand || p.depth == 0 then none
      else next (p.depth - 1) false
    | .comma => if p.expectOperand || p.depth == 0 then none else next p.depth true
    | _ => none

/-- Numbers, constants, calls and groups with operators between them, prefix signs, and
products without a sign. -/
def validateArithmetic (tokens : List Token) : Verdict := run arithmeticStep {} 0 tokens

/-- The operators that stand before an operand of logic. -/
def isLogicPrefix (t : Token) : Bool := ["!", "not", "~"].contains t.value

/-- One token of logic. -/
def logicStep (p : Progress) (t : Token) : Option Progress :=
  let next (depth : Nat) (expectOperand : Bool) : Option Progress :=
    some ⟨depth, expectOperand, some t⟩
  match t.kind with
  | .number | .keyword => if p.expectOperand then next p.depth false else none
  | .operator =>
    if isLogicPrefix t then if p.expectOperand then next p.depth true else none
    else if p.expectOperand then none
    else next p.depth true
  | .parenthesis =>
    if t.isOpen then if p.expectOperand then next (p.depth + 1) true else none
    else if p.expectOperand || p.depth == 0 then none
    else next (p.depth - 1) false
  | _ => none

/-- Numbers, truth values and groups with operators between them, and prefix operators. -/
def validateLogic (tokens : List Token) : Verdict := run logicStep {} 0 tokens

/-! ## Conversions -/

/-- The words after the number, which starts at index `offset` of `count` tokens. The first
keyword after a word separates the units; without one there have to be two words. -/
def validateUnits (offset count : Nat) (units : List Token) : Verdict :=
  match units.findIdx? fun t => t.kind != .unit && t.kind != .keyword with
  | some bad => .error (offset + 1 + bad)
  | none =>
    match (units.drop 1).findIdx? fun t => t.kind == .keyword with
    | some i => if i + 2 < units.length then .ok () else .error count
    | none => if units.length = 2 then .ok () else .error (offset + 1 + min units.length 2)

/-- A number with an optional minus sign, a unit, `to` or `in`, and a unit; or a number and
two units of one word. -/
def validateConversion (tokens : List Token) : Verdict :=
  let negative := tokens.head?.any fun t => t.kind == .operator && t.value == "-"
  let offset := if negative then 1 else 0
  match tokens.drop offset with
  | number :: units =>
    if number.kind == .number then validateUnits offset tokens.length units else .error offset
  | [] => .error offset

/-! ## Dates -/

/-- A date keyword, or at least two tokens the last of which is no operator. -/
def validateDate (tokens : List Token) : Verdict :=
  match tokens with
  | [only] => if Dates.keywords.contains only.value then .ok () else .error 1
  | tokens =>
    match tokens.getLast? with
    | none => .error 0
    | some last => if last.kind == .operator then .error tokens.length else .ok ()

/-! ## All kinds -/

/-- Accepts the tokens of an expression of a kind. -/
def validate (kind : Kind) (tokens : List Token) : Verdict :=
  if tokens.isEmpty then .error 0
  else
    match kind with
    | .arithmetic => validateArithmetic tokens
    | .logic => validateLogic tokens
    | .unitConversion => validateConversion tokens
    | .dateCalculation => validateDate tokens
    | .naturalLanguage => .ok ()
    | .unknown => .error 0

end Reckoner.Expression
