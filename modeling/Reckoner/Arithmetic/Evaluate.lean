/-
  The value of arithmetic expressions.

  * `applyBinary`: one operator on two numbers;
  * `runStep`, `runPostfix`: tokens in postfix order work on a stack of numbers;
  * `compute`: the value of a text; `evaluate`: the answer to it.
-/
import Reckoner.Answer
import Reckoner.Arithmetic.Lexer
import Reckoner.Arithmetic.Postfix
import Reckoner.Arithmetic.Spelling
import Reckoner.Decimal.Numeral

namespace Reckoner.Arithmetic

/-- The value of an operator between two numbers. -/
def applyBinary (operator : String) (a b : Float) : Except Failure Float :=
  let checked := checkFinite operator [a, b]
  if operator == "+" then checked (a + b)
  else if operator == "-" then checked (a - b)
  else if operator == "*" then checked (a * b)
  else if operator == "/" then if b == 0.0 then .error .divisionByZero else checked (a / b)
  else if operator == "%" then
    if b == 0.0 then .error .divisionByZero else checked (Decimal.remainder a b)
  else if operator == "^" then checked (a.pow b)
  else .error (.unknownOperator operator)

/-- One token in postfix order works on a stack of numbers, top first. -/
def runStep (angles : AngleUnit) (stack : List Float) (t : Token) :
    Except Failure (List Float) :=
  match t.kind with
  | .number =>
    match Decimal.readFloat? t.value.toList with
    | some x => .ok (x :: stack)
    | none => .error (.invalidNumber t.value)
  | .operator =>
    if t.value == negation then
      match stack with
      | x :: stack => .ok (-x :: stack)
      | [] => .error (.insufficientOperands "-")
    else
      match stack with
      | b :: a :: stack => do return (← applyBinary t.value a b) :: stack
      | _ => .error (.insufficientOperands t.value)
  | .function =>
    match Function.ofName? t.value with
    | none => .error (.unknownToken t.value)
    | some f =>
      if stack.length < f.arity then .error (.insufficientArguments f.name)
      else do
        return (← f.apply angles (stack.take f.arity).reverse) :: stack.drop f.arity
  | _ => .error (.unknownToken t.value)

/-- The value of tokens in postfix order. -/
def runPostfix (angles : AngleUnit) (tokens : List Token) : Except Failure Float := do
  match ← tokens.foldlM (runStep angles) [] with
  | [x] => .ok x
  | _ => .error .invalidExpression

/-- The value of an expression. -/
def compute (angles : AngleUnit) (cs : List Char) : Except Failure Float := do
  if cs.all Text.isBlank then .error .emptyExpression
  else runPostfix angles (← toPostfix (← tokenize (spell cs)))

/-- The answer to an expression. -/
def evaluate (settings : Settings) (query : String) : Answer :=
  let input := Text.trimmed query
  Answer.ofExcept input do
    let x ← compute settings.angleUnit input.toList
    let text := Decimal.numberText x settings.precision
    return .success input text .arithmetic ("Result: " ++ text) (some x)

end Reckoner.Arithmetic
