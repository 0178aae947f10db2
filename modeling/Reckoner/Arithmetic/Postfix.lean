/-
  Arithmetic in postfix order.

  * `precedence`: `+ -` bind least, then `* / %` and negation, then `^`;
  * `Yard`, `Yard.step`: the operators that wait while tokens are read; an operator releases
    those that bind at least as strongly, so every operator is left-associative;
  * `toPostfix`: the tokens with every operator and function after its operands.

  A prefix minus becomes `neg` and waits without releasing anything: `-2^2` is `-(2^2)` and
  `2^-1` is `2^(-1)`. A prefix plus is dropped.
-/
import Reckoner.Failure
import Reckoner.Token

namespace Reckoner.Arithmetic

/-- The operator that a prefix minus becomes. -/
def negation : String := "neg"

/-- How strongly an operator binds. -/
def precedence (operator : String) : Nat :=
  if operator == "+" || operator == "-" then 1
  else if operator == "*" || operator == "/" || operator == "%" || operator == negation then 2
  else if operator == "^" then 3
  else 0

/-- A conversion under way. -/
structure Yard where
  /-- the tokens written, latest first -/
  output : List Token := []
  /-- the operators, functions and open groups that wait, innermost first -/
  waiting : List Token := []
  /-- an operand has to come next, so a sign is a prefix -/
  expectOperand : Bool := true

namespace Yard

/-- Writes the operators that bind at least as strongly as `level`, down to a group. -/
def release (level : Nat) (output : List Token) : List Token → List Token × List Token
  | [] => (output, [])
  | top :: waiting =>
    if top.kind == .operator && precedence top.value ≥ level then
      release level (top :: output) waiting
    else (output, top :: waiting)

/-- Writes all that waits within the innermost group. -/
def flush (output : List Token) : List Token → Except Failure (List Token × List Token)
  | [] => .error .mismatchedParentheses
  | top :: waiting =>
    if top.isOpen then .ok (output, top :: waiting) else flush (top :: output) waiting

/-- A group with the name of a function before it is a call. -/
def isCall : List Token → Bool
  | _ :: before :: _ => before.kind == .function
  | _ => false

/-- Reads one token. -/
def step (y : Yard) (t : Token) : Except Failure Yard :=
  match t.kind with
  | .number => .ok { y with output := t :: y.output, expectOperand := false }
  | .function => .ok { y with waiting := t :: y.waiting, expectOperand := true }
  | .operator =>
    if y.expectOperand && t.value == "-" then
      .ok { y with waiting := { t with value := negation } :: y.waiting }
    else if y.expectOperand && t.value == "+" then .ok y
    else
      let (output, waiting) := release (precedence t.value) y.output y.waiting
      .ok ⟨output, t :: waiting, true⟩
  | .comma => do
    let (output, waiting) ← flush y.output y.waiting
    if isCall waiting then .ok ⟨output, waiting, true⟩ else .error .invalidExpression
  | .parenthesis =>
    if t.value == "(" then .ok { y with waiting := t :: y.waiting, expectOperand := true }
    else do
      let (output, waiting) ← flush y.output y.waiting
      match waiting.drop 1 with
      | top :: waiting =>
        if top.kind == .function then .ok ⟨top :: output, waiting, false⟩
        else .ok ⟨output, top :: waiting, false⟩
      | [] => .ok ⟨output, [], false⟩
  | _ => .error (.unknownToken t.value)

/-- Writes all that still waits, where no group may be open. -/
def drain (output : List Token) : List Token → Except Failure (List Token)
  | [] => .ok output.reverse
  | top :: waiting =>
    if top.kind == .parenthesis then .error .mismatchedParentheses
    else drain (top :: output) waiting

/-- What a finished conversion has written. -/
def finish (y : Yard) : Except Failure (List Token) := drain y.output y.waiting

end Yard

/-- The tokens of an expression in postfix order. -/
def toPostfix (tokens : List Token) : Except Failure (List Token) := do
  (← tokens.foldlM Yard.step {}).finish

end Reckoner.Arithmetic
