/-
  Infix expressions read from left to right on two stacks.

  * `Rules`: how strongly the operators of a language bind and what they do to the values;
  * `Infix`: the values so far and the operators that wait for their right operand, with
    `none` for an open group;
  * `Infix.operator`, `Infix.close`, `Infix.finish`: an operator releases those before it
    that bind at least as strongly, a closing parenthesis all of its group, and the end of
    the text all that wait.
-/
import Reckoner.Failure

namespace Reckoner.Logic

/-- The operators `ω` of a language with values `ν`. -/
structure Rules (ω ν : Type) where
  /-- how strongly an operator binds -/
  level : ω → Nat
  /-- works on the values, latest first -/
  apply : ω → List ν → Except Failure (List ν)

/-- An expression under way. -/
structure Infix (ω ν : Type) where
  /-- the values so far, latest first -/
  values : List ν := []
  /-- the operators that wait and the open groups, innermost first -/
  waiting : List (Option ω) := []

namespace Infix

variable {ω ν : Type} (rules : Rules ω ν)

/-- A value has been read. -/
def value (e : Infix ω ν) (v : ν) : Infix ω ν := { e with values := v :: e.values }

/-- A group has been opened. -/
def open_ (e : Infix ω ν) : Infix ω ν := { e with waiting := none :: e.waiting }

/-- A prefix operator has been read; it waits and releases nothing. -/
def prefixed (e : Infix ω ν) (op : ω) : Infix ω ν := { e with waiting := some op :: e.waiting }

/-- Applies what waits and binds at least as strongly as `level`, down to an open group. -/
def release (level : Nat) (values : List ν) : List (Option ω) → Except Failure (Infix ω ν)
  | some op :: waiting =>
    if rules.level op ≥ level then do
      release level (← rules.apply op values) waiting
    else .ok ⟨values, some op :: waiting⟩
  | waiting => .ok ⟨values, waiting⟩

/-- A binary operator has been read. -/
def operator (e : Infix ω ν) (op : ω) : Except Failure (Infix ω ν) := do
  return (← release rules (rules.level op) e.values e.waiting).prefixed op

/-- Applies what waits in the innermost group and closes it. -/
def closeFrom (values : List ν) : List (Option ω) → Except Failure (Infix ω ν)
  | some op :: waiting => do closeFrom (← rules.apply op values) waiting
  | none :: waiting => .ok ⟨values, waiting⟩
  | [] => .error .mismatchedParentheses

/-- A group has been closed. -/
def close (e : Infix ω ν) : Except Failure (Infix ω ν) := closeFrom rules e.values e.waiting

/-- Applies all that waits, where no group may be open. -/
def finishFrom (values : List ν) : List (Option ω) → Except Failure ν
  | some op :: waiting => do finishFrom (← rules.apply op values) waiting
  | none :: _ => .error .mismatchedParentheses
  | [] =>
    match values with
    | [v] => .ok v
    | _ => .error .invalidExpression

/-- The value of a finished expression. -/
def finish (e : Infix ω ν) : Except Failure ν := finishFrom rules e.values e.waiting

end Infix

end Reckoner.Logic
