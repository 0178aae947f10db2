/-
  Logic expressions of three kinds.

  * `Mode`: bitwise if the text has a bitwise operator, else a comparison if it has a sign of
    comparison, else boolean;
  * `evaluate`: the answer to a logic expression.
-/
import Reckoner.Answer
import Reckoner.Logic.Bitwise
import Reckoner.Logic.Boolean
import Reckoner.Logic.Comparison

namespace Reckoner.Logic

/-- The kind of a logic expression. -/
inductive Mode where
  | bitwise
  | comparison
  | boolean
  deriving DecidableEq, Repr

/-- The kind of a canonical text, by the signs in it. -/
def Mode.detect (cs : List Char) : Mode :=
  if Bitwise.isBitwise cs then .bitwise
  else if Comparison.isComparison cs then .comparison
  else .boolean

/-- The 16 hexadecimal digits or fewer of a 64-bit integer. -/
def hexText (v : Int64) : String :=
  String.ofList ((Nat.toDigits 16 v.toUInt64.toNat).map Char.toUpper)

/-- The answer to a bitwise expression. -/
def integerAnswer (input : String) (v : Int64) : Answer :=
  let text := Decimal.integerText v.toInt
  .success input text .logicEvaluation ("Result: " ++ text ++ " (0x" ++ hexText v ++ ")")
    (some (Float.ofInt v.toInt))

/-- The answer to a comparison or a boolean expression. -/
def truthAnswer (input : String) (v : Bool) : Answer :=
  let text := if v then "True" else "False"
  .success input text .logicEvaluation ("Result: " ++ text) (some (if v then 1.0 else 0.0))

/-- The answer to a logic expression without blanks around it, or its failure. -/
def answer? (input : String) : Except Failure Answer :=
  if input.isEmpty then .error .emptyExpression
  else
    let cs := Text.canonical input.toList
    match Mode.detect cs with
    | .bitwise => do return integerAnswer input (← Bitwise.evaluate cs)
    | .comparison => do return truthAnswer input (← Comparison.evaluate cs)
    | .boolean => do return truthAnswer input (← Boolean.evaluate cs)

/-- The answer to a logic expression. -/
def evaluate (query : String) : Answer :=
  let input := Text.trimmed query
  Answer.ofExcept input (answer? input)

end Reckoner.Logic
