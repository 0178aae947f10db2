/-
  Answers to conversions of units.

  * `evaluate`: the answer to a request for a conversion.
-/
import Reckoner.Answer
import Reckoner.Settings
import Reckoner.Units.Convert
import Reckoner.Units.Request

namespace Reckoner.Units

/-- The answer to a request without blanks around it, or its failure. -/
def answer? (settings : Settings) (input : String) : Except Failure Answer := do
  if input.isEmpty then .error .emptyExpression
  else
    let request ← Request.read input
    let (value, unit) ← convert request.value request.source request.target
    let text := Decimal.numberText value settings.precision
    let subtitle := Decimal.plainText request.value ++ " " ++ request.source ++ " = " ++ text ++
      " " ++ request.target
    return .success input text .unitConversion subtitle (some value) (some unit.symbol)

/-- The answer to a request. -/
def evaluate (settings : Settings) (query : String) : Answer :=
  let input := Text.trimmed query
  Answer.ofExcept input (answer? settings input)

end Reckoner.Units
