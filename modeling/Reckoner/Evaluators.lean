/-
  The evaluators of all domains.

  * `supports`: the domains that some evaluator answers;
  * `evaluateAs`: the answer to a query taken to be of a domain.
-/
import Reckoner.Arithmetic.Evaluate
import Reckoner.Dates
import Reckoner.Logic
import Reckoner.Units

namespace Reckoner

/-- Some evaluator answers queries of the domain. -/
def Domain.isSupported (d : Domain) : Bool :=
  d.isMath || d == .unitConversion || d == .dateCalculation || d == .logicEvaluation

/-- The answer to a query taken to be of a domain, none for a domain without evaluator. -/
def evaluateAs (settings : Settings) (now : Calendar.Instant) (d : Domain) (query : String) :
    Option Answer :=
  match d with
  | .unitConversion => some (Units.evaluate settings query)
  | .dateCalculation => some (Dates.evaluate now query)
  | .logicEvaluation => some (Logic.evaluate query)
  | d => if d.isMath then some (Arithmetic.evaluate settings query) else none

end Reckoner
