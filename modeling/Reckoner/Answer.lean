/-
  Answers to queries.

  * `Domain`: what a query is about;
  * `Answer`: title, explanation and result, with the number and the unit if there are any;
    `Answer.success` and `Answer.failure` are the two ways to make one.
-/
import Reckoner.Failure

namespace Reckoner

/-! ## Domains -/

/-- What a query is about, or that it failed. -/
inductive Domain where
  | arithmetic
  | algebraic
  | trigonometric
  | logarithmic
  | statistical
  | unitConversion
  | dateCalculation
  | logicEvaluation
  | health
  | money
  | naturalLanguage
  | aiAssisted
  | error
  deriving DecidableEq, Repr

namespace Domain

/-- Every domain, in the order of declaration. -/
def all : List Domain :=
  [arithmetic, algebraic, trigonometric, logarithmic, statistical, unitConversion,
    dateCalculation, logicEvaluation, health, money, naturalLanguage, aiAssisted, error]

/-- The name of a domain. -/
def name : Domain → String
  | arithmetic => "Arithmetic"
  | algebraic => "Algebraic"
  | trigonometric => "Trigonometric"
  | logarithmic => "Logarithmic"
  | statistical => "Statistical"
  | unitConversion => "UnitConversion"
  | dateCalculation => "DateCalculation"
  | logicEvaluation => "LogicEvaluation"
  | health => "Health"
  | money => "Money"
  | naturalLanguage => "NaturalLanguage"
  | aiAssisted => "AiAssisted"
  | error => "Error"

/-- The domain of a name. -/
def ofName? (s : String) : Option Domain := all.find? fun d => d.name == s

/-- Numeric expressions answer queries of this domain. -/
def isMath : Domain → Bool
  | arithmetic | algebraic | trigonometric | logarithmic | statistical => true
  | _ => false

end Domain

/-! ## Answers -/

/-- The answer to a query. -/
structure Answer where
  title : String
  subtitle : String := ""
  result : String
  rawExpression : Option String := none
  domain : Domain
  number : Option Float := none
  unit : Option String := none
  score : Nat
  isError : Bool
  errorMessage : Option String := none

namespace Answer

/-- The score of an answer that is not a failure. -/
def fullScore : Nat := 100

/-- The successful answer to `input`. -/
def success (input result : String) (domain : Domain) (subtitle : String)
    (number : Option Float := none) (unit : Option String := none) : Answer :=
  { title := input, subtitle, result, rawExpression := some input, domain, number, unit,
    score := fullScore, isError := false }

/-- The answer to `input` that reports a failure in the given words. -/
def failure (input message : String) : Answer :=
  { title := "Error", subtitle := message, result := "", rawExpression := some input,
    domain := .error, score := 0, isError := true, errorMessage := some message }

/-- The answer that a computation for `input` gives. -/
def ofExcept (input : String) : Except Failure Answer → Answer
  | .ok answer => answer
  | .error f => failure input f.message

/-- The result with its unit. -/
def value (a : Answer) : String :=
  match a.unit with
  | some unit => a.result ++ " " ++ unit
  | none => a.result

/-- The answer on one line. -/
def label (a : Answer) : String :=
  if a.isError then a.title ++ ": " ++ a.subtitle else a.value

end Answer

end Reckoner
