/-
  The ways an evaluation can fail.

  * `Failure`: one constructor per cause;
  * `Failure.message`, `Failure.code`, `Failure.family`: how each cause is reported.
-/
import Reckoner.Diagnostic

namespace Reckoner

/-- Why a query has no value. -/
inductive Failure where
  | emptyExpression
  | unknownToken (token : String)
  | mismatchedParentheses
  /-- operands are left over, or there is none -/
  | invalidExpression
  | invalidNumber (literal : String)
  | invalidConversionFormat
  | invalidDateExpression
  | invalidComparison
  | misplacedOperator (operator : String)
  | insufficientOperands (operator : String)
  | insufficientArguments (function : String)
  | divisionByZero
  | negativeFactorial
  | factorialOverflow
  | overflow (operation : String)
  | incompatibleUnits (source target : String)
  | affineMix
  | unparseableDate (text : String)
  | dateOutOfRange (detail : String)
  | shiftOutOfRange (amount : Int)
  | unknownOperator (operator : String)
  | unknownUnits (source target : String)
  | unrecognizedExpression (input : String)
  | naturalLanguage
  deriving DecidableEq, Repr

namespace Failure

/-- The sentence that reports a failure. -/
def message : Failure → String
  | emptyExpression => "Expression cannot be empty"
  | unknownToken token => "Unknown token: " ++ token
  | mismatchedParentheses => "Mismatched parentheses"
  | invalidExpression => "Invalid expression"
  | invalidNumber literal => "Invalid number: " ++ literal
  | invalidConversionFormat => "Invalid conversion format. Use: '10 km to miles'"
  | invalidDateExpression => "Invalid date expression format"
  | invalidComparison =>
    "Invalid comparison expression: expected '<number> <operator> <number>'"
  | misplacedOperator operator => "Operator '" ++ operator ++ "' is not allowed here"
  | insufficientOperands operator => "Insufficient operands for operator " ++ operator
  | insufficientArguments function => "Insufficient arguments for function " ++ function
  | divisionByZero => "Division by zero"
  | negativeFactorial => "Factorial is not defined for negative numbers"
  | factorialOverflow => "Factorial result too large"
  | overflow operation => "Arithmetic overflow in " ++ operation
  | incompatibleUnits source target =>
    "Cannot convert from '" ++ source ++ "' to '" ++ target ++ "'"
  | affineMix => "Cannot convert between special and regular units"
  | unparseableDate text => "Cannot parse date: " ++ text
  | dateOutOfRange detail => "Date out of range: " ++ detail
  | shiftOutOfRange amount =>
    "Shift amount " ++ Decimal.integerText amount ++ " is out of range (0-63)"
  | unknownOperator operator => "Unknown operator: " ++ operator
  | unknownUnits source target =>
    "Cannot convert from '" ++ source ++ "' to '" ++ target ++ "': unknown unit"
  | unrecognizedExpression input => "Unrecognized expression: " ++ input
  | naturalLanguage => "Natural language processing requires AI integration"

/-- The code of a failure. -/
def code : Failure → Code
  | emptyExpression => ⟨1⟩
  | unknownToken _ => ⟨2⟩
  | mismatchedParentheses => ⟨3⟩
  | invalidExpression => ⟨4⟩
  | invalidNumber _ => ⟨5⟩
  | invalidConversionFormat => ⟨6⟩
  | invalidDateExpression => ⟨7⟩
  | invalidComparison => ⟨8⟩
  | misplacedOperator _ => ⟨9⟩
  | insufficientOperands _ => ⟨100⟩
  | insufficientArguments _ => ⟨101⟩
  | divisionByZero => ⟨200⟩
  | negativeFactorial | factorialOverflow => ⟨201⟩
  | overflow _ => ⟨202⟩
  | incompatibleUnits _ _ => ⟨203⟩
  | affineMix => ⟨204⟩
  | unparseableDate _ => ⟨205⟩
  | dateOutOfRange _ => ⟨206⟩
  | shiftOutOfRange _ => ⟨207⟩
  | unknownOperator _ => ⟨300⟩
  | unknownUnits _ _ => ⟨301⟩
  | unrecognizedExpression _ => ⟨302⟩
  | naturalLanguage => ⟨303⟩

/-- The family of a failure. -/
def family (f : Failure) : Family := f.code.family?.getD .system

end Failure

end Reckoner
