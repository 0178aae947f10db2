/-
  The functions and constants of arithmetic.

  * `Function`: the built-in functions, with `name`, `arity` and `apply`;
  * `constants`: the named constants with the numerals they stand for;
  * `checkFinite`: finite operands must not give an infinite result.
-/
import Reckoner.Decimal.CubeRoot
import Reckoner.Failure
import Reckoner.Settings

namespace Reckoner.Arithmetic

/-! ## Overflow -/

/-- Finite operands must not give an infinite result. -/
def checkFinite (operation : String) (operands : List Float) (value : Float) :
    Except Failure Float :=
  if value.isInf && operands.all (·.isFinite) then .error (.overflow operation) else .ok value

/-! ## Functions -/

/-- A built-in function. -/
inductive Function where
  | sin | cos | tan | asin | acos | atan
  | sqrt | cbrt | log | log10 | ln | log2
  | abs | exp | floor | ceil | round | factorial | pow
  deriving DecidableEq, Repr

/-- The product of the whole numbers from 2 to `n`. -/
def product : Nat → Float
  | 0 => 1.0
  | 1 => 1.0
  | n + 2 => product (n + 1) * Float.ofNat (n + 2)

/-- The factorial of the whole part of a number from 0 to 170. -/
def factorial (x : Float) : Except Failure Float :=
  if x.isNaN || x < 0.0 then .error .negativeFactorial
  else if x > 170.0 then .error .factorialOverflow
  else .ok (product x.toUInt64.toNat)

namespace Function

/-- Every function, sorted by name. -/
def all : List Function :=
  [abs, acos, asin, atan, cbrt, ceil, cos, exp, factorial, floor, ln, log, log10, log2, pow,
    round, sin, sqrt, tan]

/-- The name of a function. -/
def name : Function → String
  | sin => "sin"
  | cos => "cos"
  | tan => "tan"
  | asin => "asin"
  | acos => "acos"
  | atan => "atan"
  | sqrt => "sqrt"
  | cbrt => "cbrt"
  | log => "log"
  | log10 => "log10"
  | ln => "ln"
  | log2 => "log2"
  | abs => "abs"
  | exp => "exp"
  | floor => "floor"
  | ceil => "ceil"
  | round => "round"
  | factorial => "factorial"
  | pow => "pow"

/-- The function of a name. -/
def ofName? (s : String) : Option Function := all.find? fun f => f.name == s

/-- The number of arguments a function takes. -/
def arity : Function → Nat
  | pow => 2
  | _ => 1

/-- Applies a function to its arguments; those beyond its arity do not enter the value. -/
def apply (f : Function) (angles : AngleUnit) : List Float → Except Failure Float
  | [] => .error (.insufficientArguments f.name)
  | x :: more =>
    match f with
    | sin => .ok (angles.toRadians x).sin
    | cos => .ok (angles.toRadians x).cos
    | tan => .ok (angles.toRadians x).tan
    | asin => .ok (angles.fromRadians x.asin)
    | acos => .ok (angles.fromRadians x.acos)
    | atan => .ok (angles.fromRadians x.atan)
    | sqrt => .ok x.sqrt
    | cbrt => .ok (Decimal.cubeRoot x)
    | log | log10 => .ok x.log10
    | ln => .ok x.log
    | log2 => .ok x.log2
    | abs => .ok x.abs
    | exp => checkFinite "exp" (x :: more) x.exp
    | floor => .ok x.floor
    | ceil => .ok x.ceil
    | round => .ok x.round
    | factorial => Arithmetic.factorial x
    | pow =>
      match more with
      | [] => .error (.insufficientArguments f.name)
      | y :: _ => checkFinite "pow" (x :: more) (x.pow y)

end Function

/-! ## Constants -/

/-- The named constants with their numerals, in the order in which they are put in. -/
def constants : List (String × String) :=
  [("pi", "3.141592653589793"), ("e", "2.718281828459045"), ("tau", "6.283185307179586"),
    ("phi", "1.618033988749895")]

end Reckoner.Arithmetic
