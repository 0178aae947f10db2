/-
  The settings of the evaluators.

  * `AngleUnit`: what trigonometric functions read and return;
  * `Settings`: the places of shown numbers and the angle unit;
  * `SetupError`: why an engine cannot be set up.
-/
import Reckoner.Decimal.Display
import Reckoner.Diagnostic.Code
import Reckoner.Text.Blank

namespace Reckoner

/-! ## Angles -/

/-- The ratio of a circle's circumference to its diameter. -/
def pi : Float := 3.141592653589793

/-- The unit of angles. -/
inductive AngleUnit where
  | radians
  | degrees
  | gradians
  deriving DecidableEq, Repr

namespace AngleUnit

/-- The name of an angle unit. -/
def name : AngleUnit → String
  | radians => "radians"
  | degrees => "degrees"
  | gradians => "gradians"

/-- An angle in radians. -/
def toRadians (unit : AngleUnit) (angle : Float) : Float :=
  match unit with
  | radians => angle
  | degrees => angle * pi / 180.0
  | gradians => angle * pi / 200.0

/-- An angle given in radians. -/
def fromRadians (unit : AngleUnit) (angle : Float) : Float :=
  match unit with
  | radians => angle
  | degrees => angle * 180.0 / pi
  | gradians => angle * 200.0 / pi

end AngleUnit

/-! ## Errors of the setup -/

/-- Why an engine cannot be set up. -/
inductive SetupError where
  | precisionOutOfRange (precision : Nat)
  | unknownAngleUnit (name : String)
  /-- the configuration is no document of the right form -/
  | malformedDocument
  | zeroCapacity
  | unreadableFile (path reason : String)
  deriving DecidableEq, Repr

namespace SetupError

/-- The sentence that reports an error. -/
def message : SetupError → String
  | precisionOutOfRange precision =>
    "Precision " ++ Decimal.integerText precision ++ " is out of range (0-28)"
  | unknownAngleUnit name =>
    "Unknown angle unit '" ++ name ++ "' (expected radians, degrees or gradians)"
  | malformedDocument => "Invalid configuration"
  | zeroCapacity => "Cache capacity must be greater than 0 (got 0)"
  | unreadableFile path reason =>
    "Cannot read configuration file " ++ path ++ ": " ++ reason

/-- The code of an error. -/
def code : SetupError → Code
  | precisionOutOfRange _ | unknownAngleUnit _ | malformedDocument => ⟨400⟩
  | unreadableFile _ _ => ⟨401⟩
  | zeroCapacity => ⟨402⟩

end SetupError

/-- The angle unit of a name or an abbreviation, in any ASCII case and with blanks around. -/
def AngleUnit.ofText (s : String) : Except SetupError AngleUnit :=
  let name := String.ofList ((Text.trim s.toList).map Char.toLower)
  if ["rad", "radian", "radians"].contains name then .ok .radians
  else if ["deg", "degree", "degrees"].contains name then .ok .degrees
  else if ["grad", "gradian", "gradians", "gon"].contains name then .ok .gradians
  else .error (.unknownAngleUnit name)

/-! ## Settings -/

/-- What the evaluators are told. -/
structure Settings where
  /-- the places of shown numbers -/
  precision : Nat := 10
  angleUnit : AngleUnit := .radians
  deriving DecidableEq, Repr

/-- More places than are ever shown cannot be asked for. -/
def Settings.validate (s : Settings) : Except SetupError Unit :=
  if s.precision > Decimal.maxPlaces then .error (.precisionOutOfRange s.precision) else .ok ()

end Reckoner
