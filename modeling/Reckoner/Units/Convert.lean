/-
  Conversion of a value from one unit to another.

  * `scale`: between two units of one quantity; temperatures go by way of Celsius;
  * `convert`: by name, where both names have to be found in one quantity.
-/
import Reckoner.Failure
import Reckoner.Units.Table

namespace Reckoner.Units

/-- A temperature in degrees Celsius. -/
def toCelsius (value : Float) (symbol : String) : Except Failure Float :=
  if symbol == "°C" then .ok value
  else if symbol == "°F" then .ok ((value - 32.0) * 5.0 / 9.0)
  else if symbol == "K" then .ok (value - 273.15)
  else .error (.unknownUnits symbol "°C")

/-- A temperature given in degrees Celsius. -/
def fromCelsius (celsius : Float) (symbol : String) : Except Failure Float :=
  if symbol == "°C" then .ok celsius
  else if symbol == "°F" then .ok (celsius * 9.0 / 5.0 + 32.0)
  else if symbol == "K" then .ok (celsius + 273.15)
  else .error (.unknownUnits "°C" symbol)

/-- A value in one unit of a quantity, given in another. -/
def scale (d : Dimension) (value : Float) (source target : UnitRow) : Except Failure Float :=
  if d.isAffine then do fromCelsius (← toCelsius value source.symbol) target.symbol
  else .ok (value * source.size / target.size)

/-- The first quantity that has units of both names. -/
def common? (source target : String) : Option (Dimension × UnitRow × UnitRow) :=
  Dimension.all.findSome? fun d =>
    match d.find? (nameKey source), d.find? (nameKey target) with
    | some s, some t => some (d, s, t)
    | _, _ => none

/-- A value converted from the unit of one name to that of another, with the latter. -/
def convert (value : Float) (source target : String) : Except Failure (Float × UnitRow) :=
  match common? source target with
  | some (d, s, t) => do return (← scale d value s t, t)
  | none =>
    match lookup? source, lookup? target with
    | some (d, _), some (d', _) =>
      if d.isAffine != d'.isAffine then .error .affineMix
      else .error (.incompatibleUnits source target)
    | _, _ => .error (.unknownUnits source target)

end Reckoner.Units
