/-
  Units of measure and the eight quantities they measure.

  * `Dimension`: the quantities; temperatures are affine, all others have a common zero;
  * `UnitRow`: a unit with its names, its size in base units and its symbol;
  * `lookup?`: the unit of a name in any case, with its quantity.
-/
import Reckoner.Text.Blank

namespace Reckoner.Units

/-- A quantity that units measure. -/
inductive Dimension where
  | length
  | weight
  | temperature
  | volume
  | area
  | time
  | speed
  | data
  deriving DecidableEq, Repr

/-- A unit of measure. -/
structure UnitRow where
  /-- the names it goes by, in lower case -/
  names : List String
  /-- its size in base units of its quantity; without meaning for temperatures -/
  size : Float
  symbol : String

namespace Dimension

/-- Every quantity, in the order in which they are searched. -/
def all : List Dimension := [length, weight, temperature, volume, area, time, speed, data]

/-- The name of a quantity. -/
def name : Dimension → String
  | length => "length"
  | weight => "weight"
  | temperature => "temperature"
  | volume => "volume"
  | area => "area"
  | time => "time"
  | speed => "speed"
  | data => "data"

/-- The units of the quantity differ by more than a factor. -/
def isAffine (d : Dimension) : Bool := d == temperature

/-- The units of a quantity. -/
def rows : Dimension → List UnitRow
  | length => [
    ⟨["meter", "meters", "metre", "metres", "m"], 1.0, "m"⟩,
    ⟨["kilometer", "kilometers", "kilometre", "kilometres", "km"], 1000.0, "km"⟩,
    ⟨["mile", "miles", "mi"], 1609.344, "mi"⟩,
    ⟨["foot", "feet", "ft"], 0.3048, "ft"⟩,
    ⟨["inch", "inches", "in"], 0.0254, "in"⟩,
    ⟨["yard", "yards", "yd"], 0.9144, "yd"⟩,
    ⟨["centimeter", "centimeters", "centimetre", "centimetres", "cm"], 0.01, "cm"⟩,
    ⟨["millimeter", "millimeters", "millimetre", "millimetres", "mm"], 0.001, "mm"⟩,
    ⟨["nautical mile", "nautical miles", "nmi"], 1852.0, "nmi"⟩]
  | weight => [
    ⟨["kilogram", "kilograms", "kg"], 1.0, "kg"⟩,
    ⟨["gram", "grams", "g"], 0.001, "g"⟩,
    ⟨["pound", "pounds", "lb", "lbs"], 0.45359237, "lb"⟩,
    ⟨["ounce", "ounces", "oz"], 0.0283495231, "oz"⟩,
    ⟨["ton", "tons"], 907.18474, "ton"⟩,
    ⟨["tonne", "tonnes"], 1000.0, "t"⟩,
    ⟨["stone", "stones", "st"], 6.35029318, "st"⟩,
    ⟨["milligram", "milligrams", "mg"], 0.000001, "mg"⟩]
  | temperature => [
    ⟨["celsius", "c", "°c"], 0.0, "°C"⟩,
    ⟨["fahrenheit", "f", "°f"], 0.0, "°F"⟩,
    ⟨["kelvin", "k"], 0.0, "K"⟩]
  | volume => [
    ⟨["liter", "liters", "litre", "litres", "l"], 1.0, "L"⟩,
    ⟨["milliliter", "milliliters", "millilitre", "millilitres", "ml"], 0.001, "mL"⟩,
    ⟨["gallon", "gallons", "gal"], 3.785411784, "gal"⟩,
    ⟨["quart", "quarts", "qt"], 0.946352946, "qt"⟩,
    ⟨["cup", "cups"], 0.2365882365, "cup"⟩,
    ⟨["pint", "pints", "pt"], 0.473176473, "pt"⟩,
    ⟨["fluid ounce", "fluid ounces", "fl oz", "floz"], 0.0295735296, "fl oz"⟩,
    ⟨["tablespoon", "tablespoons", "tbsp"], 0.0147867648, "tbsp"⟩,
    ⟨["teaspoon", "teaspoons", "tsp"], 0.00492892159, "tsp"⟩]
  | area => [
    ⟨["square meter", "square meters", "sq meter", "sq meters", "m²", "m2", "sqm"], 1.0, "m²"⟩,
    ⟨["square kilometer", "square kilometers", "kilometer²", "km²", "km2"], 1000000.0, "km²"⟩,
    ⟨["acre", "acres"], 4046.8564224, "acre"⟩,
    ⟨["hectare", "hectares", "ha"], 10000.0, "ha"⟩,
    ⟨["square foot", "square feet", "sq foot", "sq feet", "ft²", "ft2", "sqft"], 0.09290304,
      "ft²"⟩,
    ⟨["square mile", "square miles", "mi²", "sqmi"], 2589988.110336, "mi²"⟩]
  | time => [
    ⟨["second", "seconds", "sec", "secs", "s"], 1.0, "s"⟩,
    ⟨["millisecond", "milliseconds", "ms"], 0.001, "ms"⟩,
    ⟨["minute", "minutes", "min", "mins"], 60.0, "min"⟩,
    ⟨["hour", "hours", "hr", "hrs", "h"], 3600.0, "h"⟩,
    ⟨["day", "days"], 86400.0, "day"⟩,
    ⟨["week", "weeks"], 604800.0, "week"⟩,
    ⟨["month", "months"], 2629746.0, "month"⟩,
    ⟨["year", "years", "yr", "yrs"], 31556952.0, "year"⟩]
  | speed => [
    ⟨["m/s", "mps", "meter per second", "meters per second"], 1.0, "m/s"⟩,
    ⟨["km/h", "kmh", "kph", "kilometer per hour", "kilometers per hour"], 0.2777777778, "km/h"⟩,
    ⟨["mph", "mile per hour", "miles per hour"], 0.44704, "mph"⟩,
    ⟨["knot", "knots", "kn"], 0.5144444444, "knot"⟩]
  | data => [
    ⟨["byte", "bytes", "b"], 1.0, "B"⟩,
    ⟨["kilobyte", "kilobytes", "kb", "kib"], 1024.0, "KB"⟩,
    ⟨["megabyte", "megabytes", "mb", "mib"], 1048576.0, "MB"⟩,
    ⟨["gigabyte", "gigabytes", "gb", "gib"], 1073741824.0, "GB"⟩,
    ⟨["terabyte", "terabytes", "tb", "tib"], 1099511627776.0, "TB"⟩,
    ⟨["petabyte", "petabytes", "pb", "pib"], 1125899906842624.0, "PB"⟩]

/-- The number of names that a quantity's units have together. -/
def nameCount (d : Dimension) : Nat := d.rows.foldr (fun r n => r.names.length + n) 0

/-- The unit of a lower-case name. -/
def find? (d : Dimension) (name : String) : Option UnitRow :=
  d.rows.find? fun r => r.names.contains name

end Dimension

/-- A name as it is searched for: without blanks around and in lower case. -/
def nameKey (name : String) : String :=
  String.ofList (Text.lower (Text.trim name.toList))

/-- The unit of a name with its quantity. -/
def lookup? (name : String) : Option (Dimension × UnitRow) :=
  Dimension.all.findSome? fun d => (d.find? (nameKey name)).map fun r => (d, r)

end Reckoner.Units
