/-
  Numbers as they are shown in answers.

  * `scientificText`: five significant digits at most and a power of ten, `1.2346E+10`;
  * `numberText`: a fixed number of places for magnitudes from 0.0001 to ten thousand
    million, scientific notation beyond;
  * `percentText`: a share in percent, with a fixed number of places.
-/
import Reckoner.Decimal.Amount
import Reckoner.Decimal.Shortest

namespace Reckoner.Decimal

/-- The largest number of places that is ever shown. -/
def maxPlaces : Nat := 28

/-- Smaller non-zero magnitudes are shown in scientific notation. -/
def scientificBelow : Float := 1e-4

/-- Larger magnitudes are shown in scientific notation. -/
def scientificAbove : Float := 1e10

/-- The five leading digits of a positive fraction, a half going to the even neighbour, and
the power of ten of the first. -/
def leadingDigits (num den : Nat) : Nat × Int :=
  let top := Shortest.magnitude num den
  let place := top - 5
  let m := roundDiv (num * Nat.pow 10 (-place).toNat) (den * Nat.pow 10 place.toNat) .even
  -- rounding up may reach the next power of ten
  if m = Nat.pow 10 5 then (Nat.pow 10 4, top) else (m, top - 1)

/-- A float in scientific notation with up to four digits after the point. -/
def scientificText (x : Float) : String :=
  if x.isNaN then "NaN"
  else String.ofList <| signed x <|
    if x.isInf then "inf".toList
    else
      let b := Binary.ofFloat x
      let (m, power) := if b.mantissa = 0 then (0, 0) else leadingDigits b.numerator b.denominator
      let digits := paddedDigits 5 m
      let fraction := dropZeros (digits.drop 1)
      digits.take 1 ++ (if fraction.isEmpty then [] else '.' :: fraction) ++
        'E' :: (if power < 0 then '-' else '+') :: digitText power.natAbs

/-- A float as an answer shows it, with `precision` places or as many as are ever shown. -/
def numberText (x : Float) (precision : Nat) : String :=
  if x.isNaN then "NaN"
  else if x.isInf then "Infinity"
  else
    let magnitude := x.abs
    if magnitude > 0.0 && (magnitude < scientificBelow || scientificAbove < magnitude) then
      scientificText x
    else
      let places := min precision maxPlaces
      match Amount.ofFloat? x with
      | some amount => String.ofList ((amount.round places).text places)
      | none => "0"

/-- A finite float that is not negative, rounded to a number of places. -/
def percentText (x : Float) (places : Nat) : String :=
  let b := Binary.ofFloat x
  let units := roundDiv (b.numerator * Nat.pow 10 places) b.denominator .even
  String.ofList ((Amount.mk false units places).text places)

end Reckoner.Decimal
