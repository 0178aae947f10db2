/-
  The shortest decimal that reads back as a given float.

  * `Shortest`: digits and a power of ten; `Shortest.ofFloat` finds, for a finite float,
    the decimal with the fewest digits among those nearer to it than to any other float,
    and of these the nearest;
  * `plainText`: this decimal written out without an exponent, a tie going up;
  * `documentText`: as numbers are written in a document, with an exponent far from 1, a
    tie going to the even digit.
-/
import Reckoner.Decimal.Binary
import Reckoner.Decimal.Digits

namespace Reckoner.Decimal

/-- The number `digits · 10 ^ exponent`. -/
structure Shortest where
  digits : Nat
  exponent : Int

namespace Shortest

/-- The interval of reals that round to a float, as numerators over one denominator; the
ends belong to it when the mantissa is even. -/
structure Interval where
  low : Nat
  value : Nat
  high : Nat
  closed : Bool

/-- The interval of a positive float, in quarters of its last binary place. -/
def Interval.ofBinary (b : Binary) : Interval :=
  -- below a power of two the next float is twice as near
  let below := if b.mantissa = Nat.pow 2 52 ∧ b.exponent > -1074 then 1 else 2
  let scale := Nat.pow 2 b.exponent.toNat
  ⟨(4 * b.mantissa - below) * scale, 4 * b.mantissa * scale, (4 * b.mantissa + 2) * scale,
    b.mantissa % 2 == 0⟩

/-- A numerator lies in the interval. -/
def Interval.has (i : Interval) (n : Nat) : Bool :=
  if i.closed then i.low ≤ n && n ≤ i.high else i.low < n && n < i.high

/-- The power of ten above a positive fraction: the least `e` with `num / den < 10 ^ e`. -/
def magnitude (num den : Nat) : Int :=
  let e : Int := digitCount num - digitCount den
  if num * Nat.pow 10 (-e).toNat < den * Nat.pow 10 e.toNat then e else e + 1

/-- The best decimal in the interval whose last place is `10 ^ place`, if one lies there. -/
def onGrid? (tie : Tie) (i : Interval) (den : Nat) (place : Int) : Option Shortest :=
  -- numerators are scaled by `up`, so that a grid step is the whole number `step`
  let up := Nat.pow 10 (-place).toNat
  let step := den * Nat.pow 10 place.toNat
  let scaled : Interval := ⟨i.low * up, i.value * up, i.high * up, i.closed⟩
  let lower := scaled.value / step
  match scaled.has (lower * step), scaled.has ((lower + 1) * step) with
  | true, true => some ⟨roundDiv scaled.value step tie, place⟩
  | true, false => some ⟨lower, place⟩
  | false, true => some ⟨lower + 1, place⟩
  | false, false => none

/-- Tries grids with more and more digits, from `n` digits on. -/
def searchGrids (tie : Tie) (i : Interval) (den : Nat) (top : Int) (n : Nat) : Nat → Shortest
  | 0 => ⟨0, 0⟩
  | tries + 1 =>
    match onGrid? tie i den (top - n) with
    | some s => s
    | none => searchGrids tie i den top (n + 1) tries

/-- The shortest decimal of the magnitude of a finite float. -/
def ofFloat (tie : Tie) (x : Float) : Shortest :=
  let b := Binary.ofFloat x
  if b.mantissa = 0 then ⟨0, 0⟩
  else
    let i := Interval.ofBinary b
    let den := 4 * b.denominator
    let s := searchGrids tie i den (magnitude i.value den) 1 20
    let (digits, tens) := stripTens 20 s.digits
    ⟨digits, s.exponent + tens⟩

/-- Written out without an exponent; `whole` is what follows a whole number. -/
def positional (s : Shortest) (whole : String) : List Char :=
  if s.exponent ≥ 0 then
    digitText s.digits ++ List.replicate (if s.digits = 0 then 0 else s.exponent.toNat) '0'
      ++ whole.toList
  else
    let places := (-s.exponent).toNat
    let text := paddedDigits (places + 1) s.digits
    text.take (text.length - places) ++ '.' :: text.drop (text.length - places)

/-- One digit, the others after a point, and the power of ten. -/
def withExponent (s : Shortest) : List Char :=
  let text := digitText s.digits
  let e := s.exponent + text.length - 1
  text.take 1 ++ (if text.length > 1 then '.' :: text.drop 1 else []) ++
    'e' :: (if e < 0 then '-' else '+') :: digitText e.natAbs

end Shortest

/-- A minus sign in front of the text of a float that has one. -/
def signed (x : Float) (text : List Char) : List Char :=
  if (Binary.ofFloat x).negative then '-' :: text else text

/-- A float written out in full: the fewest digits that read back, no exponent. -/
def plainText (x : Float) : String :=
  if x.isNaN then "NaN"
  else String.ofList <| signed x <|
    if x.isInf then "inf".toList else (Shortest.ofFloat .up x).positional ""

/-- A float as a document holds it: a whole number keeps a digit after the point, powers of
ten below -5 or from 16 on are written as exponents, and only finite numbers have a text. -/
def documentText (x : Float) : String :=
  if !x.isFinite then "null"
  else
    let s := Shortest.ofFloat .even x
    let power := s.exponent + digitCount s.digits - 1
    String.ofList <| signed x <|
      if -5 ≤ power && power < 16 then s.positional ".0" else s.withExponent

end Reckoner.Decimal
