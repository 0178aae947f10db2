/-
  Decimals with a bounded number of digits.

  * `Amount`: a signed whole number of units `10 ^ -scale`;
  * `Amount.ofFloat?`: the decimal a float stands for when only about 16 digits are kept;
  * `Amount.round`: rounded to a number of places, half away from zero;
  * `Amount.text`: written out with all its places.
-/
import Reckoner.Decimal.Binary
import Reckoner.Decimal.Digits

namespace Reckoner.Decimal

/-- The number `± units / 10 ^ scale`. -/
structure Amount where
  negative : Bool
  units : Nat
  scale : Nat

namespace Amount

/-- The units of an amount stay below this. -/
def limit : Nat := Nat.pow 2 96

/-- The most places an amount can have. -/
def maxScale : Nat := 28

/-- Works off a power of two below one: `m · 2 ^ -n · 10 ^ e` as `m' · 10 ^ e'`, keeping as
many bits as fit. -/
def divideTwos : (n : Nat) → (m : Nat) → (e : Int) → Nat × Int
  | 0, m, e => (m, e)
  | n + 1, m, e =>
    if m % 2 = 0 then divideTwos n (m / 2) (e + 1)
    else if m * 5 < limit then divideTwos n (m * 5) e
    else divideTwos n (m / 2) (e + 1)

/-- Works off a power of two above one, likewise. -/
def multiplyTwos : (n : Nat) → (m : Nat) → (e : Int) → Nat × Int
  | 0, m, e => (m, e)
  | n + 1, m, e =>
    if m < limit / 2 then multiplyTwos n (m * 2) (e - 1)
    else multiplyTwos n (m / 5) e

/-- Works off a power of ten above one, if the units stay small enough. -/
def multiplyTens : (n : Nat) → (m : Nat) → Option Nat
  | 0, m => some m
  | n + 1, m => if m * 10 < limit then multiplyTens n (m * 10) else none

/-- Drops `n` digits one by one, each time to the nearest. -/
def dropDigits : (n : Nat) → (m : Nat) → Nat
  | 0, m => m
  | n + 1, m => dropDigits n (roundDiv m 10 .up)

/-- Drops digits while the units have more than 52 bits; gives the places left. -/
def fitMantissa : (scale : Nat) → (m : Nat) → Nat × Nat
  | 0, m => (m, 0)
  | scale + 1, m =>
    if m < Nat.pow 2 52 then (m, scale + 1) else fitMantissa scale (roundDiv m 10 .up)

/-- The decimal of a float; none for one that is not finite or too large. -/
def ofFloat? (x : Float) : Option Amount :=
  if !x.isFinite then none
  else
    let b := Binary.ofFloat x
    if b.mantissa = 0 then some ⟨false, 0, 0⟩
    else
      let (m, e) :=
        if b.exponent < 0 then divideTwos (-b.exponent).toNat b.mantissa b.exponent
        else multiplyTwos b.exponent.toNat b.mantissa b.exponent
      match multiplyTens e.toNat m with
      | none => none
      | some m =>
        let scale := (-e).toNat
        let m := dropDigits (scale - maxScale) m
        let (m, scale) := fitMantissa (min scale maxScale) m
        let (m, tens) := stripTens scale m
        some ⟨b.negative, m, scale - tens⟩

/-- Rounded to at most `places` places, half away from zero. -/
def round (a : Amount) (places : Nat) : Amount :=
  if a.scale ≤ places then a
  else ⟨a.negative, roundDiv a.units (Nat.pow 10 (a.scale - places)) .up, places⟩

/-- Written out with exactly `places` places, no fewer than the amount has; zero has no
sign. -/
def text (a : Amount) (places : Nat) : List Char :=
  let digits := paddedDigits (a.scale + 1) a.units
  let whole := digits.take (digits.length - a.scale)
  let fraction := padRight places '0' (digits.drop (digits.length - a.scale))
  (if a.negative && a.units != 0 then ['-'] else []) ++ whole ++
    if fraction.isEmpty then [] else '.' :: fraction

end Amount

end Reckoner.Decimal
