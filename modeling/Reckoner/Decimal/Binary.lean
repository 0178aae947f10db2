/-
  Floats as exact numbers.

  * `Binary`: a sign, a mantissa and a power of two; `Binary.ofFloat` is the exact value of
    a finite float, `Binary.toFloat` the float of a value that has one;
  * `remainder`: the exact remainder of a division that truncates toward zero.
-/

namespace Reckoner.Decimal

/-- The number `± mantissa · 2 ^ exponent`. -/
structure Binary where
  negative : Bool
  mantissa : Nat
  exponent : Int

namespace Binary

/-- The exact value of a finite float. -/
def ofFloat (x : Float) : Binary :=
  let bits : Nat := x.toBits.toNat
  let negative := bits / Nat.pow 2 63 % 2 == 1
  let field : Nat := bits / Nat.pow 2 52 % Nat.pow 2 11
  let fraction : Nat := bits % Nat.pow 2 52
  if field = 0 then ⟨negative, fraction, -1074⟩
  else ⟨negative, fraction + Nat.pow 2 52, (field : Int) - 1075⟩

/-- Numerator of the magnitude as a fraction. -/
def numerator (b : Binary) : Nat := b.mantissa * Nat.pow 2 b.exponent.toNat

/-- Denominator of the magnitude as a fraction, a power of two. -/
def denominator (b : Binary) : Nat := Nat.pow 2 (-b.exponent).toNat

/-- The float of a number; exact when the number has a float of its own. -/
def toFloat (b : Binary) : Float :=
  -- bits beyond 53 are dropped first, so that a large mantissa does not overflow on its own
  let extra := b.mantissa.log2 - 52
  let magnitude := (Float.ofNat (b.mantissa / Nat.pow 2 extra)).scaleB (b.exponent + extra)
  if b.negative then -magnitude else magnitude

end Binary

/-- The exact remainder of `x / y` when the quotient is cut off toward zero; it has the sign
of `x`. -/
def remainder (x y : Float) : Float :=
  if x.isNaN || y.isNaN || x.isInf || y == 0.0 then 0.0 / 0.0
  else if y.isInf then x
  else
    let a := Binary.ofFloat x
    let b := Binary.ofFloat y
    let e := min a.exponent b.exponent
    let m := a.mantissa * Nat.pow 2 (a.exponent - e).toNat %
      (b.mantissa * Nat.pow 2 (b.exponent - e).toNat)
    Binary.toFloat ⟨a.negative, m, e⟩

end Reckoner.Decimal
