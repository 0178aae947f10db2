/-
  Cube roots.

  * `wholeCubeRoot`: the greatest number of a given count of bits whose cube does not exceed
    another;
  * `cubeRoot`: the float nearest to the cube root of a float. A cube root is never half way
    between two floats, so that no tie has to be broken.
-/
import Reckoner.Decimal.Binary

namespace Reckoner.Decimal

/-- The greatest `r` below `start + 2 ^ bits` with `r ^ 3 ≤ n`, if `start ^ 3 ≤ n`: each bit
from the highest on is kept when the cube allows it. -/
def wholeCubeRoot (n : Nat) : Nat → Nat → Nat
  | 0, start => start
  | bits + 1, start =>
    let next := start + Nat.pow 2 bits
    wholeCubeRoot n bits (if Nat.pow next 3 ≤ n then next else start)

/-- The value with a mantissa of 53 bits that is nearest to the cube root of another with a
mantissa of at most 53 bits other than zero. -/
def Binary.cubeRoot (b : Binary) : Binary :=
  -- the radicand is scaled so that the whole part of its root has exactly 53 bits
  let exponent := (b.mantissa.log2 + b.exponent - 156) / 3
  let n := b.mantissa * Nat.pow 2 (b.exponent - 3 * exponent).toNat
  let r := wholeCubeRoot n 53 0
  ⟨b.negative, if Nat.pow (2 * r + 1) 3 < 8 * n then r + 1 else r, exponent⟩

/-- The float nearest to the cube root of a float. -/
def cubeRoot (x : Float) : Float :=
  if x.isFinite && x != 0.0 then (Binary.ofFloat x).cubeRoot.toFloat else x

end Reckoner.Decimal
