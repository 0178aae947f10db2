/-
  Sets of characters given by closed ranges of code points.

  * `Ranges.has`: a character lies in one of the ranges.
-/

namespace Reckoner.Text

/-- Closed ranges of code points, in increasing order. -/
abbrev Ranges := List (Nat × Nat)

/-- A character lies in one of the ranges. -/
def Ranges.has (rs : Ranges) (c : Char) : Bool :=
  rs.any fun r => r.1 ≤ c.toNat && c.toNat ≤ r.2

end Reckoner.Text
