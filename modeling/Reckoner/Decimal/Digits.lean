/-
  Digits and rounding.

  * `digitText`, `padLeft`, `padRight`: numbers written in ten digits;
  * `Tie`, `roundDiv`: a quotient rounded to the nearest whole number, with the rule for
    the case that it lies half-way.
-/

namespace Reckoner.Decimal

/-- A number in decimal digits. -/
def digitText (n : Nat) : List Char := Nat.toDigits 10 n

/-- The number of decimal digits. -/
def digitCount (n : Nat) : Nat := (digitText n).length

/-- A text with `fill` in front up to a length. -/
def padLeft (length : Nat) (fill : Char) (cs : List Char) : List Char :=
  List.replicate (length - cs.length) fill ++ cs

/-- A text with `fill` behind up to a length. -/
def padRight (length : Nat) (fill : Char) (cs : List Char) : List Char :=
  cs ++ List.replicate (length - cs.length) fill

/-- A number in at least `length` digits. -/
def paddedDigits (length n : Nat) : List Char := padLeft length '0' (digitText n)

/-- A whole number with its sign if it is negative. -/
def integerText (i : Int) : String :=
  String.ofList (if i < 0 then '-' :: digitText i.natAbs else digitText i.natAbs)

/-- Where a number goes that lies half-way between two whole numbers. -/
inductive Tie where
  | up
  | even

/-- The quotient `num / den` rounded to the nearest whole number. -/
def roundDiv (num den : Nat) (tie : Tie) : Nat :=
  let quotient := num / den
  let twice := 2 * (num % den)
  let raise : Bool := match tie with
    | .up => twice ≥ den
    | .even => twice > den || (twice == den && quotient % 2 == 1)
  if raise then quotient + 1 else quotient

/-- The last digits `0` of a text taken away. -/
def dropZeros (cs : List Char) : List Char := (cs.reverse.dropWhile (· == '0')).reverse

/-- Divides by ten while it goes evenly, `limit` times at most; gives the count too. -/
def stripTens (limit n : Nat) : Nat × Nat :=
  match limit with
  | 0 => (n, 0)
  | limit + 1 =>
    if n % 10 = 0 then let (m, k) := stripTens limit (n / 10); (m, k + 1) else (n, 0)

end Reckoner.Decimal
