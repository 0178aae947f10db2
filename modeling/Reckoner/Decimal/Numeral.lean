/-
  Numerals: how numbers are written in queries.

  * `readFloat?`: a sign, digits with or without a point, and an exponent; or a word for
    infinity or for what is not a number;
  * `readInteger?`: a sign and digits in a given base;
  * `readInt64?`, `readNat32?`: integers that must fit into 64 bits with a sign, or into 32
    bits without one.
-/
import Reckoner.Text.Letter

namespace Reckoner.Decimal

open Text

/-! ## Integers -/

/-- The value of a digit in bases up to 16; letters count in either case. -/
def digitOf? (base : Nat) (c : Char) : Option Nat :=
  let value :=
    if isAsciiDigit c then digitValue c
    else if 'a' ≤ c && c ≤ 'f' then c.toNat - 87
    else if 'A' ≤ c && c ≤ 'F' then c.toNat - 55
    else base
  if value < base then some value else none

/-- The number that digits denote, after the digits that gave `value`. -/
def readDigits (base : Nat) (value : Nat) : List Char → Option Nat
  | [] => some value
  | c :: cs =>
    match digitOf? base c with
    | some d => readDigits base (base * value + d) cs
    | none => none

/-- A non-empty row of digits. -/
def readNatural? (base : Nat) (cs : List Char) : Option Nat :=
  if cs.isEmpty then none else readDigits base 0 cs

/-- Digits with an optional sign. -/
def readInteger? (base : Nat) : List Char → Option Int
  | '-' :: cs => (readNatural? base cs).map fun n => -(n : Int)
  | '+' :: cs => (readNatural? base cs).map Int.ofNat
  | cs => (readNatural? base cs).map Int.ofNat

/-- The smallest 64-bit integer. -/
def minInt64 : Int := -9223372036854775808

/-- The largest 64-bit integer. -/
def maxInt64 : Int := 9223372036854775807

/-- A number fits into 64 bits with a sign. -/
def fitsInt64 (i : Int) : Bool := minInt64 ≤ i && i ≤ maxInt64

/-- An integer of 64 bits with a sign. -/
def readInt64? (base : Nat) (cs : List Char) : Option Int :=
  (readInteger? base cs).filter fitsInt64

/-- An integer of 32 bits without a sign. -/
def readNat32? (cs : List Char) : Option Nat :=
  match cs with
  | '-' :: _ => none
  | '+' :: cs => (readNatural? 10 cs).filter (· < Nat.pow 2 32)
  | cs => (readNatural? 10 cs).filter (· < Nat.pow 2 32)

/-! ## Floats -/

/-- The float nearest to `m · 10 ^ e`. -/
def nearestFloat (m : Nat) (e : Int) : Float :=
  -- beyond these powers every number is infinite or zero, whatever its digits
  let power := e + (Nat.toDigits 10 m).length
  if m = 0 || power < -400 then 0.0
  else if power > 400 then 1.0 / 0.0
  else Float.ofScientific m (e < 0) e.natAbs

/-- Splits off the leading digits from `0` to `9`. -/
def spanDigits (cs : List Char) : List Char × List Char := cs.span isAsciiDigit

/-- The exponent after a mantissa: nothing, or `e` and an integer. -/
def readExponent? : List Char → Option Int
  | [] => some 0
  | c :: cs => if c == 'e' || c == 'E' then readInteger? 10 cs else none

/-- A number without a sign: digits, of which a point may stand before, within or after, and
an exponent. -/
def readDecimal? (cs : List Char) : Option Float :=
  let (whole, rest) := spanDigits cs
  let (fraction, rest) := match rest with
    | '.' :: rest => spanDigits rest
    | rest => ([], rest)
  if whole.isEmpty && fraction.isEmpty then none
  else
    match readDigits 10 0 (whole ++ fraction), readExponent? rest with
    | some m, some e => some (nearestFloat m (e - fraction.length))
    | _, _ => none

/-- The words for infinity and for what is not a number, in any case. -/
def readWord? (cs : List Char) : Option Float :=
  let word := String.ofList (cs.map Char.toLower)
  if word == "inf" || word == "infinity" then some (1.0 / 0.0)
  else if word == "nan" then some (0.0 / 0.0)
  else none

/-- A number without a sign, or a word that stands for one. -/
def readMagnitude? (cs : List Char) : Option Float :=
  match readDecimal? cs with
  | some x => some x
  | none => readWord? cs

/-- A number with an optional sign. -/
def readFloat? : List Char → Option Float
  | '-' :: cs => (readMagnitude? cs).map fun x => -x
  | '+' :: cs => readMagnitude? cs
  | cs => readMagnitude? cs

end Reckoner.Decimal
