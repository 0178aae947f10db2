/-
  Stretches of a query text, counted in bytes.

  * `Span`: from a first byte up to, not including, a last one;
  * `Span.underline`: the line of carets that points at a span, one per character.
-/
import Reckoner.Decimal.Digits
import Reckoner.Text.Words

namespace Reckoner

/-- A stretch of a text, from byte `start` up to byte `stop`. -/
structure Span where
  start : Nat
  stop : Nat
  deriving DecidableEq, Repr

namespace Span

/-- The empty span at a position. -/
def point (position : Nat) : Span := ⟨position, position⟩

/-- The number of bytes. -/
def length (s : Span) : Nat := s.stop - s.start

/-- The span holds nothing. -/
def isEmpty (s : Span) : Bool := s.stop ≤ s.start

/-- The least span that covers both. -/
def merge (s t : Span) : Span := ⟨min s.start t.start, max s.stop t.stop⟩

/-- The span as it is shown. -/
def label (s : Span) : String :=
  Decimal.integerText s.start ++ ".." ++ Decimal.integerText s.stop

/-- The positions in bytes at which the characters of a text start. -/
def startsFrom (position : Nat) : List Char → List Nat
  | [] => []
  | c :: cs => position :: startsFrom (position + c.utf8Size) cs

/-- A line that points at the span: a space for each character before it and a caret for
each that starts in it, at least one. -/
def underline (s : Span) (source : List Char) : List Char :=
  let starts := startsFrom 0 source
  let column := (starts.takeWhile (· < s.start)).length
  let width := (starts.filter fun i => s.start ≤ i && i < s.stop).length
  List.replicate column ' ' ++ List.replicate (max width 1) '^'

end Span

end Reckoner
