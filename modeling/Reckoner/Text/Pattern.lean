/-
  Text patterns: what a query has to look like, with the parts to remember.

  * `Place`: a place in a text, between the character before it and the text after it;
  * `Pattern`: sequences and alternatives of character classes, runs of a class taken as
    long (`many`) or as short (`few`) as possible first, and conditions on the place;
  * `Pattern.readings`: every way to read a pattern from a place, the preferred way first;
  * `Pattern.search?`: the preferred reading at the first place that has one.
-/
import Reckoner.Text.Blank
import Reckoner.Text.Letter

namespace Reckoner.Text

/-! ## Places -/

/-- A place in a text: the character before it, if any, and the characters after it. -/
structure Place where
  before : Option Char
  rest : List Char

/-- The place before the first character. -/
def Place.start (cs : List Char) : Place := ⟨none, cs⟩

/-- A word begins or ends at this place. -/
def Place.isBoundary (p : Place) : Bool :=
  p.before.any isWordChar != p.rest.head?.any isWordChar

/-- The characters from a place to a later one in the same text. -/
def Place.upTo (p later : Place) : List Char :=
  p.rest.take (p.rest.length - later.rest.length)

/-! ## Patterns -/

/-- What a stretch of text has to look like. -/
inductive Pattern where
  /-- nothing at all -/
  | nothing
  /-- one character of a class -/
  | one (has : Char → Bool)
  /-- characters of a class, as many as possible first -/
  | many (has : Char → Bool)
  /-- characters of a class, as few as possible first -/
  | few (has : Char → Bool)
  /-- one pattern after another -/
  | seq (p q : Pattern)
  /-- the first pattern, or else the second -/
  | alt (p q : Pattern)
  /-- a part to remember -/
  | group (p : Pattern)
  /-- the start of the text -/
  | start
  /-- the end of the text -/
  | finish
  /-- the start or the end of a word -/
  | boundary

namespace Pattern

/-- A reading of a pattern: the place where it ends and the parts it remembers. -/
structure Reading where
  place : Place
  groups : List (List Char) := []

/-- The places reached by passing over characters of a class, nearest first. -/
def reach (has : Char → Bool) (before : Option Char) : List Char → List Reading
  | [] => [⟨⟨before, []⟩, []⟩]
  | c :: cs => ⟨⟨before, c :: cs⟩, []⟩ :: if has c then reach has (some c) cs else []

/-- Every way to read a pattern from a place, the preferred way first. -/
def readings : Pattern → Place → List Reading
  | nothing, at_ => [⟨at_, []⟩]
  | one has, at_ =>
    match at_.rest with
    | c :: cs => if has c then [⟨⟨some c, cs⟩, []⟩] else []
    | [] => []
  | many has, at_ => (reach has at_.before at_.rest).reverse
  | few has, at_ => reach has at_.before at_.rest
  | seq p q, at_ =>
    (p.readings at_).flatMap fun r =>
      (q.readings r.place).map fun r' => ⟨r'.place, r.groups ++ r'.groups⟩
  | alt p q, at_ => p.readings at_ ++ q.readings at_
  | group p, at_ =>
    (p.readings at_).map fun r => ⟨r.place, at_.upTo r.place :: r.groups⟩
  | start, at_ => if at_.before.isNone then [⟨at_, []⟩] else []
  | finish, at_ => if at_.rest.isEmpty then [⟨at_, []⟩] else []
  | boundary, at_ => if at_.isBoundary then [⟨at_, []⟩] else []

/-- The preferred reading at the first place, from `before` on, that has one. -/
def searchFrom (p : Pattern) (before : Option Char) : List Char → Option Reading
  | [] => (p.readings ⟨before, []⟩).head?
  | c :: cs =>
    match p.readings ⟨before, c :: cs⟩ with
    | r :: _ => some r
    | [] => p.searchFrom (some c) cs

/-- The preferred reading at the first place that has one. -/
def search? (p : Pattern) (cs : List Char) : Option Reading := p.searchFrom none cs

/-- The pattern occurs somewhere in the text. -/
def occursIn (p : Pattern) (cs : List Char) : Bool := (p.search? cs).isSome

/-- The parts remembered by the first occurrence. -/
def groups? (p : Pattern) (cs : List Char) : Option (List (List Char)) :=
  (p.search? cs).map (·.groups)

/-! ## Common shapes -/

/-- One given character. -/
def char (c : Char) : Pattern := one (· == c)

/-- One of the characters of a string. -/
def oneOf (s : String) : Pattern := one fun c => s.toList.contains c

/-- At least one character of a class, as many as possible first. -/
def some_ (has : Char → Bool) : Pattern := seq (one has) (many has)

/-- The pattern, or else nothing. -/
def optional (p : Pattern) : Pattern := alt p nothing

/-- A given number of characters of a class. -/
def times (has : Char → Bool) : Nat → Pattern
  | 0 => nothing
  | n + 1 => seq (one has) (times has n)

/-- Patterns one after another. -/
def chain : List Pattern → Pattern
  | [] => nothing
  | [p] => p
  | p :: ps => seq p (chain ps)

/-- The first pattern that fits. -/
def choice : List Pattern → Pattern
  | [] => one fun _ => false
  | [p] => p
  | p :: ps => alt p (choice ps)

/-- A given text. -/
def text (s : String) : Pattern := chain (s.toList.map char)

/-- One of the given texts, the earlier ones first. -/
def anyText (ss : List String) : Pattern := choice (ss.map text)

/-- At least one blank. -/
def blanks : Pattern := some_ isBlank

/-- Any number of blanks. -/
def gap : Pattern := many isBlank

/-- At least one digit of any script. -/
def digits : Pattern := some_ isDigit

/-- At most one of a given character. -/
def maybe (c : Char) : Pattern := optional (char c)

/-- A whole word. -/
def word (p : Pattern) : Pattern := chain [boundary, p, boundary]

/-- Any characters up to the end of a line. -/
def line (c : Char) : Bool := c != '\n'

end Pattern

end Reckoner.Text
