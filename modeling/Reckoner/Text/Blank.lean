/-
  Blank characters, and the forms of a text that ignore them.

  * `isBlank`: the white space of every script;
  * `trim`: without blanks at both ends; `collapse`: every run of blanks becomes one
    space; `strip`: without any blank;
  * `canonical`: trimmed, collapsed and lower-cased, the form in which a query is read.
-/
import Reckoner.Text.LowerCase

namespace Reckoner.Text

/-- White space: tabs, line ends, and the spaces of every script. -/
def isBlank (c : Char) : Bool :=
  let n := c.toNat
  n == 0x20 || (9 ≤ n && n ≤ 13) || n == 0x85 || n == 0xa0 || n == 0x1680 ||
    (0x2000 ≤ n && n ≤ 0x200a) || n == 0x2028 || n == 0x2029 || n == 0x202f ||
    n == 0x205f || n == 0x3000

/-- The text without the blanks it starts with. -/
def trimStart (cs : List Char) : List Char := cs.dropWhile isBlank

/-- The text without the blanks it ends with. -/
def trimEnd (cs : List Char) : List Char := (cs.reverse.dropWhile isBlank).reverse

/-- The text without blanks at both ends. -/
def trim (cs : List Char) : List Char := trimEnd (trimStart cs)

/-- The text without any blank. -/
def strip (cs : List Char) : List Char := cs.filter fun c => !isBlank c

/-- Writes each run of blanks as one space; `open_` says that a run has begun. -/
def collapseFrom (open_ : Bool) : List Char → List Char
  | [] => []
  | c :: cs =>
    if isBlank c then if open_ then collapseFrom true cs else ' ' :: collapseFrom true cs
    else c :: collapseFrom false cs

/-- The text with each run of blanks written as one space. -/
def collapse (cs : List Char) : List Char := collapseFrom false cs

/-- The text trimmed, with single spaces, in lower case. -/
def canonical (cs : List Char) : List Char := lower (collapse (trim cs))

/-! ## Strings -/

/-- The string without blanks at both ends. -/
def trimmed (s : String) : String := String.ofList (trim s.toList)

/-- The string has no character that is not blank. -/
def isBlankText (s : String) : Bool := s.toList.all isBlank

end Reckoner.Text
