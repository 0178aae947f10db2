/-
  Documents of nested fields and lists, as configurations and reports are kept in.

  * `Document`: null, truth values, numbers by their digits, texts, lists and fields;
  * `Document.read?`: the document of a text;
  * `Document.isSound`: every part of a document has a value of its own;
  * `Document.pretty`: a document over several lines.
-/
import Reckoner.Decimal.Digits
import Reckoner.Decimal.Numeral

namespace Reckoner

/-- A text as a document holds it; it is not whole if an escape in it names half a
character. -/
structure Quoted where
  chars : List Char
  isWhole : Bool := true

/-- A document. -/
inductive Document where
  | null
  | bool (b : Bool)
  /-- a number by its digits -/
  | number (digits : List Char)
  | text (s : Quoted)
  | list (items : List Document)
  | fields (fields : List (Quoted × Document))

namespace Document

/-! ## Reading texts -/

/-- A piece of a quoted text: a character, or the code of an escape. -/
inductive Piece where
  | char (c : Char)
  | code (n : Nat)

/-- The character of an escape by one letter. -/
def escapeChar? (c : Char) : Option Char :=
  match c with
  | '"' => some '"'
  | '\\' => some '\\'
  | '/' => some '/'
  | 'b' => some '\x08'
  | 'f' => some '\x0c'
  | 'n' => some '\n'
  | 'r' => some '\r'
  | 't' => some '\t'
  | _ => none

/-- The pieces up to the closing quote, and what follows it. -/
def readPieces : List Char → Option (List Piece × List Char)
  | [] => none
  | '"' :: cs => some ([], cs)
  | '\\' :: 'u' :: a :: b :: c :: d :: cs => do
    let n ← Decimal.readDigits 16 0 [a, b, c, d]
    let (pieces, rest) ← readPieces cs
    return (.code n :: pieces, rest)
  | '\\' :: c :: cs => do
    let c ← escapeChar? c
    let (pieces, rest) ← readPieces cs
    return (.char c :: pieces, rest)
  | c :: cs =>
    if c.toNat < 32 then none
    else (readPieces cs).map fun (pieces, rest) => (.char c :: pieces, rest)

/-- The characters of pieces; two codes may name one character together. -/
def joinPieces : List Piece → Quoted
  | [] => ⟨[], true⟩
  | .char c :: ps =>
    let q := joinPieces ps
    { q with chars := c :: q.chars }
  | .code m :: .code n :: ps =>
    if 0xd800 ≤ m && m < 0xdc00 && 0xdc00 ≤ n && n < 0xe000 then
      let q := joinPieces ps
      { q with chars := Char.ofNat (0x10000 + (m - 0xd800) * 0x400 + (n - 0xdc00)) :: q.chars }
    else
      let q := joinPieces (.code n :: ps)
      if 0xd800 ≤ m && m < 0xe000 then { q with isWhole := false }
      else { q with chars := Char.ofNat m :: q.chars }
  | .code m :: ps =>
    let q := joinPieces ps
    if 0xd800 ≤ m && m < 0xe000 then { q with isWhole := false }
    else { q with chars := Char.ofNat m :: q.chars }

/-- The text after an opening quote. -/
def readQuoted (cs : List Char) : Option (Quoted × List Char) :=
  (readPieces cs).map fun (pieces, rest) => (joinPieces pieces, rest)

/-! ## Reading numbers -/

/-- A row of digits, at least one. -/
def readDigitRow (cs : List Char) : Option (List Char × List Char) :=
  let (digits, rest) := Decimal.spanDigits cs
  if digits.isEmpty then none else some (digits, rest)

/-- A whole number without a sign; it starts with 0 only if it is 0. -/
def readWhole : List Char → Option (List Char × List Char)
  | '0' :: cs => if cs.head?.any Text.isAsciiDigit then none else some (['0'], cs)
  | cs => readDigitRow cs

/-- A point and digits, or nothing. -/
def readFraction : List Char → Option (List Char × List Char)
  | '.' :: cs => (readDigitRow cs).map fun (digits, rest) => ('.' :: digits, rest)
  | cs => some ([], cs)

/-- The letter `e` with an integer, or nothing. -/
def readExponent : List Char → Option (List Char × List Char)
  | [] => some ([], [])
  | c :: cs =>
    if c == 'e' || c == 'E' then
      match cs with
      | '-' :: cs => (readDigitRow cs).map fun (digits, rest) => ('e' :: '-' :: digits, rest)
      | '+' :: cs => (readDigitRow cs).map fun (digits, rest) => ('e' :: digits, rest)
      | cs => (readDigitRow cs).map fun (digits, rest) => ('e' :: digits, rest)
    else some ([], c :: cs)

/-- A number without a sign. -/
def readUnsigned (cs : List Char) : Option (List Char × List Char) := do
  let (whole, cs) ← readWhole cs
  let (fraction, cs) ← readFraction cs
  let (exponent, cs) ← readExponent cs
  return (whole ++ fraction ++ exponent, cs)

/-- A number. -/
def readNumber : List Char → Option (List Char × List Char)
  | '-' :: cs => (readUnsigned cs).map fun (digits, rest) => ('-' :: digits, rest)
  | cs => readUnsigned cs

/-! ## Reading documents -/

/-- A character that may stand between the parts of a document. -/
def isSpace (c : Char) : Bool := c == ' ' || c == '\t' || c == '\n' || c == '\r'

/-- The text without spaces at its start. -/
def skip (cs : List Char) : List Char := cs.dropWhile isSpace

/-- Passes over a given text. -/
def expect (s : String) (cs : List Char) : Option (List Char) :=
  if s.toList.isPrefixOf cs then some (cs.drop s.length) else none

mutual

/-- A part of a document, nested `depth` deep at most. -/
def readValue : (depth : Nat) → List Char → Option (Document × List Char)
  | 0, _ => none
  | depth + 1, cs =>
    match skip cs with
    | '"' :: cs => (readQuoted cs).map fun (s, rest) => (text s, rest)
    | '[' :: cs =>
      match skip cs with
      | ']' :: rest => some (list [], rest)
      | cs => (readItems depth cs).map fun (items, rest) => (list items, rest)
    | '{' :: cs =>
      match skip cs with
      | '}' :: rest => some (fields [], rest)
      | cs => (readFields depth cs).map fun (fs, rest) => (fields fs, rest)
    | 'n' :: cs => (expect "ull" cs).map fun rest => (null, rest)
    | 't' :: cs => (expect "rue" cs).map fun rest => (bool true, rest)
    | 'f' :: cs => (expect "alse" cs).map fun rest => (bool false, rest)
    | cs => (readNumber cs).map fun (digits, rest) => (number digits, rest)

/-- The items of a list up to its end. -/
def readItems : (depth : Nat) → List Char → Option (List Document × List Char)
  | 0, _ => none
  | depth + 1, cs => do
    let (item, cs) ← readValue depth cs
    match skip cs with
    | ',' :: cs => (readItems depth cs).map fun (items, rest) => (item :: items, rest)
    | ']' :: rest => some ([item], rest)
    | _ => none

/-- The fields of an object up to its end. -/
def readFields : (depth : Nat) → List Char → Option (List (Quoted × Document) × List Char)
  | 0, _ => none
  | depth + 1, cs => do
    let cs ← expect "\"" (skip cs)
    let (key, cs) ← readQuoted cs
    let cs ← expect ":" (skip cs)
    let (value, cs) ← readValue depth cs
    match skip cs with
    | ',' :: cs => (readFields depth cs).map fun (fs, rest) => ((key, value) :: fs, rest)
    | '}' :: rest => some ([(key, value)], rest)
    | _ => none

end

/-- The document that a text is. -/
def read? (s : String) : Option Document :=
  match readValue (2 * s.length + 2) s.toList with
  | some (d, rest) => if (skip rest).isEmpty then some d else none
  | none => none

/-! ## Values -/

/-- The integer of a number written with digits alone; `-0` is not one. -/
def integer? : Document → Option Int
  | number ['-', '0'] => none
  | number digits => Decimal.readInteger? 10 digits
  | _ => none

/-- A number is not too large for a float. -/
def isFiniteNumber (digits : List Char) : Bool :=
  (Decimal.readFloat? digits).any (·.isFinite)

mutual

/-- Every text is whole, every number finite, and nothing is nested `depth` deep. -/
def isSound : (depth : Nat) → Document → Bool
  | _, null | _, bool _ => true
  | _, number digits => isFiniteNumber digits
  | _, text s => s.isWhole
  | depth, list items => 1 < depth && allSound (depth - 1) items
  | depth, fields fs => 1 < depth && allFieldsSound (depth - 1) fs

/-- All items are sound. -/
def allSound : (depth : Nat) → List Document → Bool
  | _, [] => true
  | depth, d :: ds => isSound depth d && allSound depth ds

/-- All fields are sound. -/
def allFieldsSound : (depth : Nat) → List (Quoted × Document) → Bool
  | _, [] => true
  | depth, (key, d) :: fs => key.isWhole && isSound depth d && allFieldsSound depth fs

end

/-! ## Writing -/

/-- A document that is a text. -/
def ofString (s : String) : Document := text ⟨s.toList, true⟩

/-- A document that is a whole number. -/
def ofNat (n : Nat) : Document := number (Decimal.digitText n)

/-- A document with the given fields. -/
def ofFields (fs : List (String × Document)) : Document :=
  fields (fs.map fun (key, d) => (⟨key.toList, true⟩, d))

/-- A character within quotes. -/
def escape (c : Char) : List Char :=
  match c with
  | '"' => ['\\', '"']
  | '\\' => ['\\', '\\']
  | '\x08' => ['\\', 'b']
  | '\x0c' => ['\\', 'f']
  | '\n' => ['\\', 'n']
  | '\r' => ['\\', 'r']
  | '\t' => ['\\', 't']
  | c =>
    if c.toNat < 32 then
      ['\\', 'u'] ++ Decimal.padLeft 4 '0' (Nat.toDigits 16 c.toNat)
    else [c]

/-- A text in quotes. -/
def quote (s : Quoted) : List Char := '"' :: s.chars.flatMap escape ++ ['"']

/-- A line end and the space before a line. -/
def newLine (indent : Nat) : List Char := '\n' :: List.replicate indent ' '

mutual

/-- A document over several lines, each part on lines of its own. -/
def prettyFrom (indent : Nat) : Document → List Char
  | null => "null".toList
  | bool b => (if b then "true" else "false").toList
  | number digits => digits
  | text s => quote s
  | list [] => ['[', ']']
  | list (d :: ds) =>
    '[' :: newLine (indent + 2) ++ prettyFrom (indent + 2) d ++ prettyItems (indent + 2) ds ++
      newLine indent ++ [']']
  | fields [] => ['{', '}']
  | fields ((key, d) :: fs) =>
    '{' :: newLine (indent + 2) ++ quote key ++ [':', ' '] ++ prettyFrom (indent + 2) d ++
      prettyFields (indent + 2) fs ++ newLine indent ++ ['}']

/-- The items after the first. -/
def prettyItems (indent : Nat) : List Document → List Char
  | [] => []
  | d :: ds => ',' :: newLine indent ++ prettyFrom indent d ++ prettyItems indent ds

/-- The fields after the first. -/
def prettyFields (indent : Nat) : List (Quoted × Document) → List Char
  | [] => []
  | (key, d) :: fs =>
    ',' :: newLine indent ++ quote key ++ [':', ' '] ++ prettyFrom indent d ++
      prettyFields indent fs

end

/-- A document over several lines. -/
def pretty (d : Document) : String := String.ofList (prettyFrom 0 d)

end Document

end Reckoner
