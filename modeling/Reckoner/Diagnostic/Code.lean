/-
  Numbered error codes.

  * `Code`: a code such as `QE0200`; `Code.family?` is the family of its hundred;
  * `Code.entry?`: the description and the help of the codes in use.
-/
import Reckoner.Decimal.Digits

namespace Reckoner

/-- A family of errors: the hundred a code belongs to. -/
inductive Family where
  | syntactic
  | arity
  | domain
  | unsupported
  | system
  deriving DecidableEq, Repr

/-- The name of a family. -/
def Family.name : Family → String
  | syntactic => "syntax"
  | arity => "arity"
  | domain => "domain"
  | unsupported => "unsupported"
  | system => "system"

/-- The heading under which errors of a family are shown. -/
def Family.title : Family → String
  | syntactic => "Invalid Syntax"
  | arity => "Missing Operands"
  | domain => "Invalid Value"
  | unsupported => "Not Supported"
  | system => "System Error"

/-- An error code. -/
structure Code where
  number : Nat
  deriving DecidableEq, Repr

/-- What is known of a code. -/
structure CodeEntry where
  description : String
  help : Option String := none

namespace Code

/-- The code as it is shown: `QE` and at least four digits. -/
def label (c : Code) : String :=
  "QE" ++ String.ofList (Decimal.paddedDigits 4 c.number)

/-- The family of a code, by its hundred; the numbers 0 and from 500 on have none. -/
def family? (c : Code) : Option Family :=
  if c.number = 0 then none
  else if c.number < 100 then some .syntactic
  else if c.number < 200 then some .arity
  else if c.number < 300 then some .domain
  else if c.number < 400 then some .unsupported
  else if c.number < 500 then some .system
  else none

/-- The description and the help of a code in use. -/
def entry? (c : Code) : Option CodeEntry :=
  match c.number with
  | 1 => some ⟨"Empty expression",
      some "Try: '2+2', '100 km to miles', or 'today + 7 days'"⟩
  | 2 => some ⟨"Unknown token",
      some "Check for misspelled function names or unsupported characters"⟩
  | 3 => some ⟨"Mismatched parentheses", some "Every '(' needs a matching ')'"⟩
  | 4 => some ⟨"Invalid expression", some "Try: '2+2', '100 km to miles', or 'sin(pi/4)'"⟩
  | 5 => some ⟨"Invalid number literal",
      some "Integer literals may use 0b, 0o or 0x prefixes"⟩
  | 6 => some ⟨"Invalid conversion format",
      some "Example: '100 km to miles' or '70 kg to pounds'"⟩
  | 7 => some ⟨"Invalid date expression",
      some "Use format YYYY-MM-DD, e.g. '2025-01-15' or 'today + 7 days'"⟩
  | 8 => some ⟨"Invalid comparison", some "Compare exactly two numbers, e.g. '5 > 3'"⟩
  | 9 => some ⟨"Misplaced operator",
      some "Unary '~' is only allowed at the start of a bitwise expression"⟩
  | 100 => some ⟨"Insufficient operands",
      some "Each binary operator needs a value on both sides"⟩
  | 101 => some ⟨"Insufficient function arguments",
      some "Examples: 'sqrt(25)', 'log(100)', 'pow(2, 10)'"⟩
  | 200 => some ⟨"Division by zero", some "Check your expression for '/0' or '%0'"⟩
  | 201 => some ⟨"Factorial out of range",
      some "Factorial accepts whole numbers from 0 to 170"⟩
  | 202 => some ⟨"Numeric overflow",
      some "Result too large to calculate, try smaller numbers"⟩
  | 203 => some ⟨"Incompatible units",
      some "Both units must measure the same quantity, e.g. length to length"⟩
  | 204 => some ⟨"Affine unit mix", some "Temperatures convert only to other temperatures"⟩
  | 205 => some ⟨"Unparseable date",
      some "Use format YYYY-MM-DD, e.g. '2025-01-15' or 'today + 7 days'"⟩
  | 206 => some ⟨"Date out of range", none⟩
  | 207 => some ⟨"Shift amount out of range",
      some "Shift amounts must be between 0 and 63"⟩
  | 300 => some ⟨"Unknown operator", none⟩
  | 301 => some ⟨"Unknown unit",
      some "Supported: length, weight, temperature, volume, area, time, speed, data"⟩
  | 302 => some ⟨"Unrecognized expression",
      some "Try: '2+2', '100 km to miles', or 'days between 2024-01-01 and 2024-01-31'"⟩
  | 303 => some ⟨"Natural language query",
      some "Free-form questions need an AI provider, which this engine does not include"⟩
  | 400 => some ⟨"Invalid configuration", none⟩
  | 401 => some ⟨"I/O error", none⟩
  | 402 => some ⟨"Invalid cache capacity", some "Cache capacity must be greater than zero"⟩
  | _ => none

/-- The description of a code. -/
def description (c : Code) : String :=
  match c.entry? with
  | some entry => entry.description
  | none => "Unknown error"

/-- The help for a code, if there is any. -/
def help? (c : Code) : Option String := c.entry?.bind (·.help)

end Code

end Reckoner
