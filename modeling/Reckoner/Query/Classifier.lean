/-
  What a query is about, by weighted patterns.

  * `patterns`: the patterns of each domain with their weights;
  * `scores`: the greatest weight of a pattern that occurs, per domain;
  * `classify`: the first domain of the greatest score;
  * `priority`: the domains in which an answer is sought, in order.
-/
import Reckoner.Answer
import Reckoner.Text.Pattern

namespace Reckoner.Query

open Text Pattern

/-! ## Pattern parts -/

/-- A letter in any case that folds to it; the long s and the Kelvin sign do too. -/
def folded (c : Char) : Pattern :=
  one fun d => d == c || (c == 's' && d == 'ſ') || (c == 'k' && d == 'K')

/-- A text with its letters folded. -/
def said (s : String) : Pattern := chain (s.toList.map folded)

/-- One of the given texts. -/
def anySaid (ss : List String) : Pattern := choice (ss.map said)

/-- A word in the singular or the plural. -/
def counted (s : String) : Pattern := seq (said s) (optional (folded 's'))

/-- One of the given words in the singular or the plural. -/
def anyCounted (ss : List String) : Pattern := choice (ss.map counted)

/-- A whole word of the given ones. -/
def wordSaid (ss : List String) : Pattern := word (anySaid ss)

/-- A digit, the last of a number. -/
def digit : Pattern := one isDigit

/-- The end of a number: its last digit, and a point that may follow. -/
def numberEnd : Pattern := seq digit (maybe '.')

/-- A whole number, or one with a point. -/
def number : Pattern := seq digits (optional (seq (char '.') (many isDigit)))

/-- A blank. -/
def blank : Pattern := one isBlank

/-- One digit or two. -/
def oneOrTwo : Pattern := seq digit (optional digit)

/-- A date with the year first, such as `2024-01-15`. -/
def isoDate : Pattern :=
  chain [times isDigit 4, char '-', times isDigit 2, char '-', times isDigit 2]

/-- Spans of time from a day to a year. -/
def spans : Pattern := anyCounted ["day", "week", "month", "year"]

/-- A function name of the given ones before its argument, which starts with one of the
characters. -/
def call (names : List String) (opening : String) : Pattern :=
  chain [boundary, anySaid names, gap, oneOf opening]

/-- A number and a unit before `to`. -/
def toConversion (units : Pattern) : Pattern :=
  chain [numberEnd, gap, units, blanks, said "to", blank]

/-! ## Patterns of the domains -/

/-- Patterns of conversions. -/
def conversionPatterns : List (Pattern × Nat) :=
  [(toConversion (alt (said "km") (anyCounted ["kilometer", "kilometre"])), 95),
    (toConversion (alt (said "kg") (counted "kilogram")), 95),
    (toConversion (alt (anySaid ["lb", "lbs"]) (counted "pound")), 95),
    (toConversion (anySaid ["celsius", "fahrenheit", "kelvin", "c", "f"]), 95),
    (toConversion (alt (anyCounted ["mile", "meter", "metre"])
      (anySaid ["feet", "ft", "inches", "inche", "in"])), 95),
    (toConversion (alt (anyCounted ["gallon", "liter", "litre", "cup"]) (said "ml")), 95),
    (toConversion (alt (anySaid ["gb", "mb", "kb", "tb"]) (counted "byte")), 95),
    (chain [start, said "convert", blanks, digit], 90),
    (chain [start, said "how", blanks, said "many", blanks, some_ isWordChar, blanks, said "in",
      blanks, digit], 85),
    (chain [digit, gap, anySaid ["km", "kg", "lb", "miles", "meters", "pounds", "celsius",
      "fahrenheit"]], 70)]

/-- Patterns of dates. -/
def datePatterns : List (Pattern × Nat) :=
  [(isoDate, 95),
    (chain [start, times isDigit 4, char '/', oneOrTwo, char '/', digit], 95),
    (chain [anySaid ["today", "now", "tomorrow", "yesterday"], gap, oneOf "+-", gap, digits, gap,
      spans], 95),
    (chain [digit, gap, spans, blanks, anySaid ["from", "after", "before"]], 90),
    (chain [spans, blanks, said "between"], 95),
    (chain [spans, blanks, anySaid ["from", "until", "to"]], 85),
    (wordSaid ["today", "tomorrow", "yesterday", "now"], 80),
    (chain [anySaid ["next", "last"], blanks, anySaid ["week", "month", "year"]], 85)]

/-- Patterns of arithmetic without names. -/
def arithmeticPatterns : List (Pattern × Nat) :=
  [(chain [start, digits, gap, oneOf "+-*/", gap, digits, finish], 100),
    (chain [start, number, gap, oneOf "+-*/^", gap, number, finish], 100),
    (chain [digit, char '%', blanks, said "of", blanks, digit], 95),
    (chain [said "what", blanks, said "is", blanks, digits, char '%'], 90),
    (chain [digit, gap, oneOf "+-*/", gap, digits, gap, oneOf "+-*/", gap, digit], 95)]

/-- Patterns of logic. -/
def logicPatterns : List (Pattern × Nat) :=
  let truths := wordSaid ["true", "false"]
  let connectives := wordSaid ["and", "or", "not", "xor"]
  [(chain [truths, many line, connectives], 95),
    (chain [connectives, many line, truths], 95),
    (chain [digit, gap, anyText ["<", ">", "<=", ">=", "==", "!="], gap, digit], 90),
    (chain [boundary, anySaid ["greater", "less", "equal"], blanks, anySaid ["than", "to"],
      boundary], 85),
    (chain [digit, gap, anyText ["&", "|", "^", "<<", ">>"], gap, digit], 85)]

/-- The patterns of each domain with their weights. -/
def patterns : List (Domain × List (Pattern × Nat)) :=
  [(.unitConversion, conversionPatterns),
    (.dateCalculation, datePatterns),
    (.arithmetic, arithmeticPatterns),
    (.trigonometric,
      [(call ["sin", "cos", "tan", "asin", "acos", "atan"] "(", 95),
        (call ["sinh", "cosh", "tanh"] "(", 95)]),
    (.logarithmic,
      [(call ["log", "ln", "log10", "log2"] "(", 95), (call ["exp", "pow", "power"] "(", 90)]),
    (.statistical,
      [(call ["mean", "median", "mode", "average", "avg"] "([", 95),
        (call ["stddev", "variance", "stdev", "std"] "([", 95),
        (call ["sum", "min", "max", "count"] "([", 90)]),
    (.algebraic,
      [(call ["sqrt", "cbrt", "root"] "(", 95), (call ["abs", "absolute"] "(", 90),
        (call ["floor", "ceil", "ceiling", "round"] "(", 90),
        (call ["factorial", "fact"] "(", 90)]),
    (.logicEvaluation, logicPatterns),
    (.health,
      [(wordSaid ["bmi"], 95),
        (chain [boundary, said "body", blanks, said "mass", blanks, said "index", boundary], 95),
        (chain [wordSaid ["height", "weight"], many line, wordSaid ["height", "weight"]], 70)]),
    (.money,
      [(chain [boundary, said "tip", blanks, digits, char '%'], 95),
        (chain [boundary, anySaid ["discount", "tax", "interest"], blanks, digit], 85),
        (seq (char '$') digit, 70),
        (wordSaid ["price", "cost", "total"], 60)]),
    (.aiAssisted,
      [(chain [start, said "ai", blank], 100), (chain [start, said "ask", blank], 100),
        (chain [start, anySaid ["explain", "what", "why", "how"], blank], 70)])]

/-! ## Classification -/

/-- The domain of a query, and how sure that is in percent. -/
structure Classification where
  domain : Domain
  confidence : Nat
  deriving DecidableEq, Repr

/-- Nothing is known. -/
def Classification.unclear : Classification := ⟨.error, 0⟩

/-- A query as it is classified: trimmed and in lower case. -/
def normalize (query : String) : List Char := lower (trim query.toList)

/-- The greatest weight of a pattern that occurs. -/
def bestWeight? (patterns : List (Pattern × Nat)) (cs : List Char) : Option Nat :=
  ((patterns.filter fun p => p.1.occursIn cs).map (·.2)).max?

/-- The score of each domain that has one, in the order of the domains. -/
def scores (query : String) : List (Domain × Nat) :=
  patterns.filterMap fun (d, ps) => (bestWeight? ps (normalize query)).map fun w => (d, w)

/-- The first entry of the greatest score. -/
def firstBest : List (Domain × Nat) → Option Classification
  | [] => none
  | (d, w) :: rest =>
    match firstBest rest with
    | some best => if best.confidence > w then some best else some ⟨d, w⟩
    | none => some ⟨d, w⟩

/-- A digit, a point, an operator or a parenthesis. -/
def looksNumeric (c : Char) : Bool := isDigit c || "+-*/^().".toList.contains c

/-- The domain of a query: the first of the greatest score, else arithmetic if anything
looks numeric. -/
def classify (query : String) : Classification :=
  if isBlankText query then .unclear
  else
    match firstBest (scores query) with
    | some best => best
    | none => if (normalize query).any looksNumeric then ⟨.arithmetic, 50⟩ else .unclear

/-- The query is about a domain, with a confidence of at least 70. -/
def isLikely (query : String) (d : Domain) : Bool :=
  (classify query).domain == d && (classify query).confidence ≥ 70

/-! ## Priority -/

/-- The domains that are always tried. -/
def defaultOrder : List Domain :=
  [.arithmetic, .unitConversion, .dateCalculation, .logicEvaluation]

/-- What draws a domain forward. -/
def triggers : List (Domain × Pattern) :=
  [(.arithmetic, digit),
    (.unitConversion, anyText ["km", "kg", "lb", "celsius", "fahrenheit", "miles", "meters",
      "pounds", "to", "in"]),
    (.dateCalculation, alt isoDate (anyText ["today", "tomorrow", "yesterday", "day", "week",
      "month", "year"])),
    (.logicEvaluation, word (anyText ["and", "or", "not", "xor", "true", "false"]))]

/-- The domains that a query draws forward. -/
def triggered (query : String) : List Domain :=
  (triggers.filter fun t => t.2.occursIn (normalize query)).map (·.1)

/-- Appends the domains that are not yet in a list. -/
def addNew (ds more : List Domain) : List Domain :=
  more.foldl (fun ds d => if ds.contains d then ds else ds ++ [d]) ds

/-- The domains in which an answer is sought: that of the query if its confidence is at
least 50, those it draws forward, and those that are always tried. -/
def priority (query : String) : List Domain :=
  let best := classify query
  let first := if best.confidence ≥ 50 then [best.domain] else []
  addNew (addNew first (triggered query)) defaultOrder

end Reckoner.Query
