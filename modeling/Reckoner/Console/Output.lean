/-
  Answers, readings and classifications as they are printed.

  * `answerLine`, `answersTable`: answers on a line each, or in a table;
  * `parsedText`, `classificationText`: how a query is read and classified;
  * `answerDocument`, `parsedDocument`, `classificationDocument`: the same as documents.
-/
import Reckoner.Console.Table
import Reckoner.Document
import Reckoner.Expression
import Reckoner.Query.Classifier

namespace Reckoner.Console

/-! ## Lines -/

/-- An answer on one line, after `=` or, for a failure, after a cross. -/
def answerLine (a : Answer) : String :=
  if a.isError then "✗ " ++ a.errorMessage.getD "Unable to process query"
  else "= " ++ a.value ++ if a.subtitle.isEmpty then "" else "  " ++ a.subtitle

/-- A text with spaces in front up to a length. -/
def alignRight (length : Nat) (s : String) : String :=
  String.ofList (Decimal.padLeft length ' ' s.toList)

/-- A text with spaces behind up to a length. -/
def alignLeft (length : Nat) (s : String) : String :=
  String.ofList (Decimal.padRight length ' ' s.toList)

/-- A token on a line of its own. -/
def tokenLine (t : Token) : String :=
  "  " ++ alignRight 3 (Decimal.integerText t.position) ++ "  " ++ alignLeft 12 t.kind.title ++
    " " ++ t.value

/-- How a query is read. -/
def parsedText (p : Expression.Parsed) : String :=
  let head := ["Input: " ++ p.canonical, "Kind: " ++ p.kind.name,
    "Valid: " ++ if p.isValid then "yes" else "no"]
  let message := match p.error with
    | some d => [d.render p.canonical]
    | none => []
  String.intercalate "\n" (head ++ p.tokens.map tokenLine ++ message)

/-- How a query is classified, and where an answer is sought. -/
def classificationText (c : Query.Classification) (priority : List Domain) : String :=
  "Type: " ++ c.domain.name ++ " (" ++ Decimal.integerText c.confidence ++ "%)\nPriority: " ++
    String.intercalate " → " (priority.map (·.name))

/-! ## Tables -/

/-- Queries with their answers in a table. -/
def answersTable (rows : List (String × Answer)) : String :=
  Table.render (["Query", "Type", "Result", "Details"] :: rows.map fun (query, a) =>
    [query, a.domain.name, if a.isError then "" else a.value, a.subtitle])

/-! ## Documents -/

/-- A field that stands only if it has a value. -/
def optionalField (name : String) (d : Option Document) : List (String × Document) :=
  match d with
  | some d => [(name, d)]
  | none => []

/-- A text, or null. -/
def orNull (s : Option String) : Document := (s.map Document.ofString).getD .null

/-- An answer as a document. -/
def answerDocument (a : Answer) : Document :=
  .ofFields <|
    [("title", .ofString a.title), ("subtitle", .ofString a.subtitle),
      ("result", .ofString a.result)] ++
    optionalField "rawExpression" (a.rawExpression.map .ofString) ++
    [("type", .ofString a.domain.name)] ++
    optionalField "numericValue" (a.number.map fun x => .number (Decimal.documentText x).toList) ++
    optionalField "unit" (a.unit.map .ofString) ++
    [("score", .ofNat a.score), ("isError", .bool a.isError)] ++
    optionalField "errorMessage" (a.errorMessage.map .ofString)

/-- A token as a document. -/
def tokenDocument (t : Token) : Document :=
  .ofFields [("kind", .ofString t.kind.title), ("value", .ofString t.value),
    ("position", .ofNat t.position)]

/-- A span as a document. -/
def spanDocument (s : Span) : Document :=
  .ofFields [("start", .ofNat s.start), ("end", .ofNat s.stop)]

/-- The name of a severity with a capital letter. -/
def severityTitle : Severity → String
  | .error => "Error"
  | .warning => "Warning"
  | .hint => "Hint"

/-- A message as a document. -/
def diagnosticDocument (d : Diagnostic) : Document :=
  .ofFields [("severity", .ofString (severityTitle d.severity)), ("code", .ofNat d.code.number),
    ("message", .ofString d.message), ("span", (d.span.map spanDocument).getD .null),
    ("help", orNull d.help)]

/-- A reading of a query as a document. -/
def parsedDocument (p : Expression.Parsed) : Document :=
  .ofFields <|
    [("originalInput", .ofString p.original), ("normalizedInput", .ofString p.canonical),
      ("kind", .ofString p.kind.key), ("tokens", .list (p.tokens.map tokenDocument)),
      ("isValid", .bool p.isValid)] ++
    optionalField "error" (p.error.map diagnosticDocument)

/-- A classification as a document. -/
def classificationDocument (c : Query.Classification) (priority : List Domain) : Document :=
  .ofFields [("confidence", .ofNat c.confidence),
    ("priority", .list (priority.map fun d => .ofString d.name)),
    ("type", .ofString c.domain.name)]

end Reckoner.Console
