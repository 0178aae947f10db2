/-
  Expressions: read in one pass, and answered by the evaluator of their kind.

  * `Parsed`: a query with its canonical text, kind, tokens and, if it is refused, a message
    that points at the token where it goes wrong;
  * `parse`: reads a query; `evaluate`: answers it.
-/
import Reckoner.Evaluators
import Reckoner.Expression.Lexer
import Reckoner.Expression.Validate

namespace Reckoner.Expression

/-- A query that has been read. -/
structure Parsed where
  original : String
  canonical : String
  kind : Kind
  tokens : List Token
  error : Option Diagnostic

/-- The query is accepted. -/
def Parsed.isValid (p : Parsed) : Bool := p.error.isNone

/-- The stretch of a canonical text at the token of an index, or its end. -/
def spanAt (canonical : List Char) (tokens : List Token) (i : Nat) : Span :=
  match tokens[i]? with
  | some t => t.span
  | none => .point (Text.byteLength canonical)

/-- Reads a query. -/
def parse (query : String) : Parsed :=
  if Text.isBlankText query then
    ⟨query, "", .unknown, [], some (.of .error ⟨1⟩ "Input cannot be empty")⟩
  else
    let cs := Text.canonical query.toList
    let kind := Kind.detect cs
    let tokens := tokenize kind cs
    let error := match validate kind tokens with
      | .ok () => none
      | .error i =>
        some { Diagnostic.of .error ⟨4⟩ "Invalid expression syntax" with
          span := some (spanAt cs tokens i) }
    ⟨query, String.ofList cs, kind, tokens, error⟩

/-- The answer to a query, by the evaluator of its kind. -/
def evaluate (settings : Settings) (now : Calendar.Instant) (query : String) : Answer :=
  let parsed := parse query
  let input := Text.trimmed query
  match parsed.error with
  | some d => .failure input d.message
  | none =>
    match parsed.kind.domain? with
    | none => .failure input (Failure.unrecognizedExpression input).message
    | some d =>
      match evaluateAs settings now d input with
      | some answer => answer
      | none => .failure input Failure.naturalLanguage.message

end Reckoner.Expression
