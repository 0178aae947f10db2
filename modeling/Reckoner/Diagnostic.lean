/-
  Messages about a query, with the place they are about.

  * `Diagnostic`: severity, code, message, and optionally a span and a help text;
  * `Diagnostic.render`: the message over the source line with carets below it.
-/
import Reckoner.Diagnostic.Code
import Reckoner.Diagnostic.Span

namespace Reckoner

/-- How bad the matter is. -/
inductive Severity where
  | error
  | warning
  | hint
  deriving DecidableEq, Repr

/-- The name of a severity. -/
def Severity.name : Severity → String
  | error => "error"
  | warning => "warning"
  | hint => "hint"

/-- A message about a query. -/
structure Diagnostic where
  severity : Severity
  code : Code
  message : String
  span : Option Span := none
  help : Option String := none
  deriving DecidableEq, Repr

namespace Diagnostic

/-- A message with the help that belongs to its code. -/
def of (severity : Severity) (code : Code) (message : String) : Diagnostic :=
  { severity, code, message, help := code.help? }

/-- The heading under which the message is shown. -/
def title (d : Diagnostic) : String :=
  match d.code.family? with
  | some family => "Error: " ++ family.title
  | none => "Error"

/-- The message on one line. -/
def label (d : Diagnostic) : String :=
  d.severity.name ++ ": " ++ d.code.label ++ " - " ++ d.message ++
    match d.span with
    | some span => " at " ++ span.label
    | none => ""

/-- The message, the source with the span underlined, and the help. -/
def render (d : Diagnostic) (source : String) : String :=
  d.severity.name ++ "[" ++ d.code.label ++ "]: " ++ d.message ++
    (match d.span with
    | some span =>
      "\n  | " ++ source ++ "\n  | " ++ String.ofList (span.underline source.toList)
    | none => "") ++
    match d.help with
    | some help => "\n  = help: " ++ help
    | none => ""

end Diagnostic

end Reckoner
