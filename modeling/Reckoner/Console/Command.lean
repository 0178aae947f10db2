/-
  Commands that answer once.

  * `Command.run`: evaluates, parses or classifies the words it is given, and shows the
    outcome in lines, as a table or as a document.
-/
import Reckoner.Console.Output
import Reckoner.Engine

namespace Reckoner.Console

/-- How an outcome is shown. -/
inductive Style where
  | pretty
  | document
  | table
  deriving DecidableEq, Repr

/-- What is to be done. -/
inductive Command where
  | eval
  | parse
  | classify
  deriving DecidableEq, Repr

namespace Command

/-- Answers queries one after another; those without text are left out. -/
def answerAll (e : Engine) : List String → List (String × Answer) × Engine
  | [] => ([], e)
  | q :: qs =>
    let (answers, e) := e.query q
    let (rest, e) := answerAll e qs
    (answers.head?.toList.map (fun a => (q, a)) ++ rest, e)

/-- Answered queries as they are shown. -/
def showAnswers (style : Style) (rows : List (String × Answer)) : String :=
  match style with
  | .document => (Document.list (rows.map fun (_, a) => answerDocument a)).pretty
  | .table => answersTable rows
  | .pretty => String.intercalate "\n" (rows.map fun (q, a) => q ++ "\n" ++ answerLine a)

/-- A reading as it is shown. -/
def showParsed (style : Style) (p : Expression.Parsed) : String :=
  match style with
  | .document => (parsedDocument p).pretty
  | .pretty | .table => parsedText p

/-- A classification as it is shown. -/
def showClassification (style : Style) (query : String) : String :=
  let c := Query.classify query
  let priority := Query.priority query
  match style with
  | .document => (classificationDocument c priority).pretty
  | .pretty | .table => classificationText c priority

/-- Carries out a command on the words given; evaluation takes each as a query, the others
take all as one. -/
def run (e : Engine) (command : Command) (style : Style) (words : List String) :
    String × Engine :=
  match command with
  | .eval =>
    let (rows, e) := answerAll e words
    (showAnswers style rows, e)
  | .parse => (showParsed style (Expression.parse (String.intercalate " " words)), e)
  | .classify => (showClassification style (String.intercalate " " words), e)

end Command

end Reckoner.Console
