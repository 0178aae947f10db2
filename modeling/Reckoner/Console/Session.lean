/-
  A session of queries and commands, line by line.

  * `Flow`: what a line was, and whether the session goes on;
  * `Session.step`: answers a line; one that starts with a colon is a command.
-/
import Reckoner.Console.Output
import Reckoner.Engine

namespace Reckoner.Console

/-- What a line was. -/
inductive Flow where
  | empty
  | query
  | command
  | quit
  | error
  deriving DecidableEq, Repr

/-- The outcome of a line: what it was, what is shown, and the engine afterwards. -/
structure Outcome where
  flow : Flow
  shown : String
  engine : Engine

namespace Session

/-- The text that explains the commands. -/
def helpText : String :=
  String.intercalate "\n" [
    "REPL Commands:", "",
    "  :help, :h  Show this help message",
    "  :quit, :q, :exit  Quit the REPL",
    "  :stats  Show cache and configuration",
    "  :clear, :c  Clear the result cache",
    "  :classify <query>  Show classification and module priority",
    "  :parse <query>  Show domain, tokens and validity",
    "  :precision <n>  Set decimal places (0-28)",
    "  :angle <unit>  Set angle unit (radians, degrees, gradians)",
    "", "Examples:", "",
    "  2 + 3 * 4",
    "  sqrt(16) + 2pi",
    "  0xFF & 0x0F",
    "  10 km to miles",
    "  100 celsius to fahrenheit",
    "  today + 7 days",
    "  days between 2024-01-01 and 2024-01-31", ""]

/-- The use of the cache and the settings. -/
def statsText (e : Engine) : String :=
  "Cache: " ++ Decimal.integerText e.cache.size ++ "/" ++ Decimal.integerText e.cache.capacity ++
    " entries (" ++ Decimal.percentText e.cache.usage 1 ++ "%)\nPrecision: " ++
    Decimal.integerText e.settings.precision ++ ", angle unit: " ++ e.settings.angleUnit.name ++
    "\n"

/-- The command goes on with a text to show. -/
def proceed (e : Engine) (shown : String) : Outcome := ⟨.command, shown, e⟩

/-- The command is refused. -/
def refuse (e : Engine) (message : String) : Outcome := ⟨.error, "Error: " ++ message, e⟩

/-- Changes the settings, if they are valid. -/
def adjust (e : Engine) (settings : Settings) (success : String) : Outcome :=
  match e.reconfigure settings with
  | .ok e => proceed e ("Success: " ++ success ++ "\n")
  | .error f => refuse e f.message

/-- Sets the number of places. -/
def setPrecision (e : Engine) (argument : String) : Outcome :=
  match Decimal.readNat32? argument.toList with
  | some precision =>
    adjust e { e.settings with precision } ("Precision set to " ++ Decimal.integerText precision)
  | none => refuse e "Usage: :precision <0-28>"

/-- Sets the angle unit. -/
def setAngle (e : Engine) (argument : String) : Outcome :=
  match AngleUnit.ofText argument with
  | .ok unit => adjust e { e.settings with angleUnit := unit } ("Angle unit set to " ++ unit.name)
  | .error f => refuse e f.message

/-- Shows how a query is classified. -/
def classify (e : Engine) (argument : String) : Outcome :=
  if argument.isEmpty then refuse e "Usage: :classify <query>"
  else
    proceed e (classificationText (Query.classify argument) (Query.priority argument) ++ "\n")

/-- Shows how a query is read. -/
def parse (e : Engine) (argument : String) : Outcome :=
  if argument.isEmpty then refuse e "Usage: :parse <query>"
  else proceed e (parsedText (Expression.parse argument) ++ "\n")

/-- Carries out a command with its argument. -/
def command (e : Engine) (name argument : String) : Outcome :=
  if name == ":help" || name == ":h" then proceed e helpText
  else if name == ":quit" || name == ":q" || name == ":exit" then ⟨.quit, "", e⟩
  else if name == ":stats" then proceed e (statsText e)
  else if name == ":clear" || name == ":c" then proceed e.clear "Success: Cache cleared\n"
  else if name == ":classify" then classify e argument
  else if name == ":parse" then parse e argument
  else if name == ":precision" then setPrecision e argument
  else if name == ":angle" then setAngle e argument
  else refuse e ("Unknown command: " ++ name ++ ". Type :help for help")

/-- The first word of a line, and the rest without blanks around it. -/
def splitName (cs : List Char) : String × String :=
  let (name, rest) := cs.span fun c => !Text.isBlank c
  (String.ofList name, String.ofList (Text.trim rest))

/-- Answers a query. -/
def ask (e : Engine) (query : String) : Outcome :=
  let (answers, e) := e.query query
  ⟨.query, String.intercalate "\n" (answers.map answerLine), e⟩

/-- Answers a line. -/
def step (e : Engine) (line : String) : Outcome :=
  let cs := Text.trim line.toList
  match cs with
  | [] => ⟨.empty, "", e⟩
  | ':' :: _ =>
    let (name, argument) := splitName cs
    command e name argument
  | cs => ask e (String.ofList cs)

end Session

end Reckoner.Console
