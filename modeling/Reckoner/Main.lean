/-
  The command line.

  * `main`: reads the options and the configuration file, and answers the words it is given
    or, in a session, line after line.
-/
import Reckoner.Console.Options
import Reckoner.Console.Session
import Std.Time.Zoned

namespace Reckoner

open Console

/-- The present in the local time zone. -/
def present : IO Calendar.Instant := do
  let now ← Std.Time.PlainDateTime.now
  let second := now.hour.val * 3600 + now.minute.val * 60 + now.second.val
  return ⟨⟨now.year, now.month.val.toNat, now.day.val.toNat⟩, second.toNat,
    now.nanosecond.val.toNat⟩

/-- The content of a file, or why it cannot be read. -/
def readFile (path : String) : IO (Except String String) := do
  try return .ok (← IO.FS.readFile path)
  catch
    | .noFileOrDirectory .. => return .error "No such file or directory (os error 2)"
    | e => return .error (toString e)

/-- Prints an error and gives the status of the program. -/
def refuse (status : UInt32) (message : String) : IO UInt32 := do
  IO.eprintln message
  return status

/-- Answers lines until there are no more or the session is left. -/
partial def converse (e : Engine) : IO Unit := do
  IO.print "> "
  (← IO.getStdout).flush
  let line ← (← IO.getStdin).getLine
  if line.isEmpty then IO.println "^D"
  else
    let outcome := Session.step { e with now := ← present } line
    match outcome.flow with
    | .quit => return
    | .empty => pure ()
    | .query => IO.println outcome.shown
    | .command => IO.print outcome.shown
    | .error => IO.eprintln outcome.shown
    converse outcome.engine

/-- Carries out a task. -/
def perform (e : Engine) (style : Style) : Task → IO Unit
  | .answer command words => IO.println (command.run e style words).1
  | .session => do
    IO.println "Type :help for help, :quit to quit\n"
    converse e
    IO.println "Goodbye!"

end Reckoner

open Reckoner Reckoner.Console

/-- The program: its status is 2 if the command line is not understood, and 1 if the engine
cannot be set up. -/
def main (words : List String) : IO UInt32 := do
  match readLine words with
  | .error e => refuse 2 ("error: " ++ e.message)
  | .ok (options, task) =>
    let content ← readFile (options.config.getD "")
    match (options.overrides fun _ => content).resolve with
    | .error report => refuse 1 report.render
    | .ok setup =>
      match Engine.ofSetup setup (← present) with
      | .error e => refuse 1 ("Error: " ++ e.message)
      | .ok e =>
        perform e options.style task
        return 0
