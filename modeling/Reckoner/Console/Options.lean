/-
  The words of a command line.

  * `Flag`: what may be set, by a long name after `--` or a letter after `-`;
  * `Options`, `Task`: what has been set, and what is to be done;
  * `readLine`: options stand anywhere before a lone `--`; the first other word names the
    task.
-/
import Reckoner.Console.Command
import Reckoner.Setup

namespace Reckoner.Console

/-! ## Flags -/

/-- What may be set. `color` and `verbose` are accepted and change nothing: answers have no
colors, and no steps are reported. -/
inductive Flag where
  | format
  | config
  | precision
  | angle
  | color
  | verbose
  deriving DecidableEq, Repr

namespace Flag

/-- Every flag. -/
def all : List Flag := [format, config, precision, angle, color, verbose]

/-- The long name of a flag. -/
def name : Flag → String
  | format => "format"
  | config => "config"
  | precision => "precision"
  | angle => "angle"
  | color => "color"
  | verbose => "verbose"

/-- The letter of a flag that has one. -/
def letter? : Flag → Option Char
  | format => some 'f'
  | config => some 'c'
  | precision => some 'p'
  | angle => some 'a'
  | color => none
  | verbose => some 'v'

/-- The flag is followed by a value. -/
def takesValue (f : Flag) : Bool := f != verbose

end Flag

/-! ## Errors -/

/-- Why a command line is not understood. -/
inductive UsageError where
  | unknownFlag (word : String)
  | unknownTask (word : String)
  | missingTask
  | missingQuery
  | missingValue (flag : Flag)
  | badValue (flag : Flag) (value : String)
  deriving DecidableEq, Repr

/-- The sentence that reports an error. -/
def UsageError.message : UsageError → String
  | unknownFlag word => "unexpected argument '" ++ word ++ "' found"
  | unknownTask word => "unrecognized subcommand '" ++ word ++ "'"
  | missingTask => "a subcommand is required: eval, parse, classify or repl"
  | missingQuery => "a query is required"
  | missingValue flag => "a value is required for '--" ++ flag.name ++ "' but none was supplied"
  | badValue flag value => "invalid value '" ++ value ++ "' for '--" ++ flag.name ++ "'"

/-! ## Options -/

/-- What has been set. -/
structure Options where
  style : Style := .pretty
  /-- the path of a configuration file -/
  config : Option String := none
  precision : Option Nat := none
  angleUnit : Option AngleUnit := none
  deriving DecidableEq, Repr

/-- What is to be done. -/
inductive Task where
  | answer (command : Command) (words : List String)
  | session
  deriving DecidableEq, Repr

/-- The style of a name. -/
def Style.ofName? (s : String) : Option Style :=
  match s with
  | "pretty" => some .pretty
  | "json" => some .document
  | "table" => some .table
  | _ => none

/-- Sets a flag to a value. -/
def Options.set (o : Options) (flag : Flag) (value : String) : Except UsageError Options :=
  let orBad {α : Type} (x : Option α) (f : α → Options) : Except UsageError Options :=
    match x with
    | some a => .ok (f a)
    | none => .error (.badValue flag value)
  match flag with
  | .format => orBad (Style.ofName? value) fun style => { o with style }
  | .config => .ok { o with config := some value }
  | .precision =>
    orBad (Decimal.readNat32? value.toList) fun places => { o with precision := some places }
  | .angle =>
    orBad (AngleUnit.ofText value).toOption fun unit => { o with angleUnit := some unit }
  | .color | .verbose => .ok o

/-- What a word is: no flag, a flag alone, or a flag with its value. -/
def flagOf (word : String) : Except UsageError (Option (Flag × Option String)) :=
  match word.toList with
  | '-' :: '-' :: cs =>
    let (name, rest) := cs.span (· != '=')
    match Flag.all.find? fun f => f.name == String.ofList name with
    | some f => .ok (some (f, if rest.isEmpty then none else some (String.ofList (rest.drop 1))))
    | none => .error (.unknownFlag word)
  | '-' :: c :: cs =>
    match Flag.all.find? fun f => f.letter? == some c with
    | some f =>
      let value := if cs.head? == some '=' then cs.drop 1 else cs
      .ok (some (f, if cs.isEmpty then none else some (String.ofList value)))
    | none => .error (.unknownFlag word)
  | _ => .ok none

/-- Sets apart options and other words; `pending` is a flag that waits for its value. -/
def readWords (o : Options) (pending : Option Flag) :
    List String → Except UsageError (Options × List String)
  | [] =>
    match pending with
    | none => .ok (o, [])
    | some flag => .error (.missingValue flag)
  | word :: rest =>
    match pending with
    | some flag => (o.set flag word).bind fun o => readWords o none rest
    | none =>
      if word == "--" then .ok (o, rest)
      else
        match flagOf word with
        | .error e => .error e
        | .ok none => (readWords o none rest).map fun (o, others) => (o, word :: others)
        | .ok (some (flag, some value)) =>
          (o.set flag value).bind fun o => readWords o none rest
        | .ok (some (flag, none)) =>
          readWords o (if flag.takesValue then some flag else none) rest

/-- The task of the words that are no options. -/
def readTask : List String → Except UsageError Task
  | [] => .error .missingTask
  | name :: words =>
    let query (command : Command) : Except UsageError Task :=
      if words.isEmpty then .error .missingQuery else .ok (.answer command words)
    match name with
    | "eval" => query .eval
    | "parse" => query .parse
    | "classify" => query .classify
    | "repl" =>
      match words with
      | [] => .ok .session
      | word :: _ => .error (.unknownFlag word)
    | _ => .error (.unknownTask name)

/-- The options and the task of a command line. -/
def readLine (words : List String) : Except UsageError (Options × Task) := do
  let (o, others) ← readWords {} none words
  return (o, ← readTask others)

/-- What the options ask for, once the configuration file has been read. -/
def Options.overrides (o : Options) (content : String → Except String String) : Overrides :=
  { file := o.config.map fun path => ⟨path, content path⟩
    precision := o.precision
    angleUnit := o.angleUnit }

end Reckoner.Console
