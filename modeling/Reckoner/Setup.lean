/-
  What an engine is built from, and where that comes from.

  * `Setup`: settings and the capacity of the cache; `Setup.validate` checks both;
  * `Settings.read`, `Setup.read`: from a document, where missing fields keep their defaults;
  * `Overrides`, `Overrides.resolve`: from a file and from options that go before it.
-/
import Reckoner.Document
import Reckoner.Settings

namespace Reckoner

/-- The capacity of the cache unless another is asked for. -/
def defaultCapacity : Nat := 100

/-- What an engine is built from. -/
structure Setup where
  settings : Settings := {}
  capacity : Nat := defaultCapacity
  deriving DecidableEq, Repr

/-- The settings are in range and the cache has room; the settings are checked first. -/
def Setup.validate (s : Setup) : Except SetupError Unit := do
  s.settings.validate
  if s.capacity = 0 then .error .zeroCapacity else .ok ()

/-! ## Fields of a document -/

namespace Document

/-- The name of an angle unit in a document. -/
def angleUnit? (name : Quoted) : Option AngleUnit :=
  if !name.isWhole then none
  else
    match String.ofList name.chars with
    | "Radians" => some .radians
    | "Degrees" => some .degrees
    | "Gradians" => some .gradians
    | _ => none

/-- A whole number below a bound. -/
def natBelow? (bound : Nat) (d : Document) : Option Nat :=
  d.integer?.bind fun i => if 0 ≤ i && i < bound then some i.toNat else none

/-- A number of places. -/
def precision? (d : Document) : Option Nat := d.natBelow? (Nat.pow 2 32)

/-- An angle unit: its name, or a field of that name without content. Fields without any
field count as content unless `lenient`. -/
def angle? (lenient : Bool) : Document → Option AngleUnit
  | text name => angleUnit? name
  | fields [(name, null)] => angleUnit? name
  | fields [(name, fields [])] => if lenient then angleUnit? name else none
  | _ => none

/-- The values of a field. -/
def valuesOf (name : String) (fs : List (Quoted × Document)) : List Document :=
  (fs.filter fun f => f.1.chars = name.toList).map (·.2)

/-- The value of a field that stands once at most, read by `read?`, or its default. -/
def field? {α : Type} (fs : List (Quoted × Document)) (name : String) (default : α)
    (read? : Document → Option α) : Option α :=
  match valuesOf name fs with
  | [] => some default
  | [d] => read? d
  | _ => none

/-- Settings in fields. -/
def settingsIn? (lenient : Bool) (fs : List (Quoted × Document)) : Option Settings := do
  let precision ← field? fs "precision" 10 precision?
  let angleUnit ← field? fs "angleUnit" .radians (angle? lenient)
  return { precision, angleUnit }

/-- Settings in fields or, in their order, in a list. The content of other fields does not
matter. -/
def settings? : Document → Option Settings
  | fields fs => if fs.all (·.1.isWhole) then settingsIn? false fs else none
  | list [] => some {}
  | list [p] => p.precision?.map fun precision => { precision }
  | list [p, a] => do return { precision := ← p.precision?, angleUnit := ← a.angle? false }
  | _ => none

/-- A setup in fields; those besides the capacity have to be sound. -/
def setup? : Document → Option Setup
  | fields fs => do
    let capacity ← field? fs "cacheCapacity" defaultCapacity (natBelow? (Nat.pow 2 64))
    let others := fs.filter fun f => f.1.chars != "cacheCapacity".toList
    if fs.all (·.1.isWhole) && allFieldsSound 127 others then
      return { settings := ← settingsIn? true fs, capacity }
    else none
  | _ => none

end Document

/-- Valid settings of a document. -/
def Settings.read (document : String) : Except SetupError Settings :=
  match (Document.read? document).bind Document.settings? with
  | none => .error .malformedDocument
  | some s => do
    s.validate
    return s

/-- A valid setup of a document. -/
def Setup.read (document : String) : Except SetupError Setup :=
  match (Document.read? document).bind Document.setup? with
  | none => .error .malformedDocument
  | some s => do
    s.validate
    return s

/-! ## Options -/

/-- A file with its content, or the reason why it has none. -/
structure ConfigFile where
  path : String
  content : Except String String

/-- What the user has given: a file, and options that go before it. -/
structure Overrides where
  file : Option ConfigFile := none
  precision : Option Nat := none
  angleUnit : Option AngleUnit := none

/-- An error and what was being done. -/
structure SetupReport where
  context : String
  cause : SetupError

/-- The error with its own causes, the nearest first. -/
def SetupError.chain (e : SetupError) : List String :=
  match e with
  | .unreadableFile _ reason => [e.message, reason]
  | _ => [e.message]

/-- The whole report on one line. -/
def SetupReport.render (r : SetupReport) : String :=
  "Error: " ++ String.intercalate ": " (r.context :: r.cause.chain)

/-- The setup that a file holds. -/
def ConfigFile.read (f : ConfigFile) : Except SetupError Setup :=
  match f.content with
  | .ok document => Setup.read document
  | .error reason => .error (.unreadableFile f.path reason)

/-- The setup of a file, with the options in place of its settings. -/
def Overrides.resolve (o : Overrides) : Except SetupReport Setup := do
  let base ← match o.file with
    | none => .ok {}
    | some f => f.read.mapError fun e => ⟨"Failed to load configuration from " ++ f.path, e⟩
  let settings : Settings :=
    ⟨o.precision.getD base.settings.precision, o.angleUnit.getD base.settings.angleUnit⟩
  let setup : Setup := { base with settings }
  setup.validate.mapError fun e => ⟨"Invalid configuration", e⟩
  return setup

end Reckoner
