/-
  A table with text keys in the order of their last use.

  * `Node`: an entry in a slot, linked to the entries used just after and just before it;
  * `Recency`: the slots, the slots that are free, the slot of each key, and the two ends
    of the chain from the latest use (`head`) to the earliest (`tail`);
  * `Recency.promote`, `Recency.remove`, `Recency.insertFront`: each changes a bounded
    number of links;
  * `Recency.keys`: the keys along the chain.
-/
import Std.Data.HashMap

namespace Reckoner.Cache

/-- An entry and its neighbours in the order of use. -/
structure Node (α : Type) where
  key : String
  value : α
  /-- the slot of the entry used just after -/
  newer : Option Nat := none
  /-- the slot of the entry used just before -/
  older : Option Nat := none

/-- Entries in slots, chained in the order of their last use. -/
structure Recency (α : Type) where
  slots : Array (Option (Node α)) := #[]
  /-- the empty slots, to be used again -/
  free : List Nat := []
  index : Std.HashMap String Nat := {}
  /-- the slot of the latest entry -/
  head : Option Nat := none
  /-- the slot of the earliest entry -/
  tail : Option Nat := none

namespace Recency

variable {α : Type}

/-- The entry in a slot. -/
def node? (r : Recency α) (slot : Nat) : Option (Node α) := (r.slots[slot]?).join

/-- Changes the entry in a slot, if there is one. -/
def modify (r : Recency α) (slot : Nat) (f : Node α → Node α) : Recency α :=
  { r with slots := r.slots.modify slot (·.map f) }

/-- Makes `older` follow the entry in slot `at_`, or lead the chain. -/
def setOlder (r : Recency α) (at_ older : Option Nat) : Recency α :=
  match at_ with
  | some slot => r.modify slot fun n => { n with older }
  | none => { r with head := older }

/-- Makes `newer` precede the entry in slot `at_`, or end the chain. -/
def setNewer (r : Recency α) (at_ newer : Option Nat) : Recency α :=
  match at_ with
  | some slot => r.modify slot fun n => { n with newer }
  | none => { r with tail := newer }

/-- Takes the entry in a slot out of the chain. -/
def unlink (r : Recency α) (slot : Nat) : Recency α :=
  match r.node? slot with
  | none => r
  | some n =>
    ((r.setOlder n.newer n.older).setNewer n.older n.newer).modify slot fun n =>
      { n with newer := none, older := none }

/-- Puts the entry in a slot before the chain. -/
def pushFront (r : Recency α) (slot : Nat) : Recency α :=
  let linked := r.modify slot fun n => { n with newer := none, older := r.head }
  { linked.setNewer r.head (some slot) with head := some slot }

/-- Makes the entry in a slot the latest. -/
def promote (r : Recency α) (slot : Nat) : Recency α :=
  if r.head = some slot then r else (r.unlink slot).pushFront slot

/-- Empties a slot. -/
def remove (r : Recency α) (slot : Nat) : Recency α :=
  let r := r.unlink slot
  match r.node? slot with
  | none => r
  | some n =>
    { r with
      slots := r.slots.modify slot fun _ => none
      index := r.index.erase n.key
      free := slot :: r.free }

/-- Puts an entry into a free slot, or into a new one. -/
def store (r : Recency α) (n : Node α) : Recency α × Nat :=
  match r.free with
  | slot :: free => ({ r with slots := r.slots.modify slot fun _ => some n, free }, slot)
  | [] => ({ r with slots := r.slots.push (some n) }, r.slots.size)

/-- Adds an entry as the latest. -/
def insertFront (r : Recency α) (key : String) (value : α) : Recency α :=
  let (r, slot) := r.store { key, value }
  { r with index := r.index.insert key slot }.pushFront slot

/-- The number of entries. -/
def size (r : Recency α) : Nat := r.index.size

/-- The keys along the chain from a slot on, at most `steps` of them. -/
def keysFrom (r : Recency α) : (steps : Nat) → Option Nat → List String
  | 0, _ => []
  | _, none => []
  | steps + 1, some slot =>
    match r.node? slot with
    | some n => n.key :: r.keysFrom steps n.older
    | none => []

/-- The keys from the latest used to the earliest. -/
def keys (r : Recency α) : List String := r.keysFrom r.slots.size r.head

end Recency

end Reckoner.Cache
