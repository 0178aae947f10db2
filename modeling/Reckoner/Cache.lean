/-
  The cache of answers.

  * `ResultCache`: the answers to the queries used last, as many as its capacity allows;
  * `ResultCache.get?`: the answers to a query, which becomes the latest used;
  * `ResultCache.set`: stores the answers to a query; if need be, the query used longest ago
    gives way.
-/
import Reckoner.Answer
import Reckoner.Cache.Recency
import Reckoner.Setup

namespace Reckoner

/-- The answers to the queries used last. -/
structure ResultCache where
  capacity : Nat
  entries : Cache.Recency (List Answer) := {}
  positive : 0 < capacity

namespace ResultCache

/-- An empty cache; it has to have room for an entry. -/
def ofCapacity (capacity : Nat) : Except SetupError ResultCache :=
  if h : 0 < capacity then .ok { capacity, positive := h } else .error .zeroCapacity

/-- The form of a query in which it is stored: trimmed and in lower case. -/
def keyOf (query : String) : String := String.ofList (Text.lower (Text.trim query.toList))

/-- The answers stored for a query, which becomes the latest used. -/
def get? (c : ResultCache) (query : String) : Option (List Answer) × ResultCache :=
  let key := keyOf query
  if key.isEmpty then (none, c)
  else
    match c.entries.index[key]? with
    | none => (none, c)
    | some slot =>
      let entries := c.entries.promote slot
      ((entries.node? slot).map (·.value), { c with entries })

/-- Makes room for a key: removes its old entry, or the earliest used if the cache is full. -/
def makeRoom (c : ResultCache) (key : String) : Cache.Recency (List Answer) :=
  match c.entries.index[key]? with
  | some slot => c.entries.remove slot
  | none =>
    if c.entries.size ≥ c.capacity then
      match c.entries.tail with
      | some slot => c.entries.remove slot
      | none => c.entries
    else c.entries

/-- Stores answers for a query; without a query or without answers nothing is stored. -/
def set (c : ResultCache) (query : String) (answers : List Answer) : ResultCache :=
  let key := keyOf query
  if key.isEmpty || answers.isEmpty then c
  else { c with entries := (c.makeRoom key).insertFront key answers }

/-- Forgets everything. -/
def clear (c : ResultCache) : ResultCache := { c with entries := {} }

/-- The stored queries, from the latest used to the earliest. -/
def keys (c : ResultCache) : List String := c.entries.keys

/-- The number of stored queries. -/
def size (c : ResultCache) : Nat := c.entries.size

/-- The share of the capacity in use, in percent. -/
def usage (c : ResultCache) : Float := Float.ofNat c.size * 100.0 / Float.ofNat c.capacity

/-- Entries stand at both ends of the order of use. -/
def hasEnds (c : ResultCache) : Bool :=
  (c.entries.head.bind c.entries.node?).isSome && (c.entries.tail.bind c.entries.node?).isSome

end ResultCache

end Reckoner
