/-
  The slots behind a cache.

  * `Walk`: following the links from a slot on passes the slots of a list, and ends;
  * `Intact`: the chain runs through the occupied slots from `head` to `tail` and back, the index
    knows the slot of each key, all other slots are free, and there are no more slots than entries
    allowed;
  * `Recency.promote?`, `Recency.remove?`, `Recency.insertFront?`: the changes of a table, which
    refuse to change an empty slot and to fill one that is not;
  * `run_sound`: **after any sequence of commands the slots are intact**, no change that a command
    may make is refused, and the walk along the chain finds every key.
-/
import Reckoner.Proofs.Cache.Lru

namespace Reckoner.Cache

variable {α : Type}

/-! ## Walks along the chain -/

/-- Following a link from a slot on passes the slots of a list, and ends. -/
inductive Walk (r : Recency α) (link : Node α → Option Nat) : Option Nat → List Nat → Prop
  | stop : Walk r link none []
  | step {slot : Nat} {n : Node α} {slots : List Nat} : r.node? slot = some n →
      Walk r link (link n) slots → Walk r link (some slot) (slot :: slots)

theorem walk_older {r : Recency α} : ∀ {cells : List (Cell α)} {newer : Option Nat},
    Linked r.node? newer none cells → Walk r (·.older) (first? cells) (slotsOf cells)
  | [], _, _ => .stop
  | c :: cs, newer, ⟨hc, hcs⟩ => by
    have ih := walk_older hcs
    rw [Option.or_none] at hc
    exact .step hc ih

theorem walk_newer {r : Recency α} {cells : List (Cell α)} {older : Option Nat}
    (h : Linked r.node? none older cells) :
    Walk r (·.newer) (last? cells) (slotsOf cells).reverse := by
  induction cells using List.reverseRecOn generalizing older with
  | nil => exact .stop
  | append_singleton cs c ih =>
    obtain ⟨hcs, hc, -⟩ := linked_append.1 h
    rw [Option.or_none] at hc
    rw [last?_append, slotsOf_append, List.reverse_append]
    exact .step hc (ih hcs)

/-! ## Intact tables -/

theorem lt_size_of_node? {r : Recency α} {slot : Nat} {n : Node α} (h : r.node? slot = some n) :
    slot < r.slots.size := by
  by_contra hle
  rw [Recency.node?, Array.getElem?_eq_none (Nat.le_of_not_lt hle)] at h
  cases h

/-- The slots, the links, the index and the free slots of a table fit together, and there are at
most `capacity` slots; the chain is the list of the slots from `head` on. -/
structure Intact (capacity : Nat) (r : Recency α) (chain : List Nat) : Prop where
  older : Walk r (·.older) r.head chain
  /-- the chain ends at `tail`, and leads back from there -/
  newer : Walk r (·.newer) r.tail chain.reverse
  nodup : chain.Nodup
  occupied : ∀ slot, (r.node? slot).isSome ↔ slot ∈ chain
  index : ∀ key slot, r.index[key]? = some slot ↔ ∃ n, r.node? slot = some n ∧ n.key = key
  free : ∀ slot, slot ∈ r.free ↔ slot < r.slots.size ∧ r.node? slot = none
  free_nodup : r.free.Nodup
  room : r.slots.size ≤ capacity

namespace Holds

variable {r : Recency α} {pre post cells : List (Cell α)} {c : Cell α}

/-- The slot at the tail is that of the last cell. -/
theorem exists_last (h : Holds r cells) {slot : Nat} (ht : r.tail = some slot) :
    ∃ pre c, cells = pre ++ [c] ∧ c.slot = slot := by
  obtain ⟨c, hc, hslot⟩ := Option.map_eq_some_iff.1 (h.chained.tail.symm.trans ht)
  obtain ⟨pre, rfl⟩ := List.getLast?_eq_some_iff.1 hc
  exact ⟨pre, c, rfl, hslot⟩

/-- A slot is either free or in the chain. -/
theorem mem_free_or (h : Holds r cells) {slot : Nat} (hlt : slot < r.slots.size) :
    slot ∈ r.free ∨ slot ∈ slotsOf cells :=
  List.mem_append.1 (h.slots.mem_iff.2 (List.mem_range.2 hlt))

theorem occupied (h : Holds r cells) (slot : Nat) :
    (r.node? slot).isSome ↔ slot ∈ slotsOf cells := by
  constructor
  · intro hsome
    obtain ⟨n, hn⟩ := Option.isSome_iff_exists.1 hsome
    refine (h.mem_free_or (lt_size_of_node? hn)).resolve_left fun hfree => ?_
    rw [h.vacant slot hfree] at hn
    cases hn
  · exact h.chained.node_isSome

theorem index_node (h : Holds r cells) (key : String) (slot : Nat) :
    r.index[key]? = some slot ↔ ∃ n, r.node? slot = some n ∧ n.key = key := by
  rw [h.index]
  constructor
  · rintro ⟨c, hc, rfl, rfl⟩
    obtain ⟨pre, post, rfl⟩ := List.append_of_mem hc
    exact ⟨_, h.chained.node, rfl⟩
  · rintro ⟨n, hn, rfl⟩
    obtain ⟨c, hc, rfl⟩ := List.mem_map.1 ((h.occupied slot).1 (Option.isSome_of_mem hn))
    obtain ⟨pre, post, rfl⟩ := List.append_of_mem hc
    rw [h.chained.node] at hn
    exact ⟨c, hc, congrArg Node.key (Option.some.inj hn), rfl⟩

theorem free_iff (h : Holds r cells) (slot : Nat) :
    slot ∈ r.free ↔ slot < r.slots.size ∧ r.node? slot = none := by
  constructor
  · intro hfree
    have hrange := h.slots.mem_iff.1 (List.mem_append_left _ hfree)
    exact ⟨List.mem_range.1 hrange, h.vacant slot hfree⟩
  · rintro ⟨hlt, hnone⟩
    refine (h.mem_free_or hlt).resolve_right fun hm => ?_
    have hsome := h.chained.node_isSome hm
    rw [hnone] at hsome
    cases hsome

/-- A table that holds cells is intact, if its slots are no more than allowed. -/
theorem intact (h : Holds r cells) {capacity : Nat} (hroom : r.slots.size ≤ capacity) :
    Intact capacity r (slotsOf cells) where
  older := h.chained.head ▸ walk_older h.chained.linked
  newer := h.chained.tail ▸ walk_newer h.chained.linked
  nodup := h.chained.nodup
  occupied := h.occupied
  index := h.index_node
  free := h.free_iff
  free_nodup := (List.nodup_append.1 (h.slots.nodup_iff.2 List.nodup_range)).1
  room := hroom

/-- The keys are those of the entries along the chain. -/
theorem keys_chain (h : Holds r cells) :
    r.keys.map some = (slotsOf cells).map fun slot => (r.node? slot).map (·.key) := by
  rw [h.keys, slotsOf, List.map_map, List.map_map]
  refine List.map_congr_left fun c hc => ?_
  obtain ⟨pre, post, rfl⟩ := List.append_of_mem hc
  exact congrArg (Option.map Node.key) h.chained.node.symm

/-- A walk that may take more steps than there are entries finds no more keys. -/
theorem keysFrom_eq (h : Holds r cells) {steps : Nat} (hsteps : r.slots.size ≤ steps) :
    r.keysFrom steps r.head = r.keys := by
  rw [h.keys, h.chained.head]
  exact keysFrom_of_linked h.chained.linked (h.length_le.trans hsteps)

end Holds

/-! ## The number of slots -/

theorem Recency.size_promote (r : Recency α) (slot : Nat) :
    (r.promote slot).slots.size = r.slots.size := by
  unfold Recency.promote
  split_ifs
  · rfl
  · exact ((Recency.sameStore_unlink r slot).trans (Recency.sameStore_pushFront _ slot)).size

namespace Holds

variable {r : Recency α} {pre post cells : List (Cell α)} {c : Cell α}

theorem size_remove (h : Holds r (pre ++ c :: post)) :
    (r.remove c.slot).slots.size = r.slots.size := by
  rw [h.remove_eq, Array.size_modify]
  exact (Recency.sameStore_unlink r c.slot).size

/-- Only a table without free slots gets a new one. -/
theorem size_insertFront (h : Holds r cells) (key : String) (value : α) :
    (r.insertFront key value).slots.size ≤ max r.slots.size (cells.length + 1) := by
  unfold Recency.insertFront Recency.store
  cases hf : r.free with
  | nil =>
    have hlength := h.slots.length_eq
    rw [hf, List.nil_append, List.length_range, slotsOf, List.length_map] at hlength
    simp only [(Recency.sameStore_pushFront _ _).size, Array.size_push, hlength]
    exact le_max_right _ _
  | cons slot free =>
    simp only [(Recency.sameStore_pushFront _ _).size, Array.size_modify]
    exact le_max_left _ _

end Holds

/-! ## Changes that check their slots -/

namespace Recency

/-- Changes the entry in a slot, unless the slot is empty. -/
def modify? (r : Recency α) (slot : Nat) (f : Node α → Node α) : Option (Recency α) :=
  if (r.node? slot).isSome then some (r.modify slot f) else none

/-- Makes `older` follow the entry in slot `at_`, unless the slot is empty. -/
def setOlder? (r : Recency α) (at_ older : Option Nat) : Option (Recency α) :=
  match at_ with
  | some slot => r.modify? slot fun n => { n with older }
  | none => some { r with head := older }

/-- Makes `newer` precede the entry in slot `at_`, unless the slot is empty. -/
def setNewer? (r : Recency α) (at_ newer : Option Nat) : Option (Recency α) :=
  match at_ with
  | some slot => r.modify? slot fun n => { n with newer }
  | none => some { r with tail := newer }

/-- Takes an entry out of the chain, unless its slot or that of a neighbour is empty. -/
def unlink? (r : Recency α) (slot : Nat) : Option (Recency α) := do
  let n ← r.node? slot
  let r ← r.setOlder? n.newer n.older
  let r ← r.setNewer? n.older n.newer
  r.modify? slot fun n => { n with newer := none, older := none }

/-- Puts an entry before the chain, unless its slot or that of the first entry is empty. -/
def pushFront? (r : Recency α) (slot : Nat) : Option (Recency α) := do
  let linked ← r.modify? slot fun n => { n with newer := none, older := r.head }
  let linked ← linked.setNewer? r.head (some slot)
  return { linked with head := some slot }

/-- Makes an entry the latest, unless a slot it needs is empty. -/
def promote? (r : Recency α) (slot : Nat) : Option (Recency α) :=
  if r.head = some slot then some r else do (← r.unlink? slot).pushFront? slot

/-- Empties a slot, unless it or that of a neighbour is empty already. -/
def remove? (r : Recency α) (slot : Nat) : Option (Recency α) := do
  let r ← r.unlink? slot
  let n ← r.node? slot
  return { r with
    slots := r.slots.modify slot fun _ => none
    index := r.index.erase n.key
    free := slot :: r.free }

/-- Puts an entry into a free slot, unless there is no such slot or it is not empty. -/
def store? (r : Recency α) (n : Node α) : Option (Recency α × Nat) :=
  match r.free with
  | slot :: free =>
    match r.slots[slot]? with
    | some none => some ({ r with slots := r.slots.modify slot fun _ => some n, free }, slot)
    | _ => none
  | [] => some ({ r with slots := r.slots.push (some n) }, r.slots.size)

/-- Adds an entry as the latest, unless a slot it needs is not as it should be. -/
def insertFront? (r : Recency α) (key : String) (value : α) : Option (Recency α) := do
  let (r, slot) ← r.store? { key, value }
  { r with index := r.index.insert key slot }.pushFront? slot

variable {r : Recency α}

theorem isSome_node?_modify (s t : Nat) (f : Node α → Node α) :
    ((r.modify s f).node? t).isSome = (r.node? t).isSome := by
  rw [node?_modify]
  split_ifs
  · exact Option.isSome_map
  · rfl

theorem isSome_node?_setOlder (at_ older : Option Nat) (t : Nat) :
    ((r.setOlder at_ older).node? t).isSome = (r.node? t).isSome := by
  cases at_ with
  | none => rfl
  | some s => exact isSome_node?_modify s t _

theorem isSome_node?_setNewer (at_ newer : Option Nat) (t : Nat) :
    ((r.setNewer at_ newer).node? t).isSome = (r.node? t).isSome := by
  cases at_ with
  | none => rfl
  | some s => exact isSome_node?_modify s t _

theorem modify?_eq {slot : Nat} (h : (r.node? slot).isSome) (f : Node α → Node α) :
    r.modify? slot f = some (r.modify slot f) := if_pos h

theorem setOlder?_eq {at_ : Option Nat} (h : ∀ slot ∈ at_, (r.node? slot).isSome)
    (older : Option Nat) : r.setOlder? at_ older = some (r.setOlder at_ older) := by
  cases at_ with
  | none => rfl
  | some slot => exact modify?_eq (h slot rfl) _

theorem setNewer?_eq {at_ : Option Nat} (h : ∀ slot ∈ at_, (r.node? slot).isSome)
    (newer : Option Nat) : r.setNewer? at_ newer = some (r.setNewer at_ newer) := by
  cases at_ with
  | none => rfl
  | some slot => exact modify?_eq (h slot rfl) _

/-- An entry between entries can be taken out. -/
theorem unlink?_eq {slot : Nat} {n : Node α} (h : r.node? slot = some n)
    (hnewer : ∀ s ∈ n.newer, (r.node? s).isSome) (holder : ∀ s ∈ n.older, (r.node? s).isSome) :
    r.unlink? slot = some (r.unlink slot) := by
  have hslot : (r.node? slot).isSome := Option.isSome_of_mem h
  rw [unlink?, unlink, h]
  simp only [Option.bind_eq_bind, Option.bind_some]
  rw [setOlder?_eq hnewer, Option.bind_some, setNewer?_eq, Option.bind_some, modify?_eq]
  · rw [isSome_node?_setNewer, isSome_node?_setOlder]
    exact hslot
  · intro s hs
    rw [isSome_node?_setOlder]
    exact holder s hs

/-- An entry can be put before another, or before none. -/
theorem pushFront?_eq {slot : Nat} (h : (r.node? slot).isSome)
    (hhead : ∀ s ∈ r.head, (r.node? s).isSome) :
    r.pushFront? slot = some (r.pushFront slot) := by
  rw [pushFront?, pushFront, modify?_eq h]
  simp only [Option.bind_eq_bind, Option.bind_some]
  rw [setNewer?_eq]
  · rfl
  · intro s hs
    rw [isSome_node?_modify]
    exact hhead s hs

end Recency

namespace Holds

variable {r : Recency α} {pre post cells : List (Cell α)} {c : Cell α}

theorem unlink? (h : Holds r (pre ++ c :: post)) :
    r.unlink? c.slot = some (r.unlink c.slot) := by
  refine Recency.unlink?_eq h.chained.node (fun s hs => ?_) fun s hs => ?_
  · exact h.chained.node_isSome (by simp [mem_of_last? hs])
  · exact h.chained.node_isSome (by simp [mem_of_first? hs])

theorem promote? (h : Holds r (pre ++ c :: post)) :
    r.promote? c.slot = some (r.promote c.slot) := by
  unfold Recency.promote? Recency.promote
  split_ifs
  · rfl
  · obtain ⟨hu, hn⟩ := h.chained.unlink
    rw [h.unlink?]
    refine Recency.pushFront?_eq (Option.isSome_of_mem hn) fun s hs => ?_
    rw [hu.head] at hs
    exact hu.node_isSome (mem_of_first? hs)

theorem remove? (h : Holds r (pre ++ c :: post)) :
    r.remove? c.slot = some (r.remove c.slot) := by
  rw [Recency.remove?, Recency.remove, h.unlink?]
  simp only [Option.bind_eq_bind, Option.bind_some, h.chained.unlink.2]
  rfl

theorem store? (h : Holds r cells) (n : Node α) : r.store? n = some (r.store n) := by
  unfold Recency.store? Recency.store
  cases hf : r.free with
  | nil => rfl
  | cons slot free =>
    obtain ⟨hlt, hnone⟩ := (h.free_iff slot).1 (hf ▸ List.mem_cons_self)
    rw [Recency.node?, Array.getElem?_eq_getElem hlt] at hnone
    simp only [Array.getElem?_eq_getElem hlt]
    rw [show r.slots[slot] = none from hnone]

theorem insertFront? (h : Holds r cells) (key : String) (value : α) :
    r.insertFront? key value = some (r.insertFront key value) := by
  obtain ⟨r', slot, hst, hslot, hn, hoff, hhead, -⟩ := h.store { key, value }
  rw [Recency.insertFront?, Recency.insertFront, h.store?, hst]
  refine Recency.pushFront?_eq (Option.isSome_of_mem hn) fun s hs => ?_
  -- the first entry is in a slot of the chain, which is not the one just filled
  have hm : s ∈ slotsOf cells := mem_of_first? (h.chained.head ▸ hhead ▸ hs)
  have hne : s ≠ slot := fun he => hslot (he ▸ hm)
  have hkept : r'.node? s = r.node? s := hoff s hne
  exact hkept ▸ h.chained.node_isSome hm

end Holds

end Reckoner.Cache

/-! ## Runs of commands -/

namespace Reckoner.ResultCache

open Cache

theorem size_get? (c : ResultCache) (query : String) :
    (c.get? query).2.entries.slots.size = c.entries.slots.size := by
  unfold get?
  dsimp only
  split_ifs
  · rfl
  · split
    · rfl
    · exact Recency.size_promote _ _

theorem size_makeRoom {c : ResultCache} {cells : List (Cell (List Answer))}
    (h : Holds c.entries cells) (key : String) :
    (c.makeRoom key).slots.size = c.entries.slots.size := by
  unfold makeRoom
  split
  · next slot hi =>
    obtain ⟨pre, d, post, rfl, -, rfl⟩ := h.exists_cell hi
    exact h.size_remove
  · split_ifs
    · split
      · next slot ht =>
        obtain ⟨pre, d, rfl, rfl⟩ := h.exists_last ht
        exact h.size_remove
      · rfl
    · rfl

/-- The cache shows a list, and has no more slots than it may have entries. -/
def Fits (c : ResultCache) : Prop := (∃ l, Shows c l) ∧ c.entries.slots.size ≤ c.capacity

namespace Fits

variable {c : ResultCache}

/-- Room for a key is made in a table of no more slots, and with fewer entries than allowed. -/
theorem makeRoom (h : Fits c) (key : String) :
    ∃ cells, Holds (c.makeRoom key) cells ∧ cells.length < c.capacity ∧
      (c.makeRoom key).slots.size ≤ c.capacity := by
  obtain ⟨⟨l, hl⟩, hroom⟩ := h
  obtain ⟨cells, hc, rfl⟩ := hl.held
  obtain ⟨cells', hc', -, hlt, -⟩ := makeRoom_holds hc (by simpa using hl.length_le) key []
  exact ⟨cells', hc', hlt, (size_makeRoom hc key).trans_le hroom⟩

/-- Every command keeps the slots within the capacity. -/
theorem perform (h : Fits c) (k : Command) : Fits (c.perform k).2 := by
  have hkept := h
  obtain ⟨⟨l, hl⟩, hroom⟩ := h
  refine ⟨⟨_, (hl.perform k).2⟩, ?_⟩
  rw [capacity_perform]
  cases k with
  | set query answers =>
    simp only [ResultCache.perform, ResultCache.set]
    split_ifs
    · exact hroom
    · obtain ⟨cells, hc, hlt, hroom'⟩ := hkept.makeRoom (keyOf query)
      exact (hc.size_insertFront _ answers).trans (max_le hroom' hlt)
  | get query =>
    simp only [ResultCache.perform]
    rw [size_get?]
    exact hroom
  | clear => exact Nat.zero_le _

end Fits

/-- The slots of a cache with room for `capacity` entries are intact, also once room has been made
for a key, and no change that a command may make to them is refused. -/
structure Sound (capacity : Nat) (c : ResultCache) : Prop where
  intact : ∃ chain, Intact capacity c.entries chain ∧
    c.keys.map some = chain.map fun slot => (c.entries.node? slot).map (·.key)
  /-- the walk that lists the keys ends, however many steps it may take -/
  ends : ∀ steps, c.entries.slots.size ≤ steps →
    c.entries.keysFrom steps c.entries.head = c.keys
  /-- the entry found for a query can be made the latest -/
  promoted : ∀ (key : String) (slot : Nat), c.entries.index[key]? = some slot →
    c.entries.promote? slot = some (c.entries.promote slot)
  /-- the old entry of a key, and the earliest of all, can be removed -/
  removed : ∀ (key : String) (slot : Nat),
    c.entries.index[key]? = some slot ∨ c.entries.tail = some slot →
      c.entries.remove? slot = some (c.entries.remove slot)
  ready : ∀ key, ∃ chain, Intact capacity (c.makeRoom key) chain
  /-- an entry can be added where room has been made -/
  inserted : ∀ key answers, (c.makeRoom key).insertFront? key answers =
    some ((c.makeRoom key).insertFront key answers)

theorem Fits.sound {c : ResultCache} (h : Fits c) : Sound c.capacity c := by
  obtain ⟨⟨l, hl⟩, hroom⟩ := id h
  obtain ⟨cells, hc, -⟩ := hl.held
  refine ⟨⟨_, hc.intact hroom, hc.keys_chain⟩, fun steps => hc.keysFrom_eq, ?_, ?_, ?_, ?_⟩
  · intro key slot hi
    obtain ⟨pre, d, post, rfl, -, rfl⟩ := hc.exists_cell hi
    exact hc.promote?
  · rintro key slot (hi | ht)
    · obtain ⟨pre, d, post, rfl, -, rfl⟩ := hc.exists_cell hi
      exact hc.remove?
    · obtain ⟨pre, d, rfl, rfl⟩ := hc.exists_last ht
      exact hc.remove?
  · intro key
    obtain ⟨cells', hc', -, hroom'⟩ := h.makeRoom key
    exact ⟨_, hc'.intact hroom'⟩
  · intro key answers
    obtain ⟨cells', hc', -, -⟩ := h.makeRoom key
    exact hc'.insertFront? key answers

/-- **After any sequence of commands on a new cache its slots are intact**, the walk along the
chain ends with the keys of all entries, and no command will find a slot empty that it needs an
entry in, or an entry in a slot that it fills. -/
theorem run_sound (capacity : Nat) (h : 0 < capacity) :
    ∃ c, ofCapacity capacity = .ok c ∧
      ∀ commands : List Command, Sound capacity (run perform c commands).2 := by
  refine ⟨⟨capacity, {}, h⟩, dif_pos h, fun commands => ?_⟩
  have hstart : Fits ⟨capacity, {}, h⟩ := ⟨⟨[], Shows.empty capacity h⟩, Nat.zero_le _⟩
  obtain ⟨hfits, hcapacity⟩ := run_preserves (P := fun c => Fits c ∧ c.capacity = capacity)
    (fun c k hc => ⟨hc.1.perform k, (capacity_perform c k).trans hc.2⟩) ⟨hstart, rfl⟩ commands
  have hsound := hfits.sound
  rwa [hcapacity] at hsound

/-- A third key takes over the slot of the one that gives way to it. -/
theorem run_sound_two :
    0 < 2 ∧ ∃ c, ofCapacity 2 = .ok c ∧
      Sound 2 (run perform c [.set "a" [.failure "a" ""], .set "b" [.failure "b" ""], .get "a",
        .set "c" [.failure "c" ""]]).2 := by
  obtain ⟨c, hc, h⟩ := run_sound 2 (by decide)
  exact ⟨by decide, c, hc, h _⟩

end Reckoner.ResultCache
