/-
  The chain through the slots of a table.

  * `Cell`: an entry with the slot it is in;
  * `Linked`: the slots hold the cells of a list, each linked to its two neighbours; a list
    is linked iff its two halves are (`linked_append`);
  * `Chained`: the chain of a table runs through a list of cells, from `head` to `tail`;
  * `Chained.unlink`, `Chained.pushFront`: taking a cell out of the chain and putting one
    before it, with the slots off the chain unchanged (`unlink_off`, `pushFront_off`);
  * `keysFrom_of_linked`: the walk along the chain finds the keys of the cells in order.
-/
import Mathlib.Data.List.Nodup
import Mathlib.Tactic.Common
import Reckoner.Cache.Recency

namespace Reckoner.Cache

variable {α : Type}

/-! ## Single links -/

namespace Recency

@[simp] theorem node?_modify (r : Recency α) (s t : Nat) (f : Node α → Node α) :
    (r.modify s f).node? t = if s = t then (r.node? t).map f else r.node? t := by
  simp only [node?, modify, Array.getElem?_modify]
  split_ifs
  · cases r.slots[t]? with
    | none => rfl
    | some n => cases n <;> rfl
  · rfl

@[simp] theorem node?_setOlder (r : Recency α) (at_ older : Option Nat) (t : Nat) :
    (r.setOlder at_ older).node? t =
      if at_ = some t then (r.node? t).map fun n => { n with older } else r.node? t := by
  cases at_ with
  | none => simp [setOlder, node?]
  | some s => simp [setOlder]

@[simp] theorem node?_setNewer (r : Recency α) (at_ newer : Option Nat) (t : Nat) :
    (r.setNewer at_ newer).node? t =
      if at_ = some t then (r.node? t).map fun n => { n with newer } else r.node? t := by
  cases at_ with
  | none => simp [setNewer, node?]
  | some s => simp [setNewer]

@[simp] theorem head_setOlder (r : Recency α) (at_ older : Option Nat) :
    (r.setOlder at_ older).head = if at_ = none then older else r.head := by
  cases at_ <;> rfl

@[simp] theorem head_setNewer (r : Recency α) (at_ newer : Option Nat) :
    (r.setNewer at_ newer).head = r.head := by
  cases at_ <;> rfl

@[simp] theorem tail_setOlder (r : Recency α) (at_ older : Option Nat) :
    (r.setOlder at_ older).tail = r.tail := by
  cases at_ <;> rfl

@[simp] theorem tail_setNewer (r : Recency α) (at_ newer : Option Nat) :
    (r.setNewer at_ newer).tail = if at_ = none then newer else r.tail := by
  cases at_ <;> rfl

@[simp] theorem head_modify (r : Recency α) (s : Nat) (f : Node α → Node α) :
    (r.modify s f).head = r.head := rfl

@[simp] theorem tail_modify (r : Recency α) (s : Nat) (f : Node α → Node α) :
    (r.modify s f).tail = r.tail := rfl

/-- What linking never touches: the index, the free slots and the number of slots. -/
structure SameStore (r r' : Recency α) : Prop where
  index : r'.index = r.index
  free : r'.free = r.free
  size : r'.slots.size = r.slots.size

theorem SameStore.trans {r r' r'' : Recency α} (h : SameStore r r') (h' : SameStore r' r'') :
    SameStore r r'' :=
  ⟨h'.index.trans h.index, h'.free.trans h.free, h'.size.trans h.size⟩

theorem sameStore_modify (r : Recency α) (s : Nat) (f : Node α → Node α) :
    SameStore r (r.modify s f) :=
  ⟨rfl, rfl, by simp [modify]⟩

theorem sameStore_setOlder (r : Recency α) (at_ older : Option Nat) :
    SameStore r (r.setOlder at_ older) := by
  cases at_ with
  | none => exact ⟨rfl, rfl, rfl⟩
  | some s => exact sameStore_modify r s _

theorem sameStore_setNewer (r : Recency α) (at_ newer : Option Nat) :
    SameStore r (r.setNewer at_ newer) := by
  cases at_ with
  | none => exact ⟨rfl, rfl, rfl⟩
  | some s => exact sameStore_modify r s _

theorem sameStore_unlink (r : Recency α) (s : Nat) : SameStore r (r.unlink s) := by
  unfold unlink
  split
  · exact ⟨rfl, rfl, rfl⟩
  · exact ((sameStore_setOlder r _ _).trans (sameStore_setNewer _ _ _)).trans
      (sameStore_modify _ _ _)

theorem sameStore_pushFront (r : Recency α) (s : Nat) : SameStore r (r.pushFront s) := by
  have h := (sameStore_modify r s fun n => { n with newer := none, older := r.head }).trans
    (sameStore_setNewer _ r.head (some s))
  exact ⟨h.index, h.free, h.size⟩

end Recency

/-! ## Linked lists of cells -/

/-- An entry in its slot. -/
structure Cell (α : Type) where
  slot : Nat
  key : String
  value : α

/-- The slot of the first cell. -/
def first? (cells : List (Cell α)) : Option Nat := cells.head?.map (·.slot)

/-- The slot of the last cell. -/
def last? (cells : List (Cell α)) : Option Nat := cells.getLast?.map (·.slot)

/-- The slots of a list of cells. -/
def slotsOf (cells : List (Cell α)) : List Nat := cells.map (·.slot)

@[simp] theorem first?_nil : first? ([] : List (Cell α)) = none := rfl

@[simp] theorem first?_cons (c : Cell α) (cs : List (Cell α)) : first? (c :: cs) = some c.slot :=
  rfl

@[simp] theorem last?_nil : last? ([] : List (Cell α)) = none := rfl

@[simp] theorem last?_singleton (c : Cell α) : last? [c] = some c.slot := rfl

@[simp] theorem last?_cons (c d : Cell α) (cs : List (Cell α)) :
    last? (c :: d :: cs) = last? (d :: cs) := by
  simp [last?, List.getLast?_cons]

@[simp] theorem slotsOf_nil : slotsOf ([] : List (Cell α)) = [] := rfl

@[simp] theorem slotsOf_cons (c : Cell α) (cs : List (Cell α)) :
    slotsOf (c :: cs) = c.slot :: slotsOf cs := rfl

@[simp] theorem slotsOf_append (xs ys : List (Cell α)) :
    slotsOf (xs ++ ys) = slotsOf xs ++ slotsOf ys := List.map_append

theorem last?_append (xs ys : List (Cell α)) : last? (xs ++ ys) = (last? ys).or (last? xs) := by
  simp only [last?, List.getLast?_append]
  cases ys.getLast? <;> rfl

theorem mem_of_first? {cells : List (Cell α)} {s : Nat} (h : first? cells = some s) :
    s ∈ slotsOf cells := by
  obtain ⟨c, hc, rfl⟩ := Option.map_eq_some_iff.1 h
  exact List.mem_map_of_mem (List.mem_of_mem_head? hc)

theorem mem_of_last? {cells : List (Cell α)} {s : Nat} (h : last? cells = some s) :
    s ∈ slotsOf cells := by
  obtain ⟨c, hc, rfl⟩ := Option.map_eq_some_iff.1 h
  exact List.mem_map_of_mem (List.mem_of_getLast? hc)

/-- The slots hold the cells, each linked to its neighbours; the list hangs between `newer`
and `older`. -/
def Linked (at_ : Nat → Option (Node α)) (newer older : Option Nat) : List (Cell α) → Prop
  | [] => True
  | c :: cs =>
    at_ c.slot = some ⟨c.key, c.value, newer, (first? cs).or older⟩ ∧
      Linked at_ (some c.slot) older cs

theorem linked_append {at_ : Nat → Option (Node α)} {older : Option Nat} {ys : List (Cell α)} :
    ∀ {xs : List (Cell α)} {newer : Option Nat}, Linked at_ newer older (xs ++ ys) ↔
      Linked at_ newer ((first? ys).or older) xs ∧ Linked at_ ((last? xs).or newer) older ys
  | [], newer => by simp [Linked]
  | [c], newer => by simp [Linked]
  | c :: d :: cs, newer => by
    have ih := @linked_append at_ older ys (d :: cs) (some c.slot)
    simp only [List.cons_append, Linked, first?_cons, last?_cons, Option.some_or] at ih ⊢
    rw [ih]
    cases hl : last? (d :: cs) with
    | none => simp [last?] at hl
    | some s => simp only [Option.some_or, and_assoc]

/-- Only the slots of the cells matter. -/
theorem Linked.frame {f g : Nat → Option (Node α)} {older : Option Nat} :
    ∀ {cs : List (Cell α)} {newer : Option Nat}, Linked f newer older cs →
      (∀ s ∈ slotsOf cs, g s = f s) → Linked g newer older cs
  | [], _, _, _ => trivial
  | c :: cs, _, ⟨hc, hcs⟩, h =>
    ⟨(h c.slot (by simp)).trans hc, hcs.frame fun s hs => h s (by simp [hs])⟩

/-- Linking the first cell to another newer neighbour. -/
theorem Linked.setNewer {f g : Nat → Option (Node α)} {newer newer' older : Option Nat}
    {cs : List (Cell α)} (h : Linked f newer older cs) (hd : (slotsOf cs).Nodup)
    (hg : ∀ s ∈ slotsOf cs, g s =
      if first? cs = some s then (f s).map fun n => { n with newer := newer' } else f s) :
    Linked g newer' older cs := by
  cases cs with
  | nil => trivial
  | cons c cs =>
    simp only [slotsOf_cons, List.nodup_cons] at hd
    refine ⟨?_, h.2.frame fun s hs => ?_⟩
    · rw [hg c.slot (by simp), h.1]
      simp
    · have hne : c.slot ≠ s := by
        rintro rfl
        exact hd.1 hs
      rw [hg s (by simp [hs])]
      simp [hne]

/-- Linking the last cell to another older neighbour. -/
theorem Linked.setOlder {f g : Nat → Option (Node α)} {older older' : Option Nat} :
    ∀ {cs : List (Cell α)} {newer : Option Nat}, Linked f newer older cs → (slotsOf cs).Nodup →
      (∀ s ∈ slotsOf cs, g s =
        if last? cs = some s then (f s).map fun n => { n with older := older' } else f s) →
      Linked g newer older' cs
  | [], _, _, _, _ => trivial
  | [c], _, h, _, hg => by
    refine ⟨?_, trivial⟩
    rw [hg c.slot (by simp), h.1]
    simp
  | c :: d :: cs, _, h, hd, hg => by
    have hd' := List.nodup_cons.1 hd
    refine ⟨?_, h.2.setOlder hd'.2 fun s hs => ?_⟩
    · have hne : last? (d :: cs) ≠ some c.slot := fun hl => hd'.1 (mem_of_last? hl)
      rw [hg c.slot (by simp), h.1]
      simp [hne]
    · rw [hg s (List.mem_cons_of_mem _ hs), last?_cons]

/-! ## The chain of a table -/

/-- The chain of a table runs through the cells, from `head` to `tail`. -/
structure Chained (r : Recency α) (cells : List (Cell α)) : Prop where
  linked : Linked r.node? none none cells
  head : r.head = first? cells
  tail : r.tail = last? cells
  nodup : (slotsOf cells).Nodup

namespace Chained

variable {r : Recency α} {pre post cells : List (Cell α)} {c : Cell α}

/-- A chain depends on the ends and on the slots it runs through only. -/
theorem congr {r' : Recency α} (h : Chained r cells) (hh : r'.head = r.head)
    (ht : r'.tail = r.tail) (hn : ∀ s ∈ slotsOf cells, r'.node? s = r.node? s) :
    Chained r' cells :=
  ⟨h.linked.frame hn, hh.trans h.head, ht.trans h.tail, h.nodup⟩

theorem node (h : Chained r (pre ++ c :: post)) :
    r.node? c.slot = some ⟨c.key, c.value, last? pre, first? post⟩ := by
  have := (linked_append.1 h.linked).2.1
  simpa using this

theorem node_isSome (h : Chained r cells) {s : Nat} (hs : s ∈ slotsOf cells) :
    (r.node? s).isSome := by
  obtain ⟨c, hc, rfl⟩ := List.mem_map.1 hs
  obtain ⟨pre, post, rfl⟩ := List.append_of_mem hc
  rw [h.node]
  rfl

theorem notMem_of_mid (h : Chained r (pre ++ c :: post)) :
    c.slot ∉ slotsOf pre ∧ c.slot ∉ slotsOf post := by
  have := h.nodup
  simp only [slotsOf_append, slotsOf_cons, List.nodup_append, List.nodup_cons] at this
  exact ⟨fun hc => this.2.2 _ hc _ List.mem_cons_self rfl, this.2.1.1⟩

/-- What the slots hold once a cell has been taken out. -/
theorem node?_unlink (h : Chained r (pre ++ c :: post)) (s : Nat) :
    (r.unlink c.slot).node? s =
      if s = c.slot then some ⟨c.key, c.value, none, none⟩
      else if last? pre = some s then (r.node? s).map fun n => { n with older := first? post }
      else if first? post = some s then (r.node? s).map fun n => { n with newer := last? pre }
      else r.node? s := by
  obtain ⟨hpre, hpost⟩ := h.notMem_of_mid
  have hdisj : ∀ t, last? pre = some t → first? post ≠ some t := by
    intro t h₁ h₂
    have hn := h.nodup
    simp only [slotsOf_append, slotsOf_cons, List.nodup_append] at hn
    exact hn.2.2 t (mem_of_last? h₁) t (List.mem_cons_of_mem _ (mem_of_first? h₂)) rfl
  simp only [Recency.unlink, h.node, Recency.node?_modify, Recency.node?_setNewer,
    Recency.node?_setOlder]
  by_cases hs : s = c.slot
  · subst hs
    have h₁ : last? pre ≠ some c.slot := fun hl => hpre (mem_of_last? hl)
    have h₂ : first? post ≠ some c.slot := fun hl => hpost (mem_of_first? hl)
    simp [h₁, h₂, h.node]
  · by_cases hl : last? pre = some s
    · simp [hs, Ne.symm hs, hl, hdisj s hl]
    · simp [hs, Ne.symm hs, hl]

/-- A cell out of the middle of the chain. -/
theorem unlink (h : Chained r (pre ++ c :: post)) :
    Chained (r.unlink c.slot) (pre ++ post) ∧
      (r.unlink c.slot).node? c.slot = some ⟨c.key, c.value, none, none⟩ := by
  obtain ⟨hpre, hpost⟩ := h.notMem_of_mid
  obtain ⟨hl₁, -, hl₂⟩ := linked_append.1 h.linked
  have hn := h.nodup
  simp only [slotsOf_append, slotsOf_cons, List.nodup_append, List.nodup_cons] at hn
  obtain ⟨hn₁, ⟨-, hn₂⟩, hn₃⟩ := hn
  have hne : ∀ {s}, s ∈ slotsOf pre ∨ s ∈ slotsOf post → s ≠ c.slot := by
    rintro s (hs | hs) rfl
    exacts [hpre hs, hpost hs]
  refine ⟨⟨linked_append.2 ⟨?_, ?_⟩, ?_, ?_, ?_⟩, ?_⟩
  · refine hl₁.setOlder hn₁ fun s hs => ?_
    have h₁ : first? post ≠ some s := fun hf =>
      hn₃ s hs s (List.mem_cons_of_mem _ (mem_of_first? hf)) rfl
    rw [h.node?_unlink, if_neg (hne (.inl hs)), if_neg h₁, Option.or_none]
  · refine hl₂.setNewer hn₂ fun s hs => ?_
    have h₁ : last? pre ≠ some s := fun hf =>
      hn₃ s (mem_of_last? hf) s (List.mem_cons_of_mem _ hs) rfl
    rw [h.node?_unlink, if_neg (hne (.inr hs)), if_neg h₁, Option.or_none]
  · simp only [Recency.unlink, h.node, Recency.head_modify, Recency.head_setNewer,
      Recency.head_setOlder, h.head]
    cases pre with
    | nil => simp
    | cons d ds => simp [last?, List.getLast?_cons]
  · simp only [Recency.unlink, h.node, Recency.tail_modify, Recency.tail_setNewer,
      Recency.tail_setOlder, h.tail, last?_append]
    cases post with
    | nil => simp
    | cons d ds => simp [last?, List.getLast?_cons]
  · simp only [slotsOf_append, List.nodup_append]
    exact ⟨hn₁, hn₂, fun s hs t ht => hn₃ s hs t (List.mem_cons_of_mem _ ht)⟩
  · rw [h.node?_unlink, if_pos rfl]

/-- Taking a cell out leaves the slots off the chain alone. -/
theorem unlink_off (h : Chained r (pre ++ c :: post)) {s : Nat}
    (hs : s ∉ slotsOf (pre ++ c :: post)) : (r.unlink c.slot).node? s = r.node? s := by
  simp only [slotsOf_append, slotsOf_cons, List.mem_append, List.mem_cons, not_or] at hs
  rw [h.node?_unlink, if_neg hs.2.1, if_neg fun hl => hs.1 (mem_of_last? hl),
    if_neg fun hf => hs.2.2 (mem_of_first? hf)]

/-- What the slots hold once an entry has been put before the chain. -/
theorem node?_pushFront (h : Chained r cells) (hc : c.slot ∉ slotsOf cells)
    {newer older : Option Nat} (hn : r.node? c.slot = some ⟨c.key, c.value, newer, older⟩)
    (s : Nat) :
    (r.pushFront c.slot).node? s =
      if s = c.slot then some ⟨c.key, c.value, none, first? cells⟩
      else if first? cells = some s then (r.node? s).map fun n => { n with newer := some c.slot }
      else r.node? s := by
  have hf : first? cells ≠ some c.slot := fun hf => hc (mem_of_first? hf)
  have hp : ∀ (r' : Recency α) (o : Option Nat), ({ r' with head := o } : Recency α).node? s =
      r'.node? s := fun _ _ => rfl
  simp only [Recency.pushFront, hp, Recency.node?_setNewer, Recency.node?_modify, h.head]
  by_cases hs : s = c.slot
  · subst hs
    simp [hf, hn]
  · simp [hs, Ne.symm hs]

/-- An entry off the chain becomes its first cell. -/
theorem pushFront (h : Chained r cells) (hc : c.slot ∉ slotsOf cells)
    {newer older : Option Nat} (hn : r.node? c.slot = some ⟨c.key, c.value, newer, older⟩) :
    Chained (r.pushFront c.slot) (c :: cells) := by
  refine ⟨⟨?_, h.linked.setNewer h.nodup fun s hs => ?_⟩, rfl, ?_, ?_⟩
  · rw [h.node?_pushFront hc hn, if_pos rfl, Option.or_none]
  · have hne : s ≠ c.slot := by
      rintro rfl
      exact hc hs
    rw [h.node?_pushFront hc hn, if_neg hne]
  · have ht : (r.pushFront c.slot).tail = if r.head = none then some c.slot else r.tail := by
      simp only [Recency.pushFront, Recency.tail_setNewer, Recency.tail_modify]
    rw [ht, h.head, h.tail]
    cases cells with
    | nil => simp
    | cons d ds => simp
  · simpa using ⟨hc, h.nodup⟩

/-- Putting an entry before the chain leaves the other slots off it alone. -/
theorem pushFront_off (h : Chained r cells) (hc : c.slot ∉ slotsOf cells)
    {newer older : Option Nat} (hn : r.node? c.slot = some ⟨c.key, c.value, newer, older⟩)
    {s : Nat} (hs : s ∉ slotsOf (c :: cells)) : (r.pushFront c.slot).node? s = r.node? s := by
  simp only [slotsOf_cons, List.mem_cons, not_or] at hs
  rw [h.node?_pushFront hc hn, if_neg hs.1, if_neg fun hf => hs.2 (mem_of_first? hf)]

end Chained

/-- The walk along linked cells finds their keys, if it may take as many steps. -/
theorem keysFrom_of_linked {r : Recency α} : ∀ {cells : List (Cell α)} {newer : Option Nat}
    {steps : Nat}, Linked r.node? newer none cells → cells.length ≤ steps →
      r.keysFrom steps (first? cells) = cells.map (·.key)
  | [], _, 0, _, _ => rfl
  | [], _, _ + 1, _, _ => rfl
  | c :: cs, _, steps + 1, h, hs => by
    have ih := keysFrom_of_linked h.2 (Nat.le_of_succ_le_succ hs)
    simp only [first?_cons, Recency.keysFrom, h.1, Option.or_none, ih, List.map_cons]

end Reckoner.Cache
