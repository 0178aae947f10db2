/-
  What a table holds.

  * `Holds`: the chain of a table runs through a list of cells, the index knows the slot of
    each and nothing else, and all other slots are free;
  * `Holds.promote`, `Holds.remove`, `Holds.insertFront`: what each change of the table does
    to the list;
  * `Holds.keys`, `Holds.index_eq_none`: the keys and the absent keys in terms of the list.
-/
import Mathlib.Data.List.Perm.Basic
import Mathlib.Data.List.Range
import Reckoner.Proofs.Cache.Chain

namespace Reckoner.Cache

variable {α : Type}

/-- The table holds the cells, the latest used first. -/
structure Holds (r : Recency α) (cells : List (Cell α)) : Prop where
  chained : Chained r cells
  index : ∀ key slot, r.index[key]? = some slot ↔ ∃ c ∈ cells, c.key = key ∧ c.slot = slot
  size : r.index.size = cells.length
  /-- every slot is either free or in the chain, and stands there once -/
  slots : (r.free ++ slotsOf cells).Perm (List.range r.slots.size)
  vacant : ∀ s ∈ r.free, r.node? s = none

theorem holds_empty : Holds ({} : Recency α) [] where
  chained := ⟨trivial, rfl, rfl, List.nodup_nil⟩
  index := by simp
  size := by simp
  slots := by simp
  vacant := by simp

namespace Holds

variable {r : Recency α} {pre post cells : List (Cell α)} {c : Cell α}

/-! ## What the index knows -/

theorem index_mid (h : Holds r (pre ++ c :: post)) : r.index[c.key]? = some c.slot :=
  (h.index _ _).2 ⟨c, by simp, rfl, rfl⟩

theorem exists_cell (h : Holds r cells) {key : String} {slot : Nat}
    (hk : r.index[key]? = some slot) :
    ∃ pre c post, cells = pre ++ c :: post ∧ c.key = key ∧ c.slot = slot := by
  obtain ⟨c, hc, hck, hcs⟩ := (h.index key slot).1 hk
  obtain ⟨pre, post, hcells⟩ := List.append_of_mem hc
  exact ⟨pre, c, post, hcells, hck, hcs⟩

theorem index_eq_none (h : Holds r cells) {key : String} :
    r.index[key]? = none ↔ key ∉ cells.map (·.key) := by
  constructor
  · intro hk hm
    obtain ⟨c, hc, rfl⟩ := List.mem_map.1 hm
    have := (h.index c.key c.slot).2 ⟨c, hc, rfl, rfl⟩
    simp [hk] at this
  · intro hm
    cases hi : r.index[key]? with
    | none => rfl
    | some slot =>
      obtain ⟨c, hc, hck, -⟩ := (h.index key slot).1 hi
      exact absurd (List.mem_map.2 ⟨c, hc, hck⟩) hm

/-- No two cells have the same key: the index knows one slot for it. -/
theorem keys_nodup (h : Holds r cells) : (cells.map (·.key)).Nodup := by
  rw [List.Nodup, List.pairwise_map]
  refine (List.pairwise_map.1 h.chained.nodup).imp_of_mem ?_
  intro c d hc hd hne hk
  have h₁ := (h.index c.key c.slot).2 ⟨c, hc, rfl, rfl⟩
  have h₂ := (h.index c.key d.slot).2 ⟨d, hd, hk.symm, rfl⟩
  exact hne (Option.some.inj (h₁.symm.trans h₂))

theorem key_notMem (h : Holds r (pre ++ c :: post)) :
    c.key ∉ pre.map (·.key) ∧ c.key ∉ post.map (·.key) := by
  have := h.keys_nodup
  simp only [List.map_append, List.map_cons, List.nodup_append, List.nodup_cons] at this
  exact ⟨fun hc => this.2.2 _ hc _ List.mem_cons_self rfl, this.2.1.1⟩

/-- A free slot is not in the chain. -/
theorem off_of_free (h : Holds r cells) {s : Nat} (hs : s ∈ r.free) : s ∉ slotsOf cells := by
  intro hm
  have := h.chained.node_isSome hm
  simp [h.vacant s hs] at this

theorem length_le (h : Holds r cells) : cells.length ≤ r.slots.size := by
  have := h.slots.length_eq
  simp only [List.length_append, List.length_range, slotsOf, List.length_map] at this
  omega

/-- The keys of a table are those of its cells, in their order. -/
theorem keys (h : Holds r cells) : r.keys = cells.map (·.key) := by
  rw [Recency.keys, h.chained.head]
  exact keysFrom_of_linked h.chained.linked h.length_le

/-! ## What the changes do -/

/-- A cell found becomes the first. -/
theorem promote (h : Holds r (pre ++ c :: post)) :
    Holds (r.promote c.slot) (c :: (pre ++ post)) := by
  unfold Recency.promote
  split_ifs with hh
  · -- the first cell is the one found, or its slot would stand in the chain twice
    have hpre : pre = [] := by
      cases pre with
      | nil => rfl
      | cons d ds =>
        have hf : d.slot = c.slot := by simpa [h.chained.head] using hh
        exact absurd (by simp [← hf]) h.chained.notMem_of_mid.1
    subst hpre
    exact h
  · obtain ⟨hu, hn⟩ := h.chained.unlink
    have hc : c.slot ∉ slotsOf (pre ++ post) := by
      simpa using h.chained.notMem_of_mid
    have hs := (Recency.sameStore_unlink r c.slot).trans (Recency.sameStore_pushFront _ c.slot)
    refine ⟨hu.pushFront hc hn, fun key slot => ?_, ?_, ?_, fun s hfree => ?_⟩
    · rw [hs.index, h.index]
      simp only [List.mem_append, List.mem_cons]
      exact exists_congr fun d => and_congr_left' (by tauto)
    · rw [hs.index, h.size]
      simp only [List.length_append, List.length_cons]
      omega
    · rw [hs.free, hs.size]
      refine List.Perm.trans (List.Perm.append_left _ ?_) h.slots
      simpa using List.perm_middle.symm
    · rw [hs.free] at hfree
      have hoff := h.off_of_free hfree
      have hoff' : s ∉ slotsOf (c :: (pre ++ post)) := by
        simp only [slotsOf_cons, slotsOf_append, List.mem_cons, List.mem_append] at hoff ⊢
        tauto
      rw [hu.pushFront_off hc hn hoff', h.chained.unlink_off hoff, h.vacant s hfree]

/-- What a table is once a cell has been removed. -/
theorem remove_eq (h : Holds r (pre ++ c :: post)) :
    r.remove c.slot =
      { r.unlink c.slot with
        slots := (r.unlink c.slot).slots.modify c.slot fun _ => none
        index := r.index.erase c.key
        free := c.slot :: r.free } := by
  have hs := Recency.sameStore_unlink r c.slot
  simp [Recency.remove, h.chained.unlink.2, hs.index, hs.free]

theorem node?_remove (h : Holds r (pre ++ c :: post)) (s : Nat) :
    (r.remove c.slot).node? s = if s = c.slot then none else (r.unlink c.slot).node? s := by
  rw [h.remove_eq]
  simp only [Recency.node?, Array.getElem?_modify, eq_comm (a := c.slot)]
  split_ifs
  · cases (r.unlink c.slot).slots[s]? <;> rfl
  · rfl

theorem index_remove (h : Holds r (pre ++ c :: post)) (key : String) (slot : Nat) :
    (r.index.erase c.key)[key]? = some slot ↔ ∃ d ∈ pre ++ post, d.key = key ∧ d.slot = slot := by
  obtain ⟨hk₁, hk₂⟩ := h.key_notMem
  have hk : ∀ d ∈ pre ++ post, d.key ≠ c.key := fun d hd he => by
    rcases List.mem_append.1 hd with hd | hd
    · exact hk₁ (List.mem_map.2 ⟨d, hd, he⟩)
    · exact hk₂ (List.mem_map.2 ⟨d, hd, he⟩)
  rw [Std.HashMap.getElem?_erase]
  by_cases he : c.key = key
  · subst he
    simp only [BEq.rfl, if_true, reduceCtorEq, false_iff]
    rintro ⟨d, hd, hkey, -⟩
    exact hk d hd hkey
  · rw [if_neg (by simpa using he), h.index]
    constructor
    · rintro ⟨d, hd, hkey, hslot⟩
      have hne : d ≠ c := fun hdc => he (hdc ▸ hkey)
      exact ⟨d, by simpa [hne] using hd, hkey, hslot⟩
    · rintro ⟨d, hd, h'⟩
      refine ⟨d, ?_, h'⟩
      simp only [List.mem_append, List.mem_cons] at hd ⊢
      exact hd.imp_right .inr

/-- A cell found is taken out, and its slot is free. -/
theorem remove (h : Holds r (pre ++ c :: post)) : Holds (r.remove c.slot) (pre ++ post) := by
  obtain ⟨hu, -⟩ := h.chained.unlink
  have hc : c.slot ∉ slotsOf (pre ++ post) := by
    simpa using h.chained.notMem_of_mid
  refine ⟨hu.congr ?_ ?_ fun s hm => ?_, fun key slot => ?_, ?_, ?_, fun s hm => ?_⟩
  · rw [h.remove_eq]
  · rw [h.remove_eq]
  · have hne : s ≠ c.slot := by
      rintro rfl
      exact hc hm
    rw [h.node?_remove, if_neg hne]
  · rw [h.remove_eq]
    exact h.index_remove key slot
  · have hm : c.key ∈ r.index := by
      rw [Std.HashMap.mem_iff_isSome_getElem?, h.index_mid]
      rfl
    rw [h.remove_eq, Std.HashMap.size_erase, if_pos hm, h.size]
    simp only [List.length_append, List.length_cons]
    omega
  · rw [h.remove_eq]
    simp only [Array.size_modify, (Recency.sameStore_unlink r c.slot).size]
    refine List.Perm.trans ?_ h.slots
    simp only [slotsOf_append, slotsOf_cons, List.cons_append]
    rw [← List.append_assoc, ← List.append_assoc]
    exact List.perm_middle.symm
  · rw [h.remove_eq] at hm
    rw [h.node?_remove]
    split_ifs with hs
    · rfl
    · have hfree : s ∈ r.free := (List.mem_cons.1 hm).resolve_left hs
      rw [h.chained.unlink_off (h.off_of_free hfree), h.vacant s hfree]

/-- A slot is found for a new entry, and only that slot changes. -/
theorem store (h : Holds r cells) (n : Node α) : ∃ r' slot, r.store n = (r', slot) ∧
    slot ∉ slotsOf cells ∧ r'.node? slot = some n ∧ (∀ s, s ≠ slot → r'.node? s = r.node? s) ∧
    r'.head = r.head ∧ r'.tail = r.tail ∧ r'.index = r.index ∧ slot ∉ r'.free ∧
    (∀ s ∈ r'.free, s ∈ r.free) ∧
    (r'.free ++ slot :: slotsOf cells).Perm (List.range r'.slots.size) := by
  have hnodup : (r.free ++ slotsOf cells).Nodup := h.slots.nodup_iff.2 List.nodup_range
  cases hf : r.free with
  | nil =>
    have hslots := h.slots
    rw [hf, List.nil_append] at hslots
    refine ⟨{ r with slots := r.slots.push (some n) }, r.slots.size, by simp [Recency.store, hf],
      fun hm => ?_, by simp [Recency.node?], fun s hne => ?_, rfl, rfl, rfl, by simp [hf],
      by simp [hf], ?_⟩
    · have := hslots.mem_iff.1 hm
      simp at this
    · simp [Recency.node?, Array.getElem?_push, hne]
    · simp only [hf, List.nil_append, Array.size_push, List.range_succ]
      exact (List.Perm.cons _ hslots).trans (List.perm_append_singleton _ _).symm
  | cons slot free =>
    have hslots := h.slots
    rw [hf] at hslots hnodup
    have hlt : slot < r.slots.size := by
      simpa using hslots.mem_iff.1 (List.mem_append_left _ List.mem_cons_self)
    simp only [List.cons_append, List.nodup_cons, List.mem_append, not_or] at hnodup
    refine ⟨{ r with slots := r.slots.modify slot fun _ => some n, free }, slot,
      by simp [Recency.store, hf], hnodup.1.2, ?_, fun s hne => ?_, rfl, rfl, rfl, hnodup.1.1,
      fun s hm => List.mem_cons_of_mem _ hm, ?_⟩
    · simp only [Recency.node?, Array.getElem?_modify, if_true]
      rw [Array.getElem?_eq_getElem hlt]
      rfl
    · simp [Recency.node?, Array.getElem?_modify, hne.symm]
    · simp only [Array.size_modify]
      exact List.perm_middle.trans hslots

/-- A new entry is the first cell, in some slot. -/
theorem insertFront (h : Holds r cells) {key : String} (hk : key ∉ cells.map (·.key)) (value : α) :
    ∃ slot, Holds (r.insertFront key value) (⟨slot, key, value⟩ :: cells) := by
  obtain ⟨r', slot, hst, hslot, hn, hoff, hhead, htail, hindex, hfree, hsub, hperm⟩ :=
    h.store { key, value }
  have hins : r.insertFront key value =
      ({ r' with index := r'.index.insert key slot } : Recency α).pushFront slot := by
    simp [Recency.insertFront, hst]
  have hc : Chained ({ r' with index := r'.index.insert key slot } : Recency α) cells :=
    h.chained.congr hhead htail fun s hm => hoff s fun he => hslot (he ▸ hm)
  have hs := Recency.sameStore_pushFront ({ r' with index := r'.index.insert key slot } : Recency α)
    slot
  refine ⟨slot, ?_⟩
  rw [hins]
  refine ⟨hc.pushFront (c := ⟨slot, key, value⟩) hslot hn, fun key' slot' => ?_, ?_, ?_, ?_⟩
  · rw [hs.index, Std.HashMap.getElem?_insert, hindex]
    by_cases he : key = key'
    · subst he
      simp only [BEq.rfl, if_true, Option.some.injEq, List.mem_cons]
      constructor
      · rintro rfl
        exact ⟨_, .inl rfl, rfl, rfl⟩
      · rintro ⟨d, rfl | hd, hkey, hd'⟩
        · exact hd'
        · exact absurd (List.mem_map.2 ⟨d, hd, hkey⟩) hk
    · rw [if_neg (by simpa using he), h.index]
      simp only [List.mem_cons]
      constructor
      · rintro ⟨d, hd, h'⟩
        exact ⟨d, .inr hd, h'⟩
      · rintro ⟨d, rfl | hd, hkey, h'⟩
        · exact absurd hkey he
        · exact ⟨d, hd, hkey, h'⟩
  · have hm : key ∉ r.index := by
      rw [Std.HashMap.mem_iff_isSome_getElem?, h.index_eq_none.2 hk]
      simp
    rw [hs.index, Std.HashMap.size_insert, hindex, if_neg hm, h.size]
    rfl
  · rw [hs.free, hs.size]
    exact hperm
  · intro s hm
    rw [hs.free] at hm
    have hne : s ≠ slot := fun he => hfree (he ▸ hm)
    have hcell := h.off_of_free (hsub s hm)
    rw [hc.pushFront_off (c := ⟨slot, key, value⟩) hslot hn (by simp [hne, hcell])]
    exact (hoff s hne).trans (h.vacant s (hsub s hm))

end Holds

end Reckoner.Cache
