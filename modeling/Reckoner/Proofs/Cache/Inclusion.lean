/-
  A larger cache holds whatever a smaller one holds.

  * `Lru.Nested`: the list of a smaller cache is part of that of a larger one, in the same
    order, and the whole of it until the smaller is full;
  * `Nested.put`, `Nested.get?`: a command preserves this, also where it changes only one of
    the lists or drops a key from only one of them;
  * `larger_keeps_hits`: **whatever is found in the smaller cache is found in the larger**.
-/
import Mathlib.Data.List.Nodup
import Reckoner.Proofs.Cache.Lru

namespace Reckoner

namespace Lru

variable {α : Type} {key : String} {value : α} {l m : List (String × α)}

/-! ## Lists in which a key stands once -/

theorem without_sublist (key : String) (l : List (String × α)) : (without key l).Sublist l :=
  List.filter_sublist

theorem notMem_without (key : String) (l : List (String × α)) :
    key ∉ (without key l).map (·.1) := by
  intro h
  obtain ⟨p, hp, rfl⟩ := List.mem_map.1 h
  simp [without] at hp

/-- A key of the list stands in one pair, between others without it. -/
theorem exists_split (hd : (l.map (·.1)).Nodup) (hk : key ∈ l.map (·.1)) :
    ∃ l₁ value l₂, l = l₁ ++ (key, value) :: l₂ ∧ key ∉ l₁.map (·.1) ∧ key ∉ l₂.map (·.1) := by
  obtain ⟨⟨k, value⟩, hp, rfl⟩ := List.mem_map.1 hk
  obtain ⟨l₁, l₂, rfl⟩ := List.append_of_mem hp
  simp only [List.map_append, List.map_cons, List.nodup_append, List.nodup_cons] at hd
  obtain ⟨-, ⟨hl₂, -⟩, hl₁⟩ := hd
  exact ⟨l₁, value, l₂, rfl, fun h => hl₁ k h k List.mem_cons_self rfl, hl₂⟩

theorem lookup_of_mem (hd : (l.map (·.1)).Nodup) (h : (key, value) ∈ l) :
    l.lookup key = some value := by
  obtain ⟨l₁, l₂, rfl⟩ := List.append_of_mem h
  simp only [List.map_append, List.map_cons, List.nodup_append, List.nodup_cons] at hd
  obtain ⟨-, ⟨hl₂, -⟩, hl₁⟩ := hd
  exact (split_of_notMem (fun h => hl₁ key h key List.mem_cons_self rfl) hl₂).1

theorem length_without (hd : (l.map (·.1)).Nodup) (hk : key ∈ l.map (·.1)) :
    (without key l).length + 1 = l.length := by
  obtain ⟨l₁, value, l₂, rfl, h₁, h₂⟩ := exists_split hd hk
  rw [(split_of_notMem h₁ h₂).2]
  simp +arith

/-- A list with another pair at its front, where its key is new. -/
theorem nodup_front {rest : List (String × α)} (hd : (l.map (·.1)).Nodup)
    (hrest : rest.Sublist l) (hk : key ∉ rest.map (·.1)) (value : α) :
    (((key, value) :: rest).map (·.1)).Nodup :=
  List.nodup_cons.2 ⟨hk, hd.sublist (hrest.map _)⟩

theorem nodup_put (hd : (l.map (·.1)).Nodup) (capacity : Nat) (key : String) (value : α) :
    ((put capacity l key value).map (·.1)).Nodup := by
  unfold put
  split_ifs with hk hroom
  · exact nodup_front hd (without_sublist key l) (notMem_without key l) value
  · exact nodup_front hd (List.Sublist.refl l) hk value
  · have hlast := List.dropLast_sublist l
    exact nodup_front hd hlast (fun h => hk ((hlast.map _).subset h)) value

theorem get?_of_lookup (h : l.lookup key = some value) :
    get? l key = (some value, (key, value) :: without key l) := by
  rw [get?, h]

theorem get?_of_notMem (h : key ∉ l.map (·.1)) : get? l key = (none, l) := by
  rw [get?, lookup_of_notMem h]

theorem mem_keys_of_lookup (h : l.lookup key = some value) : key ∈ l.map (·.1) :=
  List.mem_map.2 ⟨_, mem_of_lookup h, rfl⟩

theorem lookup_isSome_of_mem (hd : (l.map (·.1)).Nodup) (hk : key ∈ l.map (·.1)) :
    ∃ value, l.lookup key = some value := by
  obtain ⟨⟨k, value⟩, hp, rfl⟩ := List.mem_map.1 hk
  exact ⟨value, lookup_of_mem hd hp⟩

/-! ## A list within a longer one -/

theorem dropLast_sublist_dropLast {l m : List α} (h : l.Sublist m) :
    l.dropLast.Sublist m.dropLast := by
  have htail := h.reverse.tail
  rw [List.tail_reverse, List.tail_reverse] at htail
  exact List.reverse_sublist.1 htail

/-- The list of a cache with `room` for keys within that of a larger cache. -/
structure Nested (room : Nat) (small large : List (String × α)) : Prop where
  sublist : small.Sublist large
  distinct : (large.map (·.1)).Nodup
  /-- nothing has given way in a cache that is not full -/
  same : small.length < room → small = large

theorem Nested.nil (room : Nat) : Nested room ([] : List (String × α)) [] :=
  ⟨List.Sublist.refl _, List.nodup_nil, fun _ => rfl⟩

section
variable {room room' : Nat} (h : Nested room l m)
include h

theorem Nested.distinct_small : (l.map (·.1)).Nodup := h.distinct.sublist (h.sublist.map _)

theorem Nested.mem (hk : key ∈ l.map (·.1)) : key ∈ m.map (·.1) := (h.sublist.map _).subset hk

/-- A key that only the larger list has shows that the smaller is full. -/
theorem Nested.full (hk : key ∉ l.map (·.1)) (hk' : key ∈ m.map (·.1)) : room ≤ l.length := by
  refine Nat.le_of_not_lt fun hlt => hk ?_
  rwa [h.same hlt]

/-- A key of both lists moves to the front of both. -/
theorem Nested.promote (hk : key ∈ l.map (·.1)) (value : α) :
    Nested room ((key, value) :: without key l) ((key, value) :: without key m) where
  sublist := (h.sublist.filter _).cons_cons _
  distinct := nodup_front h.distinct (without_sublist key m) (notMem_without key m) value
  same hlt := by
    rw [List.length_cons, length_without h.distinct_small hk] at hlt
    rw [h.same hlt]

/-- A key of the larger list alone moves to its front. -/
theorem Nested.promote_large (hk : key ∉ l.map (·.1)) (hk' : key ∈ m.map (·.1)) (value : α) :
    Nested room l ((key, value) :: without key m) where
  sublist := by
    have hsub := h.sublist.filter fun p => p.1 != key
    exact (without_of_notMem hk ▸ hsub : l.Sublist (without key m)).cons _
  distinct := nodup_front h.distinct (without_sublist key m) (notMem_without key m) value
  same hlt := absurd (h.full hk hk') (Nat.not_le.2 hlt)

/-- What is stored goes to the front of both lists, whatever gives way for it. -/
theorem Nested.put (hroom : 0 < room) (hle : room ≤ room') (key : String) (value : α) :
    Nested room (Lru.put room l key value) (Lru.put room' m key value) := by
  have hdistinct := nodup_put h.distinct room' key value
  by_cases hk : key ∈ l.map (·.1)
  · have hnested := h.promote hk value
    rw [Lru.put, Lru.put, if_pos hk, if_pos (h.mem hk)]
    exact hnested
  by_cases hfull : room ≤ l.length
  · -- the smaller list drops its last key and stays full
    have hput : Lru.put room l key value = (key, value) :: l.dropLast := by
      rw [Lru.put, if_neg hk, if_neg (Nat.not_lt.2 hfull)]
    have hlast : l.dropLast.Sublist l := List.dropLast_sublist l
    rw [hput]
    refine ⟨?_, hdistinct, fun hlt => ?_⟩
    · unfold Lru.put
      split_ifs with hk' hroom'
      · have hsub := h.sublist.filter fun p => p.1 != key
        exact (hlast.trans (without_of_notMem hk ▸ hsub)).cons_cons _
      · exact (hlast.trans h.sublist).cons_cons _
      · exact (dropLast_sublist_dropLast h.sublist).cons_cons _
    · rw [List.length_cons, List.length_dropLast] at hlt
      omega
  · -- neither list is full, and they are the same
    have hlt := Nat.lt_of_not_le hfull
    obtain rfl := h.same hlt
    have hput : ∀ n, room ≤ n → Lru.put n l key value = (key, value) :: l := fun n hn => by
      rw [Lru.put, if_neg hk, if_pos (Nat.lt_of_lt_of_le hlt hn)]
    rw [hput room' hle] at hdistinct ⊢
    rw [hput room (Nat.le_refl room)]
    exact ⟨List.Sublist.refl _, hdistinct, fun _ => rfl⟩

/-- What a lookup finds in the smaller list it finds in the larger. -/
theorem Nested.get? (key : String) :
    (∀ value, (Lru.get? l key).1 = some value → (Lru.get? m key).1 = some value) ∧
      Nested room (Lru.get? l key).2 (Lru.get? m key).2 := by
  by_cases hk : key ∈ l.map (·.1)
  · obtain ⟨value, hvalue⟩ := lookup_isSome_of_mem h.distinct_small hk
    have hvalue' := lookup_of_mem h.distinct (h.sublist.subset (mem_of_lookup hvalue))
    rw [get?_of_lookup hvalue, get?_of_lookup hvalue']
    exact ⟨fun _ h => h, h.promote hk value⟩
  · rw [get?_of_notMem hk]
    refine ⟨nofun, ?_⟩
    by_cases hk' : key ∈ m.map (·.1)
    · obtain ⟨value, hvalue⟩ := lookup_isSome_of_mem h.distinct hk'
      rw [get?_of_lookup hvalue]
      exact h.promote_large hk hk' value
    · rw [get?_of_notMem hk']
      exact h

end

end Lru

/-! ## Two caches -/

namespace ResultCache

variable {room room' : Nat} {l m : List (String × List Answer)}

/-- A command keeps a list within a longer one, and returns from the longer whatever it returns
from the other. -/
theorem nested_performOn (hroom : 0 < room) (hle : room ≤ room') (h : Lru.Nested room l m)
    (k : Command) :
    (∀ answers, (performOn room l k).1 = some answers → (performOn room' m k).1 = some answers) ∧
      Lru.Nested room (performOn room l k).2 (performOn room' m k).2 := by
  have hnothing : ∀ found : Option (List Answer), ∀ answers,
      none = some answers → found = some answers := by
    intro _ _ h
    cases h
  cases k with
  | set query answers =>
    simp only [performOn]
    refine ⟨hnothing none, ?_⟩
    split_ifs with hskip
    · exact h
    · exact h.put hroom hle (keyOf query) answers
  | get query => exact h.get? (keyOf query)
  | clear => exact ⟨hnothing none, .nil room⟩

/-- The same commands on two lists, of which the second has at least as much room. -/
theorem nested_run (hroom : 0 < room) (hle : room ≤ room') (commands : List Command) :
    List.Forall₂ (fun found found' => ∀ answers, found = some answers → found' = some answers)
        (run (performOn room) [] commands).1 (run (performOn room') [] commands).1 ∧
      Lru.Nested room (run (performOn room) [] commands).2
        (run (performOn room') [] commands).2 := by
  have hstep := fun l m k (h : Lru.Nested room l m) => nested_performOn hroom hle h k
  exact run_relates hstep (.nil room) commands

/-- A stored query finds the same in a cache that shows a list and in one that shows a longer. -/
theorem get?_of_nested {c d : ResultCache} (h : Lru.Nested room l m) (hc : Shows c l)
    (hd : Shows d m) {query : String} (hk : keyOf query ∈ c.keys) :
    ∃ answers, (c.get? query).1 = some answers ∧ (d.get? query).1 = some answers := by
  rw [hc.keys] at hk
  obtain ⟨answers, hanswers⟩ := Lru.get?_of_mem hk
  rw [(hc.get? query).1, (hd.get? query).1]
  exact ⟨answers, hanswers, (h.get? (keyOf query)).1 answers hanswers⟩

/-- **A larger cache never loses a hit.** Two caches, the second at least as large as the first,
carry out the same commands. After any number of them the keys of the first stand among those of
the second in the same order, a query that is stored in both has the same answers in both, and
each lookup on the way that found answers in the first found them in the second. -/
theorem larger_keeps_hits (small large : Nat) (hsmall : 0 < small) (hle : small ≤ large) :
    ∃ c d, ofCapacity small = .ok c ∧ ofCapacity large = .ok d ∧ ∀ commands : List Command,
      (run perform c commands).2.keys.Sublist (run perform d commands).2.keys ∧
        (∀ query, keyOf query ∈ (run perform c commands).2.keys →
          ∃ answers, ((run perform c commands).2.get? query).1 = some answers ∧
            ((run perform d commands).2.get? query).1 = some answers) ∧
        List.Forall₂ (fun found found' => ∀ answers, found = some answers → found' = some answers)
          (run perform c commands).1 (run perform d commands).1 := by
  have hlarge : 0 < large := Nat.lt_of_lt_of_le hsmall hle
  refine ⟨⟨small, {}, hsmall⟩, ⟨large, {}, hlarge⟩, dif_pos hsmall, dif_pos hlarge,
    fun commands => ?_⟩
  obtain ⟨hout, hc⟩ := run_shows (Shows.empty small hsmall) commands
  obtain ⟨hout', hd⟩ := run_shows (Shows.empty large hlarge) commands
  obtain ⟨houts, hnested⟩ := nested_run hsmall hle commands
  refine ⟨?_, fun query hk => get?_of_nested hnested hc hd hk, ?_⟩
  · rw [hc.keys, hd.keys]
    exact hnested.sublist.map _
  · rw [hout, hout']
    exact houts

/-- The smaller cache has dropped `a`, which the larger moves to the front; `b` is in both. -/
theorem larger_keeps_hits_two :
    0 < 1 ∧ 1 ≤ 2 ∧ ∃ c d, ofCapacity 1 = .ok c ∧ ofCapacity 2 = .ok d ∧
      ["b"].Sublist (run perform d [.set "a" [.failure "a" ""], .set "b" [.failure "b" ""],
        .get "A"]).2.keys := by
  obtain ⟨c, d, hc, hd, h⟩ := larger_keeps_hits 1 2 (by decide) (by decide)
  obtain ⟨hsub, -, -⟩ := h [.set "a" [.failure "a" ""], .set "b" [.failure "b" ""], .get "A"]
  refine ⟨by decide, by decide, c, d, hc, hd, ?_⟩
  obtain rfl : ⟨1, {}, by decide⟩ = c := Except.ok.inj hc
  rwa [(run_shows (Shows.empty 1 (by decide)) _).2.keys] at hsub

end ResultCache

end Reckoner
