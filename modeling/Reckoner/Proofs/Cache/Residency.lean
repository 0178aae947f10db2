/-
  Which keys a cache holds, told from what was done to it.

  * `Lru.distinct`: keys, each where it was touched last; `mem_take_distinct`: a key is among
    the first of them iff few others were touched after it;
  * `touched?`, `storedFor?`, `sinceClear`, `touchedAfter`: what a command touches and stores,
    read off a past in which the latest command comes first;
  * `Recalls`: a list holds the keys touched last, each with the answers stored for it last;
    `Recalls.performOn`: every command preserves this;
  * `cached_iff`: **a key is cached iff answers were stored for it since the last clear, and
    fewer other keys than the capacity were touched after it**.
-/
import Mathlib.Data.Finset.Card
import Mathlib.Data.Finset.Dedup
import Mathlib.Data.List.TakeWhile
import Reckoner.Proofs.Cache.Inclusion

namespace Reckoner

/-! ## Keys in the order of their last touch -/

namespace Lru

variable {key : String} {keys : List String}

/-- The keys, each where it stands first. -/
def distinct : List String → List String
  | [] => []
  | key :: keys => key :: (distinct keys).filter (· != key)

theorem mem_distinct : key ∈ distinct keys ↔ key ∈ keys := by
  induction keys with
  | nil => rfl
  | cons k keys ih =>
    by_cases hk : key = k
    · simp [distinct, hk]
    · simp [distinct, hk, ih]

theorem nodup_distinct (keys : List String) : (distinct keys).Nodup := by
  induction keys with
  | nil => exact List.nodup_nil
  | cons k keys ih => exact List.nodup_cons.2 ⟨by simp, ih.filter _⟩

/-- What stands before a key stands before it once repetitions are dropped. -/
theorem distinct_takeWhile (key : String) (keys : List String) :
    distinct (keys.takeWhile (· != key)) = (distinct keys).takeWhile (· != key) := by
  induction keys with
  | nil => rfl
  | cons k keys ih =>
    by_cases hk : k = key
    · subst hk
      simp [distinct]
    · have hne : (k != key) = true := by simpa using hk
      have hor : (fun a => !(a != k) || a != key) = fun a => a != key := by
        funext a
        by_cases ha : a = k
        · subst ha
          simp [hne]
        · simp [ha]
      have hcons : ∀ ks : List String,
          (k :: ks).takeWhile (· != key) = k :: ks.takeWhile (· != key) :=
        fun ks => List.takeWhile_cons_of_pos hne
      rw [hcons, distinct, distinct, hcons, ih, List.takeWhile_filter, hor]

theorem length_distinct (keys : List String) : (distinct keys).length = keys.toFinset.card := by
  rw [← List.toFinset_card_of_nodup (nodup_distinct keys)]
  congr 1
  ext key
  simp [mem_distinct]

theorem takeWhile_before {before after : List String} (h : key ∉ before) :
    (before ++ key :: after).takeWhile (· != key) = before := by
  rw [List.takeWhile_append_of_pos fun k hk => by
    have hne : k ≠ key := fun he => h (he ▸ hk)
    simpa using hne]
  simp

/-- A key is among the first `n` iff fewer than `n` stand before it. -/
theorem mem_take_iff {n : Nat} :
    key ∈ keys.take n ↔ key ∈ keys ∧ (keys.takeWhile (· != key)).length < n := by
  by_cases hk : key ∈ keys
  · obtain ⟨before, after, rfl, hbefore⟩ := List.eq_append_cons_of_mem hk
    rw [takeWhile_before hbefore, and_iff_right hk, List.take_append, List.mem_append]
    constructor
    · rintro (h | h)
      · exact absurd (List.mem_of_mem_take h) hbefore
      · by_contra hle
        rw [Nat.sub_eq_zero_of_le (Nat.le_of_not_lt hle)] at h
        exact List.not_mem_nil h
    · intro hlt
      obtain ⟨m, hm⟩ : ∃ m, n - before.length = m + 1 := ⟨n - before.length - 1, by omega⟩
      rw [hm, List.take_succ_cons]
      exact .inr List.mem_cons_self
  · exact iff_of_false (fun h => hk (List.mem_of_mem_take h)) fun h => hk h.1

/-- A key is among the `n` touched last iff fewer than `n` others were touched after it. -/
theorem mem_take_distinct {n : Nat} :
    key ∈ (distinct keys).take n ↔
      key ∈ keys ∧ (keys.takeWhile (· != key)).toFinset.card < n := by
  rw [mem_take_iff, mem_distinct, ← distinct_takeWhile, length_distinct]

/-! ### The keys of a list once a pair has moved to its front -/

variable {α : Type} {value : α} {l : List (String × α)} {n : Nat}

theorem map_without (key : String) (l : List (String × α)) :
    (without key l).map (·.1) = (l.map (·.1)).filter (· != key) := by
  rw [List.filter_map]
  rfl

theorem filter_of_notMem (h : key ∉ keys) : keys.filter (· != key) = keys := by
  refine List.filter_eq_self.2 fun k hk => ?_
  have hne : k ≠ key := fun he => h (he ▸ hk)
  simpa using hne

/-- A key that is not among the first does not count among them. -/
theorem take_filter (hk : key ∉ keys.take n) : (keys.filter (· != key)).take n = keys.take n := by
  conv_lhs => rw [← List.take_append_drop n keys, List.filter_append, filter_of_notMem hk]
  by_cases hle : keys.length ≤ n
  · rw [List.drop_of_length_le hle, List.filter_nil, List.append_nil, List.take_take, Nat.min_self]
  · exact List.take_left' (by rw [List.length_take]; omega)

/-- The front takes the place of the key itself, where it is among the first. -/
theorem take_front (hd : keys.Nodup) (hk : key ∈ keys.take (n + 1)) :
    (keys.filter (· != key)).take n = (keys.take (n + 1)).filter (· != key) := by
  obtain ⟨hmem, hlt⟩ := mem_take_iff.1 hk
  obtain ⟨before, after, rfl⟩ := List.append_of_mem hmem
  rw [List.nodup_append, List.nodup_cons] at hd
  obtain ⟨-, ⟨hafter, -⟩, hapart⟩ := hd
  have hbefore : key ∉ before := fun h => hapart key h key List.mem_cons_self rfl
  rw [takeWhile_before hbefore] at hlt
  obtain ⟨m, rfl⟩ : ∃ m, n = before.length + m := ⟨n - before.length, by omega⟩
  have hdrop : ∀ ks : List String, key ∉ ks → (before ++ key :: ks).filter (· != key) =
      before ++ ks := by
    intro ks hks
    rw [List.filter_append, List.filter_cons_of_neg (by simp), filter_of_notMem hbefore,
      filter_of_notMem hks]
  rw [hdrop after hafter, Nat.add_assoc, List.take_length_add_append, List.take_length_add_append,
    List.take_succ_cons, hdrop _ fun h => hafter (List.mem_of_mem_take h)]

/-- The keys of a list that holds the first of `keys`, once a pair is put into it. -/
theorem keys_put {capacity : Nat} (hpos : 0 < capacity) (hd : keys.Nodup)
    (hl : l.map (·.1) = keys.take capacity) (key : String) (value : α) :
    (put capacity l key value).map (·.1) = (key :: keys.filter (· != key)).take capacity := by
  obtain ⟨n, rfl⟩ : ∃ n, capacity = n + 1 := ⟨capacity - 1, by omega⟩
  have hlength : l.length = (keys.take (n + 1)).length := by rw [← hl, List.length_map]
  have hnew (h : key ∉ keys.take (n + 1)) : (keys.filter (· != key)).take n = keys.take n :=
    take_filter fun hk => h (List.take_subset_take_left keys (Nat.le_succ n) hk)
  rw [List.length_take] at hlength
  rw [List.take_succ_cons]
  unfold put
  rw [hl]
  split_ifs with hk hroom
  · rw [take_front hd hk, List.map_cons, map_without, hl]
  · have hle : keys.length ≤ n := by omega
    rw [hnew hk, List.map_cons, hl, List.take_of_length_le hle,
      List.take_of_length_le (Nat.le_succ_of_le hle)]
  · have hmin : min (min (n + 1) keys.length - 1) (n + 1) = n := by omega
    rw [hnew hk, List.map_cons, List.map_dropLast, hl, List.dropLast_eq_take, List.length_take,
      List.take_take, hmin]

/-- In a list into which a pair was put its key has no other value. -/
theorem mem_put_of_nodup {capacity : Nat} (hd : (l.map (·.1)).Nodup) {p : String × α}
    (hp : p ∈ put capacity l key value) : p = (key, value) ∨ p ∈ l ∧ p.1 ≠ key := by
  obtain ⟨k, v⟩ := p
  by_cases hk : k = key
  · subst hk
    have hfront : (put capacity l k value).lookup k = some value := by
      unfold put
      split_ifs <;> simp
    have hvalue := (lookup_of_mem (nodup_put hd capacity k value) hp).symm.trans hfront
    exact .inl (by rw [Option.some.inj hvalue])
  · refine .inr ⟨(mem_put hp).resolve_left fun h => hk ?_, hk⟩
    exact congrArg Prod.fst h

/-- A lookup that finds a value does to a list what putting the value again would do. -/
theorem get?_eq_put (h : l.lookup key = some value) (capacity : Nat) :
    (get? l key).2 = put capacity l key value := by
  rw [get?_of_lookup h, put, if_pos (mem_keys_of_lookup h)]

end Lru

/-! ## The past of a cache -/

namespace ResultCache

/-- A command with what it returned. -/
abbrev Done := Command × Option (List Answer)

/-- The key that a command touches: that of the answers it stores, or of those it finds. -/
def touched? : Done → Option String
  | (.set query answers, _) =>
    if keyOf query = "" ∨ answers = [] then none else some (keyOf query)
  | (.get query, some _) => some (keyOf query)
  | _ => none

/-- The answers that a command stores for a key. -/
def storedFor? (key : String) : Done → Option (List Answer)
  | (.set query answers, out) =>
    if touched? (.set query answers, out) = some key then some answers else none
  | _ => none

/-- The command clears the cache. -/
def isClear : Done → Bool
  | (.clear, _) => true
  | _ => false

/-- What was done to a cache from the start on, latest first. -/
def past (c : ResultCache) (commands : List Command) : List Done :=
  (commands.zip (run perform c commands).1).reverse

/-- What was done since the last clear, of a past in which the latest comes first. -/
def sinceClear (done : List Done) : List Done := done.takeWhile fun d => !isClear d

/-- The keys touched after the last touch of a key. -/
def touchedAfter (key : String) (done : List Done) : List String :=
  (done.filterMap touched?).takeWhile (· != key)

/-- The keys touched since the last clear, latest first, each once. -/
def recent (done : List Done) : List String :=
  Lru.distinct ((sinceClear done).filterMap touched?)

theorem touched_of_stored {key : String} {d : Done} (h : (storedFor? key d).isSome) :
    touched? d = some key := by
  obtain ⟨command, out⟩ := d
  cases command with
  | set query answers =>
    by_contra hne
    simp [storedFor?, hne] at h
  | get query => cases h
  | clear => cases h

section
variable {d : Done} {done : List Done} (hclear : isClear d = false)
include hclear

theorem sinceClear_cons : sinceClear (d :: done) = d :: sinceClear done :=
  List.takeWhile_cons_of_pos (by simpa using hclear)

theorem recent_of_touched {key : String} (h : touched? d = some key) :
    recent (d :: done) = key :: (recent done).filter (· != key) := by
  rw [recent, sinceClear_cons hclear, List.filterMap_cons_some h, Lru.distinct]
  rfl

theorem recent_of_untouched (h : touched? d = none) : recent (d :: done) = recent done := by
  rw [recent, sinceClear_cons hclear, List.filterMap_cons_none h]
  rfl

end

/-! ## What a list recalls of its past -/

/-- The list holds the keys touched last since the last clear, as many as there is room for, each
with the answers stored for it last. -/
structure Recalls (capacity : Nat) (l : List (String × List Answer)) (done : List Done) :
    Prop where
  keys : l.map (·.1) = (recent done).take capacity
  answers : ∀ p ∈ l, done.findSome? (storedFor? p.1) = some p.2
  /-- a lookup finds only what was stored -/
  stored : ∀ key ∈ recent done, ∃ d ∈ sinceClear done, (storedFor? key d).isSome

namespace Recalls

variable {capacity : Nat} {l : List (String × List Answer)} {done : List Done} {d : Done}
  {key : String} {value : List Answer}

theorem nil (capacity : Nat) (h : sinceClear done = []) : Recalls capacity [] done where
  keys := by simp [recent, h, Lru.distinct]
  answers := nofun
  stored := by simp [recent, h, Lru.distinct]

theorem nodup (h : Recalls capacity l done) : (l.map (·.1)).Nodup := by
  rw [h.keys]
  exact (Lru.nodup_distinct _).sublist (List.take_sublist _ _)

/-- A command that touches no key. -/
theorem pass (h : Recalls capacity l done) (hclear : isClear d = false)
    (hd : touched? d = none) : Recalls capacity l (d :: done) where
  keys := by rw [recent_of_untouched hclear hd, h.keys]
  answers p hp := by
    have hnot : storedFor? p.1 d = none := by
      rw [← Option.not_isSome_iff_eq_none]
      intro hsome
      cases hd.symm.trans (touched_of_stored hsome)
    rw [List.findSome?_cons, hnot]
    exact h.answers p hp
  stored key hk := by
    rw [recent_of_untouched hclear hd] at hk
    obtain ⟨e, he, hsome⟩ := h.stored key hk
    rw [sinceClear_cons hclear]
    exact ⟨e, List.mem_cons_of_mem d he, hsome⟩

/-- A command that touches a key, with the answers stored for it last. -/
theorem touch (h : Recalls capacity l done) (hpos : 0 < capacity) (hclear : isClear d = false)
    (hd : touched? d = some key)
    (hvalue : (d :: done).findSome? (storedFor? key) = some value)
    (hstored : ∃ e ∈ sinceClear (d :: done), (storedFor? key e).isSome) :
    Recalls capacity (Lru.put capacity l key value) (d :: done) where
  keys := by
    rw [recent_of_touched hclear hd]
    exact Lru.keys_put hpos (Lru.nodup_distinct _) h.keys key value
  answers p hp := by
    rcases Lru.mem_put_of_nodup h.nodup hp with rfl | ⟨hp, hne⟩
    · exact hvalue
    · have hnot : storedFor? p.1 d = none := by
        rw [← Option.not_isSome_iff_eq_none]
        intro hsome
        exact hne (Option.some.inj ((touched_of_stored hsome).symm.trans hd))
      rw [List.findSome?_cons, hnot]
      exact h.answers p hp
  stored k hk := by
    rw [recent_of_touched hclear hd] at hk
    rcases List.mem_cons.1 hk with rfl | hk
    · exact hstored
    · obtain ⟨e, he, hsome⟩ := h.stored k (List.mem_of_mem_filter hk)
      rw [sinceClear_cons hclear]
      exact ⟨e, List.mem_cons_of_mem d he, hsome⟩

/-- **A list recalls its past after one more command.** -/
theorem performOn (h : Recalls capacity l done) (hpos : 0 < capacity) (k : Command) :
    Recalls capacity (performOn capacity l k).2
      ((k, (ResultCache.performOn capacity l k).1) :: done) := by
  cases k with
  | set query answers =>
    simp only [ResultCache.performOn]
    split_ifs with hskip
    · exact h.pass rfl (by rw [touched?, if_pos hskip])
    · have htouched : touched? (.set query answers, none) = some (keyOf query) := by
        rw [touched?, if_neg hskip]
      have hstored : storedFor? (keyOf query) (.set query answers, none) = some answers := by
        rw [storedFor?, if_pos htouched]
      refine h.touch hpos rfl htouched ?_ ⟨_, ?_, Option.isSome_of_eq_some hstored⟩
      · rw [List.findSome?_cons, hstored]
      · rw [sinceClear_cons rfl]
        exact List.mem_cons_self
  | get query =>
    simp only [ResultCache.performOn]
    by_cases hk : keyOf query ∈ l.map (·.1)
    · obtain ⟨value, hvalue⟩ := Lru.lookup_isSome_of_mem h.nodup hk
      have hget := Lru.get?_eq_put hvalue capacity
      rw [Lru.get?_of_lookup hvalue] at hget ⊢
      rw [hget]
      have hanswers := h.answers _ (Lru.mem_of_lookup hvalue)
      rw [h.keys] at hk
      obtain ⟨e, he, hsome⟩ := h.stored _ (List.mem_of_mem_take hk)
      refine h.touch hpos rfl rfl ?_ ⟨e, ?_, hsome⟩
      · rw [List.findSome?_cons]
        exact hanswers
      · rw [sinceClear_cons rfl]
        exact List.mem_cons_of_mem _ he
    · rw [Lru.get?_of_notMem hk]
      exact h.pass rfl rfl
  | clear => exact nil capacity rfl

/-- Which keys a list holds, by what was stored and touched. -/
theorem mem_keys_iff (h : Recalls capacity l done) :
    key ∈ l.map (·.1) ↔ (∃ d ∈ sinceClear done, (storedFor? key d).isSome) ∧
      (touchedAfter key done).toFinset.card < capacity := by
  have hsplit : done.filterMap touched? = (sinceClear done).filterMap touched? ++
      (done.dropWhile fun d => !isClear d).filterMap touched? := by
    rw [← List.filterMap_append, sinceClear, List.takeWhile_append_dropWhile]
  -- once a key was touched since the last clear, what was before it does not matter
  have hafter (hk : key ∈ (sinceClear done).filterMap touched?) :
      touchedAfter key done = ((sinceClear done).filterMap touched?).takeWhile (· != key) := by
    obtain ⟨before, after, heq, hbefore⟩ := List.eq_append_cons_of_mem hk
    rw [touchedAfter, hsplit, heq, List.append_assoc, List.cons_append,
      Lru.takeWhile_before hbefore, Lru.takeWhile_before hbefore]
  rw [h.keys, recent, Lru.mem_take_distinct]
  constructor
  · rintro ⟨hk, hfew⟩
    rw [hafter hk]
    exact ⟨h.stored key (Lru.mem_distinct.2 hk), hfew⟩
  · rintro ⟨⟨d, hd, hsome⟩, hfew⟩
    have hk : key ∈ (sinceClear done).filterMap touched? :=
      List.mem_filterMap.2 ⟨d, hd, touched_of_stored hsome⟩
    rw [hafter hk] at hfew
    exact ⟨hk, hfew⟩

end Recalls

/-- The list that a new cache shows recalls what was done to the cache. -/
theorem recalls_run (capacity : Nat) (hpos : 0 < capacity) (commands : List Command) :
    Recalls capacity (run (performOn capacity) [] commands).2
      (past ⟨capacity, {}, hpos⟩ commands) := by
  have hstep : ∀ l done k, Recalls capacity l done →
      Recalls capacity (performOn capacity l k).2 ((k, (performOn capacity l k).1) :: done) :=
    fun l done k h => h.performOn hpos k
  have hnil : Recalls capacity [] [] := .nil capacity rfl
  have hrecalls := run_records hstep hnil commands
  rw [List.append_nil] at hrecalls
  rw [past, (run_shows (Shows.empty capacity hpos) commands).1]
  exact hrecalls

/-- **When a key is cached, and with what.** After any commands a cache holds a key iff answers
were stored for it since the last clear and fewer different keys than the capacity were touched
after its own last touch, by a command that stored answers or by a lookup that found some. A
query whose key is cached finds the answers stored for it last. -/
theorem cached_iff (capacity : Nat) (hpos : 0 < capacity) :
    ∃ c, ofCapacity capacity = .ok c ∧ ∀ commands : List Command,
      (∀ key, key ∈ (run perform c commands).2.keys ↔
        (∃ d ∈ sinceClear (c.past commands), (storedFor? key d).isSome) ∧
          (touchedAfter key (c.past commands)).toFinset.card < capacity) ∧
      ∀ query, keyOf query ∈ (run perform c commands).2.keys →
        ∃ answers, (c.past commands).findSome? (storedFor? (keyOf query)) = some answers ∧
          ((run perform c commands).2.get? query).1 = some answers := by
  refine ⟨⟨capacity, {}, hpos⟩, dif_pos hpos, fun commands => ?_⟩
  have hshows := (run_shows (Shows.empty capacity hpos) commands).2
  have hrecalls := recalls_run capacity hpos commands
  refine ⟨fun key => ?_, fun query hk => ?_⟩
  · rw [hshows.keys]
    exact hrecalls.mem_keys_iff
  · rw [hshows.keys] at hk
    obtain ⟨answers, hanswers⟩ := Lru.get?_of_mem hk
    have hstored := hrecalls.answers (keyOf query, answers) (Lru.mem_of_get? hanswers)
    refine ⟨answers, hstored, ?_⟩
    rw [(hshows.get? query).1]
    exact hanswers

/-- A key looked up since stays; the one that two others were touched after is gone. -/
theorem cached_iff_two :
    0 < 2 ∧ ∃ c, ofCapacity 2 = .ok c ∧
      "a" ∈ (run perform c [.set "a" [.failure "a" ""], .set "b" [.failure "b" ""], .get "A",
        .set "c" [.failure "c" ""]]).2.keys ∧
      "b" ∉ (run perform c [.set "a" [.failure "a" ""], .set "b" [.failure "b" ""], .get "A",
        .set "c" [.failure "c" ""]]).2.keys := by
  obtain ⟨c, hc, h⟩ := cached_iff 2 (by decide)
  obtain ⟨hiff, -⟩ := h [.set "a" [.failure "a" ""], .set "b" [.failure "b" ""], .get "A",
    .set "c" [.failure "c" ""]]
  refine ⟨by decide, c, hc, ?_⟩
  obtain rfl : ⟨2, {}, by decide⟩ = c := Except.ok.inj hc
  rw [hiff, hiff, past, (run_shows (Shows.empty 2 (by decide)) _).1]
  refine ⟨⟨⟨(.set "a" [.failure "a" ""], none), ?_, rfl⟩, by decide⟩, fun hb => ?_⟩
  · exact .tail _ (.tail _ (.tail _ (.head _)))
  · exact absurd hb.2 (by decide)

end ResultCache

end Reckoner
