/-
  The cache of answers as a list of pairs in the order of their last use.

  * `Lru.get?`, `Lru.put`: looking up a key and giving a key a value in such a list;
  * `Shows`: a cache shows a list of keys with their answers;
  * `Shows.get?`, `Shows.set`, `Shows.clear`: what each command does to the list shown;
  * `run_refines`: **a cache carries out every sequence of commands as the list does**; it
    returns the same answers, and its keys and its size are those of the list.
-/
import Mathlib.Data.List.Forall2
import Reckoner.Cache
import Reckoner.Proofs.Cache.Table

namespace Reckoner

/-! ## Runs of commands -/

section
variable {σ τ κ ρ : Type}

/-- Carries out commands one after another: what each returns, and the state at the end. -/
def run (step : σ → κ → ρ × σ) (s : σ) : List κ → List ρ × σ
  | [] => ([], s)
  | k :: ks =>
    let (out, s) := step s k
    let (outs, s) := run step s ks
    (out :: outs, s)

/-- What every command preserves holds at the end of a run. -/
theorem run_preserves {step : σ → κ → ρ × σ} {P : σ → Prop}
    (hstep : ∀ s k, P s → P (step s k).2) {s : σ} (hs : P s) (ks : List κ) :
    P (run step s ks).2 := by
  induction ks generalizing s with
  | nil => exact hs
  | cons k ks ih => exact ih (hstep s k hs)

/-- Related states that return related results and stay related at each command do so over a
run. -/
theorem run_relates {step : σ → κ → ρ × σ} {step' : τ → κ → ρ × τ} {R : σ → τ → Prop}
    {Q : ρ → ρ → Prop}
    (hstep : ∀ s t k, R s t → Q (step s k).1 (step' t k).1 ∧ R (step s k).2 (step' t k).2)
    {s : σ} {t : τ} (hst : R s t) (ks : List κ) :
    List.Forall₂ Q (run step s ks).1 (run step' t ks).1 ∧
      R (run step s ks).2 (run step' t ks).2 := by
  induction ks generalizing s t with
  | nil => exact ⟨.nil, hst⟩
  | cons k ks ih =>
    obtain ⟨hout, hst'⟩ := hstep s t k hst
    obtain ⟨houts, hend⟩ := ih hst'
    exact ⟨.cons hout houts, hend⟩

/-- Related states that return the same and stay related at each command do so over a run. -/
theorem run_simulates {step : σ → κ → ρ × σ} {step' : τ → κ → ρ × τ} {R : σ → τ → Prop}
    (hstep : ∀ s t k, R s t → (step s k).1 = (step' t k).1 ∧ R (step s k).2 (step' t k).2)
    {s : σ} {t : τ} (hst : R s t) (ks : List κ) :
    (run step s ks).1 = (run step' t ks).1 ∧ R (run step s ks).2 (run step' t ks).2 := by
  have h := run_relates hstep hst ks
  rwa [List.forall₂_eq_eq_eq] at h

/-- What every command preserves of a state and its past holds at the end of a run; the past is
what was done and what it returned, latest first. -/
theorem run_records {step : σ → κ → ρ × σ} {P : σ → List (κ × ρ) → Prop}
    (hstep : ∀ s past k, P s past → P (step s k).2 ((k, (step s k).1) :: past))
    {s : σ} {past : List (κ × ρ)} (hs : P s past) (ks : List κ) :
    P (run step s ks).2 ((ks.zip (run step s ks).1).reverse ++ past) := by
  induction ks generalizing s past with
  | nil => exact hs
  | cons k ks ih =>
    have hend := ih (hstep s past k hs)
    rwa [List.append_cons, ← List.reverse_cons] at hend

end

/-! ## Lists in the order of use -/

namespace Lru

variable {α : Type}

/-- The pairs with another key. -/
def without (key : String) (l : List (String × α)) : List (String × α) :=
  l.filter fun p => p.1 != key

/-- The value of a key, which becomes the latest used; a key without a value changes
nothing. -/
def get? (l : List (String × α)) (key : String) : Option α × List (String × α) :=
  match l.lookup key with
  | some value => (some value, (key, value) :: without key l)
  | none => (none, l)

/-- Gives a key a value and makes it the latest used. A new key takes the place of the
earliest used one in a full list; a key with a value takes its own. -/
def put (capacity : Nat) (l : List (String × α)) (key : String) (value : α) :
    List (String × α) :=
  if key ∈ l.map (·.1) then (key, value) :: without key l
  else if l.length < capacity then (key, value) :: l
  else (key, value) :: l.dropLast

theorem without_of_notMem {key : String} {l : List (String × α)} (h : key ∉ l.map (·.1)) :
    without key l = l := by
  refine List.filter_eq_self.2 fun p hp => ?_
  have hne : p.1 ≠ key := fun he => h (List.mem_map.2 ⟨p, hp, he⟩)
  simpa using hne

theorem lookup_of_notMem {key : String} {l : List (String × α)} (h : key ∉ l.map (·.1)) :
    l.lookup key = none := by
  refine List.lookup_eq_none_iff.2 fun p hp => ?_
  have hne : key ≠ p.1 := fun he => h (List.mem_map.2 ⟨p, hp, he.symm⟩)
  simpa using hne

/-- Nothing enters a list but the pair put into it. -/
theorem mem_put {capacity : Nat} {l : List (String × α)} {key : String} {value : α}
    {p : String × α} (h : p ∈ put capacity l key value) : p = (key, value) ∨ p ∈ l := by
  unfold put at h
  split_ifs at h
  · exact (List.mem_cons.1 h).imp_right fun h => (List.mem_filter.1 h).1
  · exact List.mem_cons.1 h
  · exact (List.mem_cons.1 h).imp_right fun h => List.dropLast_subset _ h

theorem mem_of_lookup {l : List (String × α)} {key : String} {value : α}
    (h : l.lookup key = some value) : (key, value) ∈ l := by
  obtain ⟨l₁, l₂, rfl, -⟩ := List.lookup_eq_some_iff.1 h
  exact List.mem_append_right l₁ List.mem_cons_self

theorem mem_of_get? {l : List (String × α)} {key : String} {value : α}
    (h : (get? l key).1 = some value) : (key, value) ∈ l := by
  refine mem_of_lookup ?_
  rw [← h, get?]
  cases l.lookup key <;> rfl

theorem get?_of_mem {l : List (String × α)} {key : String} (h : key ∈ l.map (·.1)) :
    ∃ value, (get? l key).1 = some value := by
  cases hlookup : l.lookup key with
  | some value => exact ⟨value, by rw [get?, hlookup]⟩
  | none =>
    obtain ⟨p, hp, rfl⟩ := List.mem_map.1 h
    have := List.lookup_eq_none_iff.1 hlookup p hp
    simp at this

/-- A lookup brings nothing new into a list. -/
theorem mem_get? {l : List (String × α)} {key : String} {p : String × α}
    (h : p ∈ (get? l key).2) : p ∈ l := by
  unfold get? at h
  split at h
  · next value hlookup =>
    rcases List.mem_cons.1 h with rfl | h
    · exact mem_of_lookup hlookup
    · exact (List.mem_filter.1 h).1
  · exact h

/-- A pair between others without its key: its value is found, and the others stay. -/
theorem split_of_notMem {key : String} {value : α} {l l' : List (String × α)}
    (h : key ∉ l.map (·.1)) (h' : key ∉ l'.map (·.1)) :
    (l ++ (key, value) :: l').lookup key = some value ∧
      without key (l ++ (key, value) :: l') = l ++ l' := by
  constructor
  · rw [List.lookup_append, lookup_of_notMem h]
    simp
  · have hw := without_of_notMem h
    have hw' := without_of_notMem h'
    unfold without at hw hw' ⊢
    rw [List.filter_append, List.filter_cons, hw, hw']
    simp

end Lru

/-! ## The list that a cache shows -/

namespace ResultCache

open Cache

/-- The keys of cells with their values. -/
def pairsOf {α : Type} (cells : List (Cell α)) : List (String × α) :=
  cells.map fun c => (c.key, c.value)

@[simp] theorem pairsOf_append {α : Type} (xs ys : List (Cell α)) :
    pairsOf (xs ++ ys) = pairsOf xs ++ pairsOf ys := List.map_append

@[simp] theorem pairsOf_cons {α : Type} (c : Cell α) (cs : List (Cell α)) :
    pairsOf (c :: cs) = (c.key, c.value) :: pairsOf cs := rfl

@[simp] theorem keys_pairsOf {α : Type} (cells : List (Cell α)) :
    (pairsOf cells).map (·.1) = cells.map (·.key) := by
  simp [pairsOf]

@[simp] theorem length_pairsOf {α : Type} (cells : List (Cell α)) :
    (pairsOf cells).length = cells.length := by
  simp [pairsOf]

/-- The cache shows the keys with their answers, the latest used first. -/
structure Shows (c : ResultCache) (l : List (String × List Answer)) : Prop where
  held : ∃ cells, Holds c.entries cells ∧ pairsOf cells = l
  length_le : l.length ≤ c.capacity
  nonempty : ∀ p ∈ l, p.1 ≠ ""

/-- The pair of a cell, found and taken out. -/
theorem split_pairsOf {r : Recency (List Answer)} {pre post : List (Cell (List Answer))}
    {d : Cell (List Answer)} (h : Holds r (pre ++ d :: post)) :
    (pairsOf (pre ++ d :: post)).lookup d.key = some d.value ∧
      Lru.without d.key (pairsOf (pre ++ d :: post)) = pairsOf (pre ++ post) := by
  obtain ⟨hpre, hpost⟩ := h.key_notMem
  rw [pairsOf_append, pairsOf_append, pairsOf_cons]
  exact Lru.split_of_notMem (by rwa [keys_pairsOf]) (by rwa [keys_pairsOf])

/-- A key that has answers gives up its old cell. -/
theorem makeRoom_of_mem {c : ResultCache} {pre post : List (Cell (List Answer))}
    {d : Cell (List Answer)} (h : Holds c.entries (pre ++ d :: post)) (answers : List Answer) :
    Holds (c.makeRoom d.key) (pre ++ post) ∧
      Lru.put c.capacity (pairsOf (pre ++ d :: post)) d.key answers =
        (d.key, answers) :: pairsOf (pre ++ post) := by
  refine ⟨?_, ?_⟩
  · simpa only [makeRoom, h.index_mid] using h.remove
  · rw [Lru.put, if_pos (by simp), (split_pairsOf h).2]

/-- A new key takes the place of the last cell of a full cache. -/
theorem makeRoom_of_full {c : ResultCache} {pre : List (Cell (List Answer))}
    {d : Cell (List Answer)} (h : Holds c.entries (pre ++ [d]))
    (hfull : c.capacity ≤ (pre ++ [d]).length) {key : String}
    (hk : key ∉ (pre ++ [d]).map (·.key)) (answers : List Answer) :
    Holds (c.makeRoom key) pre ∧
      Lru.put c.capacity (pairsOf (pre ++ [d])) key answers = (key, answers) :: pairsOf pre := by
  refine ⟨?_, ?_⟩
  · have hsize : c.entries.size ≥ c.capacity := by
      rw [Recency.size, h.size]
      exact hfull
    have htail : c.entries.tail = some d.slot := by
      simpa [last?] using h.chained.tail
    have hr := h.remove
    rw [List.append_nil] at hr
    simpa only [makeRoom, h.index_eq_none.2 hk, if_pos hsize, htail] using hr
  · rw [Lru.put, if_neg (by rwa [keys_pairsOf]), if_neg (by rw [length_pairsOf]; omega)]
    simp [pairsOf]

/-- A new key finds room in a cache that is not full. -/
theorem makeRoom_of_room {c : ResultCache} {cells : List (Cell (List Answer))}
    (h : Holds c.entries cells) (hroom : cells.length < c.capacity) {key : String}
    (hk : key ∉ cells.map (·.key)) (answers : List Answer) :
    Holds (c.makeRoom key) cells ∧
      Lru.put c.capacity (pairsOf cells) key answers = (key, answers) :: pairsOf cells := by
  refine ⟨?_, ?_⟩
  · have hsize : ¬ c.entries.size ≥ c.capacity := by
      rw [Recency.size, h.size]
      omega
    simpa only [makeRoom, h.index_eq_none.2 hk, if_neg hsize] using h
  · rw [Lru.put, if_neg (by rwa [keys_pairsOf]), if_pos (by rwa [length_pairsOf])]

/-- Room is made for a key as the list does it. -/
theorem makeRoom_holds {c : ResultCache} {cells : List (Cell (List Answer))}
    (h : Holds c.entries cells) (hle : cells.length ≤ c.capacity) (key : String)
    (answers : List Answer) :
    ∃ cells', Holds (c.makeRoom key) cells' ∧ key ∉ cells'.map (·.key) ∧
      cells'.length < c.capacity ∧
      Lru.put c.capacity (pairsOf cells) key answers = (key, answers) :: pairsOf cells' := by
  cases hi : c.entries.index[key]? with
  | some slot =>
    obtain ⟨pre, d, post, rfl, rfl, -⟩ := h.exists_cell hi
    obtain ⟨hr, hput⟩ := makeRoom_of_mem h answers
    refine ⟨pre ++ post, hr, by simpa using h.key_notMem, ?_, hput⟩
    simp only [List.length_append, List.length_cons] at hle ⊢
    omega
  | none =>
    have hk := h.index_eq_none.1 hi
    by_cases hfull : cells.length < c.capacity
    · obtain ⟨hr, hput⟩ := makeRoom_of_room h hfull hk answers
      exact ⟨cells, hr, hk, hfull, hput⟩
    · -- a full cache has a last cell, for its capacity is positive
      have hne : cells ≠ [] := by
        rintro rfl
        exact hfull c.positive
      obtain ⟨pre, d, rfl⟩ : ∃ pre d, cells = pre ++ [d] :=
        ⟨_, _, (List.dropLast_append_getLast hne).symm⟩
      obtain ⟨hr, hput⟩ := makeRoom_of_full h (Nat.le_of_not_lt hfull) hk answers
      refine ⟨pre, hr, fun hm => hk ?_, ?_, hput⟩
      · rw [List.map_append]
        exact List.mem_append_left _ hm
      · simp only [List.length_append, List.length_singleton] at hle
        omega

namespace Shows

variable {c : ResultCache} {l : List (String × List Answer)}

theorem empty (capacity : Nat) (h : 0 < capacity) : Shows ⟨capacity, {}, h⟩ [] :=
  ⟨⟨[], holds_empty, rfl⟩, Nat.zero_le _, by simp⟩

theorem clear (c : ResultCache) : Shows c.clear [] := empty c.capacity c.positive

theorem keys (h : Shows c l) : c.keys = l.map (·.1) := by
  obtain ⟨cells, hc, rfl⟩ := h.held
  rw [ResultCache.keys, hc.keys, keys_pairsOf]

theorem size (h : Shows c l) : c.size = l.length := by
  obtain ⟨cells, hc, rfl⟩ := h.held
  rw [ResultCache.size, Recency.size, hc.size, length_pairsOf]

/-- Looking up a query looks up its key in the list. -/
theorem get? (h : Shows c l) (query : String) :
    (c.get? query).1 = (Lru.get? l (keyOf query)).1 ∧
      Shows (c.get? query).2 (Lru.get? l (keyOf query)).2 := by
  obtain ⟨cells, hc, rfl⟩ := h.held
  unfold ResultCache.get? Lru.get?
  by_cases hblank : keyOf query = ""
  · have hm : keyOf query ∉ (pairsOf cells).map (·.1) := by
      rw [hblank, List.mem_map]
      rintro ⟨p, hp, he⟩
      exact h.nonempty p hp he
    simpa [hblank, Lru.lookup_of_notMem (hblank ▸ hm)] using h
  · simp only [String.isEmpty_iff, hblank, if_false]
    cases hi : c.entries.index[keyOf query]? with
    | none =>
      have hk := hc.index_eq_none.1 hi
      rw [Lru.lookup_of_notMem (by simpa using hk)]
      exact ⟨rfl, h⟩
    | some slot =>
      obtain ⟨pre, d, post, rfl, hkey, rfl⟩ := hc.exists_cell hi
      have hp := hc.promote
      obtain ⟨hlookup, hwithout⟩ := split_pairsOf hc
      rw [← hkey, hlookup, hwithout]
      refine ⟨?_, ⟨_, hp, by rw [pairsOf_cons, hkey]⟩, ?_, fun p hm => ?_⟩
      · exact congrArg (Option.map (·.value)) hp.chained.linked.1
      · have := h.length_le
        simp only [length_pairsOf, List.length_append, List.length_cons] at this ⊢
        omega
      · refine h.nonempty p ((List.perm_middle.map _).mem_iff.2 ?_)
        exact hm

/-- Storing answers puts them into the list, unless there is no key or no answer. -/
theorem set (h : Shows c l) (query : String) (answers : List Answer) :
    Shows (c.set query answers)
      (if keyOf query = "" ∨ answers = [] then l
        else Lru.put c.capacity l (keyOf query) answers) := by
  unfold ResultCache.set
  by_cases hskip : keyOf query = "" ∨ answers = []
  · simpa [hskip] using h
  · obtain ⟨cells, hc, rfl⟩ := h.held
    have hlen : cells.length ≤ c.capacity := by simpa using h.length_le
    obtain ⟨cells', hc', hk, hlt, hput⟩ := makeRoom_holds hc hlen (keyOf query) answers
    obtain ⟨slot, hins⟩ := hc'.insertFront hk answers
    have hb : ((keyOf query).isEmpty || answers.isEmpty) = false := by
      simpa [not_or] using hskip
    rw [if_neg hskip]
    simp only [hb, Bool.false_eq_true, if_false]
    refine ⟨⟨_, hins, hput.symm⟩, ?_, fun p hm => ?_⟩
    · rw [hput, List.length_cons, length_pairsOf]
      exact hlt
    · rcases Lru.mem_put hm with rfl | hp
      · exact (not_or.1 hskip).1
      · exact h.nonempty p hp

end Shows

/-! ## Sequences of commands -/

/-- What a cache can be asked to do. -/
inductive Command where
  | set (query : String) (answers : List Answer)
  | get (query : String)
  | clear

/-- Carries out a command; only a lookup returns something. -/
def perform (c : ResultCache) : Command → Option (List Answer) × ResultCache
  | .set query answers => (none, c.set query answers)
  | .get query => c.get? query
  | .clear => (none, c.clear)

/-- Carries out a command on a list in the order of use, with room for `capacity` keys. -/
def performOn (capacity : Nat) (l : List (String × List Answer)) :
    Command → Option (List Answer) × List (String × List Answer)
  | .set query answers =>
    (none, if keyOf query = "" ∨ answers = [] then l else Lru.put capacity l (keyOf query) answers)
  | .get query => Lru.get? l (keyOf query)
  | .clear => (none, [])

theorem capacity_set (c : ResultCache) (query : String) (answers : List Answer) :
    (c.set query answers).capacity = c.capacity := by
  unfold set
  dsimp only
  split_ifs <;> rfl

theorem capacity_get? (c : ResultCache) (query : String) :
    (c.get? query).2.capacity = c.capacity := by
  unfold get?
  dsimp only
  split_ifs
  · rfl
  · split <;> rfl

theorem capacity_perform (c : ResultCache) (k : Command) :
    (c.perform k).2.capacity = c.capacity := by
  cases k with
  | set query answers =>
    simp only [perform]
    exact capacity_set c query answers
  | get query =>
    simp only [perform]
    exact capacity_get? c query
  | clear => rfl

/-- A command does to a cache what it does to the list shown. -/
theorem Shows.perform {c : ResultCache} {l : List (String × List Answer)} (h : Shows c l)
    (k : Command) :
    (c.perform k).1 = (performOn c.capacity l k).1 ∧
      Shows (c.perform k).2 (performOn c.capacity l k).2 := by
  cases k with
  | set query answers =>
    simp only [ResultCache.perform, performOn]
    exact ⟨trivial, h.set query answers⟩
  | get query =>
    simp only [ResultCache.perform, performOn]
    exact h.get? query
  | clear =>
    simp only [ResultCache.perform, performOn]
    exact ⟨trivial, Shows.clear c⟩

/-- Over a run a cache returns what the list returns, and shows it at the end. -/
theorem run_shows {c : ResultCache} {l : List (String × List Answer)} (h : Shows c l)
    (commands : List Command) :
    (run perform c commands).1 = (run (performOn c.capacity) l commands).1 ∧
      Shows (run perform c commands).2 (run (performOn c.capacity) l commands).2 := by
  have hstep : ∀ (d : ResultCache) m k, d.capacity = c.capacity ∧ Shows d m →
      (d.perform k).1 = (performOn c.capacity m k).1 ∧
        (d.perform k).2.capacity = c.capacity ∧
          Shows (d.perform k).2 (performOn c.capacity m k).2 := by
    rintro d m k ⟨hcap, hs⟩
    obtain ⟨hout, hs'⟩ := hs.perform k
    rw [← hcap]
    exact ⟨hout, capacity_perform d k, hs'⟩
  obtain ⟨hout, -, hs⟩ := run_simulates hstep ⟨rfl, h⟩ commands
  exact ⟨hout, hs⟩

/-- **A cache carries out every sequence of commands as a list in the order of use does**: it
returns the same, and afterwards its keys and its size are those of the list. -/
theorem run_refines (capacity : Nat) (h : 0 < capacity) :
    ∃ c, ofCapacity capacity = .ok c ∧ ∀ commands : List Command,
      (run perform c commands).1 = (run (performOn capacity) [] commands).1 ∧
        (run perform c commands).2.keys = (run (performOn capacity) [] commands).2.map (·.1) ∧
        (run perform c commands).2.size = (run (performOn capacity) [] commands).2.length ∧
        (run (performOn capacity) [] commands).2.length ≤ capacity := by
  have hstep : ∀ (c : ResultCache) l k, c.capacity = capacity ∧ Shows c l →
      (c.perform k).1 = (performOn capacity l k).1 ∧
        (c.perform k).2.capacity = capacity ∧ Shows (c.perform k).2 (performOn capacity l k).2 := by
    rintro c l k ⟨rfl, hs⟩
    obtain ⟨hout, hs'⟩ := hs.perform k
    exact ⟨hout, capacity_perform c k, hs'⟩
  refine ⟨⟨capacity, {}, h⟩, dif_pos h, fun commands => ?_⟩
  obtain ⟨hout, hcap, hs⟩ := run_simulates hstep ⟨rfl, Shows.empty capacity h⟩ commands
  exact ⟨hout, hs.keys, hs.size, hs.length_le.trans hcap.le⟩

/-- With room for two keys, a third one takes the place of the one not looked up since. -/
theorem run_refines_two :
    0 < 2 ∧ ∃ c, ofCapacity 2 = .ok c ∧
      (run perform c [.set "a" [.failure "a" ""], .set " B" [.failure "b" ""], .get "A",
        .set "c" [.failure "c" ""]]).2.keys = ["c", "a"] := by
  obtain ⟨c, hc, h⟩ := run_refines 2 (by decide)
  exact ⟨by decide, c, hc, (h _).2.1.trans rfl⟩

end ResultCache

end Reckoner
