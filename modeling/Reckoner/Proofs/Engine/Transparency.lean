/-
  The cache does not show in the answers.

  * `Engine.Operation`, `Engine.perform`: what an engine can be asked to do;
  * `Faithful`: every stored pair is the key of a query that may be stored, and its answer;
  * `IsFaithful.perform`: every operation keeps the cache faithful to what the engine would
    answer now;
  * `IsFaithful.query_agrees`: such an engine answers a query as it would without a cache;
  * `run_transparent`: **so it is after any sequence of operations on a new engine**.
-/
import Reckoner.Proofs.Cache.Lru
import Reckoner.Proofs.Engine.Agreement

namespace Reckoner

open Text
open ResultCache (keyOf Shows)

/-! ## Operations -/

namespace Engine

/-- What an engine can be asked to do. -/
inductive Operation where
  | query (text : String)
  | evaluate (text : String)
  | evaluateExpression (text : String)
  | classify (text : String)
  | priority (text : String)
  | lookup (text : String)
  | clear
  | reconfigure (settings : Settings)

/-- What an operation returns. -/
inductive Reply where
  | answers (answers : List Answer)
  | answer (answer : Answer)
  | classification (classification : Query.Classification)
  | domains (domains : List Domain)
  | stored (answers : Option (List Answer))
  | done
  | refused (error : SetupError)

/-- Carries out an operation; settings out of range are refused and change nothing. -/
def perform (e : Engine) : Operation → Reply × Engine
  | .query text => (.answers (e.query text).1, (e.query text).2)
  | .evaluate text => (.answer (e.evaluate text), e)
  | .evaluateExpression text => (.answer (e.evaluateExpression text), e)
  | .classify text => (.classification (Query.classify text), e)
  | .priority text => (.domains (Query.priority text), e)
  | .lookup text => (.stored (e.lookup text).1, (e.lookup text).2)
  | .clear => (.done, e.clear)
  | .reconfigure settings =>
    match e.reconfigure settings with
    | .ok e => (.done, e)
    | .error f => (.refused f, e)

end Engine

/-! ## Faithful caches -/

section
variable {answer : String → Answer} {capacity : Nat} {c : ResultCache}

/-- A pair that may be stored: a query that is not dynamic, and its answer, which is no
failure. -/
def Storable (answer : String → Answer) (p : String × List Answer) : Prop :=
  ∃ q, p = (keyOf q, [answer q]) ∧ isDynamic q = false ∧ (answer q).isError = false

/-- The cache holds what `answer` gives, and no more than it has room for. -/
structure Faithful (answer : String → Answer) (capacity : Nat) (c : ResultCache) : Prop where
  room : c.capacity = capacity
  shown : ∃ l, Shows c l ∧ ∀ p ∈ l, Storable answer p

namespace Faithful

/-- An empty cache is faithful to whatever the answers are. -/
theorem clear (h : Faithful answer capacity c) (answer' : String → Answer) :
    Faithful answer' capacity c.clear :=
  ⟨h.room, [], Shows.clear c, nofun⟩

theorem size_le (h : Faithful answer capacity c) : c.size ≤ capacity := by
  obtain ⟨l, hl, -⟩ := h.shown
  rw [hl.size, ← h.room]
  exact hl.length_le

/-- A lookup only changes the order of the pairs. -/
theorem get? (h : Faithful answer capacity c) (q : String) :
    Faithful answer capacity (c.get? q).2 := by
  obtain ⟨l, hl, hstorable⟩ := h.shown
  refine ⟨(ResultCache.capacity_get? c q).trans h.room, _, (hl.get? q).2, ?_⟩
  intro p hp
  exact hstorable p (Lru.mem_get? hp)

/-- An answer that may be stored is. -/
theorem set (h : Faithful answer capacity c) {q : String} (hq : isDynamic q = false)
    (herror : (answer q).isError = false) : Faithful answer capacity (c.set q [answer q]) := by
  obtain ⟨l, hl, hstorable⟩ := h.shown
  refine ⟨(ResultCache.capacity_set c q _).trans h.room, _, hl.set q _, ?_⟩
  intro p hp
  by_cases hskip : keyOf q = "" ∨ [answer q] = []
  · rw [if_pos hskip] at hp
    exact hstorable p hp
  · rw [if_neg hskip] at hp
    rcases Lru.mem_put hp with rfl | hp
    · exact ⟨q, rfl, hq, herror⟩
    · exact hstorable p hp

/-- What is stored for a query agrees with its answer. -/
theorem get?_eq_some (h : Faithful answer capacity c)
    (hanswer : ∀ q q', keyOf q = keyOf q' → (answer q).Agrees (answer q')) {q : String}
    {answers : List Answer} (hget : (c.get? q).1 = some answers) :
    isDynamic q = false ∧ ∃ a, answers = [a] ∧ a.isError = false ∧ a.Agrees (answer q) := by
  obtain ⟨l, hl, hstorable⟩ := h.shown
  rw [(hl.get? q).1] at hget
  obtain ⟨q', hp, hdynamic, herror⟩ := hstorable _ (Lru.mem_of_get? hget)
  obtain ⟨hkey, hanswers⟩ := Prod.mk.inj hp
  exact ⟨(isDynamic_congr hkey).trans hdynamic, _, hanswers, herror, hanswer q' q hkey.symm⟩

/-- Every key is that of a query that is not dynamic and has one answer stored, which is no
failure. -/
theorem entry (h : Faithful answer capacity c)
    (hanswer : ∀ q q', keyOf q = keyOf q' → (answer q).Agrees (answer q')) {key : String}
    (hkey : key ∈ c.keys) :
    key ≠ "" ∧ (∃ q, keyOf q = key) ∧ ∀ q, keyOf q = key →
      isDynamic q = false ∧ ∃ a, (c.get? q).1 = some [a] ∧ a.isError = false := by
  obtain ⟨l, hl, hstorable⟩ := h.shown
  rw [hl.keys] at hkey
  obtain ⟨p, hp, rfl⟩ := List.mem_map.1 hkey
  refine ⟨hl.nonempty p hp, ?_, fun q hq => ?_⟩
  · obtain ⟨q, rfl, -⟩ := hstorable p hp
    exact ⟨q, rfl⟩
  · obtain ⟨answers, hanswers⟩ : ∃ answers, (c.get? q).1 = some answers := by
      rw [(hl.get? q).1, hq]
      exact Lru.get?_of_mem hkey
    obtain ⟨hdynamic, a, rfl, herror, -⟩ := h.get?_eq_some hanswer hanswers
    exact ⟨hdynamic, a, hanswers, herror⟩

end Faithful

end

/-! ## Faithful engines -/

namespace Engine

variable {capacity : Nat} {e : Engine}

/-- The cache of the engine holds what the engine would answer now. -/
def IsFaithful (capacity : Nat) (e : Engine) : Prop := Faithful e.evaluate capacity e.cache

theorem evaluate_agrees (e : Engine) (q q' : String) (h : keyOf q = keyOf q') :
    (e.evaluate q).Agrees (e.evaluate q') :=
  answerQuery_agrees e.settings e.now h

theorem evaluate_trimmed (e : Engine) (q : String) : e.evaluate (trimmed q) = e.evaluate q := by
  rw [evaluate, evaluate, answerQuery_eq, answerQuery_eq, answersTo, answersTo, trimmed_trimmed]

/-- What an engine answers does not depend on its cache. -/
theorem IsFaithful.of_cache {c : ResultCache} (h : Faithful e.evaluate capacity c) :
    IsFaithful capacity { e with cache := c } := h

/-- With its answers forgotten, an engine may take on other settings. -/
theorem IsFaithful.forget (h : e.IsFaithful capacity) (settings : Settings) :
    IsFaithful capacity { e with settings, cache := e.cache.clear } := by
  unfold IsFaithful at h ⊢
  exact h.clear _

theorem IsFaithful.compute (h : e.IsFaithful capacity) (q : String) :
    (e.compute q).1 = [e.evaluate q] ∧ (e.compute q).2.IsFaithful capacity := by
  unfold Engine.compute
  dsimp only
  split_ifs with hskip
  · exact ⟨rfl, h⟩
  · simp only [Bool.or_eq_true, not_or, Bool.not_eq_true] at hskip
    exact ⟨rfl, .of_cache (Faithful.set h hskip.1 hskip.2)⟩

/-- **A faithful engine answers a query as it would without a cache**, and stays faithful. -/
theorem IsFaithful.query_agrees (h : e.IsFaithful capacity) (q : String) :
    (if isBlankText q then (e.query q).1 = []
      else ∃ a, (e.query q).1 = [a] ∧ a.Agrees (e.evaluate q)) ∧
      (e.query q).2.IsFaithful capacity := by
  unfold query
  dsimp only
  rw [trimmed_isEmpty]
  cases isBlankText q with
  | true =>
    simp only [if_true]
    exact ⟨trivial, h⟩
  | false =>
    simp only [Bool.false_eq_true, if_false]
    have hcompute : (∃ a, (e.compute (trimmed q)).1 = [a] ∧ a.Agrees (e.evaluate q)) ∧
        (e.compute (trimmed q)).2.IsFaithful capacity := by
      obtain ⟨hout, hstate⟩ := h.compute (trimmed q)
      rw [evaluate_trimmed] at hout
      exact ⟨⟨_, hout, Answer.Agrees.refl _⟩, hstate⟩
    cases isDynamic (trimmed q) with
    | true =>
      simp only [if_true]
      exact hcompute
    | false =>
      simp only [Bool.false_eq_true, if_false]
      have hstate := Faithful.get? h (trimmed q)
      have hstored := @Faithful.get?_eq_some _ _ _ h e.evaluate_agrees (trimmed q)
      generalize e.cache.get? (trimmed q) = found at hstate hstored ⊢
      obtain ⟨stored, cache⟩ := found
      cases stored with
      | none => exact hcompute
      | some answers =>
        obtain ⟨-, a, rfl, -, hagrees⟩ := hstored rfl
        rw [evaluate_trimmed] at hagrees
        exact ⟨⟨a, rfl, hagrees⟩, .of_cache hstate⟩

/-- Every operation keeps an engine faithful. -/
theorem IsFaithful.perform (h : e.IsFaithful capacity) (op : Operation) :
    (e.perform op).2.IsFaithful capacity := by
  cases op with
  | query text =>
    simp only [Engine.perform]
    exact (h.query_agrees text).2
  | evaluate text => exact h
  | evaluateExpression text => exact h
  | classify text => exact h
  | priority text => exact h
  | lookup text =>
    simp only [Engine.perform, lookup]
    exact .of_cache (Faithful.get? h text)
  | clear =>
    simp only [Engine.perform, clear]
    exact h.forget e.settings
  | reconfigure settings =>
    simp only [Engine.perform, reconfigure]
    cases settings.validate with
    | error f => exact h
    | ok =>
      simp only [bind, Except.bind, pure, Except.pure]
      exact h.forget settings

/-- A new engine has an empty cache. -/
theorem isFaithful_ofSetup {setup : Setup} (h : setup.validate = .ok ())
    (now : Calendar.Instant) :
    ∃ e, Engine.ofSetup setup now = .ok e ∧ e.settings = setup.settings ∧ e.now = now ∧
      e.IsFaithful setup.capacity := by
  have hcapacity : 0 < setup.capacity := by
    unfold Setup.validate at h
    cases hs : setup.settings.validate with
    | error f => simp [hs, bind, Except.bind] at h
    | ok =>
      refine Nat.pos_of_ne_zero fun h0 => ?_
      simp [hs, h0, bind, Except.bind] at h
  refine ⟨⟨setup.settings, now, ⟨setup.capacity, {}, hcapacity⟩⟩, ?_, rfl, rfl, rfl, [],
    Shows.empty _ hcapacity, nofun⟩
  simp [Engine.ofSetup, h, ResultCache.ofCapacity, hcapacity, bind, Except.bind, pure, Except.pure]

/-- What is seen of an engine whose cache does not show. -/
structure Transparent (capacity : Nat) (e : Engine) : Prop where
  /-- a key is that of queries that are not dynamic, with one answer, which is no failure -/
  entry : ∀ key ∈ e.cache.keys, key ≠ "" ∧ (∃ q, keyOf q = key) ∧ ∀ q, keyOf q = key →
    isDynamic q = false ∧ ∃ a, (e.cache.get? q).1 = some [a] ∧ a.isError = false
  size_le : e.cache.size ≤ capacity
  /-- a query has the answer that would be computed afresh, unless it is blank -/
  query : ∀ q, if isBlankText q then (e.query q).1 = []
    else ∃ a, (e.query q).1 = [a] ∧ a.Agrees (e.evaluate q)

theorem IsFaithful.transparent (h : e.IsFaithful capacity) : e.Transparent capacity := by
  unfold IsFaithful at h
  exact ⟨fun key hkey => h.entry e.evaluate_agrees hkey, h.size_le,
    fun q => (IsFaithful.query_agrees h q).1⟩

/-- **The cache does not show in the answers**, whatever sequence of operations is carried out
on a new engine with a valid setup. -/
theorem run_transparent {setup : Setup} (h : setup.validate = .ok ()) (now : Calendar.Instant) :
    ∃ e, Engine.ofSetup setup now = .ok e ∧
      ∀ ops : List Operation, (run perform e ops).2.Transparent setup.capacity := by
  obtain ⟨e, he, -, -, hnew⟩ := isFaithful_ofSetup h now
  refine ⟨e, he, fun ops => ?_⟩
  have hrun : (run perform e ops).2.IsFaithful setup.capacity :=
    run_preserves (P := IsFaithful setup.capacity) (fun _ op hs => hs.perform op) hnew ops
  exact hrun.transparent

/-- Precision 99 is refused and nothing is forgotten; the cache still does not show. -/
theorem run_transparent_refused :
    ({} : Setup).validate = .ok () ∧
      ∃ e, Engine.ofSetup {} (.midnight ⟨2024, 1, 15⟩) = .ok e ∧
        (run perform e [.query "2 km to m", .reconfigure ⟨99, .degrees⟩,
          .query " 2 KM to m"]).2.Transparent 100 := by
  obtain ⟨e, he, h⟩ := @run_transparent {} rfl (.midnight ⟨2024, 1, 15⟩)
  exact ⟨rfl, e, he, h _⟩

end Engine

end Reckoner
