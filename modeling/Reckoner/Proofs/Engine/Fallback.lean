/-
  Which of its answers a query gets.

  * `FirstAnswer`: the answer of the first domain that succeeds, else of the first that has an
    evaluator;
  * `Answer.IsCoherent`: an answer is a failure by its flag, its score and its domain alike;
  * `message_ne_unrecognized`: no cause of an evaluator reads as an unrecognized query;
  * `Engine.evaluate_falls_back`: **a query is answered by the first success in the order of its
    domains, or else by the first failure**.
-/
import Reckoner.Proofs.Causes
import Reckoner.Proofs.Query.Ranking

namespace Reckoner

open Text

/-! ## The first answer -/

/-- The answer of the first domain that succeeds; if none does, that of the first domain that
some evaluator answers. -/
inductive FirstAnswer (answer : Domain → Option Answer) : List Domain → Answer → Prop
  | success {before d after a} : answer d = some a → a.isError = false →
      (∀ e ∈ before, ∀ b, answer e = some b → b.isError = true) →
      FirstAnswer answer (before ++ d :: after) a
  | failure {before d after a} : answer d = some a → d.isSupported = true →
      (∀ e ∈ before, e.isSupported = false) →
      (∀ e ∈ before ++ d :: after, ∀ b, answer e = some b → b.isError = true) →
      FirstAnswer answer (before ++ d :: after) a

theorem isSome_evaluateAs (settings : Settings) (now : Calendar.Instant) (d : Domain)
    (q : String) : (evaluateAs settings now d q).isSome = d.isSupported := by
  cases d <;> rfl

theorem firstAnswer_of_firstSuccess {answer : Domain → Option Answer} {ds : List Domain}
    {a : Answer} (hanswer : ∀ d, (answer d).isSome = d.isSupported)
    (h : firstSuccess (ds.filterMap answer) = some a) : FirstAnswer answer ds a := by
  unfold firstSuccess at h
  split at h
  · next b hfind =>
    obtain rfl := Option.some.inj h
    obtain ⟨hok, failures, others, hsplit, hfailures⟩ := List.find?_eq_some_iff_append.1 hfind
    obtain ⟨before, rest, rfl, hbefore, hrest⟩ := List.filterMap_eq_append_iff.1 hsplit
    obtain ⟨skipped, d, after, rfl, hskipped, hd, -⟩ := List.filterMap_eq_cons_iff.1 hrest
    rw [← List.append_assoc]
    refine .success hd (by simpa using hok) fun e he c hc => ?_
    rcases List.mem_append.1 he with he | he
    · have hmem : c ∈ failures := hbefore ▸ List.mem_filterMap.2 ⟨e, he, hc⟩
      simpa using hfailures c hmem
    · exact absurd ((hskipped e he).symm.trans hc) nofun
  · next hfind =>
    have hall : ∀ e ∈ ds, ∀ b, answer e = some b → b.isError = true := by
      intro e he b hb
      simpa using List.find?_eq_none.1 hfind b (List.mem_filterMap.2 ⟨e, he, hb⟩)
    rw [List.head?_filterMap] at h
    obtain ⟨before, d, after, rfl, hd, hbefore⟩ := List.findSome?_eq_some_iff.1 h
    refine .failure hd ?_ (fun e he => ?_) hall
    · rw [← hanswer, hd]
      rfl
    · rw [← hanswer, hbefore e he]
      rfl

theorem FirstAnswer.exists_domain {answer : Domain → Option Answer} {ds : List Domain} {a : Answer}
    (h : FirstAnswer answer ds a) : ∃ d ∈ ds, answer d = some a := by
  cases h with
  | success ha => exact ⟨_, List.mem_append_right _ List.mem_cons_self, ha⟩
  | failure ha => exact ⟨_, List.mem_append_right _ List.mem_cons_self, ha⟩

/-! ## Answers that fail -/

/-- An answer is a failure by its flag, its score and its domain alike. -/
structure Answer.IsCoherent (a : Answer) : Prop where
  score : a.isError = true ↔ a.score = 0
  domain : a.score = 0 ↔ a.domain = .error

theorem Answer.IsMade.isCoherent {input : String} {a : Answer} (h : a.IsMade input) :
    a.IsCoherent := by
  cases h with
  | success hd =>
    refine ⟨iff_of_false Bool.false_ne_true ?_, iff_of_false ?_ hd⟩
    all_goals
      exact Nat.succ_ne_zero 99
  | failure => exact ⟨iff_of_true rfl rfl, iff_of_true rfl rfl⟩

/-- The messages of evaluators do not begin as that of an unrecognized query does. -/
theorem message_ne_unrecognized {f : Failure} (h : f.isOwn = true) (text : String) :
    f.message ≠ (Failure.unrecognizedExpression text).message := by
  have hstart : f.message.toList.take 3 ≠ ['U', 'n', 'r'] := by
    cases f with
    | unrecognizedExpression | naturalLanguage => cases h
    | _ =>
      dsimp only [Failure.message]
      simp
  refine fun heq => hstart ?_
  rw [heq]
  dsimp only [Failure.message]
  simp

theorem Answer.IsMade.errorMessage_ne {input : String} {a : Answer} (h : a.IsMade input)
    (text : String) : a.errorMessage ≠ some (Failure.unrecognizedExpression text).message := by
  cases h with
  | success => exact nofun
  | failure hf => exact fun heq => message_ne_unrecognized hf text (Option.some.inj heq)

/-! ## Queries -/

theorem firstAnswer_answerQuery (settings : Settings) (now : Calendar.Instant) (q : String) :
    FirstAnswer (fun d => evaluateAs settings now d (trimmed q)) (Query.priority q)
      (answerQuery settings now q) := by
  rw [← priority_congr (keyOf_trimmed q)]
  exact firstAnswer_of_firstSuccess (fun d => isSome_evaluateAs ..)
    (firstSuccess_answersTo settings now q)

/-- **A query is answered by the first success in the order of its domains, or else by the
first failure of an evaluator**, which never says that the query is not recognized. -/
theorem Engine.evaluate_falls_back (e : Engine) (q : String) :
    Query.IsOrder q (Query.priority q) ∧
      FirstAnswer (fun d => evaluateAs e.settings e.now d (trimmed q)) (Query.priority q)
        (e.evaluate q) ∧
      (∀ text, (e.evaluate q).errorMessage ≠
        some (Failure.unrecognizedExpression text).message) ∧
      (e.evaluate q).IsCoherent := by
  have hfirst := firstAnswer_answerQuery e.settings e.now q
  obtain ⟨d, -, hd⟩ := hfirst.exists_domain
  have hmade := isMade_evaluateAs hd
  exact ⟨Query.isOrder_priority q, hfirst, hmade.errorMessage_ne, hmade.isCoherent⟩

end Reckoner
