/-
  Queries with the same key have the same answer.

  * `Answer.Agrees`: two answers differ at most in the case of the query they repeat and in
    the blanks around it;
  * `evaluateAs_agrees`: every evaluator reads no more of a query than its key;
  * `answerQuery_agrees`: **queries with the same key have answers that agree**.
-/
import Mathlib.Data.List.Forall2
import Reckoner.Engine
import Reckoner.Proofs.Evaluators

namespace Reckoner

open Text
open ResultCache (keyOf)

/-! ## Answers that agree -/

/-- Two answers differ at most in the case of the query they repeat and in the blanks around
it. -/
structure Answer.Agrees (a b : Answer) : Prop where
  title : keyOf a.title = keyOf b.title
  rawExpression : a.rawExpression.map keyOf = b.rawExpression.map keyOf
  others : { a with title := b.title, rawExpression := b.rawExpression } = b

theorem Answer.Agrees.refl (a : Answer) : a.Agrees a := ⟨rfl, rfl, rfl⟩

theorem Answer.Agrees.isError {a b : Answer} (h : a.Agrees b) : a.isError = b.isError := by
  rw [← h.others]

/-- An answer that repeats another query with the same key agrees with the one before. -/
theorem Answer.agrees_restate {input input' : String} {a : Answer} (ha : a.restate input = a)
    (h : keyOf input = keyOf input') : a.Agrees (a.restate input') := by
  refine ⟨?_, ?_, rfl⟩
  · rw [← ha]
    unfold Answer.restate
    dsimp only
    split_ifs
    · rfl
    · exact h
  · rw [← ha]
    exact congrArg some h

/-! ## What the key of a query determines -/

theorem keyOf_eq_iff {q q' : String} :
    keyOf q = keyOf q' ↔ lower (trim q.toList) = lower (trim q'.toList) :=
  String.ofList_inj

theorem keyOf_trimmed (q : String) : keyOf (trimmed q) = keyOf q := by
  rw [keyOf_eq_iff, trimmed, String.toList_ofList, trim_trim]

section
variable {q q' : String}

theorem canonical_congr (h : keyOf q = keyOf q') : canonical q.toList = canonical q'.toList := by
  rw [canonical_eq, canonical_eq, keyOf_eq_iff.1 h]

theorem isBlankText_congr (h : keyOf q = keyOf q') : isBlankText q = isBlankText q' :=
  isBlankText_of_canonical (canonical_congr h)

theorem normalize_congr (h : keyOf q = keyOf q') : Query.normalize q = Query.normalize q' :=
  keyOf_eq_iff.1 h

theorem isDynamic_congr (h : keyOf q = keyOf q') : isDynamic q = isDynamic q' := by
  rw [isDynamic, isDynamic, normalize_congr h]

theorem classify_congr (h : keyOf q = keyOf q') : Query.classify q = Query.classify q' := by
  simp only [Query.classify, Query.scores, isBlankText_congr h, normalize_congr h]

theorem priority_congr (h : keyOf q = keyOf q') : Query.priority q = Query.priority q' := by
  simp only [Query.priority, Query.triggered, classify_congr h, normalize_congr h]

/-- Every evaluator reads no more of a query than its key. -/
theorem evaluateAs_agrees (settings : Settings) (now : Calendar.Instant) (h : keyOf q = keyOf q')
    (d : Domain) :
    Option.Rel Answer.Agrees (evaluateAs settings now d q) (evaluateAs settings now d q') := by
  have hkey : keyOf (trimmed q) = keyOf (trimmed q') := by rwa [keyOf_trimmed, keyOf_trimmed]
  have hself := @evaluateAs_restate q q rfl settings now d
  rw [← evaluateAs_restate (canonical_congr h)]
  cases ha : evaluateAs settings now d q with
  | none => exact .none
  | some a =>
    rw [ha] at hself
    exact .some (Answer.agrees_restate (Option.some.inj hself) hkey)

/-! ## The first success -/

theorem firstSuccess_eq_none {as : List Answer} : firstSuccess as = none ↔ as = [] := by
  unfold firstSuccess
  split
  · next a ha =>
    exact iff_of_false (Option.some_ne_none a) (List.ne_nil_of_mem (List.mem_of_find?_eq_some ha))
  · exact List.head?_eq_none_iff

theorem find?_agrees {as bs : List Answer} (h : List.Forall₂ Answer.Agrees as bs) :
    Option.Rel Answer.Agrees (as.find? fun a => !a.isError) (bs.find? fun b => !b.isError) := by
  induction h with
  | nil => exact .none
  | @cons a b as bs hab _ ih =>
    rw [List.find?_cons, List.find?_cons, hab.isError]
    cases b.isError with
    | true => exact ih
    | false => exact .some hab

theorem firstSuccess_agrees {as bs : List Answer} (h : List.Forall₂ Answer.Agrees as bs) :
    Option.Rel Answer.Agrees (firstSuccess as) (firstSuccess bs) := by
  have hfind := find?_agrees h
  unfold firstSuccess
  generalize as.find? (fun a => !a.isError) = x at hfind ⊢
  generalize bs.find? (fun b => !b.isError) = y at hfind ⊢
  cases hfind with
  | some hab => exact .some hab
  | none =>
    cases h with
    | nil => exact .none
    | cons hab _ => exact .some hab

theorem mem_addNew {d : Domain} {ds more : List Domain} (h : d ∈ ds ∨ d ∈ more) :
    d ∈ Query.addNew ds more := by
  unfold Query.addNew
  induction more generalizing ds with
  | nil => simpa using h
  | cons e more ih =>
    rw [List.foldl_cons]
    refine ih ?_
    rcases h with h | h
    · split_ifs
      · exact .inl h
      · exact .inl (List.mem_append_left _ h)
    · rcases List.mem_cons.1 h with rfl | h
      · split_ifs with hd
        · exact .inl (List.contains_iff_mem.1 hd)
        · exact .inl (List.mem_append_right _ (List.mem_singleton_self _))
      · exact .inr h

/-- The answers to a query in the order of its priority. -/
def answersTo (settings : Settings) (now : Calendar.Instant) (q : String) : List Answer :=
  (Query.priority (trimmed q)).filterMap fun d => evaluateAs settings now d (trimmed q)

theorem mem_answersTo {settings : Settings} {now : Calendar.Instant} {d : Domain} {a : Answer}
    (hd : d ∈ Query.defaultOrder) (ha : evaluateAs settings now d (trimmed q) = some a) :
    a ∈ answersTo settings now q :=
  List.mem_filterMap.2 ⟨d, mem_addNew (.inr hd), ha⟩

theorem answerQuery_eq (settings : Settings) (now : Calendar.Instant) (q : String) :
    answerQuery settings now q = (firstSuccess (answersTo settings now q)).getD
      (.failure (trimmed q) (Failure.unrecognizedExpression (trimmed q)).message) := by
  unfold answerQuery answersTo
  dsimp only
  cases firstSuccess ((Query.priority (trimmed q)).filterMap fun d =>
      evaluateAs settings now d (trimmed q)) with
  | none => rw [Option.getD_none]
  | some a => rw [Option.getD_some]

/-- Some evaluator is always tried, so there always is a first answer. -/
theorem firstSuccess_answersTo (settings : Settings) (now : Calendar.Instant) (q : String) :
    firstSuccess (answersTo settings now q) = some (answerQuery settings now q) := by
  have hne : answersTo settings now q ≠ [] :=
    List.ne_nil_of_mem (mem_answersTo (d := .arithmetic) List.mem_cons_self rfl)
  obtain ⟨a, ha⟩ := Option.ne_none_iff_exists'.1 (mt firstSuccess_eq_none.1 hne)
  rw [answerQuery_eq, ha, Option.getD_some]

/-- **Queries with the same key have answers that agree.** -/
theorem answerQuery_agrees (settings : Settings) (now : Calendar.Instant)
    (h : keyOf q = keyOf q') :
    (answerQuery settings now q).Agrees (answerQuery settings now q') := by
  have hkey : keyOf (trimmed q) = keyOf (trimmed q') := by rwa [keyOf_trimmed, keyOf_trimmed]
  have hanswers : List.Forall₂ Answer.Agrees (answersTo settings now q)
      (answersTo settings now q') := by
    unfold answersTo
    rw [priority_congr hkey]
    refine List.rel_filterMap (R := Eq) ?_ (List.forall₂_refl _)
    rintro d _ rfl
    exact evaluateAs_agrees settings now hkey d
  have hfirst := firstSuccess_agrees hanswers
  rw [firstSuccess_answersTo, firstSuccess_answersTo] at hfirst
  exact Option.rel_some_some.1 hfirst

end

end Reckoner
