/-
  What the evaluators read of a query.

  * `Answer.restate`: an answer that repeats another query;
  * `strip_lower_canonical`, `all_blank_eq`: what is left of a text without blanks follows from its
    canonical form;
  * `evaluateAs_restate`: **queries with the same canonical form have the same answer**, but for
    the query that it repeats.
-/
import Reckoner.Evaluators
import Reckoner.Proofs.Text.Word

namespace Reckoner

open Text

/-! ## The query that an answer repeats -/

/-- The answer repeats another query; a failure is not titled with it. -/
def Answer.restate (input : String) (a : Answer) : Answer :=
  { a with title := if a.isError then a.title else input, rawExpression := some input }

theorem Answer.restate_ofExcept (input input' : String) (x : Except Failure Answer) :
    (Answer.ofExcept input x).restate input' =
      Answer.ofExcept input' (Answer.restate input' <$> x) := by
  cases x <;> rfl

theorem Dates.answerShape_restate (now : Calendar.Instant) (input input' : String)
    (parts : Shape × List String) :
    Answer.restate input' <$> answerShape now input parts = answerShape now input' parts := by
  unfold answerShape
  split
  · simp only [arithmetic, map_bind]
    rfl
  · simp only [between, map_bind]
    rfl
  · simp only [relativeWeekday]
    split
    · rfl
    · rw [map_bind]
      rfl
  · simp only [relativeOffset, map_bind]
    rfl
  · simp only [ageOf, map_bind]
    rfl
  · simp only [weekdayOf, map_bind]
    rfl
  · rfl

/-! ## Canonical forms -/

/-- A text without blanks in lower case is its canonical form without blanks. -/
theorem strip_lower_canonical (cs : List Char) : strip (lower cs) = strip (canonical cs) := by
  rw [strip_canonical, strip_lower_trim]

theorem all_blank_eq (cs : List Char) : cs.all isBlank = (strip (canonical cs)).isEmpty := by
  rw [← strip_lower_canonical, ← lower_all_blank, strip, Bool.eq_iff_iff, List.isEmpty_iff,
    List.filter_eq_nil_iff, List.all_eq_true]
  simp

section
variable {q q' : String} (h : canonical q.toList = canonical q'.toList)
include h

theorem isBlankText_of_canonical : isBlankText q = isBlankText q' := by
  rw [isBlankText, isBlankText, all_blank_eq, all_blank_eq, h]

theorem isEmpty_of_canonical : (trimmed q).isEmpty = (trimmed q').isEmpty := by
  rw [trimmed_isEmpty, trimmed_isEmpty, isBlankText_of_canonical h]

/-! ## The evaluators -/

theorem Arithmetic.evaluate_restate (settings : Settings) :
    (Arithmetic.evaluate settings q).restate (trimmed q') = Arithmetic.evaluate settings q' := by
  have hcompute : compute settings.angleUnit (trimmed q).toList =
      compute settings.angleUnit (trimmed q').toList := by
    unfold compute spell
    rw [all_blank_eq, all_blank_eq, strip_lower_canonical, strip_lower_canonical,
      canonical_trimmed, canonical_trimmed, h]
  unfold Arithmetic.evaluate
  dsimp only
  rw [Answer.restate_ofExcept, map_bind, hcompute]
  rfl

theorem Units.evaluate_restate (settings : Settings) :
    (Units.evaluate settings q).restate (trimmed q') = Units.evaluate settings q' := by
  unfold Units.evaluate answer? Request.read
  dsimp only
  rw [Answer.restate_ofExcept, isEmpty_of_canonical h, canonical_trimmed, canonical_trimmed, h]
  split_ifs
  · rfl
  · simp only [map_bind]
    rfl

theorem Logic.evaluate_restate :
    (Logic.evaluate q).restate (trimmed q') = Logic.evaluate q' := by
  unfold Logic.evaluate answer?
  dsimp only
  rw [Answer.restate_ofExcept, isEmpty_of_canonical h, canonical_trimmed, canonical_trimmed, h]
  split_ifs
  · rfl
  · split
    · rw [map_bind]
      rfl
    · rw [map_bind]
      rfl
    · rw [map_bind]
      rfl

theorem Dates.evaluate_restate (now : Calendar.Instant) :
    (Dates.evaluate now q).restate (trimmed q') = Dates.evaluate now q' := by
  unfold Dates.evaluate answer?
  dsimp only
  rw [Answer.restate_ofExcept, isEmpty_of_canonical h, canonical_trimmed, canonical_trimmed, h]
  split_ifs
  · rfl
  · split
    · rw [answerShape_restate]
    · unfold dateAnswer
      split <;> rfl

/-- **Queries with the same canonical form have the same answer**, but for the query that it
repeats. -/
theorem evaluateAs_restate (settings : Settings) (now : Calendar.Instant) (d : Domain) :
    (evaluateAs settings now d q).map (Answer.restate (trimmed q')) =
      evaluateAs settings now d q' := by
  unfold evaluateAs
  split
  · exact congrArg some (Units.evaluate_restate h settings)
  · exact congrArg some (Dates.evaluate_restate h now)
  · exact congrArg some (Logic.evaluate_restate h)
  · split_ifs
    · exact congrArg some (Arithmetic.evaluate_restate h settings)
    · rfl

end

end Reckoner
