/-
  Spacing and case make no difference to an expression.

  * `domain_of_detect`: every canonical text is of a kind that some domain stands for;
  * `parse_of_canonical`, `evaluate_of_canonical`: queries with the same canonical form are read and
    answered alike;
  * `parse_evaluate_canonical`: **so are a query and its canonical form**.
-/
import Reckoner.Expression
import Reckoner.Proofs.Evaluators
import Reckoner.Proofs.Text.Canonical

namespace Reckoner.Expression

open Text

/-- Every text is of a kind that some domain stands for. -/
theorem domain_of_detect (cs : List Char) : ∃ d, (Kind.detect cs).domain? = some d := by
  unfold Kind.detect
  split_ifs
  · exact ⟨.dateCalculation, rfl⟩
  · exact ⟨.unitConversion, rfl⟩
  · exact ⟨.logicEvaluation, rfl⟩
  · exact ⟨.arithmetic, rfl⟩
  · exact ⟨.naturalLanguage, rfl⟩

/-- A query that is accepted is never told that it is of no kind. -/
theorem domain_of_accepted {q : String} (h : (parse q).error = none) :
    ∃ d, (parse q).kind.domain? = some d := by
  unfold parse at h ⊢
  split_ifs at h ⊢
  exact domain_of_detect _

section
variable {q q' : String} (h : canonical q.toList = canonical q'.toList)
include h

/-- What is read of a query follows from its canonical form. -/
theorem parse_of_canonical : parse q' = { parse q with original := q' } := by
  unfold parse
  rw [isBlankText_of_canonical h, h]
  split_ifs <;> rfl

/-- **Queries with the same canonical form have the same answer**, but for the query that it
repeats. -/
theorem evaluate_of_canonical (settings : Settings) (now : Calendar.Instant) :
    (evaluate settings now q).restate (trimmed q') = evaluate settings now q' := by
  have htrimmed : canonical (trimmed q).toList = canonical (trimmed q').toList := by
    rw [canonical_trimmed, canonical_trimmed, h]
  unfold evaluate
  rw [parse_of_canonical h]
  dsimp only
  split
  · rfl
  · next haccepted =>
    obtain ⟨d, hd⟩ := domain_of_accepted haccepted
    have hanswer := evaluateAs_restate htrimmed settings now d
    rw [trimmed_trimmed] at hanswer
    rw [hd]
    dsimp only
    rw [← hanswer]
    cases evaluateAs settings now d (trimmed q) <;> rfl

end

/-- **Spacing and case make no difference to an expression**: its canonical form has the same
canonical form, kind, tokens and error, and the same answer but for the title and the query that it
repeats. -/
theorem parse_evaluate_canonical (settings : Settings) (now : Calendar.Instant) (q : String) :
    let q' := String.ofList (canonical q.toList)
    (parse q').canonical = (parse q).canonical ∧ (parse q').kind = (parse q).kind ∧
      (parse q').tokens = (parse q).tokens ∧ (parse q').isValid = (parse q).isValid ∧
      (parse q').error = (parse q).error ∧
      { evaluate settings now q' with
        title := (evaluate settings now q).title
        rawExpression := (evaluate settings now q).rawExpression } = evaluate settings now q := by
  intro q'
  have h : canonical q.toList = canonical q'.toList := by
    rw [String.toList_ofList, canonical_canonical]
  have hanswer := evaluate_of_canonical h settings now
  rw [parse_of_canonical h, ← hanswer]
  exact ⟨rfl, rfl, rfl, rfl, rfl, rfl⟩

end Reckoner.Expression
