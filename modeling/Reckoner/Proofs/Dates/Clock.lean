/-
  Where date queries read the clock.

  * `Timeless`: no word that counts from the present stands in a text;
  * `readDate_of_standing`: **what stands in a timeless text is read as the same date always**;
  * `AsksAge`: a text asks for the age of someone born at an instant;
  * `answer?_timeless`: a timeless text that asks for no age has one answer for all time;
  * `answer?_of_age`, `answer?_of_no_age`: one that does is answered with the age at the time.
-/
import Reckoner.Dates
import Reckoner.Proofs.Dates.Shape

namespace Reckoner.Dates

open Calendar Text Shape

/-- The words that count from the present. -/
def clockWords : List String := ["today", "now", "tomorrow", "yesterday", "ago", "next", "last"]

theorem mem_clockWords_of_keyword : ∀ word ∈ keywords, word ∈ clockWords := by decide

theorem mem_clockWords_of_direction : ∀ word ∈ ["next", "last"], word ∈ clockWords := by decide

theorem mem_clockWords_of_side : ∀ word ∈ ["ago", "now"], word ∈ clockWords := by decide

/-- No word that counts from the present stands in the text. -/
def Timeless (cs : List Char) : Prop := ∀ word ∈ clockWords, ¬ Standing word.toList cs

/-- The text has no capital letter of ASCII. -/
def NoCapitals (cs : List Char) : Prop := ∀ c ∈ cs, ¬ (65 ≤ c.toNat ∧ c.toNat ≤ 90)

/-! ## Reading a date -/

/-- A date in one of the formats. -/
def readWritten (text : String) : Except Failure Instant :=
  match readFormats? (lower (trim text.toList)) with
  | some i => .ok i
  | none => .error (.unparseableDate (String.ofList (lower (trim text.toList))))

/-- The clock is read for keywords alone. -/
theorem readDate_of_not_keyword {text : String}
    (h : String.ofList (lower (trim text.toList)) ∉ keywords) (now : Instant) :
    readDate now text = readWritten text := by
  simp only [keywords, List.mem_cons, List.not_mem_nil, or_false, not_or] at h
  obtain ⟨htoday, hnow, hyesterday, htomorrow⟩ := h
  unfold readDate
  dsimp only
  rw [if_neg (mt eq_of_beq hnow), if_neg (mt eq_of_beq htoday), if_neg (mt eq_of_beq hyesterday),
    if_neg (mt eq_of_beq htomorrow)]
  rfl

theorem readDate_trimmed (now : Instant) (text : String) :
    readDate now (trimmed text) = readDate now text := by
  unfold readDate
  simp only [trimmed, String.toList_ofList, trim_trim]

variable {cs : List Char}

theorem keyword_letters : ∀ word ∈ keywords,
    word.toList.all (fun d => 97 ≤ d.toNat && d.toNat < 128 && d != 'k') = true := by
  decide

/-- **What stands in a timeless text is read as the same date always.** -/
theorem readDate_of_standing (hcs : NoCapitals cs) (ht : Timeless cs) {text : String}
    (h : Standing text.toList cs) (now : Instant) : readDate now text = readWritten text := by
  refine readDate_of_not_keyword (fun hmem => ?_) now
  have hletters := keyword_letters _ hmem
  rw [String.toList_ofList] at hletters
  -- the text may have been written in another case, but its capitals are gone
  have hword : trim text.toList = lower (trim text.toList) := by
    refine lower_eq_word ?_ ?_ rfl
    · intro c hc
      obtain ⟨pre, post, rfl, -, -⟩ := h.trim
      exact hcs c (List.mem_append_left _ (List.mem_append_right _ hc))
    · intro d hd
      have hd := List.all_eq_true.1 hletters d hd
      simp only [Bool.and_eq_true, decide_eq_true_eq, bne_iff_ne] at hd
      exact ⟨hd.1.1, hd.1.2, hd.2⟩
  have hstands := h.trim
  rw [hword] at hstands
  refine ht _ (mem_clockWords_of_keyword _ hmem) ?_
  rwa [String.toList_ofList]

/-! ## Answers -/

theorem evaluate_of_answer? {now : Instant} {q : String} {x : Except Failure Answer}
    (h : answer? now (trimmed q) = x) : evaluate now q = Answer.ofExcept (trimmed q) x := by
  rw [evaluate, h]

/-- A query with a shape is answered as one of it. -/
theorem answer?_of_recognize? {input : String} {asked : Shape × List String}
    (h : recognize? (canonical input.toList) = some asked) (now : Instant) :
    answer? now input = answerShape now input asked := by
  have hne : input.isEmpty = false := by
    cases hempty : input.isEmpty with
    | false => rfl
    | true =>
      obtain rfl := String.isEmpty_iff.1 hempty
      have hnone : (recognize? (canonical "".toList)).isNone = true := by decide
      rw [h] at hnone
      exact absurd hnone Bool.false_ne_true
  unfold answer?
  dsimp only
  rw [hne, h, if_neg Bool.false_ne_true]

/-- The text asks for the age of someone born at an instant. -/
def AsksAge (cs : List Char) (birth : Instant) : Prop :=
  ∃ date, recognize? cs = some (.age, [date]) ∧ readWritten date = .ok birth

section
variable (hcs : NoCapitals cs) (ht : Timeless cs)
include hcs ht

theorem answerShape_timeless (hage : ∀ birth, ¬ AsksAge cs birth) {asked : Shape × List String}
    (h : recognize? cs = some asked) (now now' : Instant) (input : String) :
    answerShape now input asked = answerShape now' input asked := by
  have hdates : ∀ date ∈ dates asked, ∀ now, readDate now date = readWritten date :=
    fun date hdate now => readDate_of_standing hcs ht (standing_of_mem_dates h hdate) now
  unfold answerShape
  split
  · next date _ _ _ =>
    have hdate := hdates date List.mem_cons_self
    simp only [arithmetic, readDate_trimmed, hdate]
  · next first second =>
    have hfirst := hdates first List.mem_cons_self
    have hsecond := hdates second (List.mem_cons_of_mem _ List.mem_cons_self)
    simp only [between, hfirst, hsecond]
  · obtain ⟨direction, hmem, hstands⟩ := relativeWeekday_parts h
    exact absurd hstands (ht direction (mem_clockWords_of_direction _ hmem))
  · obtain ⟨side, hmem, hstands⟩ := relativeOffset_parts h
    exact absurd hstands (ht side (mem_clockWords_of_side _ hmem))
  · next date =>
    have hdate := hdates date List.mem_cons_self
    simp only [ageOf, hdate]
    cases hread : readWritten date with
    | ok birth => exact absurd ⟨date, h, hread⟩ (hage birth)
    | error f => rfl
  · next date =>
    have hdate := hdates date List.mem_cons_self
    simp only [weekdayOf, hdate]
  · rfl

/-- A timeless text that asks for no age has one answer for all time. -/
theorem answer?_timeless {input : String} (hinput : canonical input.toList = cs)
    (hage : ∀ birth, ¬ AsksAge cs birth) (now now' : Instant) :
    answer? now input = answer? now' input := by
  unfold answer?
  dsimp only
  rw [hinput]
  split_ifs
  · rfl
  · cases hshape : recognize? cs with
    | some asked => exact answerShape_timeless hcs ht hage hshape now now' input
    | none =>
      have hstands : Standing (String.ofList cs).toList cs := by
        rw [String.toList_ofList]
        exact ⟨[], [], (List.append_nil cs).symm, .nil, .nil⟩
      have hread := readDate_of_standing hcs ht hstands
      simp only [dateAnswer, hread]

theorem answer?_age {input : String} (hinput : canonical input.toList = cs) {birth : Instant}
    (hage : AsksAge cs birth) (now : Instant) :
    ∃ date, readDate now date = .ok birth ∧ answer? now input = ageOf now input date := by
  obtain ⟨date, hshape, hread⟩ := hage
  have hdate := readDate_of_standing hcs ht
    (standing_of_mem_dates hshape (List.mem_singleton_self date)) now
  rw [← hinput] at hshape
  exact ⟨date, hdate.trans hread, answer?_of_recognize? hshape now⟩

/-- One that does is answered with the age at the time. -/
theorem answer?_of_age {input : String} (hinput : canonical input.toList = cs) {birth : Instant}
    (hage : AsksAge cs birth) {now : Instant} {years : Int}
    (hyears : ageInYears birth.date now.date = .ok years) :
    answer? now input = .ok (countAnswer input (Decimal.integerText years ++ " years")
      ("Age: " ++ (Decimal.integerText years ++ " years")) years) := by
  obtain ⟨date, hdate, hanswer⟩ := answer?_age hcs ht hinput hage now
  rw [hanswer, ageOf, hdate]
  simp only [bind, Except.bind, hyears, pure, Except.pure]

/-- Before the birth it is refused. -/
theorem answer?_of_no_age {input : String} (hinput : canonical input.toList = cs)
    {birth : Instant} (hage : AsksAge cs birth) {now : Instant} {f : Failure}
    (hyears : ageInYears birth.date now.date = .error f) : answer? now input = .error f := by
  obtain ⟨date, hdate, hanswer⟩ := answer?_age hcs ht hinput hage now
  rw [hanswer, ageOf, hdate]
  simp only [bind, Except.bind, hyears]

end

end Reckoner.Dates
