/-
  Ages, and the days they are counted from.

  * `isValid_of_readWritten`: **a date that is read is a day of the calendar**;
  * `ageInYears_self`, `exists_other_age`: no one has the same age on all days.
-/
import Reckoner.Proofs.Calendar.Date
import Reckoner.Proofs.Calendar.Format
import Reckoner.Proofs.Dates.Clock

namespace Reckoner.Dates

open Calendar Text

/-! ## Dates that are read -/

theorem isValid_of_instant? {f : Fields} {nano : Nat} {i : Instant}
    (h : f.instant? nano = some i) : i.date.isValid = true := by
  unfold Fields.instant? at h
  obtain ⟨d, hd, hi⟩ := Option.bind_eq_some_iff.1 h
  split_ifs at hi
  · obtain rfl := Option.some.inj hi
    exact (Date.ofYmd?_eq_some_iff.1 hd).2
  · obtain rfl := Option.some.inj hi
    exact (Date.ofYmd?_eq_some_iff.1 hd).2

theorem isValid_of_readStamp? {cs : List Char} {i : Instant} (h : readStamp? cs = some i) :
    i.date.isValid = true := by
  obtain ⟨f, nano, _, _, -, hi⟩ := instant?_of_readStamp? h
  exact isValid_of_instant? hi

theorem isValid_of_readFormats? {cs : List Char} {i : Instant} (h : readFormats? cs = some i) :
    i.date.isValid = true := by
  unfold readFormats? at h
  split at h
  · next j hj =>
    obtain rfl := Option.some.inj h
    obtain ⟨format, -, hread⟩ := List.exists_of_findSome?_eq_some hj
    unfold Format.readInstant? at hread
    split at hread
    · exact isValid_of_instant? hread
    · exact absurd hread.symm (Option.some_ne_none _)
  · exact isValid_of_readStamp? h

theorem isValid_of_readWritten {date : String} {birth : Instant}
    (h : readWritten date = .ok birth) : birth.date.isValid = true := by
  unfold readWritten at h
  split at h
  · next i hi =>
    obtain rfl := Except.ok.inj h
    exact isValid_of_readFormats? hi
  · exact absurd h nofun

/-! ## Ages at different times -/

/-- The first day that has a date. -/
def firstDate : Date := ⟨minYear, 1, 1⟩

theorem firstDate_before {d : Date} (h : d.isValid = true) (hne : d ≠ firstDate) :
    firstDate.before d = true := by
  obtain ⟨year, month, day⟩ := d
  simp only [Date.isValid, Bool.and_eq_true, decide_eq_true_eq] at h
  simp only [ne_eq, firstDate, Date.mk.injEq] at hne
  unfold firstDate Date.before
  simp only [Bool.or_eq_true, Bool.and_eq_true, decide_eq_true_eq, beq_iff_eq]
  omega

theorem ageInYears_self (d : Date) : ageInYears d d = .ok 0 := by
  have hbefore : d.before d = false := by simp [Date.before]
  unfold ageInYears
  rw [hbefore, if_neg Bool.false_ne_true]
  simp

/-- Whoever is born has no age on another day, or one of more than half a million years. -/
theorem exists_other_age {birth : Date} (h : birth.isValid = true) :
    ∃ today : Date, today.isValid = true ∧
      ((∃ f, ageInYears birth today = .error f) ∨ ageInYears birth today = .ok 524285) := by
  by_cases hfirst : birth = firstDate
  · obtain rfl := hfirst
    exact ⟨Date.last, rfl, .inr rfl⟩
  · refine ⟨firstDate, rfl, .inl ?_⟩
    unfold ageInYears
    rw [firstDate_before h hfirst, if_pos rfl]
    exact ⟨_, rfl⟩

end Reckoner.Dates
