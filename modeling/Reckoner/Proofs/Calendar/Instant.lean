/-
  Instants on the axis of time.

  * `Instant.IsRegular`: the day has a date, the time is one of the day, outside leap seconds;
  * `Instant.position`: the nanosecond at which an instant lies;
  * `InRange`: the nanoseconds from the first instant to the last;
  * `addSeconds?_eq_some_iff`, `exists_later_iff`: **adding seconds leads to the instant that lies
    so much later, if the range reaches so far**;
  * `IsMonthsLater`, `addMonths?_eq_some_iff`, `exists_months_later_iff`: the same for months, where
    the day keeps to the end of the month.
-/
import Reckoner.Calendar.Instant
import Reckoner.Proofs.Calendar.Date

namespace Reckoner.Calendar

/-- The first second that has a date. -/
def firstSecond : Int := daysBeforeYear minYear * dayLength

/-- The second after the last that has a date. -/
def endSecond : Int := daysBeforeYear (maxYear + 1) * dayLength

namespace Instant

/-- The day has a date, and the time is one of the day, outside leap seconds. -/
structure IsRegular (i : Instant) : Prop where
  date : i.date.isValid = true
  second : i.second < dayLength
  nano : i.nano < nanos

/-- Nanoseconds since the start of year 1. -/
def position (i : Instant) : Int := i.seconds * nanos + i.nano

/-- The first instant that has a date. -/
def first : Instant := midnight ⟨minYear, 1, 1⟩

/-- The last instant that has a date. -/
def last : Instant := ⟨Date.last, dayLength - 1, nanos - 1⟩

/-- There is an instant at the nanosecond. -/
def InRange (position : Int) : Prop := first.position ≤ position ∧ position ≤ last.position

theorem inRange_iff (position : Int) :
    InRange position ↔ firstSecond * nanos ≤ position ∧ position < endSecond * nanos := by
  have hfirst : first.position = firstSecond * nanos := rfl
  have hlast : last.position = endSecond * nanos - 1 := rfl
  unfold InRange
  rw [hfirst, hlast]
  omega

variable {i j : Instant}

theorem ofSeconds?_eq_some_iff {total : Int} {nano : Nat} : ofSeconds? total nano = some j ↔
    j.date.isValid = true ∧ j.second < dayLength ∧ j.seconds = total ∧ j.nano = nano := by
  obtain ⟨date, second, nano'⟩ := j
  simp only [ofSeconds?, Option.map_eq_some_iff, Date.ofDayNumber?_eq_some_iff, Instant.mk.injEq,
    seconds, dayLength]
  constructor
  · rintro ⟨d, ⟨hvalid, hnumber⟩, rfl, rfl, rfl⟩
    exact ⟨hvalid, by omega, by omega, rfl⟩
  · rintro ⟨hvalid, hsecond, htotal, rfl⟩
    exact ⟨date, ⟨hvalid, by omega⟩, rfl, by omega, rfl⟩

theorem seconds_mem (hdate : i.date.isValid = true) (hsecond : i.second < dayLength) :
    firstSecond ≤ i.seconds ∧ i.seconds < endSecond := by
  have hnumber := (Date.exists_dayNumber_iff i.date.dayNumber).1 ⟨_, hdate, rfl⟩
  unfold seconds firstSecond endSecond
  unfold dayLength at *
  omega

/-- The seconds with a date are those of the range. -/
theorem exists_seconds_iff (total : Int) (nano : Nat) :
    (∃ j, ofSeconds? total nano = some j) ↔ firstSecond ≤ total ∧ total < endSecond := by
  constructor
  · rintro ⟨j, h⟩
    obtain ⟨hvalid, hsecond, rfl, -⟩ := ofSeconds?_eq_some_iff.1 h
    exact seconds_mem hvalid hsecond
  · intro h
    have hday : daysBeforeYear minYear ≤ total / dayLength ∧
        total / dayLength < daysBeforeYear (maxYear + 1) := by
      unfold firstSecond endSecond dayLength at h
      unfold dayLength
      omega
    obtain ⟨d, hd⟩ := (Date.exists_dayNumber_iff _).2 hday
    exact ⟨_, Option.map_eq_some_iff.2 ⟨d, Date.ofDayNumber?_eq_some_iff.2 hd, rfl⟩⟩

namespace IsRegular

/-- Where an instant lies tells its second and its nanosecond. -/
theorem position_eq_iff (hj : j.IsRegular) {total : Int} {nano : Nat} (hnano : nano < nanos) :
    j.position = total * nanos + nano ↔ j.seconds = total ∧ j.nano = nano := by
  have hj := hj.nano
  unfold position nanos at *
  omega

theorem position_inRange (hi : i.IsRegular) : InRange i.position := by
  have hseconds := seconds_mem hi.date hi.second
  have hnano := hi.nano
  rw [inRange_iff]
  unfold position nanos at *
  omega

/-- Adding seconds leads to the instant that lies so much later. -/
theorem addSeconds?_eq_some_iff (hi : i.IsRegular) (n : Int) :
    i.addSeconds? n = some j ↔ j.IsRegular ∧ j.position = i.position + n * nanos := by
  have hself : ofSeconds? i.seconds i.nano = some i :=
    ofSeconds?_eq_some_iff.2 ⟨hi.date, hi.second, rfl, rfl⟩
  have hleap : i.isLeapSecond = false := by simpa [isLeapSecond] using hi.nano
  have hadd : i.addSeconds? n = ofSeconds? (i.seconds + n) i.nano := by
    unfold addSeconds?
    by_cases hn : n = 0
    · rw [if_pos hn, hn, Int.add_zero, hself]
    · rw [if_neg hn, hleap, if_neg Bool.false_ne_true]
  have hposition : i.position + n * nanos = (i.seconds + n) * nanos + i.nano := by
    unfold position
    rw [Int.add_mul]
    omega
  rw [hadd, ofSeconds?_eq_some_iff, hposition]
  constructor
  · rintro ⟨hdate, hsecond, htotal, hnano⟩
    have hj : j.IsRegular := ⟨hdate, hsecond, hnano ▸ hi.nano⟩
    exact ⟨hj, (hj.position_eq_iff hi.nano).2 ⟨htotal, hnano⟩⟩
  · rintro ⟨hj, h⟩
    obtain ⟨htotal, hnano⟩ := (hj.position_eq_iff hi.nano).1 h
    exact ⟨hj.date, hj.second, htotal, hnano⟩

/-- There is an instant so much later if the years that have dates reach so far. -/
theorem exists_later_iff (hi : i.IsRegular) (n : Int) :
    (∃ j, i.addSeconds? n = some j) ↔ InRange (i.position + n * nanos) := by
  constructor
  · rintro ⟨j, h⟩
    obtain ⟨hj, hposition⟩ := (hi.addSeconds?_eq_some_iff n).1 h
    exact hposition ▸ hj.position_inRange
  · intro h
    have hnano := hi.nano
    have hseconds : firstSecond ≤ i.seconds + n ∧ i.seconds + n < endSecond := by
      rw [inRange_iff] at h
      unfold position nanos at *
      omega
    obtain ⟨j, hj⟩ := (exists_seconds_iff _ i.nano).2 hseconds
    obtain ⟨hdate, hsecond, htotal, hj⟩ := ofSeconds?_eq_some_iff.1 hj
    refine ⟨j, (hi.addSeconds?_eq_some_iff n).2 ⟨⟨hdate, hsecond, hj ▸ hnano⟩, ?_⟩⟩
    unfold position
    rw [htotal, hj, Int.add_mul]
    omega

end IsRegular

/-! ## Months -/

/-- The number of months before a month. -/
def monthIndex (d : Date) : Int := 12 * d.year + (d.month - 1)

/-- `j` comes `n` months after `i`, at the same time of the same day, or of the last day of a
month that is too short for it. -/
structure IsMonthsLater (i : Instant) (n : Int) (j : Instant) : Prop where
  date : j.date.isValid = true
  month : monthIndex j.date = monthIndex i.date + n
  day : j.date.day = min i.date.day (monthLength j.date.year j.date.month)
  second : j.second = i.second
  nano : j.nano = i.nano

/-- Adding months keeps the time of day, and the day unless the month is too short for it. -/
theorem addMonths?_eq_some_iff (n : Int) : i.addMonths? n = some j ↔ i.IsMonthsLater n j := by
  obtain ⟨⟨year, month, day⟩, second, nano⟩ := j
  simp only [addMonths?, Option.map_eq_some_iff, Date.ofYmd?_eq_some_iff]
  constructor
  · rintro ⟨d, ⟨rfl, hvalid⟩, h⟩
    obtain ⟨hdate, rfl, rfl⟩ := Instant.mk.inj h
    obtain ⟨rfl, rfl, rfl⟩ := Date.mk.inj hdate
    refine ⟨hvalid, ?_, rfl, rfl, rfl⟩
    unfold monthIndex
    dsimp only
    omega
  · rintro ⟨hvalid, hindex, hday, rfl, rfl⟩
    obtain ⟨-, hexists⟩ := (Date.isValid_iff _).1 hvalid
    have hmonth : 1 ≤ month := hexists.month_pos
    have hmonth' : month ≤ 12 := hexists.month_le
    unfold monthIndex at hindex
    dsimp only at hindex hday
    have hyear : (12 * i.date.year + (i.date.month - 1 : Int) + n) / 12 = year := by omega
    have hrest : ((12 * i.date.year + (i.date.month - 1 : Int) + n) % 12).toNat + 1 = month := by
      omega
    rw [hyear, hrest, ← hday]
    exact ⟨_, ⟨rfl, hvalid⟩, rfl⟩

/-- There is an instant so many months later if the years that have dates reach so far. -/
theorem exists_months_later_iff (hi : i.date.isValid = true) (n : Int) :
    (∃ j, i.addMonths? n = some j) ↔
      minYear ≤ (monthIndex i.date + n) / 12 ∧ (monthIndex i.date + n) / 12 ≤ maxYear := by
  obtain ⟨-, hexists⟩ := (Date.isValid_iff _).1 hi
  have hday := hexists.day_pos
  constructor
  · rintro ⟨j, h⟩
    obtain ⟨hvalid, hindex, -⟩ := (addMonths?_eq_some_iff n).1 h
    obtain ⟨hyear, hexists⟩ := (Date.isValid_iff _).1 hvalid
    have hmonth := hexists.month_pos
    have hmonth' := hexists.month_le
    unfold monthIndex at *
    omega
  · intro h
    unfold monthIndex at h
    unfold addMonths?
    dsimp only
    generalize 12 * i.date.year + (i.date.month - 1 : Int) + n = index at h ⊢
    have hlength := monthLength_pos (index / 12) ((index % 12).toNat + 1)
    have hexists' : Date.Exists ⟨index / 12, (index % 12).toNat + 1,
        min i.date.day (monthLength (index / 12) ((index % 12).toNat + 1))⟩ := by
      refine ⟨?_, ?_, ?_, Nat.min_le_right _ _⟩ <;> dsimp only <;> omega
    have hvalid := (Date.isValid_iff _).2 ⟨h, hexists'⟩
    exact ⟨_, Option.map_eq_some_iff.2 ⟨_, Date.ofYmd?_eq_some_iff.2 ⟨rfl, hvalid⟩, rfl⟩⟩

end Instant

end Reckoner.Calendar
