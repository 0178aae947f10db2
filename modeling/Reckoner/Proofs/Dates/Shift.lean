/-
  Instants moved by units of time.

  * `fixedLengths`: the units of fixed length with their seconds;
  * `seconds_checked`, `months_checked`, `years_checked`: the limits on products, on stretches of
    time and on numbers of months refuse nothing that has a date;
  * `shift_fixed`: **a move by a unit of fixed length is exact, and it fails only where no date
    is**;
  * `shift_months`: **a move by months or years leads into the right month, to the same day or to
    the month's last**.
-/
import Mathlib.Algebra.Group.Nat.Defs
import Reckoner.Dates.Unit
import Reckoner.Proofs.Calendar.Instant

namespace Reckoner.Dates

open Calendar

/-- The units of fixed length with their seconds. -/
def fixedLengths : List (DateUnit × Nat) :=
  [(.second, 1), (.minute, 60), (.hour, 3600), (.day, 86400), (.week, 604800)]

theorem length_of_fixed : ∀ u ∈ fixedLengths, u.1.length? = some u.2 := by decide

/-! ## The limits -/

section
variable {i : Instant} {amount n : Int}

theorem scale?_eq_some_iff {count : Nat} : scale? amount count = some n ↔
    n = amount * count ∧ Decimal.fitsInt64 (amount * count) := by
  unfold scale?
  rw [Option.filter_eq_some_iff]
  constructor
  · rintro ⟨h, hfits⟩
    obtain rfl := Option.some.inj h
    exact ⟨rfl, hfits⟩
  · rintro ⟨rfl, hfits⟩
    exact ⟨rfl, hfits⟩

theorem monthsOf?_eq_some_iff {months : Int} : monthsOf? months = some n ↔
    n = months ∧ months.natAbs < 2 ^ 32 := by
  unfold monthsOf?
  rw [Option.filter_eq_some_iff, decide_eq_true_iff]
  constructor
  · rintro ⟨h, hfits⟩
    obtain rfl := Option.some.inj h
    exact ⟨rfl, hfits⟩
  · rintro ⟨rfl, hfits⟩
    exact ⟨rfl, hfits⟩

theorem spanOf?_eq_some_iff {seconds : Int} : Instant.spanOf? seconds = some n ↔
    n = seconds ∧ -Instant.maxSpan ≤ seconds ∧ seconds ≤ Instant.maxSpan := by
  unfold Instant.spanOf?
  split
  · rename_i h
    rw [Bool.and_eq_true, decide_eq_true_iff, decide_eq_true_iff] at h
    rw [Option.some.injEq, eq_comm]
    exact ⟨fun hn => ⟨hn, h⟩, fun hn => hn.1⟩
  · rename_i h
    rw [Bool.and_eq_true, decide_eq_true_iff, decide_eq_true_iff] at h
    exact ⟨fun hn => (Option.some_ne_none _ hn.symm).elim, fun hn => (h hn.2).elim⟩

/-- A stretch of time from date to date has few seconds. -/
theorem seconds_small (hi : i.IsRegular) (h : ∃ j, i.addSeconds? n = some j) :
    n.natAbs < 10 ^ 14 := by
  have hstart := (Instant.inRange_iff _).1 hi.position_inRange
  have hstop := (Instant.inRange_iff _).1 ((hi.exists_later_iff n).1 h)
  have hfirst : firstSecond = -8272465632000 := rfl
  have hend : endSecond = 8272402473600 := rfl
  rw [hfirst, hend] at hstart hstop
  unfold nanos at *
  omega

/-- A number of months from date to date is small. -/
theorem months_small (hi : i.date.isValid = true) (h : ∃ j, i.addMonths? n = some j) :
    n.natAbs < 10 ^ 7 := by
  obtain ⟨hyear, hexists⟩ := (Date.isValid_iff _).1 hi
  have hmonth := hexists.month_pos
  have hmonth' := hexists.month_le
  have hrange := (Instant.exists_months_later_iff hi n).1 h
  unfold Instant.monthIndex at hrange
  unfold minYear maxYear at *
  omega

/-- The limits on products and on stretches of time refuse nothing that has a date. -/
theorem seconds_checked (hi : i.IsRegular) (count : Nat) :
    ((scale? amount count).bind fun seconds => (Instant.spanOf? seconds).bind i.addSeconds?) =
      i.addSeconds? (amount * count) := by
  ext j
  simp only [Option.bind_eq_some_iff, scale?_eq_some_iff, spanOf?_eq_some_iff]
  constructor
  · rintro ⟨_, ⟨rfl, -⟩, _, ⟨rfl, -⟩, h⟩
    exact h
  · intro h
    have hsmall := seconds_small hi ⟨j, h⟩
    generalize amount * count = seconds at h hsmall ⊢
    have hfits : Decimal.fitsInt64 seconds := by
      unfold Decimal.fitsInt64 Decimal.minInt64 Decimal.maxInt64
      grind
    have hspan : -Instant.maxSpan ≤ seconds ∧ seconds ≤ Instant.maxSpan := by
      unfold Instant.maxSpan Decimal.maxInt64
      omega
    exact ⟨_, ⟨rfl, hfits⟩, _, ⟨rfl, hspan⟩, h⟩

/-- The limit on numbers of months refuses nothing that has a date. -/
theorem months_checked (hi : i.date.isValid = true) :
    (monthsOf? amount).bind i.addMonths? = i.addMonths? amount := by
  ext j
  simp only [Option.bind_eq_some_iff, monthsOf?_eq_some_iff]
  constructor
  · rintro ⟨_, ⟨rfl, -⟩, h⟩
    exact h
  · intro h
    have hsmall := months_small hi ⟨j, h⟩
    exact ⟨_, ⟨rfl, by omega⟩, h⟩

/-- Years are twelve months each, with no limit that refuses anything that has a date. -/
theorem years_checked (hi : i.date.isValid = true) :
    ((scale? amount 12).bind fun months => (monthsOf? months).bind i.addMonths?) =
      i.addMonths? (12 * amount) := by
  simp only [months_checked hi]
  ext j
  simp only [Option.bind_eq_some_iff, scale?_eq_some_iff]
  constructor
  · rintro ⟨_, ⟨rfl, -⟩, h⟩
    rwa [Int.mul_comm] at h
  · intro h
    rw [Int.mul_comm] at h
    have hsmall := months_small hi ⟨j, h⟩
    have hfits : Decimal.fitsInt64 (amount * (12 : Nat)) := by
      unfold Decimal.fitsInt64 Decimal.minInt64 Decimal.maxInt64
      grind
    exact ⟨_, ⟨rfl, hfits⟩, h⟩

end

/-! ## Moves -/

/-- The end of a move, or the failure of one that leaves the years with dates. -/
def arrive (i : Instant) (unit : DateUnit) (amount : Int) : Option Instant → Except Failure Instant
  | some j => .ok j
  | none => .error (outOfRange i unit amount)

section
variable {i j : Instant} {unit : DateUnit} {amount : Int}

theorem arrive_eq_ok_iff {moved : Option Instant} :
    arrive i unit amount moved = .ok j ↔ moved = some j := by
  cases moved with
  | none => simp only [arrive, reduceCtorEq]
  | some k => simp only [arrive, Except.ok.injEq, Option.some.injEq]

theorem arrive_of_not_exists {moved : Option Instant} (h : ¬ ∃ j, moved = some j) :
    arrive i unit amount moved = .error (outOfRange i unit amount) := by
  cases moved with
  | none => rfl
  | some k => exact (h ⟨k, rfl⟩).elim

theorem shift_of_length (hi : i.IsRegular) {length : Nat} (hunit : unit.length? = some length) :
    shift i unit amount = arrive i unit amount (i.addSeconds? (amount * length)) := by
  rw [← seconds_checked hi]
  cases unit <;> cases hunit <;> simp only [shift, DateUnit.length?, Option.bind_eq_bind] <;>
    (generalize Option.bind _ _ = moved; cases moved <;> rfl)

theorem shift_month (hi : i.date.isValid = true) :
    shift i .month amount = arrive i .month amount (i.addMonths? amount) := by
  rw [← months_checked hi]
  simp only [shift, DateUnit.length?, Option.bind_eq_bind]
  cases (monthsOf? amount).bind i.addMonths? <;> rfl

theorem shift_year (hi : i.date.isValid = true) :
    shift i .year amount = arrive i .year amount (i.addMonths? (12 * amount)) := by
  rw [← years_checked hi]
  simp only [shift, DateUnit.length?, Option.bind_eq_bind]
  cases (scale? amount 12).bind fun months => (monthsOf? months).bind i.addMonths? <;> rfl

end

/-! ## Units of fixed length -/

/-- **A move by a unit of fixed length is exact.** It leads to the instant that lies so many
lengths away, whenever there is one, and otherwise fails as out of range; two moves by one unit are
the move by the sum. -/
theorem shift_fixed {i : Instant} (hi : i.IsRegular) {unit : DateUnit} {length : Nat}
    (hunit : (unit, length) ∈ fixedLengths) :
    (∀ n : Int,
      (∀ j, shift i unit n = .ok j ↔
        j.IsRegular ∧ j.position = i.position + n * length * nanos) ∧
      (Instant.InRange (i.position + n * length * nanos) → ∃ j, shift i unit n = .ok j) ∧
      (¬ Instant.InRange (i.position + n * length * nanos) →
        shift i unit n = .error (outOfRange i unit n))) ∧
    ∀ a b j k, shift i unit a = .ok j → shift j unit b = .ok k → shift i unit (a + b) = .ok k := by
  have hlength := length_of_fixed _ hunit
  have hend : ∀ {i : Instant}, i.IsRegular → ∀ n j, shift i unit n = .ok j ↔
      j.IsRegular ∧ j.position = i.position + n * length * nanos := by
    intro i hi n j
    rw [shift_of_length hi hlength, arrive_eq_ok_iff, hi.addSeconds?_eq_some_iff]
  refine ⟨fun n => ⟨hend hi n, fun hrange => ?_, fun hrange => ?_⟩, ?_⟩
  · obtain ⟨j, hj⟩ := (hi.exists_later_iff _).2 hrange
    refine ⟨j, ?_⟩
    rw [shift_of_length hi hlength, arrive_eq_ok_iff, hj]
  · rw [← hi.exists_later_iff] at hrange
    rw [shift_of_length hi hlength, arrive_of_not_exists hrange]
  · intro a b j k hj hk
    obtain ⟨hregular, hposition⟩ := (hend hi a j).1 hj
    obtain ⟨hregular', hposition'⟩ := (hend hregular b k).1 hk
    refine (hend hi (a + b) k).2 ⟨hregular', ?_⟩
    rw [hposition', hposition, Int.add_mul, Int.add_mul, Int.add_assoc]

/-- From the last second of the range, a second less than all of it leads back to the first. -/
theorem shift_fixed_whole :
    shift ⟨Date.last, dayLength - 1, 0⟩ .second (-(endSecond - firstSecond - 1)) =
      .ok (.midnight ⟨minYear, 1, 1⟩) := by
  have hlast : Instant.IsRegular ⟨Date.last, dayLength - 1, 0⟩ := by constructor <;> decide
  have hfirst : Instant.IsRegular (.midnight ⟨minYear, 1, 1⟩) := by constructor <;> decide
  have hunit : (DateUnit.second, 1) ∈ fixedLengths := by decide
  exact (((shift_fixed hlast hunit).1 _).1 _).2 ⟨hfirst, by decide⟩

/-! ## Months and years -/

/-- **A move by months leads into the month that comes so much later**, to the same day or the last
of a shorter month, at the same time, whenever that month's year has dates, and otherwise fails as
out of range. A year is twelve months, whatever their number. -/
theorem shift_months {i : Instant} (hi : i.date.isValid = true) (n : Int) :
    ((∀ j, shift i .month n = .ok j ↔ i.IsMonthsLater n j) ∧
      (minYear ≤ (Instant.monthIndex i.date + n) / 12 ∧
        (Instant.monthIndex i.date + n) / 12 ≤ maxYear → ∃ j, shift i .month n = .ok j) ∧
      (¬ (minYear ≤ (Instant.monthIndex i.date + n) / 12 ∧
        (Instant.monthIndex i.date + n) / 12 ≤ maxYear) →
        shift i .month n = .error (outOfRange i .month n))) ∧
    (∀ j, shift i .year n = .ok j ↔ shift i .month (12 * n) = .ok j) ∧
    ∀ f, shift i .year n = .error f → f = outOfRange i .year n := by
  refine ⟨⟨fun j => ?_, fun hrange => ?_, fun hrange => ?_⟩, fun j => ?_, fun f hf => ?_⟩
  · rw [shift_month hi, arrive_eq_ok_iff, Instant.addMonths?_eq_some_iff]
  · obtain ⟨j, hj⟩ := (Instant.exists_months_later_iff hi n).2 hrange
    refine ⟨j, ?_⟩
    rw [shift_month hi, arrive_eq_ok_iff, hj]
  · rw [← Instant.exists_months_later_iff hi] at hrange
    rw [shift_month hi, arrive_of_not_exists hrange]
  · rw [shift_year hi, shift_month hi, arrive_eq_ok_iff, arrive_eq_ok_iff]
  · rw [shift_year hi] at hf
    by_cases h : ∃ j, i.addMonths? (12 * n) = some j
    · obtain ⟨j, hj⟩ := h
      rw [hj] at hf
      cases hf
    · rw [arrive_of_not_exists h] at hf
      exact (Except.error.inj hf).symm

/-- A month after the end of January is the end of February. -/
theorem shift_months_leap :
    shift (.midnight ⟨2024, 1, 31⟩) .month 1 = .ok (.midnight ⟨2024, 2, 29⟩) := by
  refine ((shift_months (by decide) 1).1.1 _).2 ?_
  constructor <;> rfl

end Reckoner.Dates
