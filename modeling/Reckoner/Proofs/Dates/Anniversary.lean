/-
  Ages and anniversaries.

  * `anniversary`, `shift_year_eq_ok_iff`: the day that a move by years leads to;
  * `IsEarlier`, `wholeYears`: the age counts the years, less one before the birthday;
  * `IsLeapEve`, `clamped_iff`: a leap day gives way to the 28th in the other years;
  * `anniversary_reached`, `before_next_anniversary_iff`: the last anniversary and the next;
  * `ageInYears_anniversary`: **the age is the number of anniversaries that have come**, but for the
    28th of February after a birth on a leap day.
-/
import Reckoner.Proofs.Calendar.Order
import Reckoner.Proofs.Dates.Shift

namespace Reckoner.Dates

open Calendar

variable {birth today later : Date}

/-! ## Anniversaries -/

/-- The day of a birth in another year, or the last of its month where there is no such day. -/
def anniversary (birth : Date) (year : Int) : Date :=
  ⟨year, birth.month, min birth.day (monthLength year birth.month)⟩

theorem isValid_anniversary (h : birth.isValid = true) {year : Int}
    (hyear : minYear ≤ year ∧ year ≤ maxYear) : (anniversary birth year).isValid = true := by
  have hbirth := Date.exists_of_isValid h
  have hday := hbirth.day_pos
  have hlength := monthLength_pos year birth.month
  rw [Date.isValid_iff]
  refine ⟨hyear, hbirth.month_pos, hbirth.month_le, ?_, Nat.min_le_right _ _⟩
  unfold anniversary
  dsimp only
  omega

/-- A move by years leads to the anniversary, if its year has dates. -/
theorem shift_year_eq_ok_iff (h : birth.isValid = true) {years : Int} {j : Instant} :
    shift (.midnight birth) .year years = .ok j ↔
      (minYear ≤ birth.year + years ∧ birth.year + years ≤ maxYear) ∧
        j = .midnight (anniversary birth (birth.year + years)) := by
  have hbirth := Date.exists_of_isValid h
  have hfirst := hbirth.month_pos
  have hlast := hbirth.month_le
  have hshift : shift (.midnight birth) .year years = arrive (.midnight birth) .year years
      ((Instant.midnight birth).addMonths? (12 * years)) := shift_year h
  rw [hshift, arrive_eq_ok_iff, Instant.addMonths?_eq_some_iff]
  constructor
  · intro hlater
    obtain ⟨⟨year, month, day⟩, second, nano⟩ := j
    obtain ⟨hvalid, hmonth, hday, hsecond, hnano⟩ := hlater
    obtain ⟨hyear, hexists⟩ := (Date.isValid_iff _).1 hvalid
    have hfirst' := hexists.month_pos
    have hlast' := hexists.month_le
    simp only [Instant.monthIndex, Instant.midnight]
      at hmonth hday hsecond hnano hfirst' hlast' hyear
    obtain rfl : year = birth.year + years := by omega
    obtain rfl : month = birth.month := by omega
    refine ⟨hyear, ?_⟩
    rw [hday, hsecond, hnano]
    rfl
  · rintro ⟨hyear, rfl⟩
    refine ⟨isValid_anniversary h hyear, ?_, rfl, rfl, rfl⟩
    simp only [Instant.monthIndex, Instant.midnight, anniversary]
    omega

/-- A move by years fails only where no date is. -/
theorem shift_year_of_no_date (h : birth.isValid = true) {years : Int}
    (hyear : ¬ (minYear ≤ birth.year + years ∧ birth.year + years ≤ maxYear)) :
    shift (.midnight birth) .year years =
      .error (outOfRange (.midnight birth) .year years) := by
  have hshift : shift (.midnight birth) .year years = arrive (.midnight birth) .year years
      ((Instant.midnight birth).addMonths? (12 * years)) := shift_year h
  rw [hshift]
  refine arrive_of_not_exists ?_
  rintro ⟨j, hj⟩
  rw [← @arrive_eq_ok_iff (.midnight birth) j .year years, ← hshift,
    shift_year_eq_ok_iff h] at hj
  exact hyear hj.1

/-- Between midnights the days decide. -/
theorem midnight_notAfter_iff {d d' : Date} :
    (Instant.midnight d).notAfter (.midnight d') = true ↔ d'.before d = false := by
  rw [Instant.notAfter_iff]
  simp only [Instant.midnight, Nat.lt_irrefl, false_or, Nat.le_refl, and_true]
  rcases Date.before_trichotomy d d' with hbefore | rfl | hafter
  · simp only [hbefore, true_or, Date.before_asymm hbefore]
  · simp only [or_true, Date.not_before_self]
  · simp only [Date.before_asymm hafter, (Date.ne_of_before hafter).symm, hafter,
      Bool.false_eq_true, Bool.true_eq_false, or_self]

/-! ## Whole years -/

/-- The month and the day of one date come before those of another, whatever their years. -/
def IsEarlier (d d' : Date) : Prop := d.month < d'.month ∨ d.month = d'.month ∧ d.day < d'.day

instance (d d' : Date) : Decidable (IsEarlier d d') :=
  inferInstanceAs (Decidable (_ ∨ _))

/-- The years from a birth to a day, the last of them over. -/
def wholeYears (birth today : Date) : Int :=
  today.year - birth.year - if IsEarlier today birth then 1 else 0

theorem ageInYears_of_before (h : today.before birth = true) :
    ageInYears birth today = .error (.dateOutOfRange
      ("birth date " ++ dayText (.midnight birth) ++ " is in the future")) := by
  unfold ageInYears
  rw [if_pos h]

theorem ageInYears_of_not_before (h : today.before birth = false) :
    ageInYears birth today = .ok (wholeYears birth today) := by
  have hearlier : (today.month < birth.month ||
      (today.month == birth.month && today.day < birth.day)) = true ↔ IsEarlier today birth := by
    simp only [IsEarlier, Bool.or_eq_true, Bool.and_eq_true, decide_eq_true_eq, beq_iff_eq]
  unfold ageInYears wholeYears
  rw [h, if_neg Bool.false_ne_true]
  by_cases hearly : IsEarlier today birth
  · simp only [hearlier.2 hearly, hearly, if_true]
  · simp only [mt hearlier.1 hearly, hearly, Bool.false_eq_true, if_false, Int.sub_zero]

theorem not_before_iff : today.before birth = false ↔
    birth.year < today.year ∨ birth.year = today.year ∧ ¬ IsEarlier today birth := by
  rw [Bool.eq_false_iff, ne_eq, Date.before_iff]
  unfold IsEarlier
  omega

theorem wholeYears_nonneg (h : today.before birth = false) : 0 ≤ wholeYears birth today := by
  rw [not_before_iff] at h
  unfold wholeYears
  split_ifs with hearly
  · have hyear := h.resolve_right fun hsame => hsame.2 hearly
    omega
  · omega

theorem wholeYears_mono (h : later.before today = false) :
    wholeYears birth today ≤ wholeYears birth later := by
  rw [not_before_iff] at h
  unfold wholeYears
  unfold IsEarlier at *
  split_ifs <;> omega

theorem not_before_trans (h : today.before birth = false) (h' : later.before today = false) :
    later.before birth = false := by
  rw [Bool.eq_false_iff, ne_eq, Date.before_iff] at *
  omega

/-- The age leads to a year that has come. -/
theorem wholeYears_le (birth today : Date) : birth.year + wholeYears birth today ≤ today.year := by
  unfold wholeYears
  split_ifs <;> omega

/-! ## Leap days -/

/-- The birth was on a leap day, and today is the last of February in a year without one. -/
structure IsLeapEve (birth today : Date) : Prop where
  birth_month : birth.month = 2
  birth_day : birth.day = 29
  month : today.month = 2
  day : today.day = 28
  common : isLeap today.year = false

/-- Only February has not always as many days. -/
theorem monthLength_of_ne {month : Nat} (h : month ≠ 2) (year year' : Int) :
    monthLength year month = monthLength year' month := by
  unfold monthLength
  split
  · rfl
  · rfl
  · rfl
  · rfl
  · exact absurd rfl h
  · rfl

/-- Only a leap day gives way in another year. -/
theorem clamped_iff (h : birth.Exists) (year : Int) : monthLength year birth.month < birth.day ↔
    birth.month = 2 ∧ birth.day = 29 ∧ isLeap year = false := by
  have hday := h.day_le
  by_cases hmonth : birth.month = 2
  · rw [hmonth] at hday ⊢
    simp only [monthLength, true_and] at hday ⊢
    cases hleap : isLeap year with
    | true =>
      simp only [if_true, Bool.true_eq_false, and_false, iff_false]
      split_ifs at hday <;> omega
    | false =>
      simp only [Bool.false_eq_true, if_false, and_true]
      split_ifs at hday <;> omega
  · rw [monthLength_of_ne hmonth year birth.year]
    simp only [hmonth, false_and, iff_false]
    omega

/-! ## The last anniversary and the next -/

/-- The anniversary of the age has come. -/
theorem anniversary_reached (birth today : Date) :
    today.before (anniversary birth (birth.year + wholeYears birth today)) = false := by
  rw [not_before_iff]
  unfold wholeYears anniversary
  by_cases hearly : IsEarlier today birth
  · rw [if_pos hearly]
    dsimp only
    omega
  · rw [if_neg hearly]
    unfold IsEarlier at hearly ⊢
    dsimp only
    omega

/-- The next anniversary has not, except on the eve of a leap day that is missing. -/
theorem before_next_anniversary_iff (hbirth : birth.Exists) (htoday : today.Exists) :
    today.before (anniversary birth (birth.year + wholeYears birth today + 1)) = false ↔
      IsLeapEve birth today := by
  have hclamped := clamped_iff hbirth today.year
  have hlast := htoday.day_le
  rw [not_before_iff]
  unfold wholeYears anniversary
  by_cases hearly : IsEarlier today birth
  · have hyear : birth.year + (today.year - birth.year - 1) + 1 = today.year := by omega
    rw [if_pos hearly, hyear]
    unfold IsEarlier at hearly ⊢
    dsimp only
    constructor
    · intro h
      obtain ⟨-, h⟩ := h.resolve_left (Int.lt_irrefl _)
      have hmonth : today.month = birth.month := by omega
      rw [hmonth] at hlast
      obtain ⟨hfebruary, hday, hcommon⟩ := hclamped.1 (by omega)
      have hlength : monthLength today.year birth.month = 28 := by
        rw [hfebruary, monthLength, hcommon, if_neg Bool.false_ne_true]
      exact ⟨hfebruary, hday, hmonth.trans hfebruary, by omega, hcommon⟩
    · rintro ⟨hfebruary, hday, hmonth, heve, hcommon⟩
      have hshort := hclamped.2 ⟨hfebruary, hday, hcommon⟩
      rw [hfebruary] at hshort ⊢
      refine .inr ⟨rfl, ?_⟩
      have hlength : monthLength today.year 2 = 28 := by
        rw [monthLength, hcommon, if_neg Bool.false_ne_true]
      omega
  · rw [if_neg hearly]
    unfold IsEarlier at hearly
    dsimp only
    constructor
    · omega
    · rintro ⟨hfebruary, hday, hmonth, heve, hcommon⟩
      omega

section
variable (hbirth : birth.isValid = true) (htoday : today.isValid = true)
include hbirth htoday

/-- Whoever has an age has seen the anniversary after as many years. -/
theorem shift_age (h : today.before birth = false) :
    ∃ j, shift (.midnight birth) .year (wholeYears birth today) = .ok j ∧
      j.notAfter (.midnight today) = true := by
  have hnonneg := wholeYears_nonneg h
  have hle := wholeYears_le birth today
  obtain ⟨hfirst, -⟩ := ((Date.isValid_iff _).1 hbirth).1
  obtain ⟨-, hlast⟩ := ((Date.isValid_iff _).1 htoday).1
  refine ⟨_, (shift_year_eq_ok_iff hbirth).2 ⟨⟨by omega, by omega⟩, rfl⟩, ?_⟩
  rw [midnight_notAfter_iff]
  exact anniversary_reached birth today

/-- The next anniversary is still to come, if there is one, but for the eve of a leap day. -/
theorem shift_age_succ :
    shift (.midnight birth) .year (wholeYears birth today + 1) =
        .error (outOfRange (.midnight birth) .year (wholeYears birth today + 1)) ∨
      ∃ j, shift (.midnight birth) .year (wholeYears birth today + 1) = .ok j ∧
        (j.notAfter (.midnight today) = true ↔ IsLeapEve birth today) := by
  by_cases hyear : minYear ≤ birth.year + (wholeYears birth today + 1) ∧
      birth.year + (wholeYears birth today + 1) ≤ maxYear
  · right
    refine ⟨_, (shift_year_eq_ok_iff hbirth).2 ⟨hyear, rfl⟩, ?_⟩
    rw [midnight_notAfter_iff, ← Int.add_assoc]
    exact before_next_anniversary_iff (Date.exists_of_isValid hbirth)
      (Date.exists_of_isValid htoday)
  · left
    exact shift_year_of_no_date hbirth hyear

end

/-- **The age is the number of anniversaries that have come.** Whoever is not yet born has none. Of
anyone else the anniversary after as many years as the age has come, and the next one has not (or
lies in a year without dates), unless a leap day has given way to the 28th of February that it is;
and the age never falls from one day to a later one. -/
theorem ageInYears_anniversary {birth today : Date} (hbirth : birth.isValid = true)
    (htoday : today.isValid = true) :
    (today.before birth = true →
      ∃ message, ageInYears birth today = .error (.dateOutOfRange message)) ∧
    (today.before birth = false → ∃ years, ageInYears birth today = .ok years ∧ 0 ≤ years ∧
      (∃ j, shift (.midnight birth) .year years = .ok j ∧
        j.notAfter (.midnight today) = true) ∧
      (shift (.midnight birth) .year (years + 1) =
          .error (outOfRange (.midnight birth) .year (years + 1)) ∨
        ∃ j, shift (.midnight birth) .year (years + 1) = .ok j ∧
          (j.notAfter (.midnight today) = true ↔ IsLeapEve birth today)) ∧
      ∀ later : Date, later.isValid = true → later.before today = false →
        ∃ more, ageInYears birth later = .ok more ∧ years ≤ more) := by
  constructor
  · intro h
    exact ⟨_, ageInYears_of_before h⟩
  · intro h
    refine ⟨wholeYears birth today, ageInYears_of_not_before h, wholeYears_nonneg h,
      shift_age hbirth htoday h, shift_age_succ hbirth htoday, ?_⟩
    intro later _ hlater
    exact ⟨_, ageInYears_of_not_before (not_before_trans h hlater), wholeYears_mono hlater⟩

/-- On the 28th of February 2023 someone born on the leap day of 2000 is still 22. -/
theorem ageInYears_anniversary_leap :
    Date.isValid ⟨2000, 2, 29⟩ = true ∧ Date.isValid ⟨2023, 2, 28⟩ = true ∧
    Date.before ⟨2023, 2, 28⟩ ⟨2000, 2, 29⟩ = false ∧
    ageInYears ⟨2000, 2, 29⟩ ⟨2023, 2, 28⟩ = .ok 22 ∧
    ∃ years, ageInYears ⟨2000, 2, 29⟩ ⟨2023, 2, 28⟩ = .ok years ∧ 0 ≤ years := by
  have hbirth : Date.isValid ⟨2000, 2, 29⟩ = true := by decide
  have htoday : Date.isValid ⟨2023, 2, 28⟩ = true := by decide
  have hbefore : Date.before ⟨2023, 2, 28⟩ ⟨2000, 2, 29⟩ = false := by decide
  obtain ⟨years, hyears, hnonneg, -⟩ := (ageInYears_anniversary hbirth htoday).2 hbefore
  exact ⟨hbirth, htoday, hbefore, rfl, years, hyears, hnonneg⟩

end Reckoner.Dates
