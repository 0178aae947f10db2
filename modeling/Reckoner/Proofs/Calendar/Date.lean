/-
  Days of the calendar and their numbers.

  * `Date.Exists`: the month is one of twelve, and has the day;
  * `daysBeforeYear_succ`, `daysBeforeMonth_succ`: years and months follow one another without
    gaps;
  * `splitYear_spec`, `walkMonths_spec`: a day number is cut into the year, the month and the day
    that make it up;
  * `dayNumber_ofDayNumber`, `dayNumber_injective`: **every number is that of one day**;
  * `ofDayNumber?_eq_some_iff`, `exists_dayNumber_iff`: the numbers of the days that have a date.
-/
import Mathlib.Algebra.Order.Group.Unbundled.Int
import Mathlib.Order.Monotone.Basic
import Reckoner.Calendar.Date

namespace Reckoner.Calendar

/-! ## Years -/

theorem isLeap_iff (year : Int) :
    isLeap year = true ↔ year % 4 = 0 ∧ (year % 100 ≠ 0 ∨ year % 400 = 0) := by
  simp [isLeap]

theorem yearLength_pos (year : Int) : 0 < yearLength year := by
  unfold yearLength
  split_ifs <;> omega

theorem daysBeforeYear_succ (year : Int) :
    daysBeforeYear (year + 1) = daysBeforeYear year + yearLength year := by
  have hleap := isLeap_iff year
  unfold daysBeforeYear yearLength
  dsimp only
  split_ifs with h
  · rw [hleap] at h
    omega
  · rw [hleap] at h
    omega

theorem daysBeforeYear_mono {year year' : Int} (h : year ≤ year') :
    daysBeforeYear year ≤ daysBeforeYear year' := by
  have hstrict : StrictMono daysBeforeYear := by
    refine strictMono_int_of_lt_succ fun year => ?_
    have hpos := yearLength_pos year
    rw [daysBeforeYear_succ]
    omega
  exact hstrict.monotone h

/-- A year and the days before a day in it are told by the days before the day. -/
theorem year_unique {year year' : Int} {rest rest' : Nat} (hrest : rest < yearLength year)
    (hrest' : rest' < yearLength year')
    (h : daysBeforeYear year + rest = daysBeforeYear year' + rest') : year = year' := by
  by_contra hne
  rcases Int.lt_or_gt_of_ne hne with hlt | hlt
  · have hmono := daysBeforeYear_mono (Int.add_one_le_iff.2 hlt)
    rw [daysBeforeYear_succ] at hmono
    omega
  · have hmono := daysBeforeYear_mono (Int.add_one_le_iff.2 hlt)
    rw [daysBeforeYear_succ] at hmono
    omega

/-- Eras of four centuries, centuries, and spans of four years. -/
theorem daysBeforeYear_parts {era century four one : Int} (hcentury : 0 ≤ century ∧ century ≤ 3)
    (hfour : 0 ≤ four ∧ four ≤ 24) (hone : 0 ≤ one ∧ one ≤ 3) :
    daysBeforeYear (400 * era + 100 * century + 4 * four + one + 1) =
      146097 * era + 36524 * century + 1461 * four + 365 * one := by
  unfold daysBeforeYear
  dsimp only
  omega

/-- The last year of four is longer, but for that of the last four in the first three
centuries. -/
theorem yearLength_parts {era century four one : Int} (hcentury : 0 ≤ century ∧ century ≤ 3)
    (hfour : 0 ≤ four ∧ four ≤ 24) (hone : 0 ≤ one ∧ one ≤ 3) :
    yearLength (400 * era + 100 * century + 4 * four + one + 1) =
      if one = 3 ∧ (four < 24 ∨ century = 3) then 366 else 365 := by
  have hleap := isLeap_iff (400 * era + 100 * century + 4 * four + one + 1)
  unfold yearLength
  by_cases h : one = 3 ∧ (four < 24 ∨ century = 3)
  · rw [if_pos h, if_pos (hleap.2 (by omega))]
  · rw [if_neg h, if_neg fun hyear => h ?_]
    have hyear := hleap.1 hyear
    omega

/-- A number is cut into a year and the days before it in that year. -/
theorem splitYear_spec (n : Int) :
    n = daysBeforeYear (Date.splitYear n).1 + (Date.splitYear n).2 ∧
      (Date.splitYear n).2 < yearLength (Date.splitYear n).1 := by
  unfold Date.splitYear
  dsimp only
  generalize hinEra : (n % 146097).toNat = inEra
  generalize hcentury : min (inEra / 36524) 3 = century
  generalize hinCentury : inEra - century * 36524 = inCentury
  generalize hfour : inCentury / 1461 = four
  generalize hinFour : inCentury - four * 1461 = inFour
  generalize hone : min (inFour / 365) 3 = one
  have hcentury' : (0 : Int) ≤ century ∧ (century : Int) ≤ 3 := by omega
  have hfour' : (0 : Int) ≤ four ∧ (four : Int) ≤ 24 := by omega
  have hone' : (0 : Int) ≤ one ∧ (one : Int) ≤ 3 := by omega
  rw [daysBeforeYear_parts hcentury' hfour' hone', yearLength_parts hcentury' hfour' hone']
  constructor
  · omega
  · split_ifs <;> omega

/-! ## Months -/

theorem monthLength_pos (year : Int) (month : Nat) : 28 ≤ monthLength year month := by
  unfold monthLength
  split <;> (try split_ifs) <;> omega

theorem monthLength_le (year : Int) (month : Nat) : monthLength year month ≤ 31 := by
  unfold monthLength
  split <;> (try split_ifs) <;> omega

theorem daysBeforeMonth_succ (year : Int) {month : Nat} (h : 1 ≤ month) :
    daysBeforeMonth year (month + 1) = daysBeforeMonth year month + monthLength year month := by
  obtain ⟨month, rfl⟩ := Nat.exists_eq_add_of_le' h
  rfl

theorem daysBeforeMonth_mono (year : Int) : Monotone (daysBeforeMonth year) := by
  refine monotone_nat_of_le_succ fun month => ?_
  by_cases h : 1 ≤ month
  · rw [daysBeforeMonth_succ year h]
    omega
  · obtain rfl : month = 0 := by omega
    exact Nat.le_refl 0

/-- Twelve months make up a year. -/
theorem daysBeforeMonth_end (year : Int) : daysBeforeMonth year 13 = yearLength year := by
  by_cases h : isLeap year = true
  · simp [daysBeforeMonth, monthLength, yearLength, h]
  · simp [daysBeforeMonth, monthLength, yearLength, h]

/-- Walking on from month to month keeps the number of days, and ends at a day of a month. -/
theorem walkMonths_spec (year : Int) {months : Nat} : ∀ {month rest : Nat}, 1 ≤ month →
    daysBeforeMonth year month + rest < daysBeforeMonth year (month + months + 1) →
      let (last, day) := Date.walkMonths year month rest months
      (1 ≤ last ∧ last ≤ month + months) ∧ (1 ≤ day ∧ day ≤ monthLength year last) ∧
        daysBeforeMonth year last + day = daysBeforeMonth year month + rest + 1 := by
  induction months with
  | zero =>
    intro month rest hmonth hrest
    rw [Nat.add_zero, daysBeforeMonth_succ year hmonth] at hrest
    exact ⟨⟨hmonth, Nat.le_refl _⟩, ⟨Nat.le_add_left 1 rest, by omega⟩, rfl⟩
  | succ months ih =>
    intro month rest hmonth hrest
    have hnext := daysBeforeMonth_succ year hmonth
    rw [Date.walkMonths]
    split_ifs with hlt
    · exact ⟨⟨hmonth, Nat.le_add_right _ _⟩, ⟨Nat.le_add_left 1 rest, hlt⟩, rfl⟩
    · rw [show month + (months + 1) + 1 = month + 1 + months + 1 by omega] at hrest
      have hwalk := @ih (month + 1) (rest - monthLength year month) (Nat.le_add_left 1 month)
        (by omega)
      generalize Date.walkMonths year (month + 1) (rest - monthLength year month) months = walked
        at hwalk ⊢
      obtain ⟨last, day⟩ := walked
      dsimp only at hwalk ⊢
      omega

/-- A month and a day of it are told by the days of the year up to the day. -/
theorem month_unique {year : Int} {month month' day day' : Nat} (hmonth : 1 ≤ month)
    (hmonth' : 1 ≤ month') (hday : 1 ≤ day ∧ day ≤ monthLength year month)
    (hday' : 1 ≤ day' ∧ day' ≤ monthLength year month')
    (h : daysBeforeMonth year month + day = daysBeforeMonth year month' + day') :
    month = month' := by
  by_contra hne
  rcases Nat.lt_or_gt_of_ne hne with hlt | hlt
  · have hmono := daysBeforeMonth_mono year (Nat.succ_le_of_lt hlt)
    rw [Nat.succ_eq_add_one, daysBeforeMonth_succ year hmonth] at hmono
    omega
  · have hmono := daysBeforeMonth_mono year (Nat.succ_le_of_lt hlt)
    rw [Nat.succ_eq_add_one, daysBeforeMonth_succ year hmonth'] at hmono
    omega

/-! ## Days -/

namespace Date

/-- The month is one of twelve, and has the day. -/
structure Exists (d : Date) : Prop where
  month_pos : 1 ≤ d.month
  month_le : d.month ≤ 12
  day_pos : 1 ≤ d.day
  day_le : d.day ≤ monthLength d.year d.month

theorem isValid_iff (d : Date) :
    d.isValid = true ↔ (minYear ≤ d.year ∧ d.year ≤ maxYear) ∧ d.Exists := by
  simp only [isValid, Bool.and_eq_true, decide_eq_true_eq]
  constructor
  · rintro ⟨⟨⟨⟨⟨h1, h2⟩, h3⟩, h4⟩, h5⟩, h6⟩
    exact ⟨⟨h1, h2⟩, h3, h4, h5, h6⟩
  · rintro ⟨⟨h1, h2⟩, h3, h4, h5, h6⟩
    exact ⟨⟨⟨⟨⟨h1, h2⟩, h3⟩, h4⟩, h5⟩, h6⟩

theorem ofYmd?_eq_some_iff {year : Int} {month day : Nat} {d : Date} :
    ofYmd? year month day = some d ↔ d = ⟨year, month, day⟩ ∧ d.isValid = true := by
  unfold ofYmd?
  dsimp only
  split_ifs with h
  · constructor
    · rintro ⟨⟩
      exact ⟨rfl, h⟩
    · rintro ⟨rfl, -⟩
      rfl
  · constructor
    · exact nofun
    · rintro ⟨rfl, hvalid⟩
      exact absurd hvalid h

/-- The days of a year before the day. -/
def dayOfYear (d : Date) : Nat := daysBeforeMonth d.year d.month + d.day - 1

namespace Exists

variable {d d' : Date}

theorem dayOfYear_lt (h : d.Exists) : d.dayOfYear < yearLength d.year := by
  have hmono := daysBeforeMonth_mono d.year (Nat.succ_le_succ h.month_le)
  have hday := h.day_le
  rw [Nat.succ_eq_add_one, daysBeforeMonth_succ d.year h.month_pos, daysBeforeMonth_end] at hmono
  have hpos := h.day_pos
  unfold dayOfYear
  omega

theorem dayNumber_eq (h : d.Exists) : d.dayNumber = daysBeforeYear d.year + d.dayOfYear := by
  have hpos := h.day_pos
  unfold dayNumber dayOfYear
  omega

theorem dayNumber_injective (h : d.Exists) (h' : d'.Exists) (heq : d.dayNumber = d'.dayNumber) :
    d = d' := by
  obtain ⟨year, month, day⟩ := d
  obtain ⟨year', month', day'⟩ := d'
  rw [h.dayNumber_eq, h'.dayNumber_eq] at heq
  obtain rfl : year = year' := year_unique h.dayOfYear_lt h'.dayOfYear_lt heq
  have hday : 1 ≤ day := h.day_pos
  have hday' : 1 ≤ day' := h'.day_pos
  have hrest : daysBeforeMonth year month + day = daysBeforeMonth year month' + day' := by
    simp only [dayOfYear] at heq
    omega
  obtain rfl : month = month' := month_unique h.month_pos h'.month_pos ⟨hday, h.day_le⟩
    ⟨hday', h'.day_le⟩ hrest
  obtain rfl : day = day' := by omega
  rfl

/-- The year lies in a range as the number does. -/
theorem year_mem_iff (h : d.Exists) (first last : Int) :
    first ≤ d.year ∧ d.year ≤ last ↔
      daysBeforeYear first ≤ d.dayNumber ∧ d.dayNumber < daysBeforeYear (last + 1) := by
  have hlt := h.dayOfYear_lt
  have hnext := daysBeforeYear_succ d.year
  rw [h.dayNumber_eq]
  constructor
  · rintro ⟨hfirst, hlast⟩
    have hbelow := daysBeforeYear_mono hfirst
    have habove := daysBeforeYear_mono (Int.add_le_add_right hlast 1)
    omega
  · rintro ⟨hfirst, hlast⟩
    refine ⟨?_, ?_⟩
    · by_contra hbelow
      have := daysBeforeYear_mono (Int.add_one_le_iff.2 (Int.not_le.1 hbelow))
      omega
    · by_contra habove
      have := daysBeforeYear_mono (Int.add_one_le_iff.2 (Int.not_le.1 habove))
      omega

end Exists

/-- **Every number is that of a day.** -/
theorem dayNumber_ofDayNumber (n : Int) :
    (ofDayNumber n).Exists ∧ (ofDayNumber n).dayNumber = n := by
  obtain ⟨hn, hlt⟩ := splitYear_spec n
  obtain ⟨⟨year, rest⟩, hcut⟩ : ∃ cut, splitYear n = cut := ⟨_, rfl⟩
  rw [hcut] at hn hlt
  have hone : daysBeforeMonth year 1 = 0 := rfl
  have hlast : daysBeforeMonth year (1 + 11 + 1) = yearLength year := daysBeforeMonth_end year
  dsimp only at hn hlt
  have hwalk := @walkMonths_spec year 11 1 rest (Nat.le_refl 1) (by omega)
  obtain ⟨⟨month, day⟩, hwalked⟩ : ∃ walked, walkMonths year 1 rest 11 = walked := ⟨_, rfl⟩
  rw [hwalked] at hwalk
  obtain ⟨⟨hmonth, hmonth'⟩, ⟨hday, hday'⟩, hsum⟩ := hwalk
  have hdate : ofDayNumber n = ⟨year, month, day⟩ := by
    rw [ofDayNumber, hcut]
    dsimp only
    rw [hwalked]
  rw [hdate]
  refine ⟨⟨hmonth, hmonth', hday, hday'⟩, ?_⟩
  simp only [dayNumber]
  omega

theorem ofDayNumber_dayNumber {d : Date} (h : d.Exists) : ofDayNumber d.dayNumber = d := by
  obtain ⟨hexists, hnumber⟩ := dayNumber_ofDayNumber d.dayNumber
  exact hexists.dayNumber_injective h hnumber

theorem ofDayNumber?_eq_some_iff {n : Int} {d : Date} :
    ofDayNumber? n = some d ↔ d.isValid = true ∧ d.dayNumber = n := by
  obtain ⟨hexists, hnumber⟩ := dayNumber_ofDayNumber n
  unfold ofDayNumber?
  dsimp only
  rw [isValid_iff]
  constructor
  · intro h
    obtain ⟨hyear, h⟩ := Option.ite_none_right_eq_some.1 h
    obtain rfl := Option.some.inj h
    simp only [Bool.and_eq_true, decide_eq_true_eq] at hyear
    exact ⟨⟨hyear, hexists⟩, hnumber⟩
  · rintro ⟨⟨hyear, hd⟩, rfl⟩
    rw [ofDayNumber_dayNumber hd]
    simp [hyear]

/-- The numbers of the days that have a date. -/
theorem exists_dayNumber_iff (n : Int) : (∃ d : Date, d.isValid = true ∧ d.dayNumber = n) ↔
    daysBeforeYear minYear ≤ n ∧ n < daysBeforeYear (maxYear + 1) := by
  constructor
  · rintro ⟨d, hvalid, rfl⟩
    obtain ⟨hyear, hd⟩ := (isValid_iff d).1 hvalid
    exact (hd.year_mem_iff _ _).1 hyear
  · intro h
    obtain ⟨hexists, hnumber⟩ := dayNumber_ofDayNumber n
    rw [← hnumber] at h
    exact ⟨_, (isValid_iff _).2 ⟨(hexists.year_mem_iff _ _).2 h, hexists⟩, hnumber⟩

end Date

end Reckoner.Calendar
