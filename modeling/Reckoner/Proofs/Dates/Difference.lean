/-
  Distances between instants.

  * `difference_comm`, `difference_nonneg`: a distance has no direction and is never negative, even
    where leap seconds lie between;
  * `difference_fixed`, `difference_month`, `difference_year`: what is counted in each unit;
  * `difference_shift`: **an instant lies as far from where it was moved as it was moved**.
-/
import Reckoner.Proofs.Calendar.Order
import Reckoner.Proofs.Dates.Shift

namespace Reckoner.Dates

open Calendar

variable {a b : Instant} {unit : DateUnit}

/-! ## Whole parts -/

theorem tdiv_tdiv (n : Int) (p q : Nat) : (n.tdiv p).tdiv q = n.tdiv (p * q : Nat) := by
  obtain ⟨m, rfl | rfl⟩ := n.eq_nat_or_neg
  · simp only [← Int.ofNat_tdiv, Nat.div_div_eq_div_mul]
  · simp only [Int.neg_tdiv, ← Int.ofNat_tdiv, Nat.div_div_eq_div_mul]

/-- A part that is not whole is cut off towards zero. -/
theorem tdiv_nonneg_of_gt {n : Int} {p : Nat} (h : -(p : Int) < n) : 0 ≤ n.tdiv p := by
  obtain ⟨m, rfl | rfl⟩ := n.eq_nat_or_neg
  · exact Int.tdiv_nonneg (Int.natCast_nonneg m) (Int.natCast_nonneg p)
  · rw [Int.neg_tdiv, Int.tdiv_eq_zero_of_lt (Int.natCast_nonneg m) (by omega)]
    decide

/-! ## The two ends -/

theorem difference_of_after (h : a.notAfter b = false) (unit : DateUnit) :
    difference unit a b = difference unit b a := by
  have h' : b.notAfter a = true :=
    (Instant.notAfter_total a b).resolve_left (Bool.eq_false_iff.1 h)
  simp only [difference, h, h', Bool.false_eq_true, if_false, if_true]

/-- A distance has no direction. -/
theorem difference_comm (unit : DateUnit) (a b : Instant) :
    difference unit a b = difference unit b a := by
  cases h : a.notAfter b with
  | false => exact difference_of_after h unit
  | true =>
    cases h' : b.notAfter a with
    | false => exact (difference_of_after h' unit).symm
    | true => rw [Instant.notAfter_antisymm h h']

/-! ## What is counted -/

theorem difference_fixed (h : a.notAfter b = true) {length : Nat}
    (hunit : (unit, length) ∈ fixedLengths) :
    difference unit a b = (b.secondsSince a).tdiv length := by
  simp only [fixedLengths, List.mem_cons, List.not_mem_nil, or_false, Prod.mk.injEq] at hunit
  rcases hunit with ⟨rfl, rfl⟩ | ⟨rfl, rfl⟩ | ⟨rfl, rfl⟩ | ⟨rfl, rfl⟩ | ⟨rfl, rfl⟩
  · simp only [difference, h, if_true]
    exact (Int.tdiv_one _).symm
  · simp only [difference, h, if_true]
    rfl
  · simp only [difference, h, if_true]
    rfl
  · simp only [difference, h, if_true]
    rfl
  · simp only [difference, h, if_true]
    exact tdiv_tdiv _ 86400 7

/-- Months are told by their numbers, on whatever days the instants lie. -/
theorem difference_month (a b : Instant) :
    difference .month a b =
      (Instant.monthIndex b.date - Instant.monthIndex a.date).natAbs := by
  unfold Instant.monthIndex
  cases h : a.notAfter b with
  | true =>
    simp only [difference, h, if_true]
    omega
  | false =>
    simp only [difference, h, Bool.false_eq_true, if_false]
    omega

theorem difference_year (a b : Instant) :
    difference .year a b = (b.date.year - a.date.year).natAbs := by
  cases h : a.notAfter b with
  | true => simp only [difference, h, if_true]
  | false =>
    simp only [difference, h, Bool.false_eq_true, if_false]
    omega

theorem difference_businessDay (h : a.notAfter b = true) :
    difference .businessDay a b = businessDays a.date b.date := by
  simp only [difference, h, if_true]

/-! ## Distances are never negative -/

theorem secondsSince_nonneg (ha : a.Exists) (hb : b.Exists) (h : a.notAfter b = true) :
    0 ≤ b.secondsSince a :=
  tdiv_nonneg_of_gt (Instant.nanosSince_gt ha hb h)

theorem workdaysBefore_mono {m n : Int} (h : m ≤ n) : workdaysBefore m ≤ workdaysBefore n := by
  unfold workdaysBefore
  omega

theorem businessDays_nonneg (first last : Date) : 0 ≤ businessDays first last := by
  unfold businessDays
  dsimp only
  split_ifs with h
  · have hmono := workdaysBefore_mono (Int.le_add_one h)
    omega
  · exact Int.le_refl 0

theorem fixed_or_calendar (unit : DateUnit) :
    (∃ length, (unit, length) ∈ fixedLengths) ∨ unit ∈ [.month, .year, .businessDay] := by
  cases unit with
  | second => exact .inl ⟨1, by decide⟩
  | minute => exact .inl ⟨60, by decide⟩
  | hour => exact .inl ⟨3600, by decide⟩
  | day => exact .inl ⟨86400, by decide⟩
  | week => exact .inl ⟨604800, by decide⟩
  | month | year | businessDay => exact .inr (by decide)

/-- A distance is never negative, even where leap seconds lie between. -/
theorem difference_nonneg (ha : a.Exists) (hb : b.Exists) (unit : DateUnit) :
    0 ≤ difference unit a b := by
  have hordered : ∀ {a b : Instant}, a.Exists → b.Exists → a.notAfter b = true →
      0 ≤ difference unit a b := by
    intro a b ha hb h
    rcases fixed_or_calendar unit with ⟨length, hunit⟩ | hunit
    · rw [difference_fixed h hunit]
      exact Int.tdiv_nonneg (secondsSince_nonneg ha hb h) (Int.natCast_nonneg length)
    · simp only [List.mem_cons, List.not_mem_nil, or_false] at hunit
      rcases hunit with rfl | rfl | rfl
      · rw [difference_month]
        exact Int.natCast_nonneg _
      · rw [difference_year]
        exact Int.natCast_nonneg _
      · rw [difference_businessDay h]
        exact businessDays_nonneg _ _
  rcases Instant.notAfter_total a b with h | h
  · exact hordered ha hb h
  · rw [difference_comm]
    exact hordered hb ha h

/-! ## Moves and distances -/

section
variable {i j : Instant} {n : Int}

theorem secondsSince_of_position (hi : i.IsRegular) (hj : j.IsRegular)
    (h : j.position = i.position + n * nanos) : j.secondsSince i = n := by
  have hnanos : (nanos : Int) ≠ 0 := by decide
  have hbetween : i.position + n * nanos - i.position = n * nanos := by omega
  rw [Instant.secondsSince, hi.nanosSince_eq hj, h, hbetween, Int.mul_tdiv_cancel n hnanos]

theorem length_pos : ∀ u ∈ fixedLengths, 0 < u.2 := by decide

/-- Whole lengths forward are counted as such. -/
theorem difference_of_forward (hi : i.IsRegular) (hj : j.IsRegular) {length : Nat}
    (hunit : (unit, length) ∈ fixedLengths) {m : Nat}
    (h : j.position = i.position + m * length * nanos) : difference unit i j = m := by
  have hle : i.position ≤ j.position := by
    have hforward : 0 ≤ ((m * length * nanos : Nat) : Int) := Int.natCast_nonneg _
    rw [Int.natCast_mul, Int.natCast_mul] at hforward
    omega
  have hlength : (length : Int) ≠ 0 := Int.natCast_ne_zero.2 (length_pos _ hunit).ne'
  rw [difference_fixed ((hi.notAfter_iff_le hj).2 hle) hunit, secondsSince_of_position hi hj h,
    Int.mul_tdiv_cancel _ hlength]

theorem difference_shift_fixed (hi : i.IsRegular) {length : Nat}
    (hunit : (unit, length) ∈ fixedLengths) (h : shift i unit n = .ok j) :
    difference unit i j = n.natAbs := by
  have hlength : unit.length? = some length := length_of_fixed _ hunit
  rw [shift_of_length hi hlength, arrive_eq_ok_iff, hi.addSeconds?_eq_some_iff] at h
  obtain ⟨hj, hposition⟩ := h
  obtain ⟨m, rfl | rfl⟩ := n.eq_nat_or_neg
  · rw [difference_of_forward hi hj hunit hposition, Int.natAbs_natCast]
  · -- seen from the end of a move back, the start lies forward
    have hback : i.position = j.position + m * length * nanos := by
      rw [hposition, Int.neg_mul, Int.neg_mul]
      omega
    rw [difference_comm, difference_of_forward hj hi hunit hback, Int.natAbs_neg,
      Int.natAbs_natCast]

theorem difference_shift_month (hi : i.date.isValid = true) (h : shift i .month n = .ok j) :
    difference .month i j = n.natAbs := by
  rw [shift_month hi, arrive_eq_ok_iff, Instant.addMonths?_eq_some_iff] at h
  rw [difference_month, h.month]
  omega

/-- Twelve months make the next year, also where the day gives way. -/
theorem difference_shift_year (hi : i.date.isValid = true) (h : shift i .year n = .ok j) :
    difference .year i j = n.natAbs := by
  rw [shift_year hi, arrive_eq_ok_iff, Instant.addMonths?_eq_some_iff] at h
  have hexists := Date.exists_of_isValid hi
  have hexists' := Date.exists_of_isValid h.date
  have hmonth := h.month
  have hfirst := hexists.month_pos
  have hlast := hexists.month_le
  have hfirst' := hexists'.month_pos
  have hlast' := hexists'.month_le
  unfold Instant.monthIndex at hmonth
  rw [difference_year]
  omega

end

/-- **Distances undo moves.** A distance has no direction and is never negative, whatever the
instants; and an instant outside leap seconds lies as many units from where it was moved as it was
moved, forward or back, also where a month was too short for its day. -/
theorem difference_shift :
    (∀ unit a b, difference unit a b = difference unit b a) ∧
    (∀ unit, ∀ a b : Instant, a.Exists → b.Exists → 0 ≤ difference unit a b) ∧
    ∀ i : Instant, i.IsRegular → ∀ unit ≠ DateUnit.businessDay, ∀ (n : Int) (j : Instant),
      shift i unit n = .ok j → difference unit i j = n.natAbs := by
  refine ⟨difference_comm, fun unit a b ha hb => difference_nonneg ha hb unit, ?_⟩
  intro i hi unit hunit n j h
  rcases fixed_or_calendar unit with ⟨length, hfixed⟩ | hcalendar
  · exact difference_shift_fixed hi hfixed h
  · simp only [List.mem_cons, List.not_mem_nil, or_false] at hcalendar
    rcases hcalendar with rfl | rfl | rfl
    · exact difference_shift_month hi.date h
    · exact difference_shift_year hi.date h
    · exact absurd rfl hunit

/-- From within a leap second to the midnight after it, and from the end of January on. -/
theorem difference_shift_leap :
    0 ≤ difference .second ⟨⟨2016, 12, 31⟩, 86399, 1900000000⟩ (.midnight ⟨2017, 1, 1⟩) ∧
    shift (.midnight ⟨2023, 3, 31⟩) .month (-1) = .ok (.midnight ⟨2023, 2, 28⟩) ∧
    difference .month (.midnight ⟨2023, 3, 31⟩) (.midnight ⟨2023, 2, 28⟩) = 1 := by
  have hleap : Instant.Exists ⟨⟨2016, 12, 31⟩, 86399, 1900000000⟩ :=
    ⟨Date.exists_of_isValid (by decide), by decide, by decide⟩
  have hafter : Instant.Exists (.midnight ⟨2017, 1, 1⟩) :=
    ⟨Date.exists_of_isValid (by decide), by decide, by decide⟩
  have hmarch : Instant.IsRegular (.midnight ⟨2023, 3, 31⟩) := by constructor <;> decide
  have hmoved : shift (.midnight ⟨2023, 3, 31⟩) .month (-1) = .ok (.midnight ⟨2023, 2, 28⟩) := by
    rw [shift_month hmarch.date, arrive_eq_ok_iff, Instant.addMonths?_eq_some_iff]
    constructor <;> rfl
  exact ⟨difference_shift.2.1 .second _ _ hleap hafter, hmoved,
    difference_shift.2.2 _ hmarch .month (by decide) (-1) _ hmoved⟩

end Reckoner.Dates
