/-
  Days from Monday to Friday.

  * `workdays`: the days from one to another that are workdays, both ends included;
  * `walkWorkdays`: the same days counted one after another, as long as a day has a next;
  * `isWorkday_ofIndex`, `workdaysBefore_succ`, `countP_workdays`: a day more is a workday more, or
    none;
  * `fullWeeks`, `ncard_eq_fullWeeks`: there are five in each full week, and those of the days left;
  * `ncard_eq_businessDays`, `walkWorkdays_eq`: the very last day is not reached;
  * `businessDays_workdays`: **the count is that of the workdays, except up to the last day that
    has a date**.
-/
import Mathlib.Data.Set.Card
import Reckoner.Proofs.Dates.Difference

namespace Reckoner.Dates

open Calendar

/-! ## Workdays -/

/-- The days from one to another that are workdays, both ends included. -/
def workdays (first last : Date) : Set Date :=
  {d | d.isValid = true ∧ d.before first = false ∧ last.before d = false ∧
    d.weekday.isWorkday = true}

/-- The workdays up to a last day, counted one after another from a day on, looking at `days` days
at most. A day is counted on the way to the next, so one that has no day after it is left out. -/
def walkWorkdays (last : Date) : (days : Nat) → (day : Date) → Nat
  | 0, _ => 0
  | days + 1, day => day.next?.elim 0 fun next =>
    if last.before day then 0
    else (if day.weekday.isWorkday then 1 else 0) + walkWorkdays last days next

/-- The workdays of a number of days that start on a weekday: five in each full week, and those of
the days that are left. -/
def fullWeeks (start : Weekday) (days : Nat) : Nat :=
  5 * (days / 7) +
    (List.range (days % 7)).countP fun k : Nat => (Weekday.ofIndex (start.index + k)).isWorkday

theorem isWorkday_ofIndex (n : Nat) :
    (Weekday.ofIndex n).isWorkday = decide (n % 7 < 5) := by
  have hdays : ∀ r < 7, (Weekday.ofIndex r).isWorkday = decide (r < 5) := by decide
  have hmod : Weekday.ofIndex n = Weekday.ofIndex (n % 7) := by
    unfold Weekday.ofIndex
    rw [Nat.mod_mod]
  rw [hmod, hdays _ (Nat.mod_lt n (by decide))]

theorem isWorkday_weekday (d : Date) :
    d.weekday.isWorkday = decide (d.dayNumber % 7 < 5) := by
  rw [Date.weekday, isWorkday_ofIndex, decide_eq_decide]
  omega

theorem index_weekday (d : Date) : (d.weekday.index : Int) = d.dayNumber % 7 := by
  have hdays : ∀ r < 7, (Weekday.ofIndex r).index = r := by decide
  rw [Date.weekday, hdays _ (by omega)]
  omega

/-! ## Counting by numbers -/

/-- A day more is a workday more, or none. -/
theorem workdaysBefore_succ (n : Int) :
    workdaysBefore (n + 1) = workdaysBefore n + if n % 7 < 5 then 1 else 0 := by
  unfold workdaysBefore
  split_ifs <;> omega

theorem workdaysBefore_add_weeks (n : Int) (weeks : Nat) :
    workdaysBefore (n + 7 * weeks) = workdaysBefore n + 5 * weeks := by
  unfold workdaysBefore
  omega

/-- The workdays among the numbers from one on. -/
theorem countP_workdays (n : Int) (days : Nat) :
    ((List.range days).countP fun k : Nat => decide ((n + k) % 7 < 5) : Int) =
      workdaysBefore (n + days) - workdaysBefore n := by
  induction days with
  | zero => simp
  | succ days ih =>
    rw [List.range_succ, List.countP_append, List.countP_singleton, Int.natCast_add, ih,
      Int.natCast_succ, ← Int.add_assoc, workdaysBefore_succ]
    simp only [decide_eq_true_eq, Nat.cast_ite, Nat.cast_one, Nat.cast_zero]
    omega

/-- The days of a number of days from a first one on. -/
def daysFrom (n : Int) (days : Nat) : List Date :=
  (List.range days).map fun k : Nat => Date.ofDayNumber (n + k)

theorem mem_daysFrom {n : Int} {days : Nat} {d : Date} :
    d ∈ daysFrom n days ↔ d.Exists ∧ n ≤ d.dayNumber ∧ d.dayNumber < n + days := by
  simp only [daysFrom, List.mem_map, List.mem_range]
  constructor
  · rintro ⟨k, hk, rfl⟩
    obtain ⟨hexists, hnumber⟩ := Date.dayNumber_ofDayNumber (n + k)
    exact ⟨hexists, by omega, by omega⟩
  · rintro ⟨hexists, hfirst, hlast⟩
    refine ⟨(d.dayNumber - n).toNat, by omega, ?_⟩
    rw [Int.toNat_of_nonneg (by omega), Int.add_comm, Int.sub_add_cancel,
      Date.ofDayNumber_dayNumber hexists]

theorem nodup_daysFrom (n : Int) (days : Nat) : (daysFrom n days).Nodup := by
  refine List.Nodup.map_on (fun k _ l _ h => ?_) List.nodup_range
  have hnumber := congrArg Date.dayNumber h
  rw [(Date.dayNumber_ofDayNumber _).2, (Date.dayNumber_ofDayNumber _).2] at hnumber
  omega

theorem countP_daysFrom (n : Int) (days : Nat) :
    ((daysFrom n days).countP (·.weekday.isWorkday) : Int) =
      workdaysBefore (n + days) - workdaysBefore n := by
  rw [← countP_workdays, daysFrom, List.countP_map]
  refine congrArg _ (List.countP_congr fun k _ => ?_)
  rw [Function.comp_apply, isWorkday_weekday, (Date.dayNumber_ofDayNumber _).2]

/-! ## Counting by days -/

section
variable {first last : Date} (hfirst : first.isValid = true) (hlast : last.isValid = true)
include hfirst hlast

/-- The days up to a last day have dates, and are listed from the first on. -/
theorem workdays_eq : workdays first last =
    {d | d ∈ (daysFrom first.dayNumber (last.dayNumber + 1 - first.dayNumber).toNat).filter
      (·.weekday.isWorkday)} := by
  have hfirst' := Date.exists_of_isValid hfirst
  have hlast' := Date.exists_of_isValid hlast
  ext d
  simp only [workdays, Set.mem_ofPred_eq, List.mem_filter, mem_daysFrom]
  constructor
  · rintro ⟨hd, hafter, hbefore, hwork⟩
    have hd' := Date.exists_of_isValid hd
    rw [hd'.not_before_iff_le hfirst'] at hafter
    rw [hlast'.not_before_iff_le hd'] at hbefore
    exact ⟨⟨hd', hafter, by omega⟩, hwork⟩
  · rintro ⟨⟨hd', hafter, hbefore⟩, hwork⟩
    have hrange := (Date.exists_dayNumber_iff _).1 ⟨first, hfirst, rfl⟩
    have hrange' := (Date.exists_dayNumber_iff _).1 ⟨last, hlast, rfl⟩
    obtain ⟨e, he, heq⟩ := (Date.exists_dayNumber_iff d.dayNumber).2 (by omega)
    obtain rfl := (Date.exists_of_isValid he).dayNumber_injective hd' heq
    rw [hd'.not_before_iff_le hfirst', hlast'.not_before_iff_le hd']
    exact ⟨he, hafter, by omega, hwork⟩

theorem ncard_workdays : ((workdays first last).ncard : Int) =
    workdaysBefore (first.dayNumber + (last.dayNumber + 1 - first.dayNumber).toNat) -
      workdaysBefore first.dayNumber := by
  rw [workdays_eq hfirst hlast, ← List.coe_toFinset, Set.ncard_coe_finset,
    List.toFinset_card_of_nodup ((nodup_daysFrom _ _).filter _), ← List.countP_eq_length_filter,
    countP_daysFrom]

end

theorem fullWeeks_eq (first : Date) (days : Nat) : (fullWeeks first.weekday days : Int) =
    workdaysBefore (first.dayNumber + days) - workdaysBefore first.dayNumber := by
  have hrest : ((List.range (days % 7)).countP fun k : Nat =>
      (Weekday.ofIndex (first.weekday.index + k)).isWorkday) =
        (List.range (days % 7)).countP fun k : Nat =>
          decide ((first.dayNumber + k) % 7 < 5) := by
    refine List.countP_congr fun k _ => ?_
    have hindex := index_weekday first
    rw [isWorkday_ofIndex, decide_eq_true_iff, decide_eq_true_iff]
    omega
  have hdays : first.dayNumber + days =
      first.dayNumber + (days % 7 : Nat) + 7 * (days / 7 : Nat) := by
    omega
  rw [fullWeeks, hrest, Int.natCast_add, countP_workdays, hdays, workdaysBefore_add_weeks]
  omega

theorem ncard_eq_fullWeeks {first last : Date} (hfirst : first.isValid = true)
    (hlast : last.isValid = true) : (workdays first last).ncard =
      fullWeeks first.weekday (last.dayNumber + 1 - first.dayNumber).toNat := by
  rw [← Int.natCast_inj, ncard_workdays hfirst hlast, fullWeeks_eq]

/-! ## The count -/

theorem dayNumber_last : Date.last.dayNumber = 95745398 := by decide

/-- The days are counted up to the last day, or to the day before the last that has a date. -/
theorem businessDays_eq_sub {first last : Date}
    (h : first.dayNumber ≤ min last.dayNumber (Date.last.dayNumber - 1) + 1) :
    businessDays first last = workdaysBefore (min last.dayNumber (Date.last.dayNumber - 1) + 1) -
      workdaysBefore first.dayNumber := by
  unfold businessDays
  dsimp only
  split_ifs with hle
  · rfl
  · rw [Int.le_antisymm h (Int.lt_iff_add_one_le.1 (Int.not_le.1 hle)), Int.sub_self]

theorem businessDays_eq_zero {first last : Date}
    (h : min last.dayNumber (Date.last.dayNumber - 1) < first.dayNumber) :
    businessDays first last = 0 := by
  unfold businessDays
  exact if_neg (Int.not_le.2 h)

/-- **The very last day is not reached**: it is a Monday, and missing from the count. -/
theorem ncard_eq_businessDays {first last : Date} (hfirst : first.isValid = true)
    (hlast : last.isValid = true) : ((workdays first last).ncard : Int) =
      businessDays first last + if last = Date.last then 1 else 0 := by
  have hle := Date.dayNumber_le_last hfirst
  have hle' := Date.dayNumber_le_last hlast
  rw [ncard_workdays hfirst hlast]
  split_ifs with h
  · rw [businessDays_eq_sub (by rw [h]; omega), h, dayNumber_last] at *
    unfold workdaysBefore
    omega
  · have hne : last.dayNumber ≠ Date.last.dayNumber :=
      fun heq => h (Date.eq_of_dayNumber hlast Date.isValid_last heq)
    have hmin : min last.dayNumber (Date.last.dayNumber - 1) = last.dayNumber := by omega
    by_cases horder : first.dayNumber ≤ last.dayNumber
    · have hdays : first.dayNumber + (last.dayNumber + 1 - first.dayNumber).toNat =
          last.dayNumber + 1 := by
        omega
      rw [businessDays_eq_sub (by omega), hmin, hdays, Int.add_zero]
    · rw [businessDays_eq_zero (by omega), Int.toNat_of_nonpos (by omega)]
      simp

/-- One step of the walk: a day is counted and left behind. -/
theorem businessDays_next {first last next : Date} (hnext : first.next? = some next)
    (h : first.dayNumber ≤ last.dayNumber) : businessDays first last =
      (if first.weekday.isWorkday then 1 else 0) + businessDays next last := by
  have hnumber := Date.dayNumber_of_next? hnext
  have hle := Date.dayNumber_le_last (Date.isValid_of_next? hnext)
  rw [businessDays_eq_sub (by omega), businessDays_eq_sub (by omega), hnumber,
    workdaysBefore_succ first.dayNumber, isWorkday_weekday]
  simp only [decide_eq_true_eq]
  omega

/-- **The days are those met on a walk from the first**, if it goes on for long enough. -/
theorem walkWorkdays_eq {last : Date} (hlast : last.isValid = true) {days : Nat} :
    ∀ {first : Date}, first.isValid = true → Date.last.dayNumber - first.dayNumber ≤ days →
      (walkWorkdays last days first : Int) = businessDays first last := by
  induction days with
  | zero =>
    intro first hfirst hdays
    rw [walkWorkdays, businessDays_eq_zero (by omega), Int.natCast_zero]
  | succ days ih =>
    intro first hfirst hdays
    rw [walkWorkdays]
    rcases Option.eq_none_or_eq_some first.next? with hnone | ⟨next, hnext⟩
    · obtain rfl := (Date.next?_eq_none_iff hfirst).1 hnone
      rw [hnone, Option.elim_none, businessDays_eq_zero (by omega), Int.natCast_zero]
    · have hnumber := Date.dayNumber_of_next? hnext
      have horder := (Date.exists_of_isValid hlast).before_iff_lt (Date.exists_of_isValid hfirst)
      rw [hnext, Option.elim_some]
      by_cases hpast : last.dayNumber < first.dayNumber
      · rw [if_pos (horder.2 hpast), businessDays_eq_zero (by omega), Int.natCast_zero]
      · rw [if_neg (mt horder.1 hpast), Int.natCast_add, Nat.cast_ite, Int.natCast_one,
          Int.natCast_zero, ih (Date.isValid_of_next? hnext) (by omega),
          businessDays_next hnext (by omega)]

theorem difference_of_dates {a b : Instant} (h : b.date.before a.date = false) :
    difference .businessDay a b = businessDays a.date b.date := by
  cases horder : a.notAfter b with
  | true => exact difference_businessDay horder
  | false =>
    have hback := (Instant.notAfter_total a b).resolve_left (Bool.eq_false_iff.1 horder)
    have hdate : b.date = a.date := by
      rcases Instant.notAfter_iff.1 hback with hbefore | ⟨hdate, -⟩
      · exact absurd (h.symm.trans hbefore) Bool.false_ne_true
      · exact hdate
    rw [difference_comm, difference_businessDay hback, hdate]

/-- **Business days are the days from Monday to Friday from one date to another**, both included:
five in each full week and those of the days left. So they are counted day by day, and so they are
measured between instants, in either order; only the very last day that has a date is missing. -/
theorem businessDays_workdays {first last : Date} (hfirst : first.isValid = true)
    (hlast : last.isValid = true) :
    ((businessDays first last : Int) = (workdays first last).ncard ↔ last ≠ Date.last) ∧
    (last = Date.last → businessDays first last + 1 = (workdays first last).ncard) ∧
    (workdays first last).ncard =
      fullWeeks first.weekday (last.dayNumber + 1 - first.dayNumber).toNat ∧
    (∀ days : Nat, Date.last.dayNumber - first.dayNumber ≤ days →
      (walkWorkdays last days first : Int) = businessDays first last) ∧
    ∀ a b : Instant, a.date = first → b.date = last → last.before first = false →
      (difference .businessDay a b = (workdays first last).ncard ↔ last ≠ Date.last) ∧
        difference .businessDay b a = difference .businessDay a b := by
  have hncard := ncard_eq_businessDays hfirst hlast
  have hcount : (businessDays first last : Int) = (workdays first last).ncard ↔
      last ≠ Date.last := by
    split_ifs at hncard with h
    · exact ⟨fun heq => by omega, fun hne => absurd h hne⟩
    · exact ⟨fun _ => h, fun _ => by omega⟩
  refine ⟨hcount, fun h => ?_, ncard_eq_fullWeeks hfirst hlast,
    fun days hdays => walkWorkdays_eq hlast hfirst hdays, ?_⟩
  · rw [hncard, if_pos h]
  · rintro a b rfl rfl horder
    refine ⟨?_, difference_comm _ _ _⟩
    rw [difference_of_dates horder]
    exact hcount

/-- The first week of 2024 has five. -/
theorem businessDays_workdays_week :
    Date.isValid ⟨2024, 1, 1⟩ = true ∧ Date.isValid ⟨2024, 1, 7⟩ = true ∧
    businessDays ⟨2024, 1, 1⟩ ⟨2024, 1, 7⟩ = (workdays ⟨2024, 1, 1⟩ ⟨2024, 1, 7⟩).ncard ∧
    (workdays ⟨2024, 1, 1⟩ ⟨2024, 1, 7⟩).ncard = 5 ∧
    difference .businessDay (.midnight ⟨2024, 1, 7⟩) (.midnight ⟨2024, 1, 1⟩) =
      difference .businessDay (.midnight ⟨2024, 1, 1⟩) (.midnight ⟨2024, 1, 7⟩) := by
  have hfirst : Date.isValid ⟨2024, 1, 1⟩ = true := by decide
  have hlast : Date.isValid ⟨2024, 1, 7⟩ = true := by decide
  obtain ⟨hcount, -, hweeks, -, hbetween⟩ := businessDays_workdays hfirst hlast
  exact ⟨hfirst, hlast, hcount.2 (by decide), hweeks.trans (by decide),
    (hbetween (.midnight ⟨2024, 1, 1⟩) (.midnight ⟨2024, 1, 7⟩) rfl rfl (by decide)).2⟩

/-- The last day that has a date is a workday, and is not counted. -/
theorem last_workday_missed : Date.last.isValid = true ∧ Date.last.weekday = .monday ∧
    (workdays Date.last Date.last).ncard = 1 ∧ businessDays Date.last Date.last = 0 := by
  have hncard := ncard_eq_fullWeeks Date.isValid_last Date.isValid_last
  exact ⟨Date.isValid_last, by decide, hncard.trans (by decide),
    by decide⟩

end Reckoner.Dates
