/-
  Days and instants in their order.

  * `Date.before_iff`: one day is before another by its year, its month, its day;
  * `Date.Exists.before_iff_lt`: **the order of days is that of their numbers**;
  * `Date.next?`, `Date.next?_eq_none_iff`: every day with a date but the last has one after it;
  * `Instant.Exists`: the day exists, and the time is one of the day, within a leap second perhaps;
  * `Instant.notAfter_total`, `Instant.notAfter_antisymm`: of two different instants exactly one is
    not after the other;
  * `Instant.nanosSince_gt`: between instants in order, less than a second is lost to leap seconds;
  * `Instant.IsRegular.notAfter_iff_le`: **the order of instants is that of their nanoseconds**.
-/
import Reckoner.Proofs.Calendar.Instant

namespace Reckoner.Calendar

/-! ## Days -/

namespace Date

variable {d d' : Date}

theorem before_iff : d.before d' = true ↔ d.year < d'.year ∨
    d.year = d'.year ∧ (d.month < d'.month ∨ d.month = d'.month ∧ d.day < d'.day) := by
  simp only [before, Bool.or_eq_true, Bool.and_eq_true, decide_eq_true_eq, beq_iff_eq]

theorem before_trichotomy (d d' : Date) : d.before d' = true ∨ d = d' ∨ d'.before d = true := by
  obtain ⟨year, month, day⟩ := d
  obtain ⟨year', month', day'⟩ := d'
  rw [before_iff, before_iff, Date.mk.injEq]
  dsimp only
  omega

theorem not_before_self (d : Date) : d.before d = false := by
  rw [Bool.eq_false_iff, ne_eq, before_iff]
  omega

theorem ne_of_before (h : d.before d' = true) : d ≠ d' := by
  rintro rfl
  exact Bool.false_ne_true ((not_before_self d).symm.trans h)

theorem before_asymm (h : d.before d' = true) : d'.before d = false := by
  rw [before_iff] at h
  rw [Bool.eq_false_iff, ne_eq, before_iff]
  omega

/-- A year ends before the next begins, and so does a month. -/
theorem Exists.lt_of_before (h : d.Exists) (h' : d'.Exists) (hbefore : d.before d' = true) :
    d.dayNumber < d'.dayNumber := by
  rcases before_iff.1 hbefore with hyear | ⟨hyear, hmonth | ⟨hmonth, hday⟩⟩
  · have hlt := h.dayOfYear_lt
    have hmono := daysBeforeYear_mono (Int.add_one_le_iff.2 hyear)
    rw [daysBeforeYear_succ] at hmono
    rw [h.dayNumber_eq, h'.dayNumber_eq]
    omega
  · have hmono := daysBeforeMonth_mono d.year (Nat.succ_le_of_lt hmonth)
    rw [Nat.succ_eq_add_one, daysBeforeMonth_succ d.year h.month_pos] at hmono
    have hlast := h.day_le
    have hfirst := h'.day_pos
    unfold dayNumber
    rw [← hyear]
    omega
  · unfold dayNumber
    rw [← hyear, ← hmonth]
    omega

/-- **The order of days is that of their numbers.** -/
theorem Exists.before_iff_lt (h : d.Exists) (h' : d'.Exists) :
    d.before d' = true ↔ d.dayNumber < d'.dayNumber := by
  refine ⟨h.lt_of_before h', fun hlt => ?_⟩
  rcases before_trichotomy d d' with hbefore | rfl | hafter
  · exact hbefore
  · exact absurd hlt (Int.lt_irrefl _)
  · exact absurd (h'.lt_of_before h hafter) (Int.not_lt.2 (Int.le_of_lt hlt))

theorem Exists.not_before_iff_le (h : d.Exists) (h' : d'.Exists) :
    d.before d' = false ↔ d'.dayNumber ≤ d.dayNumber := by
  rw [Bool.eq_false_iff, ne_eq, h.before_iff_lt h', Int.not_lt]

theorem exists_of_isValid (h : d.isValid = true) : d.Exists := ((isValid_iff d).1 h).2

theorem eq_of_dayNumber (h : d.isValid = true) (h' : d'.isValid = true)
    (heq : d.dayNumber = d'.dayNumber) : d = d' :=
  (exists_of_isValid h).dayNumber_injective (exists_of_isValid h') heq

/-! ## The next day -/

/-- The day after, if it has a date. -/
def next? (d : Date) : Option Date := ofDayNumber? (d.dayNumber + 1)

theorem isValid_last : last.isValid = true := by decide

theorem dayNumber_le_last (h : d.isValid = true) : d.dayNumber ≤ last.dayNumber := by
  have hrange := (exists_dayNumber_iff d.dayNumber).1 ⟨d, h, rfl⟩
  have hlast : daysBeforeYear (maxYear + 1) = last.dayNumber + 1 := by decide
  omega

theorem dayNumber_of_next? (h : d.next? = some d') : d'.dayNumber = d.dayNumber + 1 :=
  (ofDayNumber?_eq_some_iff.1 h).2

theorem isValid_of_next? (h : d.next? = some d') : d'.isValid = true :=
  (ofDayNumber?_eq_some_iff.1 h).1

/-- Only the last day has no day after it. -/
theorem next?_eq_none_iff (h : d.isValid = true) : d.next? = none ↔ d = last := by
  constructor
  · intro hnone
    by_contra hne
    have hle := dayNumber_le_last h
    have hlt : d.dayNumber ≠ last.dayNumber := fun heq => hne (eq_of_dayNumber h isValid_last heq)
    have hfirst := (exists_dayNumber_iff d.dayNumber).1 ⟨d, h, rfl⟩
    have hlast := (exists_dayNumber_iff last.dayNumber).1 ⟨last, isValid_last, rfl⟩
    obtain ⟨e, he⟩ := (exists_dayNumber_iff (d.dayNumber + 1)).2 (by omega)
    rw [next?, ofDayNumber?_eq_some_iff.2 he] at hnone
    cases hnone
  · rintro rfl
    rw [Option.eq_none_iff_forall_ne_some]
    intro e he
    have hle := dayNumber_le_last (isValid_of_next? he)
    have hnext := dayNumber_of_next? he
    omega

end Date

/-! ## Instants -/

namespace Instant

variable {a b : Instant}

/-- The day exists, and the time is one of the day; it may lie within a leap second. -/
structure Exists (i : Instant) : Prop where
  date : i.date.Exists
  second : i.second < dayLength
  nano : i.nano < 2 * nanos

theorem IsRegular.exists (h : a.IsRegular) : a.Exists :=
  ⟨Date.exists_of_isValid h.date, h.second, h.nano.trans (by decide)⟩

theorem notAfter_iff : a.notAfter b = true ↔ a.date.before b.date = true ∨
    a.date = b.date ∧ (a.second < b.second ∨ a.second = b.second ∧ a.nano ≤ b.nano) := by
  simp only [notAfter, Bool.or_eq_true, Bool.and_eq_true, decide_eq_true_eq, beq_iff_eq]

theorem notAfter_total (a b : Instant) : a.notAfter b = true ∨ b.notAfter a = true := by
  rw [notAfter_iff, notAfter_iff]
  rcases Date.before_trichotomy a.date b.date with hbefore | heq | hafter
  · exact .inl (.inl hbefore)
  · rw [heq]
    simp only [true_and]
    omega
  · exact .inr (.inl hafter)

theorem notAfter_antisymm (h : a.notAfter b = true) (h' : b.notAfter a = true) : a = b := by
  obtain ⟨date, second, nano⟩ := a
  obtain ⟨date', second', nano'⟩ := b
  rw [notAfter_iff] at h h'
  dsimp only at h h'
  rcases Date.before_trichotomy date date' with hbefore | rfl | hafter
  · have hne := (Date.ne_of_before hbefore).symm
    simp only [Date.before_asymm hbefore, Bool.false_eq_true, hne, false_and, or_self] at h'
  · simp only [Date.not_before_self, Bool.false_eq_true, true_and, false_or] at h h'
    obtain rfl : second = second' := by omega
    obtain rfl : nano = nano' := by omega
    rfl
  · have hne := (Date.ne_of_before hafter).symm
    simp only [Date.before_asymm hafter, Bool.false_eq_true, hne, false_and, or_self] at h

/-- A leap second on the way may be left out, but no more than that. -/
theorem nanosSince_gt (ha : a.Exists) (hb : b.Exists) (h : a.notAfter b = true) :
    -nanos < b.nanosSince a := by
  have hsecond := ha.second
  have hsecond' := hb.second
  have hnano := ha.nano
  have hnano' := hb.nano
  simp only [nanosSince, seconds, isLeapSecond, Bool.and_eq_true, decide_eq_true_eq]
  unfold nanos dayLength at *
  rcases notAfter_iff.1 h with hbefore | ⟨hdate, htime⟩
  · have hlt := ha.date.lt_of_before hb.date hbefore
    split_ifs <;> omega
  · rw [hdate]
    split_ifs <;> omega

/-- Without leap seconds, instants lie as far apart as their nanoseconds. -/
theorem IsRegular.nanosSince_eq (ha : a.IsRegular) (hb : b.IsRegular) :
    b.nanosSince a = b.position - a.position := by
  have hleap : a.isLeapSecond = false := by simpa [isLeapSecond] using ha.nano
  have hleap' : b.isLeapSecond = false := by simpa [isLeapSecond] using hb.nano
  simp only [nanosSince, hleap, hleap', Bool.and_false, Bool.false_eq_true, if_false, position]
  rw [Int.add_zero, Int.sub_mul]
  omega

theorem IsRegular.position_le (ha : a.IsRegular) (hb : b.IsRegular) (h : a.notAfter b = true) :
    a.position ≤ b.position := by
  have hsecond := ha.second
  have hnano := ha.nano
  unfold position seconds
  unfold nanos dayLength at *
  rcases notAfter_iff.1 h with hbefore | ⟨hdate, htime⟩
  · have hlt := ha.exists.date.lt_of_before hb.exists.date hbefore
    omega
  · rw [hdate]
    omega

theorem IsRegular.eq_of_position (ha : a.IsRegular) (hb : b.IsRegular)
    (h : a.position = b.position) : a = b := by
  obtain ⟨hseconds, hnano⟩ := (ha.position_eq_iff hb.nano).1 h
  have hself := ofSeconds?_eq_some_iff.2 ⟨ha.date, ha.second, hseconds, hnano⟩
  rw [ofSeconds?_eq_some_iff.2 ⟨hb.date, hb.second, rfl, rfl⟩] at hself
  exact (Option.some.inj hself).symm

/-- **The order of instants is that of their nanoseconds**, leap seconds apart. -/
theorem IsRegular.notAfter_iff_le (ha : a.IsRegular) (hb : b.IsRegular) :
    a.notAfter b = true ↔ a.position ≤ b.position := by
  refine ⟨ha.position_le hb, fun h => ?_⟩
  rcases notAfter_total a b with hab | hba
  · exact hab
  · obtain rfl := ha.eq_of_position hb (Int.le_antisymm h (hb.position_le ha hba))
    exact hba

end Instant

end Reckoner.Calendar
