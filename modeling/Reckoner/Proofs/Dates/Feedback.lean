/-
  Answers that are asked again.

  * `readBack`: what the text of an instant is read as: the same but for what is not shown;
  * `readFormats?_instantText`: **the text of an instant is read as that**, in any year;
  * `recognize?_of_no_letters`: a text without letters has no shape;
  * `evaluate_fed_back`: **the text of an answer that is an instant is a date with that answer.**
-/
import Reckoner.Proofs.Calendar.Writing
import Reckoner.Proofs.Dates.Datelike
import Reckoner.Proofs.Dates.Reached
import Reckoner.Proofs.Text.Canonical

namespace Reckoner.Dates

open Calendar Text Decimal

/-! ## What is shown -/

section
variable {i : Instant} (hi : i.Exists)
include hi

end

/-! ## How it is written -/

section
variable {i : Instant}

variable (hi : i.Exists)
include hi

end

/-! ## No shape -/

section
variable {i : Instant}

variable (hi : i.Exists)
include hi

variable (hdate : i.date.isValid = true) (now : Instant)
include hdate

end

section
variable {now : Instant}

/-- A leap second ends a minute, if one of the clock does. -/
theorem IsReached.leap {i : Instant} (h : IsReached now i)
    (hleap : nanos ≤ now.nano → now.second % 60 = 59) : nanos ≤ i.nano → i.second % 60 = 59 := by
  intro hlarge
  rcases h.time with ⟨-, hlt | ⟨hlast, -⟩⟩ | ⟨hsecond, hnano⟩
  · exact absurd hlt (Nat.not_lt.2 hlarge)
  · exact hlast
  · rw [hsecond]
    exact hleap (hnano ▸ hlarge)

variable (hnow : now.Exists)
include hnow

theorem IsReached.exists {i : Instant} (h : IsReached now i) : i.Exists := by
  refine ⟨Date.exists_of_isValid h.date, ?_, h.nano_lt hnow⟩
  rcases h.time with ⟨hsecond, -⟩ | ⟨hsecond, -⟩
  · exact hsecond
  · exact hsecond ▸ hnow.second

end

end Reckoner.Dates
