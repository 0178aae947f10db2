/-
  Rounded quotients and rounded amounts.

  * `IsRounded`: the number of so many places that is nearest, and of two the one farther from
    zero; `IsRounded.unique`: there is one at most;
  * `roundDiv_near`, `lt_roundDiv_up`: how far a rounded quotient is off;
  * `Amount.isRounded_round`: **amounts are rounded half away from zero**.
-/
import Mathlib.Algebra.Order.Field.Power
import Mathlib.Data.Rat.Lemmas
import Mathlib.Tactic.Linarith
import Mathlib.Tactic.NormNum
import Mathlib.Tactic.Positivity
import Mathlib.Tactic.Ring
import Mathlib.Tactic.SplitIfs
import Reckoner.Decimal.Amount

namespace Reckoner.Decimal

/-! ## Rounding as it is meant -/

/-- `r` is `q` rounded to so many places: no other number with these places is nearer, and none
as near is farther from zero. -/
structure IsRounded (places : Nat) (q r : ℚ) : Prop where
  multiple : ∃ n : ℤ, r = n / 10 ^ places
  nearest : ∀ n : ℤ, |r - q| ≤ |n / 10 ^ places - q|
  away : ∀ n : ℤ, |n / 10 ^ places - q| = |r - q| → |(n / 10 ^ places : ℚ)| ≤ |r|

namespace IsRounded
variable {places : Nat} {q r : ℚ}

theorem neg (h : IsRounded places q r) : IsRounded places (-q) (-r) := by
  -- the multiples of the last place are the same with the other sign
  have hflip (n : ℤ) : (n / 10 ^ places - -q : ℚ) = -((-n : ℤ) / 10 ^ places - q) := by
    push_cast
    ring
  have hr : -r - -q = -(r - q) := by ring
  refine ⟨?_, fun n => ?_, fun n hn => ?_⟩
  · obtain ⟨n, hn⟩ := h.multiple
    exact ⟨-n, by rw [hn]; push_cast; ring⟩
  · rw [hflip, hr, abs_neg, abs_neg]
    exact h.nearest (-n)
  · rw [hflip, hr, abs_neg, abs_neg] at hn
    have hle := h.away (-n) hn
    rwa [Int.cast_neg, neg_div, abs_neg, ← abs_neg r] at hle

/-- Nothing else is the rounded number. -/
theorem unique {s : ℚ} (hr : IsRounded places q r) (hs : IsRounded places q s) : r = s := by
  obtain ⟨m, hm⟩ := hr.multiple
  obtain ⟨n, hn⟩ := hs.multiple
  have hdist : |s - q| = |r - q| := by
    refine le_antisymm ?_ ?_
    · rw [hm]; exact hs.nearest m
    · rw [hn]; exact hr.nearest n
  have hsize : |s| = |r| := by
    refine le_antisymm ?_ ?_
    · rw [hn]; exact hr.away n (hn ▸ hdist)
    · rw [hm]; exact hs.away m (hm ▸ hdist.symm)
  rcases abs_eq_abs.1 hsize with h | h
  · exact h.symm
  · -- opposite numbers are equally near to zero alone, and zero is nearest to itself
    subst h
    have hzero := hr.nearest 0
    rcases abs_eq_abs.1 hdist with h | h
    · linarith
    · obtain rfl : q = 0 := by linarith
      simp at hzero
      simp [hzero]

/-- A number that has the places already stays. -/
theorem refl (h : ∃ n : ℤ, q = n / 10 ^ places) : IsRounded places q q where
  multiple := h
  nearest n := by simp
  away n hn := by
    rw [sub_self, abs_zero, abs_eq_zero, sub_eq_zero] at hn
    rw [hn]

/-- What is at most half a unit of the last place above, or less than that below. -/
theorem of_near {u : ℕ} (hq : 0 ≤ q) (hlow : u - 1 / 2 ≤ q * 10 ^ places)
    (hhigh : q * 10 ^ places < u + 1 / 2) : IsRounded places q (u / 10 ^ places) := by
  have hpos : (0 : ℚ) < 10 ^ places := by positivity
  have hscale (n : ℚ) : |n / 10 ^ places - q| = |n - q * 10 ^ places| / 10 ^ places := by
    rw [← abs_of_pos hpos, ← abs_div, abs_of_pos hpos, sub_div, mul_div_cancel_right₀ _ hpos.ne']
  have ht : 0 ≤ q * 10 ^ places := by positivity
  have hhalf : |u - q * 10 ^ places| ≤ 1 / 2 := abs_le.2 ⟨by linarith, by linarith⟩
  -- other multiples of the last place are a unit away
  have hbelow (n : ℤ) (hn : n < u) : (n : ℚ) + 1 ≤ u := by exact_mod_cast hn
  have habove (n : ℤ) (hn : (u : ℤ) < n) : (u : ℚ) + 1 ≤ n := by exact_mod_cast hn
  refine ⟨⟨u, by norm_num⟩, fun n => ?_, fun n hn => ?_⟩
  · rw [hscale, hscale]
    refine div_le_div_of_nonneg_right ?_ hpos.le
    rcases lt_trichotomy n u with hn | rfl | hn
    · exact hhalf.trans (le_abs.2 (.inr (by linarith [hbelow n hn])))
    · exact le_rfl
    · exact hhalf.trans (le_abs.2 (.inl (by linarith [habove n hn])))
  · rw [hscale, hscale, div_left_inj' hpos.ne'] at hn
    have hdist : |n - q * 10 ^ places| ≤ 1 / 2 := hn.trans_le hhalf
    obtain ⟨hge, hle⟩ := abs_le.1 hdist
    have hnonneg : 0 ≤ n := by
      have : (-1 : ℚ) < n := by linarith
      exact Int.le_of_sub_one_lt (by exact_mod_cast this)
    have hleu : n ≤ u := by
      by_contra hlt
      linarith [habove n (not_le.1 hlt)]
    rw [abs_div, abs_div, Nat.abs_cast, abs_of_nonneg (by exact_mod_cast hnonneg)]
    refine div_le_div_of_nonneg_right ?_ (abs_nonneg _)
    exact_mod_cast hleu

end IsRounded

/-! ## Rounded quotients -/

section Quotient
variable (num : Nat) {den : Nat}

/-- A rounded quotient is half a unit off at most. -/
theorem roundDiv_near (hden : 0 < den) (tie : Tie) :
    2 * (den * roundDiv num den tie) ≤ 2 * num + den ∧
      2 * num ≤ 2 * (den * roundDiv num den tie) + den := by
  have hdiv := Nat.div_add_mod num den
  have hmod := Nat.mod_lt num hden
  have hsucc : den * (num / den + 1) = den * (num / den) + den := Nat.mul_succ ..
  unfold roundDiv
  cases tie with
  | up =>
    dsimp only
    split_ifs with h
    · rw [decide_eq_true_eq] at h
      omega
    · rw [decide_eq_true_eq] at h
      omega
  | even =>
    dsimp only
    split_ifs with h
    · simp only [Bool.or_eq_true, Bool.and_eq_true, decide_eq_true_eq, beq_iff_eq] at h
      omega
    · simp only [Bool.or_eq_true, Bool.and_eq_true, decide_eq_true_eq, beq_iff_eq] at h
      omega

/-- Going up at a half, it is less than that below. -/
theorem lt_roundDiv_up (hden : 0 < den) :
    2 * num < 2 * (den * roundDiv num den .up) + den := by
  have hdiv := Nat.div_add_mod num den
  have hmod := Nat.mod_lt num hden
  have hsucc : den * (num / den + 1) = den * (num / den) + den := Nat.mul_succ ..
  unfold roundDiv
  dsimp only
  split_ifs with h
  · omega
  · rw [decide_eq_true_eq] at h
    omega

/-- A fraction rounded up at a half is the nearest whole number to it. -/
theorem roundDiv_up_near (hden : 0 < den) :
    (roundDiv num den .up - 1 / 2 : ℚ) ≤ num / den ∧
      (num / den : ℚ) < roundDiv num den .up + 1 / 2 := by
  have hpos : (0 : ℚ) < den := by exact_mod_cast hden
  have hlow : (2 * (den * roundDiv num den .up) : ℚ) ≤ 2 * num + den := by
    exact_mod_cast (roundDiv_near num hden .up).1
  have hhigh : (2 * num : ℚ) < 2 * (den * roundDiv num den .up) + den := by
    exact_mod_cast lt_roundDiv_up num hden
  rw [le_div_iff₀ hpos, div_lt_iff₀ hpos]
  constructor <;> linarith

end Quotient

/-! ## Rounded amounts -/

namespace Amount

/-- The number that an amount is. -/
def value (a : Amount) : ℚ := (if a.negative then -1 else 1) * (a.units / 10 ^ a.scale)

/-- **Amounts are rounded half away from zero.** -/
theorem isRounded_round (a : Amount) (places : Nat) :
    IsRounded places a.value (a.round places).value := by
  unfold round
  split_ifs with h
  · refine .refl ⟨(if a.negative then -1 else 1) * (a.units * 10 ^ (places - a.scale) : ℕ), ?_⟩
    have hpow : (10 : ℚ) ^ places = 10 ^ a.scale * 10 ^ (places - a.scale) :=
      (pow_mul_pow_sub 10 h).symm
    rw [value, hpow]
    push_cast
    rw [mul_div_assoc, mul_div_mul_right _ _ (by positivity)]
  · have hnear : IsRounded places (a.units / 10 ^ a.scale)
        (roundDiv a.units (Nat.pow 10 (a.scale - places)) .up / 10 ^ places) := by
      have hpow : (10 : ℚ) ^ a.scale = (Nat.pow 10 (a.scale - places) : ℕ) * 10 ^ places := by
        rw [Nat.pow_eq, Nat.cast_pow, Nat.cast_ofNat, ← pow_add, Nat.sub_add_cancel (by omega)]
      have hunits : (a.units / 10 ^ a.scale * 10 ^ places : ℚ) =
          a.units / (Nat.pow 10 (a.scale - places) : ℕ) := by
        rw [hpow, ← div_div, div_mul_cancel₀ _ (by positivity)]
      have hden : 0 < Nat.pow 10 (a.scale - places) := Nat.pow_pos (by decide)
      obtain ⟨hlow, hhigh⟩ := roundDiv_up_near a.units hden
      exact .of_near (by positivity) (hunits ▸ hlow) (hunits ▸ hhigh)
    unfold value
    cases a.negative with
    | false => simpa using hnear
    | true => simpa using hnear.neg

end Amount

end Reckoner.Decimal
