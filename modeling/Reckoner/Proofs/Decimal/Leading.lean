/-
  The leading digits of a fraction.

  * `magnitude_spec`: the power of ten above a fraction;
  * `IsLeading`: five digits and the power of ten of the first, as near to a number as five
    digits are; `isLeading_leadingDigits`: **the leading digits of a fraction are such**.
-/
import Reckoner.Decimal.Display
import Reckoner.Proofs.Decimal.Rounding

namespace Reckoner.Decimal

/-- A power by its exponent's two parts, of which one is zero. -/
theorem zpow_eq_div {b : ℚ} (hb : b ≠ 0) (e : ℤ) : b ^ e = b ^ e.toNat / b ^ (-e).toNat := by
  rw [← zpow_natCast, ← zpow_natCast, ← zpow_sub₀ hb, Int.toNat_sub_toNat_neg]

/-! ## The number of digits -/

theorem lt_pow_digitCount (n : Nat) : n < 10 ^ digitCount n :=
  (Nat.length_toDigits_le_iff (by decide) (List.length_pos_iff.2 Nat.toDigits_ne_nil)).1 le_rfl

theorem pow_digitCount_le {n : Nat} (hn : 0 < n) : 10 ^ (digitCount n - 1) ≤ n := by
  by_cases hone : digitCount n - 1 = 0
  · rw [hone, Nat.pow_zero]
    exact hn
  · have hiff := Nat.length_toDigits_le_iff (b := 10) (n := n) (by decide) (Nat.pos_of_ne_zero hone)
    rw [← not_lt, ← hiff]
    unfold digitCount digitText at *
    omega

theorem digitCount_bounds {n : Nat} (hn : 0 < n) :
    (10 : ℚ) ^ ((digitCount n : ℤ) - 1) ≤ n ∧ (n : ℚ) < 10 ^ (digitCount n : ℤ) := by
  have hpos : 0 < digitCount n := List.length_pos_iff.2 Nat.toDigits_ne_nil
  have hexp : (digitCount n : ℤ) - 1 = (digitCount n - 1 : ℕ) := by omega
  rw [hexp, zpow_natCast, zpow_natCast]
  exact ⟨by exact_mod_cast pow_digitCount_le hn, by exact_mod_cast lt_pow_digitCount n⟩

/-! ## The power of ten above a fraction -/

section Fraction
variable {num den : Nat}

/-- A fraction is compared with a power of ten by whole numbers. -/
theorem lt_zpow_iff (hden : 0 < den) (e : ℤ) :
    num * Nat.pow 10 (-e).toNat < den * Nat.pow 10 e.toNat ↔ (num / den : ℚ) < 10 ^ e := by
  have hpos : (0 : ℚ) < den := by exact_mod_cast hden
  have hleft : (0 : ℚ) < 10 ^ (-e).toNat := by positivity
  rw [zpow_eq_div (by norm_num), div_lt_div_iff₀ hpos hleft, mul_comm (10 ^ e.toNat : ℚ)]
  norm_cast

theorem magnitude_spec (hnum : 0 < num) (hden : 0 < den) :
    (10 : ℚ) ^ (Shortest.magnitude num den - 1) ≤ num / den ∧
      (num / den : ℚ) < 10 ^ Shortest.magnitude num den := by
  have hpos : (0 : ℚ) < den := by exact_mod_cast hden
  obtain ⟨hnlow, hnhigh⟩ := digitCount_bounds hnum
  obtain ⟨hdlow, hdhigh⟩ := digitCount_bounds hden
  -- the quotient has as many digits as the difference tells, or one more
  have hlow : (10 : ℚ) ^ ((digitCount num : ℤ) - digitCount den - 1) ≤ num / den := by
    rw [le_div_iff₀ hpos]
    calc (10 : ℚ) ^ ((digitCount num : ℤ) - digitCount den - 1) * den
        ≤ 10 ^ ((digitCount num : ℤ) - digitCount den - 1) * 10 ^ (digitCount den : ℤ) := by
          gcongr
      _ = 10 ^ ((digitCount num : ℤ) - 1) := by
          rw [← zpow_add₀ (by norm_num)]; congr 1; ring
      _ ≤ num := hnlow
  have hhigh : (num / den : ℚ) < 10 ^ ((digitCount num : ℤ) - digitCount den + 1) := by
    rw [div_lt_iff₀ hpos]
    calc (num : ℚ) < 10 ^ (digitCount num : ℤ) := hnhigh
      _ = 10 ^ ((digitCount num : ℤ) - digitCount den + 1) * 10 ^ ((digitCount den : ℤ) - 1) := by
          rw [← zpow_add₀ (by norm_num)]; congr 1; ring
      _ ≤ 10 ^ ((digitCount num : ℤ) - digitCount den + 1) * den := by gcongr
  unfold Shortest.magnitude
  dsimp only
  split_ifs with h
  · exact ⟨hlow, (lt_zpow_iff hden _).1 h⟩
  · rw [lt_zpow_iff hden, not_lt] at h
    exact ⟨by rwa [add_sub_cancel_right], hhigh⟩

end Fraction

/-! ## Leading digits -/

/-- Five digits and the power of ten of the first: no zero in front, and half a unit of the last
digit away from a number at most. -/
structure IsLeading (q : ℚ) (m : Nat) (power : ℤ) : Prop where
  low : 10 ^ 4 ≤ m
  high : m < 10 ^ 5
  near : |m * 10 ^ (power - 4) - q| ≤ 10 ^ (power - 4) / 2

/-- A rounded quotient is half a unit off at most. -/
theorem abs_roundDiv_sub_le (num : Nat) {den : Nat} (hden : 0 < den) (tie : Tie) :
    |(roundDiv num den tie - num / den : ℚ)| ≤ 1 / 2 := by
  have hpos : (0 : ℚ) < den := by exact_mod_cast hden
  obtain ⟨hlow, hhigh⟩ := roundDiv_near num hden tie
  have hlow : (2 * (den * roundDiv num den tie) : ℚ) ≤ 2 * num + den := by exact_mod_cast hlow
  have hhigh : (2 * num : ℚ) ≤ 2 * (den * roundDiv num den tie) + den := by exact_mod_cast hhigh
  refine abs_le.2 ⟨?_, ?_⟩
  · rw [neg_le_sub_iff_le_add, div_le_iff₀ hpos]
    linarith
  · rw [sub_le_comm, le_div_iff₀ hpos]
    linarith

/-- **The leading digits of a fraction are its five leading digits.** -/
theorem isLeading_leadingDigits {num den : Nat} (hnum : 0 < num) (hden : 0 < den) :
    IsLeading (num / den) (leadingDigits num den).1 (leadingDigits num den).2 := by
  obtain ⟨hlow, hhigh⟩ := magnitude_spec hnum hden
  unfold leadingDigits
  dsimp only
  generalize Shortest.magnitude num den = top at *
  generalize hplace : top - 5 = place
  obtain rfl : top = place + 5 := by omega
  -- the fraction in units of the last of its five digits
  have hunit : (0 : ℚ) < 10 ^ place := by positivity
  have hD : 0 < den * Nat.pow 10 place.toNat := Nat.mul_pos hden (Nat.pow_pos (by decide))
  have hq : ((num * Nat.pow 10 (-place).toNat : ℕ) / (den * Nat.pow 10 place.toNat : ℕ) : ℚ) =
      num / den / 10 ^ place := by
    rw [zpow_eq_div (by norm_num) place, Nat.pow_eq, Nat.pow_eq, Nat.cast_mul, Nat.cast_mul,
      mul_div_mul_comm, div_div_eq_mul_div, mul_div_assoc]
    push_cast
    rfl
  have hnear := abs_roundDiv_sub_le (num * Nat.pow 10 (-place).toNat) hD .even
  rw [hq] at hnear
  generalize roundDiv (num * Nat.pow 10 (-place).toNat) (den * Nat.pow 10 place.toNat) .even = m
    at hnear
  have hdist : |(m * 10 ^ place - num / den : ℚ)| ≤ 10 ^ place / 2 := by
    have hscale : (m * 10 ^ place - num / den : ℚ) = (m - num / den / 10 ^ place) * 10 ^ place := by
      rw [sub_mul, div_mul_cancel₀ _ hunit.ne']
    rw [hscale, abs_mul, abs_of_pos hunit]
    linarith [mul_le_mul_of_nonneg_right hnear hunit.le]
  have hqlow : (10 : ℚ) ^ 4 ≤ num / den / 10 ^ place := by
    rw [le_div_iff₀ hunit, ← zpow_natCast, ← zpow_add₀ (by norm_num)]
    rwa [show ((4 : ℕ) : ℤ) + place = place + 5 - 1 by push_cast; ring]
  have hqhigh : (num / den / 10 ^ place : ℚ) < 10 ^ 5 := by
    rw [div_lt_iff₀ hunit, ← zpow_natCast, ← zpow_add₀ (by norm_num)]
    rwa [show ((5 : ℕ) : ℤ) + place = place + 5 by push_cast; ring]
  obtain ⟨hmlow, hmhigh⟩ := abs_le.1 hnear
  have hm4 : 10 ^ 4 ≤ m := by
    have : ((10 ^ 4 : ℕ) : ℚ) < m + 1 := by push_cast; linarith
    exact Nat.lt_succ_iff.1 (by exact_mod_cast this)
  have hm5 : m ≤ 10 ^ 5 := by
    have : (m : ℚ) < (10 ^ 5 : ℕ) + 1 := by push_cast; linarith
    exact Nat.lt_succ_iff.1 (by exact_mod_cast this)
  split_ifs with hm
  · -- all five digits were 9: the number is nearer still to a digit 1 one place higher
    have hten : (10 : ℚ) ^ (place + 5 - 4) = 10 * 10 ^ place := by
      rw [show place + 5 - 4 = 1 + place by ring, zpow_add₀ (by norm_num), zpow_one]
    have hm : m = 10 ^ 5 := hm
    refine ⟨le_rfl, Nat.pow_lt_pow_right (by decide) (by decide), ?_⟩
    rw [hten]
    rw [hm] at hdist
    calc _ = |((10 ^ 5 : ℕ) * 10 ^ place - num / den : ℚ)| := by
          congr 1
          push_cast
          ring
      _ ≤ 10 ^ place / 2 := hdist
      _ ≤ 10 * 10 ^ place / 2 := by linarith
  · have hm : m ≠ 10 ^ 5 := hm
    refine ⟨hm4, by omega, ?_⟩
    rwa [show place + 5 - 1 - 4 = place by ring]

end Reckoner.Decimal
