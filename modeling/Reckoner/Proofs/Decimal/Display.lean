/-
  Numbers as answers show them.

  * `IsFixedPoint`: a number written with so many places; `Amount.isFixedPoint_text`: amounts
    are written so;
  * `Scientific`, `Scientific.Shows`: a number written with a few digits and a power of ten;
    `scientificText_shows`: finite floats are written so;
  * `IsExtreme`, `isExtreme_iff`: which of the two it is; `Amount.exists_ofFloat?`: floats that
    are not too large have an amount;
  * `numberText_shows`: **what any float is shown as**.
-/
import Reckoner.Proofs.Decimal.Exact
import Reckoner.Proofs.Decimal.Leading
import Reckoner.Proofs.Decimal.Places

namespace Reckoner.Decimal

open Text

/-- A sign does not change the magnitude. -/
theorem abs_signed (negative : Bool) {q : ℚ} (hq : 0 ≤ q) :
    |(if negative then -1 else 1) * q| = q := by
  cases negative with
  | false => rw [if_neg Bool.false_ne_true, one_mul, abs_of_nonneg hq]
  | true => rw [if_pos rfl, neg_one_mul, abs_neg, abs_of_nonneg hq]

/-! ## Numbers with places -/

/-- A number written with so many places: a minus sign just if it is negative, the whole part, and
the places after a point; no point without places. -/
def IsFixedPoint (places : Nat) (q : ℚ) (text : List Char) : Prop :=
  ∃ (n : Nat) (whole fraction : List Char), IsWhole n whole ∧
    (∀ c ∈ fraction, isAsciiDigit c = true) ∧ fraction.length = places ∧
    |q| = n + denoted fraction / 10 ^ places ∧
    text = (if q < 0 then ['-'] else []) ++ whole ++ if places = 0 then [] else '.' :: fraction

namespace Amount
variable {a : Amount}

theorem abs_value (a : Amount) : |a.value| = a.units / 10 ^ a.scale :=
  abs_signed _ (by positivity)

theorem value_lt_zero_iff (a : Amount) : a.value < 0 ↔ (a.negative && a.units != 0) = true := by
  have hpos : (0 : ℚ) < 10 ^ a.scale := by positivity
  unfold value
  cases a.negative with
  | false => simpa using div_nonneg (Nat.cast_nonneg a.units) hpos.le
  | true => simp [div_pos_iff_of_pos_right hpos, Nat.pos_iff_ne_zero]

theorem scale_round_le (a : Amount) (places : Nat) : (a.round places).scale ≤ places := by
  unfold round
  split_ifs with h
  · exact h
  · exact le_rfl

/-- The text of an amount: sign, whole part and places. -/
theorem text_eq {places : Nat} (h : a.scale ≤ places) : a.text places =
    (if a.value < 0 then ['-'] else []) ++ digitText (a.units / 10 ^ a.scale) ++
      if places = 0 then [] else '.' :: padRight places '0' (lastDigits a.scale a.units) := by
  have hlast := length_lastDigits a.scale a.units
  have hlen : (padRight places '0' (lastDigits a.scale a.units)).length = places :=
    length_padRight (hlast.trans_le h)
  have hempty :
      (padRight places '0' (lastDigits a.scale a.units)).isEmpty = decide (places = 0) := by
    rw [Bool.eq_iff_iff, List.isEmpty_iff, decide_eq_true_eq, ← List.length_eq_zero_iff, hlen]
  unfold text
  dsimp only
  rw [paddedDigits_eq, List.length_append, hlast, Nat.add_sub_cancel, List.take_left,
    List.drop_left, hempty]
  simp only [value_lt_zero_iff, decide_eq_true_eq]

/-- Amounts are written with all their places. -/
theorem isFixedPoint_text {places : Nat} (h : a.scale ≤ places) :
    IsFixedPoint places a.value (a.text places) := by
  have hlast := length_lastDigits a.scale a.units
  refine ⟨a.units / 10 ^ a.scale, digitText _, padRight places '0' (lastDigits a.scale a.units),
    isWhole_digitText _, ?_, length_padRight (hlast.trans_le h), ?_, text_eq h⟩
  · rw [padRight, List.forall_mem_append]
    refine ⟨isAsciiDigit_of_mem_lastDigits, fun c hc => ?_⟩
    rw [List.eq_of_mem_replicate hc]
    decide
  · have hpow : (10 : ℚ) ^ places = 10 ^ a.scale * 10 ^ (places - a.scale) :=
      (pow_mul_pow_sub 10 h).symm
    have hunits : (a.units : ℚ) =
        10 ^ a.scale * (a.units / 10 ^ a.scale : ℕ) + (a.units % 10 ^ a.scale : ℕ) := by
      exact_mod_cast (Nat.div_add_mod a.units (10 ^ a.scale)).symm
    rw [abs_value, denoted_padRight, denoted_lastDigits, hlast, Nat.cast_mul, hpow]
    push_cast
    rw [mul_div_mul_right _ _ (by positivity)]
    conv_lhs => rw [hunits]
    rw [add_div, mul_div_cancel_left₀ _ (by positivity)]

/-- Working off powers of two below one leaves no power of ten above one. -/
theorem divideTwos_le (n m : Nat) (e : ℤ) : (divideTwos n m e).2 ≤ e + n := by
  induction n generalizing m e with
  | zero => simp [divideTwos]
  | succ n ih =>
    unfold divideTwos
    split_ifs
    · exact (ih _ _).trans (by push_cast; omega)
    · exact (ih _ _).trans (by push_cast; omega)
    · exact (ih _ _).trans (by push_cast; omega)

/-- Floats with a power of two below one have an amount. -/
theorem exists_ofFloat? {x : Float} (hx : x.isFinite)
    (h : (Binary.ofFloat x).mantissa ≠ 0 → (Binary.ofFloat x).exponent < 0) :
    ∃ a, ofFloat? x = some a := by
  unfold ofFloat?
  rw [hx, if_neg (by decide)]
  dsimp only
  split_ifs with hm he
  · exact ⟨_, rfl⟩
  · have hle := divideTwos_le (-(Binary.ofFloat x).exponent).toNat (Binary.ofFloat x).mantissa
      (Binary.ofFloat x).exponent
    have hzero : (divideTwos (-(Binary.ofFloat x).exponent).toNat (Binary.ofFloat x).mantissa
      (Binary.ofFloat x).exponent).2.toNat = 0 := by omega
    rw [hzero]
    exact ⟨_, rfl⟩
  · exact absurd (h hm) he

end Amount

/-! ## Which floats are shown with places -/

/-- Other than zero, and too small or too large to be shown with places. -/
def IsExtreme (q : ℚ) : Prop := q ≠ 0 ∧ (|q| < 1 / 10 ^ 4 ∨ 10 ^ 10 < |q|)

namespace Binary

theorem abs_value (b : Binary) : |b.value| = b.mantissa * 2 ^ b.exponent :=
  abs_signed _ (by positivity)

theorem value_eq_zero_iff (b : Binary) : b.value = 0 ↔ b.mantissa = 0 := by
  rw [← abs_eq_zero, abs_value, mul_eq_zero, Nat.cast_eq_zero]
  exact or_iff_left (by positivity)

theorem value_abs (x : Float) (h : x.isFinite) : (ofFloat x.abs).value = |(ofFloat x).value| := by
  rw [ofFloat_abs x h, value_of_not_negative rfl, abs_value]

/-- What is shown with places has a power of two below one. -/
theorem IsCanonical.exponent_neg {b : Binary} (hb : b.IsCanonical) (h : ¬ IsExtreme b.value) :
    b.mantissa ≠ 0 → b.exponent < 0 := by
  intro hm
  by_contra he
  refine h ⟨mt (value_eq_zero_iff b).1 hm, .inr ?_⟩
  have hfull : (2 ^ 52 : ℚ) ≤ b.mantissa := by exact_mod_cast hb.full (by omega)
  rw [abs_value]
  calc (10 ^ 10 : ℚ) < 2 ^ 52 * 1 := by norm_num
    _ ≤ b.mantissa * 2 ^ b.exponent := by
      gcongr
      exact one_le_zpow₀ one_le_two (not_lt.1 he)

end Binary

/-- The float next to 0.0001 lies above it, the one before that below. -/
theorem lt_scientificBelow_iff {b : Binary} (hb : b.IsCanonical) (hn : b.negative = false) :
    b.value < (Binary.ofFloat scientificBelow).value ↔ b.value < 1 / 10 ^ 4 := by
  have hbound : (Binary.ofFloat scientificBelow).value = 7378697629483821 * 2 ^ (-66 : ℤ) := by
    have hm : (Binary.ofFloat scientificBelow).mantissa = 7378697629483821 := by decide
    have he : (Binary.ofFloat scientificBelow).exponent = -66 := by decide
    rw [Binary.value_of_not_negative (by decide), hm, he]
    norm_cast
  have habove : (1 / 10 ^ 4 : ℚ) < 7378697629483821 * 2 ^ (-66 : ℤ) := by norm_num
  have hbelow : (7378697629483820 * 2 ^ (-66 : ℤ) : ℚ) < 1 / 10 ^ 4 := by norm_num
  rw [hbound]
  refine ⟨fun h => ?_, fun h => h.trans habove⟩
  have hbefore : (⟨false, 7378697629483820, -66⟩ : Binary).IsCanonical :=
    ⟨by decide, by decide, fun _ => by decide⟩
  have hnext : (⟨false, 7378697629483821, -66⟩ : Binary).IsCanonical :=
    ⟨by decide, by decide, fun _ => by decide⟩
  rw [Binary.value_of_not_negative hn] at h ⊢
  refine lt_of_le_of_lt ?_ hbelow
  rcases (hb.lt_iff hnext).1 (by exact_mod_cast h) with he | ⟨he, hm⟩
  · exact_mod_cast (hb.lt_of_exponent hbefore he).le
  · have hm : (b.mantissa : ℚ) ≤ 7378697629483820 := by
      exact_mod_cast Nat.le_of_lt_succ hm
    rw [he]
    gcongr

theorem value_scientificAbove : (Binary.ofFloat scientificAbove).value = 10 ^ 10 := by
  have hm : (Binary.ofFloat scientificAbove).mantissa = 5242880000000000 := by decide
  have he : (Binary.ofFloat scientificAbove).exponent = -19 := by decide
  rw [Binary.value_of_not_negative (by decide), hm, he]
  norm_num

theorem value_zero : (Binary.ofFloat 0.0).value = 0 :=
  (Binary.value_eq_zero_iff _).2 (by decide)

/-- The bounds are compared with the number that a float is. -/
theorem isExtreme_iff {x : Float} (h : x.isFinite) :
    (x.abs > 0.0 && (x.abs < scientificBelow || scientificAbove < x.abs)) = true ↔
      IsExtreme (Binary.ofFloat x).value := by
  have habs := isFinite_abs x h
  have hnonneg : (Binary.ofFloat x.abs).negative = false := by rw [Binary.ofFloat_abs x h]
  simp only [Bool.and_eq_true, Bool.or_eq_true, decide_eq_true_eq, gt_iff_lt]
  rw [lt_iff_value_lt (by decide) habs (by decide) hnonneg,
    lt_iff_value_lt habs (by decide) hnonneg (by decide),
    lt_iff_value_lt (by decide) habs (by decide) hnonneg,
    lt_scientificBelow_iff (Binary.isCanonical_ofFloat _) hnonneg, value_scientificAbove,
    value_zero, Binary.value_abs x h, abs_pos, IsExtreme]

/-! ## Numbers with a power of ten -/

/-- The parts of a number in scientific notation. -/
structure Scientific where
  negative : Bool
  lead : Char
  fraction : List Char
  power : ℤ
  exponent : List Char

namespace Scientific

/-- The parts put together; there is no point without digits after it. -/
def text (s : Scientific) : List Char :=
  (if s.negative then ['-'] else []) ++ s.lead ::
    (if s.fraction = [] then [] else '.' :: s.fraction) ++
    'E' :: (if s.power < 0 then '-' else '+') :: s.exponent

/-- The parts are well formed, and the digits stand for the number: they are half a unit of the
fifth digit away from its magnitude at most. -/
structure Shows (s : Scientific) (q : ℚ) : Prop where
  lead_digit : isAsciiDigit s.lead = true
  lead_zero : s.lead = '0' ↔ q = 0
  fraction_digits : ∀ c ∈ s.fraction, isAsciiDigit c = true
  fraction_length : s.fraction.length ≤ 4
  fraction_last : s.fraction.getLast? ≠ some '0'
  exponent_whole : IsWhole s.power.natAbs s.exponent
  near : |denoted (s.lead :: s.fraction) * 10 ^ (s.power - s.fraction.length) - (|q|)| ≤
    10 ^ (s.power - 4) / 2

/-- The five digits that a number is shown with, and the power of ten of the first: its leading
digits, or none but zeros. -/
inductive HasDigits (q : ℚ) : (m : Nat) → (power : ℤ) → Prop
  | zero : q = 0 → HasDigits q 0 0
  | leading {m power} : q ≠ 0 → IsLeading |q| m power → HasDigits q m power

theorem HasDigits.lt {q : ℚ} {m : Nat} {power : ℤ} (h : HasDigits q m power) : m < 10 ^ 5 := by
  cases h with
  | zero => decide
  | leading _ h => exact h.high

/-- The parts of a number of five digits. -/
def ofDigits (negative : Bool) (m : Nat) (power : ℤ) : Scientific where
  negative
  lead := Nat.digitChar (m / 10 ^ 4)
  fraction := dropZeros (lastDigits 4 m)
  power
  exponent := digitText power.natAbs

end Scientific

/-- Five digits are the first of them and the last four. -/
theorem paddedDigits_five {m : Nat} (hm : m < 10 ^ 5) :
    paddedDigits 5 m = Nat.digitChar (m / 10 ^ 4) :: lastDigits 4 m := by
  rw [paddedDigits_eq, digitText_eq, if_pos (by omega)]
  rfl

theorem length_dropZeros_le (cs : List Char) : (dropZeros cs).length ≤ cs.length :=
  (List.rdropWhile_prefix _ _).length_le

/-- Dropping zeros after the point leaves the number as it is. -/
theorem denoted_dropZeros {m : Nat} (hm : m < 10 ^ 5) :
    denoted (Nat.digitChar (m / 10 ^ 4) :: dropZeros (lastDigits 4 m)) *
      10 ^ (4 - (dropZeros (lastDigits 4 m)).length) = m := by
  have hlen := length_lastDigits 4 m
  have hall : denoted (Nat.digitChar (m / 10 ^ 4) :: lastDigits 4 m) = m := by
    rw [← List.singleton_append, denoted_append, denoted_digitChar (by omega), hlen,
      denoted_lastDigits, Nat.div_add_mod']
  have hzeros := dropZeros_append (lastDigits 4 m)
  rw [hlen] at hzeros
  rw [← hzeros, ← List.cons_append, denoted_append, denoted_zeros, List.length_replicate] at hall
  exact hall

namespace Scientific

/-- The five digits of a number show it. -/
theorem shows_ofDigits (negative : Bool) {q : ℚ} {m : Nat} {power : ℤ}
    (h : HasDigits q m power) : (ofDigits negative m power).Shows q := by
  have hm := h.lt
  have hlen := (length_dropZeros_le (lastDigits 4 m)).trans_eq (length_lastDigits 4 m)
  have hdigit : m / 10 ^ 4 < 10 := by omega
  refine ⟨isAsciiDigit_digitChar hdigit, ?_, fun c hc => ?_, hlen, getLast?_dropZeros _,
    isWhole_digitText _, ?_⟩
  · have hlead : (ofDigits negative m power).lead = '0' ↔ m / 10 ^ 4 = 0 := by
      refine ⟨fun hzero => ?_, fun hzero => ?_⟩
      · rw [← denoted_digitChar hdigit]
        exact congrArg (fun c => denoted [c]) hzero
      · rw [ofDigits, hzero]
        rfl
    rw [hlead]
    cases h with
    | zero hq => exact iff_of_true rfl hq
    | leading hq h =>
      have hlow := h.low
      exact iff_of_false (by omega) hq
  · exact isAsciiDigit_of_mem_lastDigits c ((List.rdropWhile_prefix _ _).subset hc)
  · have hvalue : (denoted (Nat.digitChar (m / 10 ^ 4) :: dropZeros (lastDigits 4 m)) *
        10 ^ (power - (dropZeros (lastDigits 4 m)).length) : ℚ) = m * 10 ^ (power - 4) := by
      have hexp : power - (dropZeros (lastDigits 4 m)).length =
          (4 - (dropZeros (lastDigits 4 m)).length : ℕ) + (power - 4) := by
        push_cast [hlen]
        ring
      rw [hexp, zpow_add₀ (by norm_num), zpow_natCast, ← mul_assoc]
      congr 1
      exact_mod_cast denoted_dropZeros hm
    refine (congrArg (fun v : ℚ => |v - (|q|)|) hvalue).trans_le ?_
    cases h with
    | zero hq =>
      simp only [hq, Nat.cast_zero, zero_mul, abs_zero, sub_zero]
      positivity
    | leading _ h => exact h.near

end Scientific

theorem Binary.numerator_div_denominator (b : Binary) :
    (b.numerator / b.denominator : ℚ) = |b.value| := by
  rw [abs_value, zpow_eq_div two_ne_zero, numerator, denominator, Nat.pow_eq, Nat.pow_eq]
  push_cast
  rw [mul_div_assoc]

/-- The magnitude of a number other than zero has leading digits. -/
theorem Binary.isLeading {b : Binary} (h : b.mantissa ≠ 0) :
    IsLeading |b.value| (leadingDigits b.numerator b.denominator).1
      (leadingDigits b.numerator b.denominator).2 := by
  rw [← numerator_div_denominator]
  exact isLeading_leadingDigits
    (Nat.mul_pos (Nat.pos_of_ne_zero h) (Nat.pow_pos (by decide))) (Nat.pow_pos (by decide))

/-- **A finite float in scientific notation.** -/
theorem scientificText_shows {x : Float} (h : x.isFinite) :
    ∃ s : Scientific, s.Shows (Binary.ofFloat x).value ∧
      s.negative = (Binary.ofFloat x).negative ∧ (scientificText x).toList = s.text := by
  obtain ⟨hnan, hinf⟩ := (isFinite_iff_not x).1 h
  unfold scientificText
  simp only [hnan, hinf, Bool.false_eq_true, if_false, String.toList_ofList]
  generalize hparts : (if (Binary.ofFloat x).mantissa = 0 then ((0, 0) : Nat × ℤ) else
    leadingDigits (Binary.ofFloat x).numerator (Binary.ofFloat x).denominator) = parts
  obtain ⟨m, power⟩ := parts
  have hdigits : Scientific.HasDigits (Binary.ofFloat x).value m power := by
    split_ifs at hparts with hm
    · obtain ⟨rfl, rfl⟩ := Prod.mk.inj hparts
      exact .zero ((Binary.value_eq_zero_iff _).2 hm)
    · have hlead := Binary.isLeading hm
      rw [hparts] at hlead
      exact .leading (mt (Binary.value_eq_zero_iff _).1 hm) hlead
  refine ⟨.ofDigits (Binary.ofFloat x).negative m power, Scientific.shows_ofDigits _ hdigits, rfl,
    ?_⟩
  dsimp only
  rw [paddedDigits_five hdigits.lt, signed, Scientific.text]
  simp only [List.take_succ_cons, List.take_zero, List.drop_succ_cons, List.drop_zero,
    List.isEmpty_iff]
  cases (Binary.ofFloat x).negative with
  | false => rfl
  | true => rfl

/-- **What a float is shown as.** -/
theorem numberText_shows (x : Float) (precision : Nat) :
    (x.isNaN = true → numberText x precision = "NaN") ∧
    (x.isInf = true → numberText x precision = "Infinity") ∧
    (x.isNaN = false → x.isInf = false →
      (IsExtreme (Binary.ofFloat x).value → numberText x precision = scientificText x) ∧
      (¬ IsExtreme (Binary.ofFloat x).value → ∃ (d : Amount) (r : ℚ), Amount.ofFloat? x = some d ∧
        IsRounded (min precision 28) d.value r ∧
        IsFixedPoint (min precision 28) r (numberText x precision).toList) ∧
      ∃ s : Scientific, s.Shows (Binary.ofFloat x).value ∧
        s.negative = (Binary.ofFloat x).negative ∧ (scientificText x).toList = s.text) := by
  refine ⟨fun hnan => ?_, fun hinf => ?_, fun hnan hinf => ?_⟩
  · rw [numberText, if_pos hnan]
  · rw [numberText, isNaN_of_isInf hinf, if_neg Bool.false_ne_true, if_pos hinf]
  · have h := (isFinite_iff_not x).2 ⟨hnan, hinf⟩
    refine ⟨fun hq => ?_, fun hq => ?_, scientificText_shows h⟩
    · unfold numberText
      rw [hnan, hinf, if_neg Bool.false_ne_true, if_neg Bool.false_ne_true]
      exact if_pos ((isExtreme_iff h).2 hq)
    · obtain ⟨d, hd⟩ := Amount.exists_ofFloat? h
        ((Binary.isCanonical_ofFloat x).exponent_neg hq)
      refine ⟨d, (d.round (min precision 28)).value, hd, d.isRounded_round _, ?_⟩
      have htext : numberText x precision =
          String.ofList ((d.round (min precision 28)).text (min precision 28)) := by
        unfold numberText
        rw [hnan, hinf, if_neg Bool.false_ne_true, if_neg Bool.false_ne_true]
        dsimp only
        rw [if_neg (mt (isExtreme_iff h).1 hq), hd]
        rfl
      rw [htext, String.toList_ofList]
      exact Amount.isFixedPoint_text (d.scale_round_le _)

example : numberText (-0.125) 2 = "-0.13" := by decide

example : numberText (-0.004) 2 = "0.00" := by decide

example : numberText 12345678901.0 10 = "1.2346E+10" := by decide

end Reckoner.Decimal
