/-
  Floats and the numbers they stand for.

  * `field`, `fraction`: the bits of a float, and those of its magnitude (`toNat_toBits_abs`);
  * `Binary.value`: a mantissa with a power of two as a number; `Binary.IsCanonical`: one that
    belongs to a float;
  * `unpack_of_isFinite`: a finite float is unpacked to its exact value;
  * `lt_iff_value_lt`: **finite floats without a sign are compared as numbers**.
-/
import Mathlib.Algebra.Order.Field.Power
import Mathlib.Data.Rat.Lemmas
import Mathlib.Tactic.NormNum
import Mathlib.Tactic.Positivity
import Mathlib.Tactic.SplitIfs
import Reckoner.Decimal.Binary

namespace Reckoner.Decimal

open Float.Model Float.Model.UnpackedFloat

/-! ## Bits -/

section Bits
variable (b : BitVec Format.binary64.numBits)

theorem toNat_unpackMantissa : (unpackMantissa b).toNat = b.toNat % 2 ^ 52 := by
  simp [unpackMantissa, BitVec.extractLsb, Nat.shiftRight_eq_div_pow]

theorem toNat_unpackExponent : (unpackExponent b).toNat = b.toNat / 2 ^ 52 % 2 ^ 11 := by
  simp [unpackExponent, BitVec.extractLsb, Nat.shiftRight_eq_div_pow]

theorem toNat_unpackSign : (unpackSign b).toNat = b.toNat / 2 ^ 63 % 2 := by
  change ((b.extractLsb 63 63).cast _).toNat = _
  simp [BitVec.extractLsb, Nat.shiftRight_eq_div_pow]

theorem sign_unpackSign : Sign.ofBitVec (unpackSign b) =
    if b.toNat / 2 ^ 63 % 2 = 1 then .negative else .positive := by
  have h := toNat_unpackSign b
  unfold Sign.ofBitVec
  simp only [← BitVec.toNat_inj, h]
  split_ifs with h0 h1 h1
  · simp at h0; omega
  · rfl
  · rfl
  · simp at h0; omega

theorem toNat_implicit : (1#1 ++ unpackMantissa b).toNat = b.toNat % 2 ^ 52 + 2 ^ 52 := by
  have h : (unpackMantissa b).toNat < 2 ^ 52 := (unpackMantissa b).isLt
  rw [BitVec.toNat_append, ← Nat.shiftLeft_add_eq_or_of_lt h, toNat_unpackMantissa,
    Nat.shiftLeft_eq, Nat.add_comm]
  rfl

end Bits

/-- The bits of a float. -/
def bits (x : Float) : BitVec Format.binary64.numBits := x.toBits.toBitVec

/-- The bits after the sign. -/
def field (x : Float) : Nat := x.toBits.toNat / 2 ^ 52 % 2 ^ 11

/-- The bits after those. -/
def fraction (x : Float) : Nat := x.toBits.toNat % 2 ^ 52

theorem fraction_lt (x : Float) : fraction x < 2 ^ 52 := Nat.mod_lt _ (by decide)

/-! ## Exact values -/

namespace Binary

/-- The number that a sign, a mantissa and a power of two stand for. -/
def value (b : Binary) : ℚ := (if b.negative then -1 else 1) * (b.mantissa * 2 ^ b.exponent)

/-- The mantissa fits, and is full unless the exponent is the least. -/
structure IsCanonical (b : Binary) : Prop where
  mantissa_lt : b.mantissa < 2 ^ 53
  le_exponent : -1074 ≤ b.exponent
  full : -1074 < b.exponent → 2 ^ 52 ≤ b.mantissa

theorem ofFloat_eq (x : Float) : ofFloat x =
    if field x = 0 then ⟨x.toBits.toNat / 2 ^ 63 % 2 == 1, fraction x, -1074⟩
    else ⟨x.toBits.toNat / 2 ^ 63 % 2 == 1, fraction x + 2 ^ 52, (field x : Int) - 1075⟩ := rfl

theorem negative_ofFloat (x : Float) :
    (ofFloat x).negative = (x.toBits.toNat / 2 ^ 63 % 2 == 1) := by
  rw [ofFloat_eq]
  split_ifs <;> rfl

theorem mantissa_ofFloat (x : Float) :
    (ofFloat x).mantissa = if field x = 0 then fraction x else fraction x + 2 ^ 52 := by
  rw [ofFloat_eq]
  split_ifs <;> rfl

theorem exponent_ofFloat (x : Float) :
    (ofFloat x).exponent = if field x = 0 then -1074 else (field x : Int) - 1075 := by
  rw [ofFloat_eq]
  split_ifs <;> rfl

theorem isCanonical_ofFloat (x : Float) : (ofFloat x).IsCanonical := by
  have hm := mantissa_ofFloat x
  have he := exponent_ofFloat x
  have hfraction := fraction_lt x
  split_ifs at hm he with hfield
  · exact ⟨by omega, by omega, by omega⟩
  · exact ⟨by omega, by omega, by omega⟩

/-- The sign as unpacked floats have it. -/
def sign (b : Binary) : Sign := if b.negative then .negative else .positive

/-- The unpacked float of an exact value. -/
def unpacked (b : Binary) : UnpackedFloat :=
  if h : b.mantissa = 0 then .zero b.sign
  else .finite b.sign b.mantissa b.exponent (Nat.pos_of_ne_zero h)

theorem sign_of_not_negative {b : Binary} (h : b.negative = false) : b.sign = .positive := by
  rw [sign, h, if_neg Bool.false_ne_true]

theorem unpacked_of_eq {b : Binary} (h : b.mantissa = 0) : b.unpacked = .zero b.sign := dif_pos h

theorem unpacked_of_pos {b : Binary} (h : 0 < b.mantissa) :
    b.unpacked = .finite b.sign b.mantissa b.exponent h := dif_neg h.ne'

theorem unpacked_magnitude {m : Nat} (h : 0 < m) (e : ℤ) :
    (⟨false, m, e⟩ : Binary).unpacked = .finite .positive m e h := unpacked_of_pos h

theorem isFinite_unpacked (b : Binary) : b.unpacked.isFinite = true := by
  rcases Nat.eq_zero_or_pos b.mantissa with h | h
  · rw [unpacked_of_eq h]
    rfl
  · rw [unpacked_of_pos h]
    rfl

theorem abs_unpacked (b : Binary) :
    b.unpacked.abs = (⟨false, b.mantissa, b.exponent⟩ : Binary).unpacked := by
  rcases Nat.eq_zero_or_pos b.mantissa with h | h
  · rw [unpacked_of_eq h, unpacked_of_eq (by exact h)]
    rfl
  · rw [unpacked_of_pos h, unpacked_of_pos (by exact h)]
    rfl

theorem sign_ofFloat (x : Float) :
    (ofFloat x).sign = Sign.ofBitVec (unpackSign (bits x)) := by
  rw [sign_unpackSign, sign, negative_ofFloat, bits, UInt64.toNat_toBitVec]
  simp only [beq_iff_eq]

end Binary

/-! ## Unpacking -/

section Unpack
variable (x : Float)

theorem unpackExponent_eq_iff (e : BitVec 11) :
    unpackExponent (bits x) = e ↔ field x = e.toNat := by
  rw [← BitVec.toNat_inj, toNat_unpackExponent, bits, UInt64.toNat_toBitVec, field]

theorem unpackMantissa_eq_zero_iff : unpackMantissa (bits x) = 0#_ ↔ fraction x = 0 := by
  rw [← BitVec.toNat_inj, toNat_unpackMantissa, bits, UInt64.toNat_toBitVec, fraction]
  rfl

theorem finite_congr {s s' : Sign} {m m' : Nat} {e e' : ℤ} {h : 0 < m} (h' : 0 < m')
    (hs : s = s') (hm : m = m') (he : e = e') :
    UnpackedFloat.finite s m e h = .finite s' m' e' h' := by
  subst hs hm he
  rfl

/-- Unless all bits after the sign are set, a float is unpacked to its exact value. -/
theorem unpack_of_field (h : field x ≠ 2047) : x.toModel.unpack = (Binary.ofFloat x).unpacked := by
  have hones := mt (unpackExponent_eq_iff x (-1#11)).1 h
  have hm := Binary.mantissa_ofFloat x
  have he := Binary.exponent_ofFloat x
  change UnpackedFloat.unpack .binary64 (bits x) = _
  unfold UnpackedFloat.unpack
  dsimp only
  rw [← Binary.sign_ofFloat, if_neg hones]
  by_cases hfield : field x = 0
  · rw [if_pos hfield] at hm he
    have hzero := (unpackExponent_eq_iff x 0#11).2 hfield
    rw [if_pos hzero]
    by_cases hfraction : fraction x = 0
    · rw [dif_pos ((unpackMantissa_eq_zero_iff x).2 hfraction),
        Binary.unpacked_of_eq (hm.trans hfraction)]
    · rw [dif_neg (mt (unpackMantissa_eq_zero_iff x).1 hfraction),
        Binary.unpacked_of_pos (Nat.pos_of_ne_zero (hm.trans_ne hfraction))]
      refine finite_congr _ rfl ?_ ?_
      · rw [toNat_unpackMantissa, hm, fraction, bits, UInt64.toNat_toBitVec]
      · rw [hzero, he]
        rfl
  · rw [if_neg hfield] at hm he
    rw [if_neg (mt (unpackExponent_eq_iff x 0#11).1 hfield), Binary.unpacked_of_pos (by omega)]
    refine finite_congr _ rfl ?_ ?_
    · rw [toNat_implicit, hm, fraction, bits, UInt64.toNat_toBitVec]
    · rw [toNat_unpackExponent, he, field, bits, UInt64.toNat_toBitVec]
      rfl

theorem isFinite_iff : x.isFinite ↔ field x ≠ 2047 := by
  change x.toModel.unpack.isFinite = true ↔ _
  by_cases h : field x = 2047
  · refine iff_of_false ?_ (not_not_intro h)
    change ¬ (UnpackedFloat.unpack .binary64 (bits x)).isFinite = true
    unfold UnpackedFloat.unpack
    dsimp only
    rw [if_pos ((unpackExponent_eq_iff x (-1#11)).2 h)]
    by_cases hfraction : unpackMantissa (bits x) = 0#_
    · rw [if_pos hfraction]
      exact Bool.false_ne_true
    · rw [if_neg hfraction]
      exact Bool.false_ne_true
  · rw [unpack_of_field x h]
    exact iff_of_true (Binary.isFinite_unpacked _) h

/-- A finite float is unpacked to its exact value. -/
theorem unpack_of_isFinite (h : x.isFinite) :
    x.toModel.unpack = (Binary.ofFloat x).unpacked :=
  unpack_of_field x ((isFinite_iff x).1 h)

theorem toNat_packComponents (e : BitVec 11) (m : BitVec 52) :
    (packComponents .binary64 .positive e m).toNat = e.toNat * 2 ^ 52 + m.toNat := by
  have hm : m.toNat < 2 ^ 52 := m.isLt
  change (0#1 ++ e ++ m).toNat = _
  rw [BitVec.toNat_append, BitVec.toNat_append, ← Nat.shiftLeft_add_eq_or_of_lt hm,
    Nat.shiftLeft_eq]
  simp

/-- How Lean packs a finite float, with the numbers of this format. -/
theorem pack_finite (s : Sign) (m : Nat) (e : Int) (hpos : 0 < m) :
    UnpackedFloat.pack .binary64 (.finite s m e hpos) =
      if 2 ^ 11 ≤ (e + 1075).toNat + 1 then packedInfinity .binary64 s
      else if m.log2 + 1 = 53 then
        packComponents .binary64 s (BitVec.ofNat 11 (e + 1075).toNat) (BitVec.ofNat 52 m)
      else packComponents .binary64 s 0#11 (BitVec.ofNat 52 m) := by
  have hbias : e + (Format.binary64.exponentBias : Nat) + (52 : Nat) = e + 1075 := by
    rw [show Format.binary64.exponentBias = 1023 from rfl]
    omega
  unfold UnpackedFloat.pack
  rw [← hbias]
  rfl

theorem pack_subnormal {s : Sign} {m : Nat} (hpos : 0 < m) (hm : m < 2 ^ 52) :
    UnpackedFloat.pack .binary64 (.finite s m (-1074) hpos) =
      packComponents .binary64 s 0#11 (BitVec.ofNat 52 m) := by
  have hlog : m.log2 < 52 := (Nat.log2_lt hpos.ne').2 hm
  rw [pack_finite, if_neg (by decide), if_neg (by omega)]

theorem pack_normal {s : Sign} {m : Nat} {e : Int} (hpos : 0 < m) (hlow : 2 ^ 52 ≤ m)
    (hhigh : m < 2 ^ 53) (he : e ≤ 971) :
    UnpackedFloat.pack .binary64 (.finite s m e hpos) =
      packComponents .binary64 s (BitVec.ofNat 11 (e + 1075).toNat) (BitVec.ofNat 52 m) := by
  have hlog : m.log2 < 53 := (Nat.log2_lt hpos.ne').2 hhigh
  have hlog' : 52 ≤ m.log2 := (Nat.le_log2 hpos.ne').2 hlow
  rw [pack_finite, if_neg (by omega), if_pos (by omega)]

/-! ## Magnitudes -/

/-- The magnitude of a finite float has its bits but for the sign. -/
theorem toNat_toBits_abs (h : x.isFinite) :
    x.abs.toBits.toNat = field x * 2 ^ 52 + fraction x := by
  have hm := Binary.mantissa_ofFloat x
  have he := Binary.exponent_ofFloat x
  have hfinite := (isFinite_iff x).1 h
  have hlt : field x < 2 ^ 11 := Nat.mod_lt _ (by decide)
  have hfraction := fraction_lt x
  change (UnpackedFloat.pack .binary64 x.toModel.unpack.abs).toNat = _
  rw [unpack_of_isFinite x h, Binary.abs_unpacked]
  by_cases hfield : field x = 0
  · rw [hm, he, if_pos hfield, if_pos hfield, hfield]
    rcases Nat.eq_zero_or_pos (fraction x) with hzero | hpos
    · rw [hzero]
      rfl
    · rw [Binary.unpacked_magnitude hpos, pack_subnormal hpos hfraction, toNat_packComponents,
        BitVec.toNat_ofNat, BitVec.toNat_ofNat]
      omega
  · rw [hm, he, if_neg hfield, if_neg hfield, Binary.unpacked_magnitude (by omega),
      pack_normal _ (by omega) (by omega) (by omega), toNat_packComponents, BitVec.toNat_ofNat,
      BitVec.toNat_ofNat]
    omega

theorem field_abs (h : x.isFinite) : field x.abs = field x := by
  have hlt : field x < 2 ^ 11 := Nat.mod_lt _ (by decide)
  have hfraction := fraction_lt x
  rw [field, toNat_toBits_abs x h]
  omega

theorem fraction_abs (h : x.isFinite) : fraction x.abs = fraction x := by
  have hfraction := fraction_lt x
  rw [fraction, toNat_toBits_abs x h]
  omega

theorem isFinite_abs (h : x.isFinite) : x.abs.isFinite := by
  rw [isFinite_iff, field_abs x h]
  exact (isFinite_iff x).1 h

/-- The exact value of the magnitude is that without the sign. -/
theorem Binary.ofFloat_abs (h : x.isFinite) :
    ofFloat x.abs = ⟨false, (ofFloat x).mantissa, (ofFloat x).exponent⟩ := by
  have hlt : field x < 2 ^ 11 := Nat.mod_lt _ (by decide)
  have hfraction := fraction_lt x
  have hneg : (x.abs.toBits.toNat / 2 ^ 63 % 2 == 1) = false := by
    rw [toNat_toBits_abs x h, beq_eq_false_iff_ne]
    omega
  rw [ofFloat_eq x, ofFloat_eq x.abs, field_abs x h, fraction_abs x h, hneg]
  split_ifs <;> rfl

end Unpack

/-! ## Order -/

namespace Binary
variable {a b : Binary}

/-- Without a sign a number is its magnitude. -/
theorem value_of_not_negative (h : b.negative = false) : b.value = b.mantissa * 2 ^ b.exponent := by
  rw [value, h, if_neg Bool.false_ne_true, one_mul]

/-- A smaller exponent makes a smaller magnitude, whatever the mantissas are. -/
theorem IsCanonical.lt_of_exponent (ha : a.IsCanonical) (hb : b.IsCanonical)
    (h : a.exponent < b.exponent) :
    (a.mantissa * 2 ^ a.exponent : ℚ) < b.mantissa * 2 ^ b.exponent := by
  have hm : (a.mantissa : ℚ) < 2 ^ (53 : ℤ) := by exact_mod_cast ha.mantissa_lt
  have hn : (2 ^ (52 : ℤ) : ℚ) ≤ b.mantissa := by
    exact_mod_cast hb.full (lt_of_le_of_lt ha.le_exponent h)
  calc (a.mantissa * 2 ^ a.exponent : ℚ) < 2 ^ (53 : ℤ) * 2 ^ a.exponent := by gcongr
    _ = 2 ^ (53 + a.exponent) := by rw [← zpow_add₀ two_ne_zero]
    _ ≤ 2 ^ (52 + b.exponent) := zpow_le_zpow_right₀ one_le_two (by omega)
    _ = 2 ^ (52 : ℤ) * 2 ^ b.exponent := by rw [zpow_add₀ two_ne_zero]
    _ ≤ b.mantissa * 2 ^ b.exponent := by gcongr

/-- Magnitudes are compared by their exponents first, then by their mantissas. -/
theorem IsCanonical.lt_iff (ha : a.IsCanonical) (hb : b.IsCanonical) :
    (a.mantissa * 2 ^ a.exponent : ℚ) < b.mantissa * 2 ^ b.exponent ↔
      a.exponent < b.exponent ∨ a.exponent = b.exponent ∧ a.mantissa < b.mantissa := by
  rcases lt_trichotomy a.exponent b.exponent with h | h | h
  · simp only [ha.lt_of_exponent hb h, h, true_or]
  · have hpos : (0 : ℚ) < 2 ^ b.exponent := by positivity
    simp only [h, lt_irrefl, false_or, true_and, mul_lt_mul_iff_left₀ hpos, Nat.cast_lt]
  · simp only [(hb.lt_of_exponent ha h).not_gt, h.not_gt, h.ne', false_and, or_self]

/-- Unpacked floats without a sign are compared as numbers. -/
theorem unpacked_lt_iff (ha : a.IsCanonical) (hb : b.IsCanonical) (hna : a.negative = false)
    (hnb : b.negative = false) : a.unpacked.lt b.unpacked ↔ a.value < b.value := by
  have hpos (c : Binary) (h : 0 < c.mantissa) : (0 : ℚ) < c.mantissa * 2 ^ c.exponent := by
    have : (0 : ℚ) < c.mantissa := by exact_mod_cast h
    positivity
  rw [value_of_not_negative hna, value_of_not_negative hnb]
  rcases Nat.eq_zero_or_pos a.mantissa with hm | hm <;>
    rcases Nat.eq_zero_or_pos b.mantissa with hn | hn
  · rw [unpacked_of_eq hm, unpacked_of_eq hn, hm, hn, Nat.cast_zero, zero_mul, zero_mul]
    exact iff_of_false Bool.false_ne_true (lt_irrefl 0)
  · rw [unpacked_of_eq hm, unpacked_of_pos hn, sign_of_not_negative hnb, hm, Nat.cast_zero, zero_mul]
    exact iff_of_true rfl (hpos b hn)
  · rw [unpacked_of_pos hm, unpacked_of_eq hn, sign_of_not_negative hna, hn, Nat.cast_zero, zero_mul]
    exact iff_of_false Bool.false_ne_true (hpos a hm).not_gt
  · rw [unpacked_of_pos hm, unpacked_of_pos hn, sign_of_not_negative hna, sign_of_not_negative hnb,
      ha.lt_iff hb]
    change (some ((compare a.exponent b.exponent).then (compare a.mantissa b.mantissa)) ==
      some .lt) = true ↔ _
    rw [beq_iff_eq, Option.some_inj, Ordering.then_eq_lt, compare_lt_iff_lt, compare_lt_iff_lt,
      compare_eq_iff_eq]

end Binary

/-- **Finite floats without a sign are compared as numbers.** -/
theorem lt_iff_value_lt {x y : Float} (hx : x.isFinite) (hy : y.isFinite)
    (hnx : (Binary.ofFloat x).negative = false) (hny : (Binary.ofFloat y).negative = false) :
    x < y ↔ (Binary.ofFloat x).value < (Binary.ofFloat y).value := by
  rw [← Binary.unpacked_lt_iff (Binary.isCanonical_ofFloat x) (Binary.isCanonical_ofFloat y) hnx
    hny, ← unpack_of_isFinite x hx, ← unpack_of_isFinite y hy]
  exact decide_eq_true_iff

/-- A float is finite just if it is a number and not infinite. -/
theorem isFinite_iff_not (x : Float) : x.isFinite = true ↔ x.isNaN = false ∧ x.isInf = false := by
  change x.toModel.unpack.isFinite = true ↔
    x.toModel.unpack.isNaN = false ∧ x.toModel.unpack.isInf = false
  cases x.toModel.unpack with
  | infinity s => exact ⟨nofun, fun h => nomatch h.2⟩
  | notANumber => exact ⟨nofun, fun h => nomatch h.1⟩
  | zero s => exact iff_of_true rfl ⟨rfl, rfl⟩
  | finite s m e h => exact iff_of_true rfl ⟨rfl, rfl⟩

theorem isNaN_of_isInf {x : Float} (h : x.isInf = true) : x.isNaN = false := by
  change x.toModel.unpack.isInf = true at h
  change x.toModel.unpack.isNaN = false
  cases hx : x.toModel.unpack with
  | infinity s => rfl
  | notANumber =>
    rw [hx] at h
    cases h
  | zero s => rfl
  | finite s m e _ => rfl

end Reckoner.Decimal
