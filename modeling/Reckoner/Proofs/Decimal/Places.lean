/-
  Digits before and after the point.

  * `IsWhole`: the digits of a whole number without zeros before them;
  * `lastDigits`: so many digits of a number, and what they denote (`denoted_lastDigits`);
  * `paddedDigits_eq`: the digits of a number, split before its last ones;
  * `dropZeros_append`, `getLast?_dropZeros`: a text without the zeros at its end.
-/
import Mathlib.Data.List.DropRight
import Mathlib.Tactic.Ring
import Reckoner.Proofs.Decimal.Digits

namespace Reckoner.Decimal

open Text

/-! ## What digits denote -/

theorem foldl_digits (value : Nat) (ds : List Char) :
    ds.foldl (fun n c => 10 * n + digitValue c) value = value * 10 ^ ds.length + denoted ds := by
  induction ds generalizing value with
  | nil => simp [denoted]
  | cons d ds ih =>
    have hdenoted : denoted (d :: ds) = digitValue d * 10 ^ ds.length + denoted ds := by
      rw [denoted, List.foldl_cons, ih, Nat.mul_zero, Nat.zero_add]
    rw [List.foldl_cons, ih, hdenoted, List.length_cons, Nat.pow_succ]
    ring

theorem denoted_append (cs ds : List Char) :
    denoted (cs ++ ds) = denoted cs * 10 ^ ds.length + denoted ds := by
  rw [denoted, List.foldl_append, foldl_digits]
  rfl

theorem denoted_zeros (count : Nat) : denoted (List.replicate count '0') = 0 := by
  induction count with
  | zero => rfl
  | succ count ih => exact ih

theorem denoted_digitText (n : Nat) : denoted (digitText n) = n := by
  have hread := readDigits_of_digits (@isAsciiDigit_of_mem_digitText n) 0
  rw [readDigits_digitText] at hread
  exact (Option.some.inj hread).symm

theorem denoted_digitChar {d : Nat} (h : d < 10) : denoted [Nat.digitChar d] = d := by
  have htext : digitText d = [Nat.digitChar d] := by rw [digitText_eq, if_pos h]
  rw [← htext, denoted_digitText]

/-- The digits of a whole number: nothing but digits, and no zero before others. -/
structure IsWhole (n : Nat) (ds : List Char) : Prop where
  digits : ∀ c ∈ ds, isAsciiDigit c = true
  ne_nil : ds ≠ []
  alone : ds.head? = some '0' → ds = ['0']
  denoted_eq : denoted ds = n

theorem alone_digitText (n : Nat) : (digitText n).head? = some '0' → digitText n = ['0'] := by
  refine digitText_induction (motive := fun _ ds => ds.head? = some '0' → ds = ['0']) ?_ ?_ n
  · intro d _ hhead
    simpa using hhead
  · intro n d hn _ ih hhead
    rw [List.head?_append_of_ne_nil _ (digitText_ne_nil n)] at hhead
    have hzero := congrArg denoted (ih hhead)
    rw [denoted_digitText] at hzero
    exact absurd hzero hn

/-- Whole numbers are written with their digits. -/
theorem isWhole_digitText (n : Nat) : IsWhole n (digitText n) :=
  ⟨isAsciiDigit_of_mem_digitText, digitText_ne_nil n, alone_digitText n, denoted_digitText n⟩

/-! ## The last digits of a number -/

/-- The last so many digits of a number. -/
def lastDigits : (count n : Nat) → List Char
  | 0, _ => []
  | count + 1, n => lastDigits count (n / 10) ++ [Nat.digitChar (n % 10)]

theorem length_lastDigits (count n : Nat) : (lastDigits count n).length = count := by
  induction count generalizing n with
  | zero => rfl
  | succ count ih => rw [lastDigits, List.length_append, ih]; rfl

theorem isAsciiDigit_of_mem_lastDigits {count n : Nat} :
    ∀ c ∈ lastDigits count n, isAsciiDigit c = true := by
  induction count generalizing n with
  | zero => exact nofun
  | succ count ih =>
    rw [lastDigits, List.forall_mem_append, List.forall_mem_singleton]
    exact ⟨ih, isAsciiDigit_digitChar (Nat.mod_lt n (by decide))⟩

theorem denoted_lastDigits (count n : Nat) : denoted (lastDigits count n) = n % 10 ^ count := by
  induction count generalizing n with
  | zero => rw [Nat.pow_zero, Nat.mod_one]; rfl
  | succ count ih =>
    rw [lastDigits, denoted_append, ih, denoted_digitChar (Nat.mod_lt n (by decide)),
      Nat.pow_succ', Nat.mod_mul]
    simp only [List.length_cons, List.length_nil]
    omega

theorem paddedDigits_zero {length : Nat} (hpos : 0 < length) :
    paddedDigits length 0 = List.replicate length '0' := by
  obtain ⟨length, rfl⟩ := Nat.exists_eq_succ_of_ne_zero hpos.ne'
  rw [List.replicate_succ']
  rfl

theorem paddedDigits_succ {length : Nat} (hpos : 0 < length) (n : Nat) :
    paddedDigits (length + 1) n = paddedDigits length (n / 10) ++ [Nat.digitChar (n % 10)] := by
  by_cases hn : n < 10
  · rw [Nat.div_eq_of_lt hn, Nat.mod_eq_of_lt hn, paddedDigits_zero hpos, paddedDigits,
      digitText_eq, if_pos hn]
    rfl
  · rw [paddedDigits, paddedDigits, digitText_eq, if_neg hn, padLeft, padLeft, List.length_append,
      ← List.append_assoc]
    congr 3
    simp only [List.length_cons, List.length_nil]
    omega

/-- The digits of a number, with its last ones apart; one stands before them at least. -/
theorem paddedDigits_eq (count n : Nat) :
    paddedDigits (count + 1) n = digitText (n / 10 ^ count) ++ lastDigits count n := by
  induction count generalizing n with
  | zero =>
    have hlen : 1 - (digitText n).length = 0 :=
      Nat.sub_eq_zero_of_le (List.length_pos_iff.2 (digitText_ne_nil n))
    simp [paddedDigits, padLeft, lastDigits, hlen]
  | succ count ih =>
    rw [paddedDigits_succ (Nat.succ_pos _), ih, lastDigits, List.append_assoc,
      Nat.div_div_eq_div_mul, Nat.pow_succ']

/-! ## Zeros at the end -/

theorem dropZeros_eq (cs : List Char) : dropZeros cs = cs.rdropWhile (· == '0') := rfl

theorem getLast?_dropZeros (cs : List Char) : (dropZeros cs).getLast? ≠ some '0' := by
  rw [dropZeros_eq]
  intro hlast
  obtain ⟨hne, hzero⟩ := List.mem_getLast?_eq_getLast hlast
  exact List.rdropWhile_last_not _ cs hne (hzero ▸ rfl)

/-- What is taken away are zeros. -/
theorem dropZeros_append (cs : List Char) :
    dropZeros cs ++ List.replicate (cs.length - (dropZeros cs).length) '0' = cs := by
  have hsplit : cs.rdropWhile (· == '0') ++ cs.rtakeWhile (· == '0') = cs :=
    List.rdropWhile_append_rtakeWhile
  have hlen := congrArg List.length hsplit
  rw [List.length_append] at hlen
  have hzeros : cs.rtakeWhile (· == '0') =
      List.replicate (cs.rtakeWhile (· == '0')).length '0' :=
    List.eq_replicate_iff.2 ⟨rfl, fun c hc => by simpa using List.mem_rtakeWhile_imp hc⟩
  rw [hzeros] at hsplit
  rwa [dropZeros_eq, show cs.length - (cs.rdropWhile (· == '0')).length =
    (cs.rtakeWhile (· == '0')).length by omega]

theorem denoted_padRight (length : Nat) (cs : List Char) :
    denoted (padRight length '0' cs) = denoted cs * 10 ^ (length - cs.length) := by
  rw [padRight, denoted_append, denoted_zeros, List.length_replicate, Nat.add_zero]

theorem length_padRight {length : Nat} {fill : Char} {cs : List Char} (h : cs.length ≤ length) :
    (padRight length fill cs).length = length := by
  rw [padRight, List.length_append, List.length_replicate]
  omega

end Reckoner.Decimal
