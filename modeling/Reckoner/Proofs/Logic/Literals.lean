/-
  Integers written and read again.

  * `exists_digits`, `readLiteral_toDigits`: **a number is read from its digits in every base**, and
    refused from 2^63 on;
  * `toNat_of_nonneg`, `toNat_of_neg`: the number that the bits of an integer stand for;
  * `lower_hexText`: the hexadecimal digits of an answer are capitals, those of a literal are not;
  * `evaluate_read_back`: **literals of every base are read as what they denote**, and so are the
    two texts in the answer to a bitwise expression, unless its value is negative.
-/
import Reckoner.Logic
import Reckoner.Proofs.Logic.Letters
import Reckoner.Proofs.Text.Spaced

namespace Reckoner.Logic.Bitwise

open Text

/-! ## Digits in every base -/

theorem Base.one_lt_radix (base : Base) : 1 < base.radix := by
  cases base <;> decide

/-- The digits of a number denote it. -/
theorem exists_digits (base : Base) (n : Nat) : ∃ digits : List (Fin base.radix), digits ≠ [] ∧
    digits.map (fun d => Nat.digitChar d.val) = Nat.toDigits base.radix n ∧
      digits.foldl (fun n d => base.radix * n + d.val) 0 = n := by
  have hradix := base.one_lt_radix
  induction n using Nat.strongRecOn with
  | ind n ih =>
    rw [Nat.toDigits_eq_if hradix]
    split_ifs with hn
    · exact ⟨[⟨n, hn⟩], List.cons_ne_nil _ _, rfl, by simp⟩
    · have hlt : n / base.radix < n := Nat.div_lt_self (by omega) hradix
      obtain ⟨digits, -, htext, hnumber⟩ := ih _ hlt
      refine ⟨digits ++ [⟨n % base.radix, Nat.mod_lt n (by omega)⟩], by simp, ?_, ?_⟩
      · rw [List.map_append, htext]
        rfl
      · rw [List.foldl_append, hnumber]
        exact Nat.div_add_mod n base.radix

/-- **A number is read from its digits**, if it fits into 64 bits with a sign. -/
theorem readLiteral_toDigits (base : Base) (n : Nat) {text : String}
    (htext : text.toList = base.mark ++ Nat.toDigits base.radix n) :
    readLiteral text =
      if n < 2 ^ 63 then .ok (Int64.ofNat n) else .error (.invalidNumber text) := by
  obtain ⟨digits, hne, hdigits, hnumber⟩ := exists_digits base n
  have hread := readLiteral_text ⟨base, digits, hne⟩
  unfold Literal.eval Literal.text Literal.digitText Literal.number at hread
  dsimp only at hread
  rw [hdigits, hnumber, ← htext, String.ofList_toList] at hread
  exact hread

/-! ## The bits of an integer -/

section
variable {v : Int64}

theorem toNat_of_nonneg (h : 0 ≤ v.toInt) : (v.toUInt64.toNat : Int) = v.toInt := by
  have hcond := BitVec.toInt_eq_toNat_cond v.toBitVec
  rw [Int64.toInt_toBitVec] at hcond
  have hlt := v.toBitVec.isLt
  change (v.toBitVec.toNat : Int) = v.toInt
  split_ifs at hcond <;> omega

theorem toNat_of_neg (h : v.toInt < 0) : 2 ^ 63 ≤ v.toUInt64.toNat := by
  have hcond := BitVec.toInt_eq_toNat_cond v.toBitVec
  rw [Int64.toInt_toBitVec] at hcond
  change 2 ^ 63 ≤ v.toBitVec.toNat
  split_ifs at hcond <;> omega

theorem ofNat_of_toInt {n : Nat} (h : (n : Int) = v.toInt) : Int64.ofNat n = v := by
  have hofInt : Int64.ofInt (n : Int) = v := by
    rw [h]
    exact Int64.ofInt_toInt v
  rw [← hofInt]
  rfl

theorem lt_of_toInt {n : Nat} (h : (n : Int) = v.toInt) : n < 2 ^ 63 := by
  have hlt := Int64.toInt_lt v
  omega

end

end Bitwise

/-! ## The texts of an answer -/

open Text Bitwise

/-- A text in lower case. -/
def lowerText (s : String) : String := String.ofList (lower s.toList)

theorem digitChar_toUpper : ∀ d : Fin Base.hexadecimal.radix,
    (Nat.digitChar d).toUpper.toNat < 128 ∧
      (Nat.digitChar d).toUpper.toLower = Nat.digitChar d := by
  decide

/-- In lower case the hexadecimal digits of an integer are those of a literal. -/
theorem lower_hexText (v : Int64) : (lowerText ("0x" ++ hexText v)).toList =
    Base.hexadecimal.mark ++ Nat.toDigits Base.hexadecimal.radix v.toUInt64.toNat := by
  obtain ⟨digits, -, hdigits, -⟩ := exists_digits .hexadecimal v.toUInt64.toNat
  have hmark : ∀ c ∈ "0x".toList, IsPlain c ∧ c.toLower = c := by
    have hascii : ∀ c ∈ "0x".toList, c.toNat < 128 ∧ c.toLower = c := by decide
    exact fun c hc => ⟨.inl (hascii c hc).1, (hascii c hc).2⟩
  have htext : ("0x" ++ hexText v).toList =
      "0x".toList ++ digits.map fun d => (Nat.digitChar d.val).toUpper := by
    have hhex : Nat.toDigits 16 v.toUInt64.toNat = digits.map fun d => Nat.digitChar d.val :=
      hdigits.symm
    rw [String.toList_append, hexText, hhex, List.map_map]
    exact congrArg ("0x".toList ++ ·) String.toList_ofList
  rw [lowerText, String.toList_ofList, htext, ← hdigits, lower_eq_map, List.map_append, List.map_map]
  · congr 1
    exact List.map_congr_left fun d _ => (digitChar_toUpper d).2
  · rw [List.forall_mem_append]
    refine ⟨fun c hc => (hmark c hc).1, fun c hc => ?_⟩
    obtain ⟨d, -, rfl⟩ := List.mem_map.1 hc
    exact .inl (digitChar_toUpper d).1

/-- The hexadecimal form of an integer is read as the integer, or refused if it is negative. -/
theorem readLiteral_hexText (v : Int64) : readLiteral (lowerText ("0x" ++ hexText v)) =
    if 0 ≤ v.toInt then .ok v else .error (.invalidNumber (lowerText ("0x" ++ hexText v))) := by
  rw [readLiteral_toDigits .hexadecimal _ (lower_hexText v)]
  split_ifs with hlt hsign hsign
  · rw [ofNat_of_toInt (toNat_of_nonneg hsign)]
  · exact absurd (toNat_of_neg (v := v) (by omega)) (by omega)
  · exact absurd (lt_of_toInt (toNat_of_nonneg hsign)) hlt
  · rfl

/-- An integer that is not negative is read from its decimal form. -/
theorem readLiteral_integerText {v : Int64} (h : 0 ≤ v.toInt) :
    readLiteral (Decimal.integerText v.toInt) = .ok v := by
  have hnat : ((v.toInt.natAbs : Nat) : Int) = v.toInt := by omega
  have htext : (Decimal.integerText v.toInt).toList =
      Base.decimal.mark ++ Nat.toDigits Base.decimal.radix v.toInt.natAbs := by
    rw [Decimal.integerText, if_neg (by omega), String.toList_ofList]
    rfl
  rw [readLiteral_toDigits .decimal _ htext, if_pos (lt_of_toInt hnat), ofNat_of_toInt hnat]

theorem evaluate_bitwise {query : String} {v : Int64}
    (hmode : Mode.detect (canonical query.toList) = .bitwise)
    (hv : Bitwise.evaluate (canonical query.toList) = .ok v) :
    evaluate query = integerAnswer (trimmed query) v := by
  have hne := ne_nil_of_detect (by rw [hmode]; decide)
  rw [evaluate, answer?_trimmed hne, hmode]
  dsimp only
  rw [hv]
  rfl

/-- **Literals of every base are read as the number they denote**, and refused if it does not fit
into 64 bits with a sign. The answer to a bitwise expression gives its value in two forms: both
are read as the value if it is not negative, and else the hexadecimal one is refused. -/
theorem evaluate_read_back :
    (∀ l : Literal, readLiteral (String.ofList l.text) =
      if l.number < 2 ^ 63 then .ok (Int64.ofNat l.number)
      else .error (.invalidNumber (String.ofList l.text))) ∧
    ∀ (query : String) (v : Int64), Mode.detect (canonical query.toList) = .bitwise →
      Bitwise.evaluate (canonical query.toList) = .ok v →
        let hex := "0x" ++ hexText v
        (evaluate query).subtitle =
          "Result: " ++ (evaluate query).result ++ " (" ++ hex ++ ")" ∧
        readLiteral (lowerText hex) =
          (if 0 ≤ v.toInt then .ok v else .error (.invalidNumber (lowerText hex))) ∧
        (0 ≤ v.toInt → readLiteral (evaluate query).result = .ok v) := by
  refine ⟨fun l => (readLiteral_text l).trans rfl, fun query v hmode hv => ?_⟩
  rw [evaluate_bitwise hmode hv]
  refine ⟨?_, readLiteral_hexText v, readLiteral_integerText⟩
  simp only [integerAnswer, Answer.success, String.append_assoc]
  rfl

/-- The form of minus one is that of 2^64 - 1, which is too large for a literal; that of a number
that is not negative is read again. -/
theorem evaluate_read_back_complement :
    (Mode.detect (canonical "~0".toList) = .bitwise ∧
      Bitwise.evaluate (canonical "~0".toList) = .ok (-1) ∧
        (evaluate "~0").subtitle =
          "Result: " ++ (evaluate "~0").result ++ " (" ++ "0xFFFFFFFFFFFFFFFF" ++ ")" ∧
          readLiteral (lowerText "0xFFFFFFFFFFFFFFFF") =
            .error (.invalidNumber (lowerText "0xFFFFFFFFFFFFFFFF"))) ∧
    Mode.detect (canonical "0xF0 | 10".toList) = .bitwise ∧
      Bitwise.evaluate (canonical "0xF0 | 10".toList) = .ok 250 ∧
        0 ≤ (250 : Int64).toInt ∧ readLiteral (evaluate "0xF0 | 10").result = .ok 250 := by
  have hmode : Mode.detect (canonical "~0".toList) = .bitwise := by decide
  have hv : Bitwise.evaluate (canonical "~0".toList) = .ok (-1) := by decide +kernel
  have hmode' : Mode.detect (canonical "0xF0 | 10".toList) = .bitwise := by decide
  have hv' : Bitwise.evaluate (canonical "0xF0 | 10".toList) = .ok 250 := by decide +kernel
  have hsign : 0 ≤ (250 : Int64).toInt := by decide
  obtain ⟨hsubtitle, hhex, -⟩ := evaluate_read_back.2 "~0" (-1) hmode hv
  have hform : "0x" ++ hexText (-1) = "0xFFFFFFFFFFFFFFFF" := by decide
  rw [hform] at hsubtitle hhex
  exact ⟨⟨hmode, hv, hsubtitle, hhex⟩, hmode', hv', hsign,
    (evaluate_read_back.2 "0xF0 | 10" 250 hmode' hv').2.2 hsign⟩

end Reckoner.Logic
