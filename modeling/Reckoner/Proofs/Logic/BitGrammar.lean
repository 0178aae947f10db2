/-
  Bitwise expressions as trees, their values and their spellings.

  * `Literal`: a base and digits of it; `readLiteral_text`: a literal is read as its value, and
    refused from 2^63 on;
  * `Binary`: the operators between two operands; `apply_toOperator`: they work as the shifts
    of whole numbers do, within 64 bits;
  * `Expr`, `Expr.eval`: trees and their values, operands from left to right;
  * `Spells`: the rows of symbols that stand for a tree, with any groups around its parts;
  * `Expr.spells_symbols`: the row with the fewest groups is one of them.

  A complement may only stand before the very first operand, so in a tree it is found at the
  end of the left spine, on a literal or on a group.
-/
import Mathlib.Algebra.Group.Int.Defs
import Mathlib.Algebra.Group.Nat.Defs
import Mathlib.Tactic.Common
import Reckoner.Logic.Bitwise
import Reckoner.Proofs.Text.Word

namespace Reckoner.Logic.Bitwise

open Text

/-! ## Literals -/

/-- How the digits of a literal are meant. -/
inductive Base where
  | binary | octal | decimal | hexadecimal
  deriving DecidableEq, Repr

namespace Base

/-- The number of digits of a base. -/
def radix : Base → Nat
  | binary => 2
  | octal => 8
  | decimal => 10
  | hexadecimal => 16

/-- What stands before the digits. -/
def mark : Base → List Char
  | binary => ['0', 'b']
  | octal => ['0', 'o']
  | decimal => []
  | hexadecimal => ['0', 'x']

end Base

/-- A literal. -/
structure Literal where
  base : Base
  /-- the digits, first to last -/
  digits : List (Fin base.radix)
  digits_ne : digits ≠ []

namespace Literal

/-- The digits as characters; letters are lower-case. -/
def digitText (l : Literal) : List Char := l.digits.map fun d => Nat.digitChar d.val

/-- The literal as it is written. -/
def text (l : Literal) : List Char := l.base.mark ++ l.digitText

/-- The number that the digits denote. -/
def number (l : Literal) : Nat := l.digits.foldl (fun n d => l.base.radix * n + d.val) 0

/-- The value of a literal, which has to fit into 64 bits with a sign. -/
def eval (l : Literal) : Except Failure Int64 :=
  if l.number < 2 ^ 63 then .ok (Int64.ofNat l.number)
  else .error (.invalidNumber (String.ofList l.text))

end Literal

/-- What a digit of a base is as a character. -/
theorem digitChar_spec : ∀ base : Base, ∀ d : Fin base.radix,
    Decimal.digitOf? base.radix (Nat.digitChar d) = some d.val ∧
      isBaseDigit base.radix (Nat.digitChar d) = true ∧
      isWordChar (Nat.digitChar d) = true ∧ isBlank (Nat.digitChar d) = false ∧
      Nat.digitChar d ≠ '-' ∧ Nat.digitChar d ≠ '+' := by
  intro base
  cases base <;> decide

/-- A decimal digit as a character. -/
theorem digitChar_decimal : ∀ d : Fin Base.decimal.radix,
    isDigit (Nat.digitChar d) = true ∧ isAsciiDigit (Nat.digitChar d) = true ∧
      baseOf? (Nat.digitChar d) = none := by
  decide

theorem isWordChar_of_mem_text {l : Literal} {c : Char} (hc : c ∈ l.text) :
    isWordChar c = true := by
  rcases List.mem_append.1 hc with hc | hc
  · have hmark : ∀ base : Base, ∀ c ∈ base.mark, isWordChar c = true := by
      intro base
      cases base <;> decide
    exact hmark _ c hc
  · obtain ⟨d, -, rfl⟩ := List.mem_map.1 hc
    exact (digitChar_spec _ d).2.2.1

theorem readDigits_digits {base : Base} (digits : List (Fin base.radix)) (n : Nat) :
    Decimal.readDigits base.radix n (digits.map fun d => Nat.digitChar d.val) =
      some (digits.foldl (fun n d => base.radix * n + d.val) n) := by
  induction digits generalizing n with
  | nil => rfl
  | cons d digits ih =>
    rw [List.map_cons, Decimal.readDigits, (digitChar_spec base d).1]
    exact ih _

theorem readInteger_digits {base : Base} {digits : List (Fin base.radix)} (hne : digits ≠ []) :
    Decimal.readInteger? base.radix (digits.map fun d => Nat.digitChar d.val) =
      some ((digits.foldl (fun n d => base.radix * n + d.val) 0 : Nat) : Int) := by
  obtain ⟨d, digits, rfl⟩ := List.exists_cons_of_ne_nil hne
  obtain ⟨-, -, -, -, hminus, hplus⟩ := digitChar_spec base d
  have hread := readDigits_digits (d :: digits) 0
  rw [List.map_cons] at hread ⊢
  unfold Decimal.readInteger?
  split
  · next heq => exact absurd (List.cons.inj heq).1 hminus
  · next heq => exact absurd (List.cons.inj heq).1 hplus
  · rw [Decimal.readNatural?, if_neg (by simp), hread]
    rfl

/-- The mark of a literal gives its base away. -/
theorem splitBase_text (l : Literal) : splitBase l.text = (l.base.radix, l.digitText) := by
  obtain ⟨base, digits, hne⟩ := l
  cases base with
  | binary => rfl
  | octal => rfl
  | hexadecimal => rfl
  | decimal =>
    -- no digit is a letter, so the second character marks no base
    have hsecond : ∀ d : Fin Base.decimal.radix, Nat.digitChar d ∉ ['b', 'o', 'x'] := by
      decide
    have hmatch : ∀ cs : List Char, (∀ c ∈ cs[1]?, c ∉ ['b', 'o', 'x']) →
        splitBase cs = (10, cs) := by
      intro cs hcs
      unfold splitBase
      split
      · exact absurd (by simp) (hcs 'b' rfl)
      · exact absurd (by simp) (hcs 'o' rfl)
      · exact absurd (by simp) (hcs 'x' rfl)
      · rfl
    refine hmatch _ fun c hc => ?_
    obtain ⟨d, -, rfl⟩ := List.mem_map.1 (List.mem_of_getElem? hc)
    exact hsecond d

/-- **A literal is read as its value.** -/
theorem readLiteral_text (l : Literal) : readLiteral (String.ofList l.text) = l.eval := by
  have hread : Decimal.readInt64? l.base.radix l.digitText =
      (some (l.number : Int)).filter Decimal.fitsInt64 :=
    congrArg (Option.filter Decimal.fitsInt64) (readInteger_digits l.digits_ne)
  rw [readLiteral, String.toList_ofList, splitBase_text]
  simp only [hread, Option.filter_some]
  unfold Literal.eval
  have hfits : Decimal.fitsInt64 l.number = decide (l.number < 2 ^ 63) := by
    rw [Bool.eq_iff_iff]
    simp only [Decimal.fitsInt64, Bool.and_eq_true, decide_eq_true_eq]
    unfold Decimal.minInt64 Decimal.maxInt64
    omega
  rw [hfits]
  by_cases h : l.number < 2 ^ 63
  · rw [decide_eq_true h, if_pos rfl, if_pos h]
    rfl
  · rw [decide_eq_false h, if_neg Bool.false_ne_true, if_neg h]

/-! ## Operators -/

/-- A binary operator. -/
inductive Binary where
  | or | xor | and | shiftLeft | shiftRight
  deriving DecidableEq, Repr

/-- A shift amount from 0 to 63. -/
def places (b : Int64) : Except Failure Nat :=
  if 0 ≤ b.toInt ∧ b.toInt < 64 then .ok b.toInt.toNat else .error (.shiftOutOfRange b.toInt)

namespace Binary

/-- The operator. -/
def toOperator : Binary → Operator
  | or => .or
  | xor => .xor
  | and => .and
  | shiftLeft => .shiftLeft
  | shiftRight => .shiftRight

/-- How strongly an operator binds. -/
def level : Binary → Nat
  | or => 0
  | xor => 1
  | and => 2
  | shiftLeft | shiftRight => 3

/-- The value between two integers. A shift to the left keeps the lowest 64 bits of the product,
and one to the right the sign. -/
def apply (op : Binary) (a b : Int64) : Except Failure Int64 :=
  match op with
  | or => .ok (a ||| b)
  | xor => .ok (a ^^^ b)
  | and => .ok (a &&& b)
  | shiftLeft => do return Int64.ofInt (a.toInt * 2 ^ (← places b))
  | shiftRight => do return Int64.ofInt (a.toInt / 2 ^ (← places b))

theorem level_lt (op : Binary) : op.level < 4 := by
  cases op <;> decide

end Binary

/-- A shift amount below 64 is taken as it is. -/
theorem toNat_smod_64 {b : Int64} (h0 : 0 ≤ b.toInt) (h64 : b.toInt < 64) :
    (b.toBitVec.smod 64).toNat = b.toInt.toNat := by
  have hint : (b.toBitVec.smod 64).toInt = b.toInt := by
    rw [BitVec.toInt_smod]
    show b.toInt.fmod 64 = _
    rw [Int.fmod_eq_emod_of_nonneg _ (by decide)]
    exact Int.emod_eq_of_lt h0 h64
  rw [← hint, BitVec.toNat_toInt_of_sle]
  rw [BitVec.sle_iff_toInt_le, hint]
  exact h0

theorem shiftLeft_eq (a : Int64) {b : Int64} (h0 : 0 ≤ b.toInt) (h64 : b.toInt < 64) :
    a <<< b = Int64.ofInt (a.toInt * 2 ^ b.toInt.toNat) := by
  rw [← Int64.toInt_inj, Int64.toInt_ofInt]
  show (a.toBitVec <<< (b.toBitVec.smod 64)).toInt = _
  rw [BitVec.shiftLeft_eq', toNat_smod_64 h0 h64, BitVec.toInt_shiftLeft, Nat.shiftLeft_eq]
  show _ = (a.toBitVec.toInt * _).bmod (2 ^ 64)
  rw [BitVec.toInt_eq_toNat_bmod, Int.bmod_mul_bmod]
  push_cast
  rfl

theorem shiftRight_eq (a : Int64) {b : Int64} (h0 : 0 ≤ b.toInt) (h64 : b.toInt < 64) :
    a >>> b = Int64.ofInt (a.toInt / 2 ^ b.toInt.toNat) := by
  have h : (a >>> b).toInt = a.toInt / 2 ^ b.toInt.toNat := by
    show (a.toBitVec.sshiftRight' (b.toBitVec.smod 64)).toInt = _
    rw [BitVec.toInt_sshiftRight', toNat_smod_64 h0 h64, Int.shiftRight_eq_div_pow]
    norm_cast
  rw [← h, Int64.ofInt_toInt]

theorem shiftAmount_eq (b : Int64) :
    shiftAmount b = if 0 ≤ b.toInt ∧ b.toInt < 64 then .ok b
      else .error (.shiftOutOfRange b.toInt) := by
  have hcond : (0 ≤ b && b < 64) = decide (0 ≤ b.toInt ∧ b.toInt < 64) := by
    rw [Bool.eq_iff_iff]
    simp only [Bool.and_eq_true, decide_eq_true_eq, Int64.le_iff_toInt_le, Int64.lt_iff_toInt_lt]
    exact Iff.rfl
  simp only [shiftAmount, hcond, decide_eq_true_eq]

/-- **The operators work as the shifts of whole numbers do**, within 64 bits. -/
theorem apply_toOperator (op : Binary) (a b : Int64) (values : List Int64) :
    rules.apply op.toOperator (b :: a :: values) = do return (← op.apply a b) :: values := by
  have hshift : ∀ f : Int64 → Int64 → Int64, ∀ g : Int → Nat → Int,
      (0 ≤ b.toInt → b.toInt < 64 → f a b = Int64.ofInt (g a.toInt b.toInt.toNat)) →
      (do return f a (← shiftAmount b) :: values : Except Failure (List Int64)) =
        do return (← (do return Int64.ofInt (g a.toInt (← places b)))) :: values := by
    intro f g hfg
    rw [shiftAmount_eq, places]
    split
    · next h => exact congrArg (fun v => Except.ok (v :: values)) (hfg h.1 h.2)
    · rfl
  cases op with
  | or => rfl
  | xor => rfl
  | and => rfl
  | shiftLeft => exact hshift (· <<< ·) (fun a n => a * 2 ^ n) (shiftLeft_eq a)
  | shiftRight => exact hshift (· >>> ·) (fun a n => a / 2 ^ n) (shiftRight_eq a)

/-! ## Trees and their spellings -/

/-- A bitwise expression. -/
inductive Expr where
  | literal (l : Literal)
  | complement (operand : Expr)
  | binary (op : Binary) (left right : Expr)

/-- The value of an expression, or the failure that comes first from left to right. -/
def Expr.eval : Expr → Except Failure Int64
  | literal l => l.eval
  | complement operand => do return ~~~(← operand.eval)
  | binary op left right => do
    let a ← left.eval
    let b ← right.eval
    op.apply a b

/-- What a text is made of. -/
inductive Symbol where
  | literal (l : Literal)
  | operator (op : Binary)
  | complement
  | opening
  | closing

namespace Symbol

/-- A symbol as it is written. -/
def text : Symbol → List Char
  | literal l => l.text
  | operator op => op.toOperator.symbol.toList
  | complement => ['~']
  | opening => ['(']
  | closing => [')']

/-- The kind of a symbol. -/
def kind : Symbol → TokenKind
  | literal _ => .number
  | operator _ | complement => .operator
  | opening | closing => .parenthesis

/-- A symbol as a token. -/
def token (s : Symbol) : Token := ⟨s.kind, String.ofList s.text, 0⟩

end Symbol

/-- The symbols `ts` stand for an expression. `level` is that of its weakest operator outside
groups, 4 if there is none; the expression may lead, that is start with a complement, where it
stands first. -/
inductive Spells : Bool → Nat → Expr → List Symbol → Prop
  | literal {l} : Spells false 4 (.literal l) [.literal l]
  | group {level e ts} : Spells false level e ts →
      Spells false 4 e (.opening :: ts ++ [.closing])
  | complement {e ts} : Spells false 4 e ts → Spells true 4 (.complement e) (.complement :: ts)
  | binary (op : Binary) {leads level₁ level₂ a b ts₁ ts₂} :
      op.level ≤ level₁ → op.level < level₂ →
      Spells leads level₁ a ts₁ → Spells false level₂ b ts₂ →
      Spells leads op.level (.binary op a b) (ts₁ ++ .operator op :: ts₂)

/-- Symbols in a group, if they need one. -/
def enclose (needed : Bool) (ts : List Symbol) : List Symbol :=
  if needed then .opening :: ts ++ [.closing] else ts

namespace Expr

/-- The level of the weakest operator that stands in no group. -/
def level : Expr → Nat
  | literal _ | complement _ => 4
  | binary op _ _ => op.level

/-- Complements stand only where a symbol can be the first: one on the left spine, with no
group around it, if the expression leads. -/
def Placed : Bool → Expr → Prop
  | leads, literal _ => leads = false
  | leads, complement operand => leads = true ∧ operand.Placed false
  | leads, binary op left right =>
    left.Placed leads ∧ right.Placed false ∧ (leads = true → op.level ≤ left.level)

/-- The symbols of an expression with only the groups that the levels ask for. -/
def symbols : Expr → List Symbol
  | literal l => [.literal l]
  | complement operand => .complement :: enclose (operand.level < 4) operand.symbols
  | binary op left right =>
    enclose (left.level < op.level) left.symbols ++
      .operator op :: enclose (right.level ≤ op.level) right.symbols

end Expr

theorem Spells.enclose {level : Nat} {e : Expr} {ts : List Symbol}
    (h : Spells false level e ts) (needed : Bool) :
    Spells false (if needed then 4 else level) e (enclose needed ts) := by
  cases needed with
  | true => exact .group h
  | false => exact h

theorem Expr.level_le (e : Expr) : e.level ≤ 4 := by
  cases e with
  | literal => exact Nat.le_refl 4
  | complement => exact Nat.le_refl 4
  | binary op => exact Nat.le_of_lt op.level_lt

theorem Expr.spells_symbols {leads : Bool} {e : Expr} (h : e.Placed leads) :
    Spells leads e.level e e.symbols := by
  induction e generalizing leads with
  | literal l =>
    obtain rfl := h
    exact .literal
  | complement operand ih =>
    obtain ⟨rfl, hoperand⟩ := h
    have hspells := (ih hoperand).enclose (operand.level < 4)
    have hle := operand.level_le
    rw [show (if decide (operand.level < 4) then 4 else operand.level) = 4 by
      split <;> simp_all; omega] at hspells
    exact .complement hspells
  | binary op left right ihleft ihright =>
    obtain ⟨hleft, hright, hlevel⟩ := h
    have hop := op.level_lt
    have hleft' : ∃ level, op.level ≤ level ∧ Spells leads level left
        (Bitwise.enclose (left.level < op.level) left.symbols) := by
      cases leads with
      | true =>
        rw [decide_eq_false (Nat.not_lt_of_le (hlevel rfl))]
        exact ⟨left.level, hlevel rfl, ihleft hleft⟩
      | false =>
        refine ⟨_, ?_, (ihleft hleft).enclose _⟩
        split <;> simp_all
        omega
    obtain ⟨level, hle, hspells⟩ := hleft'
    refine .binary op hle ?_ hspells ((ihright hright).enclose _)
    split <;> simp_all

end Reckoner.Logic.Bitwise
