/-
  The lexemes of bitwise expressions, apart from how they are found.

  * `IsLiteral`, `IsLexeme`: literals, shifts, names, and any other character by itself;
    `IsAdmitted`: literals that start with an ASCII digit, operators and parentheses;
  * `longest_lexeme`: the rule takes the longest lexeme where it starts;
  * `scans_tokenize`: **an expression is cut into its longest lexemes, and the first of them that
    is not admitted is named**.
-/
import Reckoner.Proofs.Logic.Letters
import Reckoner.Proofs.Text.Tiling

namespace Reckoner.Logic.Bitwise

open Text

/-! ## Lexemes -/

/-- `0`, the mark of a base and digits of that base, or digits of any script. -/
inductive IsLiteral : List Char → Prop
  | based {mark : Char} {base : Nat} {digits : List Char} : baseOf? mark = some base →
      digits ≠ [] → (∀ d ∈ digits, isBaseDigit base d = true) → IsLiteral ('0' :: mark :: digits)
  | plain {c : Char} {digits : List Char} : isDigit c = true →
      (∀ d ∈ digits, isDigit d = true) → IsLiteral (c :: digits)

/-- A literal, a shift, a name, or any other character that is not blank. -/
inductive IsLexeme : List Char → Prop
  | literal {w : List Char} : IsLiteral w → IsLexeme w
  | shift {c : Char} : c ∈ ['<', '>'] → IsLexeme [c, c]
  | name {c : Char} {cs : List Char} : (isAsciiLower c || c == '_') = true →
      (∀ d ∈ cs, continuesName d = true) → IsLexeme (c :: cs)
  | other {c : Char} : isBlank c = false → IsLexeme [c]

/-- The operators and the parentheses. -/
def admittedSigns : List (List Char) :=
  [['<', '<'], ['>', '>'], ['&'], ['|'], ['^'], ['~'], ['('], [')']]

/-- What an expression may be made of. -/
def IsAdmitted (w : List Char) : Prop :=
  IsLiteral w ∧ w.head?.any isAsciiDigit = true ∨ w ∈ admittedSigns

theorem IsLiteral.isDigit {c : Char} {w : List Char} (h : IsLiteral (c :: w)) :
    isDigit c = true := by
  cases h with
  | based => decide
  | plain hc => exact hc

theorem IsLexeme.not_blank {c : Char} {w : List Char} (h : IsLexeme (c :: w)) :
    isBlank c = false := by
  cases h with
  | literal h => exact isBlank_of_digit h.isDigit
  | shift hc =>
    have hshifts : ∀ d ∈ ['<', '>'], isBlank d = false := by decide
    exact hshifts c hc
  | name hc =>
    rcases Bool.or_eq_true_iff.1 hc with hlower | hc
    · exact isBlank_of_lower hlower
    · rw [beq_iff_eq.1 hc]
      decide
  | other hc => exact hc

theorem isDigit_of_mark {c : Char} {base : Nat} (h : baseOf? c = some base) :
    isDigit c = false := by
  have hmarks : ∀ d ∈ ['b', 'o', 'x'], isDigit d = false := by decide
  exact hmarks c (mem_letters_of_baseOf? h)

/-- What is neither a literal nor one of the signs is not admitted. -/
theorem not_isAdmitted {c : Char} {w : List Char} (hdigit : isAsciiDigit c = false)
    (hsigns : c :: w ∉ admittedSigns) : ¬ IsAdmitted (c :: w) := by
  rintro (⟨-, hhead⟩ | h)
  · exact Bool.false_ne_true (hdigit.symm.trans hhead)
  · exact hsigns h

/-! ## The rule -/

theorem lexeme_based {cs : List Char} (h : basedRun cs ≠ 0) :
    lexeme '0' cs = (.number, basedRun cs) := by
  have hzero : isDigit '0' = true := by decide
  simp [lexeme, hzero, h, isAsciiDigit]

theorem lexeme_shift {c : Char} (hc : c ∈ ['<', '>']) (rest : List Char) :
    lexeme c (c :: rest) = (.operator, 1) := by
  have hshifts : ∀ d ∈ ['<', '>'], isDigit d = false ∧ (d == '<' || d == '>') = true := by decide
  obtain ⟨hdigit, hshift⟩ := hshifts c hc
  simp [lexeme, hdigit, hshift]

theorem lexeme_name {c : Char} (hc : (isAsciiLower c || c == '_') = true) (cs : List Char) :
    lexeme c cs = (.unknown, (cs.takeWhile continuesName).length) := by
  have hsigns : ∀ d ∈ ['<', '>', '&', '|', '^', '~', '(', ')'], c ≠ d := by
    rcases Bool.or_eq_true_iff.1 hc with hlower | hc
    · exact ne_signs_of_lower hlower rfl
    · rw [beq_iff_eq.1 hc]
      decide
  have hdigit : isDigit c = false := by
    rcases Bool.or_eq_true_iff.1 hc with hlower | hc
    · exact isDigit_of_lower hlower
    · rw [beq_iff_eq.1 hc]
      decide
  simp only [List.forall_mem_cons] at hsigns
  simp [lexeme, hdigit, hc, hsigns]

theorem isLiteral_take {c : Char} (hc : isDigit c = true) (cs : List Char) :
    IsLiteral (c :: cs.take (lexeme c cs).2) := by
  rcases lexeme_digit hc cs with ⟨rfl, hbased, hlength⟩ | hlength
  · obtain ⟨mark, rest, base, -, hbase, hne, htake⟩ := exists_of_basedRun hbased
    rw [hlength, htake]
    exact .based hbase hne fun d hd => List.mem_takeWhile_imp hd
  · rw [hlength, take_takeWhile]
    exact .plain hc fun d hd => List.mem_takeWhile_imp hd

section
variable {c : Char} {v cs : List Char} (hv : v <+: cs)
include hv

theorem IsLiteral.length_le (h : IsLiteral (c :: v)) : v.length ≤ (lexeme c cs).2 := by
  obtain ⟨rest, rfl⟩ := hv
  cases h with
  | @based mark base digits hbase hne hdigits =>
    have hrun := length_le_takeWhile hdigits (List.prefix_append digits rest)
    have hpos := List.length_pos_iff.2 hne
    have hbased : basedRun (mark :: digits ++ rest) =
        ((digits ++ rest).takeWhile (isBaseDigit base)).length + 1 := by
      rw [List.cons_append, basedRun, hbase]
      dsimp only
      rw [if_neg (by omega)]
    rw [lexeme_based (by omega), hbased]
    exact Nat.succ_le_succ hrun
  | plain hc hdigits =>
    rcases lexeme_digit hc (v ++ rest) with ⟨-, hbased, hlength⟩ | hlength
    · -- a mark is no digit, so that no digit comes next
      cases v with
      | nil => exact Nat.zero_le _
      | cons d v =>
        obtain ⟨mark, _, base, heq, hbase, -⟩ := exists_of_basedRun hbased
        obtain ⟨rfl, -⟩ := List.cons.inj heq
        have hd := hdigits d List.mem_cons_self
        exact absurd ((isDigit_of_mark hbase).symm.trans hd) Bool.false_ne_true
    · rw [hlength]
      exact length_le_takeWhile hdigits (List.prefix_append v rest)

theorem IsLexeme.length_le (h : IsLexeme (c :: v)) : v.length ≤ (lexeme c cs).2 := by
  cases h with
  | literal h => exact h.length_le hv
  | shift hc =>
    obtain ⟨rest, rfl⟩ := hv
    rw [List.singleton_append, lexeme_shift hc]
    exact Nat.le_refl 1
  | name hc hname =>
    rw [lexeme_name hc]
    exact length_le_takeWhile hname hv
  | other => exact Nat.zero_le _

end

/-- What the rule takes of the text that starts with a character. -/
inductive Taken (c : Char) (cs : List Char) : TokenKind × Nat → Prop
  | admitted {kind : TokenKind} {n : Nat} : kind ∈ [.number, .operator, .parenthesis] →
      IsAdmitted (c :: cs.take n) → IsLexeme (c :: cs.take n) → Taken c cs (kind, n)
  | refused {n : Nat} : ¬ IsAdmitted (c :: cs.take n) → IsLexeme (c :: cs.take n) →
      Taken c cs (.unknown, n)

theorem taken_of_digit {c : Char} (hc : isDigit c = true) (cs : List Char) :
    Taken c cs (lexeme c cs) := by
  have hliteral := isLiteral_take hc cs
  have hkind : (lexeme c cs).1 = if isAsciiDigit c then .number else .unknown := by
    rw [lexeme, if_pos hc]
  generalize lexeme c cs = l at hliteral hkind ⊢
  obtain ⟨kind, n⟩ := l
  obtain rfl : kind = _ := hkind
  split_ifs with hascii
  · exact .admitted (by simp) (.inl ⟨hliteral, hascii⟩) (.literal hliteral)
  · have hheads : ∀ w ∈ admittedSigns, w.head?.any isDigit = false := by decide
    have hsigns : c :: cs.take n ∉ admittedSigns := fun h =>
      Bool.false_ne_true ((hheads _ h).symm.trans hc)
    exact .refused (not_isAdmitted (Bool.eq_false_iff.2 hascii) hsigns) (.literal hliteral)

theorem taken_lexeme {c : Char} (hc : isBlank c = false) (cs : List Char) :
    Taken c cs (lexeme c cs) := by
  by_cases hdigit : isDigit c = true
  · exact taken_of_digit hdigit cs
  have hascii : isAsciiDigit c = false :=
    Bool.eq_false_iff.2 fun h => hdigit (isDigit_of_ascii h)
  rw [lexeme, if_neg hdigit]
  split_ifs with hshift hsign hparen hname
  · obtain ⟨hfirst, hsecond⟩ := Bool.and_eq_true_iff.1 hshift
    obtain ⟨rest, rfl⟩ := List.head?_eq_some_iff.1 (beq_iff_eq.1 hsecond)
    have hmem : c ∈ ['<', '>'] := by simpa using hfirst
    have hshifts : ∀ d ∈ ['<', '>'], [d, d] ∈ admittedSigns := by decide
    exact .admitted (by simp) (.inr (hshifts c hmem)) (.shift hmem)
  · have hsigns : ∀ d ∈ ['&', '|', '^', '~'], [d] ∈ admittedSigns := by decide
    exact .admitted (by simp) (.inr (hsigns c (List.contains_iff_mem.1 hsign))) (.other hc)
  · have hmem : c ∈ ['(', ')'] := by simpa using hparen
    have hparens : ∀ d ∈ ['(', ')'], [d] ∈ admittedSigns := by decide
    exact .admitted (by simp) (.inr (hparens c hmem)) (.other hc)
  · have hheads : ∀ w ∈ admittedSigns,
        w.head?.any (fun d => isAsciiLower d || d == '_') = false := by decide
    refine .refused (not_isAdmitted hascii fun h => ?_) (.name hname fun d hd => ?_)
    · exact Bool.false_ne_true ((hheads _ h).symm.trans hname)
    · rw [take_takeWhile] at hd
      exact List.mem_takeWhile_imp hd
  · refine .refused (not_isAdmitted hascii ?_) (.other hc)
    simp only [List.contains_iff_mem, Bool.or_eq_true, beq_iff_eq, not_or, List.mem_cons,
      List.not_mem_nil] at hsign hparen
    simp [admittedSigns, hsign, hparen]

/-- **The rule takes the longest lexeme that starts with a character.** -/
theorem longest_lexeme (c : Char) (cs : List Char) (hc : isBlank c = false) :
    Longest IsLexeme (c :: cs.take (lexeme c cs).2) (cs.drop (lexeme c cs).2) := by
  refine longest_take ?_ fun v h hv => h.length_le hv
  have htaken := taken_lexeme hc cs
  generalize lexeme c cs = l at htaken ⊢
  cases htaken with
  | admitted _ _ h => exact h
  | refused _ h => exact h

/-! ## Tokens -/

theorem settles_toToken {c : Char} {cs : List Char} {l : TokenKind × Nat} (h : Taken c cs l)
    (position : Nat) : Settles IsAdmitted ⟨l.1, c :: cs.take l.2, position⟩
      (toToken ⟨l.1, c :: cs.take l.2, position⟩) := by
  cases h with
  | admitted hkind hadmitted =>
    simp only [List.mem_cons, List.not_mem_nil, or_false] at hkind
    rcases hkind with rfl | rfl | rfl <;> exact ⟨hadmitted, Slice.piece_token _ _⟩
  | refused hrefused => exact ⟨hrefused, rfl⟩

/-- **An expression is cut into its longest lexemes**, and the first of them that is not admitted
is named. -/
theorem scans_tokenize (cs : List Char) : Scans IsLexeme IsAdmitted cs (tokenize cs) :=
  scans_mapM (fun _ _ => IsLexeme.not_blank) longest_lexeme
    (fun _ cs position hc => settles_toToken (taken_lexeme hc cs) position) cs

-- without a digit after it, the mark of a base is no part of the literal
example : tokenize "0x".toList = .error (.unknownToken "x") := by decide +kernel

end Reckoner.Logic.Bitwise
