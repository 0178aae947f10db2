/-
  The lexemes of arithmetic, apart from how they are found.

  * `IsNumber`, `IsLexeme`: numbers, names, and any other character by itself; `IsAdmitted`:
    numbers, names of functions, operators, parentheses and commas;
  * `longest_lexeme`: the rule takes the longest lexeme where it starts;
  * `scans_tokenize`: **an expression is cut into its longest lexemes, and the first of them that
    is not admitted is named**.
-/
import Reckoner.Proofs.Arithmetic.Names
import Reckoner.Proofs.Text.Tiling

namespace Reckoner.Arithmetic

open Text

/-! ## Lexemes -/

/-- Digits of any script. -/
def Digits (w : List Char) : Prop := ∀ c ∈ w, isDigit c = true

/-- Digits, with a point after, between or before them. -/
def IsNumber (w : List Char) : Prop :=
  ∃ whole fraction : List Char, Digits whole ∧ Digits fraction ∧
    (w = whole ∧ whole ≠ [] ∨ w = whole ++ '.' :: fraction ∧ whole ++ fraction ≠ [])

/-- A number, a name, or any other character that is not blank. -/
inductive IsLexeme : List Char → Prop
  | number {w : List Char} : IsNumber w → IsLexeme w
  | name {w : List Char} : IsName w → IsLexeme w
  | other {c : Char} : isBlank c = false → IsLexeme [c]

/-- The signs that stand by themselves. -/
def loneSigns : List Char := operatorChars ++ ['(', ')', ',']

/-- What an expression may be made of. -/
def IsAdmitted (w : List Char) : Prop :=
  IsNumber w ∨ w ∈ functionWords ∨ ∃ c ∈ loneSigns, w = [c]

theorem isNumber_cons {c : Char} {v : List Char} : IsNumber (c :: v) ↔
    isDigit c = true ∧ (Digits v ∨ ∃ w f, v = w ++ '.' :: f ∧ Digits w ∧ Digits f) ∨
      c = '.' ∧ v ≠ [] ∧ Digits v := by
  constructor
  · rintro ⟨whole, fraction, hwhole, hfraction, ⟨rfl, -⟩ | ⟨hw, hne⟩⟩
    · obtain ⟨hc, hv⟩ := List.forall_mem_cons.1 hwhole
      exact .inl ⟨hc, .inl hv⟩
    · cases whole with
      | nil =>
        obtain ⟨rfl, rfl⟩ := List.cons.inj hw
        exact .inr ⟨rfl, hne, hfraction⟩
      | cons d whole =>
        obtain ⟨rfl, rfl⟩ := List.cons.inj hw
        obtain ⟨hc, hwhole⟩ := List.forall_mem_cons.1 hwhole
        exact .inl ⟨hc, .inr ⟨whole, fraction, rfl, hwhole, hfraction⟩⟩
  · rintro (⟨hc, hv | ⟨w, f, rfl, hw, hf⟩⟩ | ⟨rfl, hne, hv⟩)
    · have hdigits : Digits (c :: v) := List.forall_mem_cons.2 ⟨hc, hv⟩
      exact ⟨c :: v, [], hdigits, nofun, .inl ⟨rfl, List.cons_ne_nil c v⟩⟩
    · have hdigits : Digits (c :: w) := List.forall_mem_cons.2 ⟨hc, hw⟩
      exact ⟨c :: w, f, hdigits, hf, .inr ⟨rfl, List.cons_ne_nil c _⟩⟩
    · exact ⟨[], v, nofun, hv, .inr ⟨rfl, hne⟩⟩

theorem IsLexeme.not_blank {c : Char} {w : List Char} (h : IsLexeme (c :: w)) :
    isBlank c = false := by
  cases h with
  | number h =>
    rcases isNumber_cons.1 h with ⟨hc, -⟩ | ⟨rfl, -⟩
    · exact isBlank_of_digit hc
    · rfl
  | name h => exact isBlank_of_word (h.isWordChar c List.mem_cons_self)
  | other hc => exact hc

/-! ## Numbers -/

theorem digits_take_digitRun (cs : List Char) : Digits (cs.take (digitRun cs)) := by
  intro c hc
  rw [take_digitRun] at hc
  exact List.mem_takeWhile_imp hc

theorem isNumber_numeralRun {c : Char} (hc : isDigit c = true) (cs : List Char) :
    IsNumber (c :: cs.take (numeralRun cs)) := by
  refine isNumber_cons.2 (.inl ⟨hc, ?_⟩)
  unfold numeralRun
  dsimp only
  split
  · next rest hrest =>
    rw [Nat.add_assoc, List.take_add, hrest, Nat.add_comm 1, List.take_succ_cons]
    exact .inr ⟨_, _, rfl, digits_take_digitRun cs, digits_take_digitRun rest⟩
  · exact .inl (digits_take_digitRun cs)

theorem digitRun_le_numeralRun (cs : List Char) : digitRun cs ≤ numeralRun cs := by
  unfold numeralRun
  dsimp only
  split <;> omega

theorem numeralRun_of_point {w f rest : List Char} (hw : Digits w) (hf : Digits f) :
    (w ++ '.' :: f).length ≤ numeralRun (w ++ '.' :: f ++ rest) := by
  have hrun : digitRun (w ++ '.' :: (f ++ rest)) = w.length := by
    rw [digitRun, List.takeWhile_append_of_pos hw, List.takeWhile_cons_of_neg (by decide),
      List.append_nil]
  have hfraction : f.length ≤ digitRun (f ++ rest) :=
    length_le_takeWhile hf (List.prefix_append f rest)
  simp only [List.append_assoc, List.cons_append, numeralRun, hrun, List.drop_left,
    List.length_append, List.length_cons]
  omega

/-! ## The rule -/

section
variable {c : Char}

theorem lexeme_of_digit (hc : isDigit c = true) (cs : List Char) :
    lexeme c cs = (.number, numeralRun cs) := by
  rw [lexeme, if_pos hc]

theorem lexeme_of_point {cs : List Char} (hcs : cs.head?.any isDigit = true) :
    lexeme '.' cs = (.number, digitRun cs) := by
  rw [lexeme, if_neg (by decide), hcs]
  rfl

variable {v cs : List Char} (hv : v <+: cs)
include hv

theorem IsNumber.length_le (h : IsNumber (c :: v)) : v.length ≤ (lexeme c cs).2 := by
  rcases isNumber_cons.1 h with ⟨hc, hdigits | ⟨w, f, rfl, hw, hf⟩⟩ | ⟨rfl, hne, hdigits⟩
  · rw [lexeme_of_digit hc]
    exact (length_le_takeWhile hdigits hv).trans (digitRun_le_numeralRun cs)
  · obtain ⟨rest, rfl⟩ := hv
    rw [lexeme_of_digit hc]
    exact numeralRun_of_point hw hf
  · have hhead : cs.head?.any isDigit = true := by
      obtain ⟨d, v, rfl⟩ := List.exists_cons_of_ne_nil hne
      obtain ⟨rest, rfl⟩ := hv
      exact hdigits d List.mem_cons_self
    rw [lexeme_of_point hhead]
    exact length_le_takeWhile hdigits hv

theorem IsName.length_le (h : IsName (c :: v)) : v.length ≤ (lexeme c cs).2 := by
  obtain ⟨_, _, heq, hc, hname⟩ := h
  obtain ⟨rfl, rfl⟩ := List.cons.inj heq
  rw [lexeme_of_lower hc]
  exact length_le_takeWhile hname hv

theorem IsLexeme.length_le (h : IsLexeme (c :: v)) : v.length ≤ (lexeme c cs).2 := by
  cases h with
  | number h => exact h.length_le hv
  | name h => exact h.length_le hv
  | other => exact Nat.zero_le _

end

/-- What the rule takes of the text that starts with a character. -/
inductive Taken (c : Char) (cs : List Char) : TokenKind × Nat → Prop
  | number {n : Nat} : IsNumber (c :: cs.take n) → Taken c cs (.number, n)
  | name {n : Nat} : IsName (c :: cs.take n) → Taken c cs (.function, n)
  | sign {kind : TokenKind} : c ∈ loneSigns → kind ∈ [.operator, .parenthesis, .comma] →
      Taken c cs (kind, 0)
  | unknown : c ∉ loneSigns → ¬ IsNumber [c] → isAsciiLower c = false →
      Taken c cs (.unknown, 0)

theorem taken_lexeme (c : Char) (cs : List Char) : Taken c cs (lexeme c cs) := by
  unfold lexeme
  split_ifs with hdigit hpoint hoperator hparen hcomma hlower
  · exact .number (isNumber_numeralRun hdigit cs)
  · obtain ⟨hc, hhead⟩ := Bool.and_eq_true_iff.1 hpoint
    refine .number (isNumber_cons.2 (.inr ⟨beq_iff_eq.1 hc, ?_, digits_take_digitRun cs⟩))
    cases cs with
    | nil => cases hhead
    | cons d cs =>
      have hd : isDigit d = true := hhead
      simp [digitRun, hd]
  · exact .sign (List.mem_append_left _ (List.contains_iff_mem.1 hoperator)) (by simp)
  · refine .sign (List.mem_append_right _ ?_) (by simp)
    rcases Bool.or_eq_true_iff.1 hparen with hc | hc <;> simp [beq_iff_eq.1 hc]
  · exact .sign (List.mem_append_right _ (by simp [beq_iff_eq.1 hcomma])) (by simp)
  · refine .name ⟨c, _, rfl, hlower, fun d hd => ?_⟩
    rw [take_takeWhile] at hd
    have hname := List.mem_takeWhile_imp hd
    exact hname
  · refine .unknown ?_ (fun h => ?_) (Bool.eq_false_iff.2 hlower)
    · rw [List.contains_iff_mem] at hoperator
      simp only [Bool.or_eq_true, beq_iff_eq, not_or] at hparen hcomma
      simp [loneSigns, hoperator, hparen, hcomma]
    · rcases isNumber_cons.1 h with ⟨hc, -⟩ | ⟨-, hne, -⟩
      · exact hdigit hc
      · exact hne rfl

/-- **The rule takes the longest lexeme that starts with a character.** -/
theorem longest_lexeme (c : Char) (cs : List Char) (hc : isBlank c = false) :
    Longest IsLexeme (c :: cs.take (lexeme c cs).2) (cs.drop (lexeme c cs).2) := by
  refine longest_take ?_ fun v h hv => h.length_le hv
  have htaken := taken_lexeme c cs
  generalize lexeme c cs = l at htaken ⊢
  cases htaken with
  | number h => exact .number h
  | name h => exact .name h
  | sign => exact .other hc
  | unknown => exact .other hc

/-! ## Tokens -/

theorem not_functionWord {c : Char} {w : List Char} (hc : isAsciiLower c = false) :
    c :: w ∉ functionWords := by
  have hwords : ∀ v ∈ functionWords, v.head?.all isAsciiLower = true := by decide
  intro h
  have hlower : isAsciiLower c = true := hwords _ h
  exact Bool.false_ne_true (hc.symm.trans hlower)

/-- A name is admitted if it is that of a function. -/
theorem IsName.isAdmitted_iff {w : List Char} (h : IsName w) :
    IsAdmitted w ↔ w ∈ functionWords := by
  obtain ⟨c, cs, rfl, hc, -⟩ := h
  refine ⟨?_, fun h => .inr (.inl h)⟩
  rintro (h | h | ⟨d, hd, heq⟩)
  · rcases isNumber_cons.1 h with ⟨hdigit, -⟩ | ⟨rfl, -⟩
    · exact absurd ((isDigit_of_lower hc).symm.trans hdigit) Bool.false_ne_true
    · exact absurd hc (by decide)
  · exact h
  · have hsigns : ∀ d ∈ loneSigns, isAsciiLower d = false := by decide
    obtain ⟨rfl, -⟩ := List.cons.inj heq
    exact absurd ((hsigns c hd).symm.trans hc) Bool.false_ne_true

theorem mem_functionWords_iff {w : List Char} :
    w ∈ functionWords ↔ (Function.ofName? (String.ofList w)).isSome := by
  unfold functionWords Function.ofName?
  rw [List.mem_map, List.find?_isSome]
  refine exists_congr fun f => and_congr_right fun _ => ?_
  rw [beq_iff_eq]
  constructor
  · rintro rfl
    exact String.ofList_toList.symm
  · intro h
    rw [h, String.toList_ofList]

theorem settles_toToken {c : Char} {cs : List Char} {l : TokenKind × Nat} (h : Taken c cs l)
    (position : Nat) : Settles IsAdmitted ⟨l.1, c :: cs.take l.2, position⟩
      (toToken ⟨l.1, c :: cs.take l.2, position⟩) := by
  cases h with
  | number h => exact ⟨.inl h, Slice.piece_token _ _⟩
  | name h =>
    unfold toToken
    dsimp only
    split_ifs with hfunction
    · exact ⟨h.isAdmitted_iff.2 (mem_functionWords_iff.2 hfunction), Slice.piece_token _ _⟩
    · exact ⟨fun hw => hfunction (mem_functionWords_iff.1 (h.isAdmitted_iff.1 hw)), rfl⟩
  | sign hc hkind =>
    have hadmitted : IsAdmitted [c] := .inr (.inr ⟨c, hc, rfl⟩)
    simp only [List.mem_cons, List.not_mem_nil, or_false] at hkind
    rcases hkind with rfl | rfl | rfl <;> exact ⟨hadmitted, Slice.piece_token _ _⟩
  | unknown hc hnumber hlower =>
    refine ⟨?_, rfl⟩
    rintro (h | h | ⟨d, hd, heq⟩)
    · exact hnumber h
    · exact not_functionWord hlower h
    · obtain ⟨rfl, -⟩ := List.cons.inj heq
      exact hc hd

/-- **An expression is cut into its longest lexemes**, and the first of them that is not admitted
is named. -/
theorem scans_tokenize (cs : List Char) : Scans IsLexeme IsAdmitted cs (tokenize cs) :=
  scans_mapM (fun _ _ => IsLexeme.not_blank) longest_lexeme
    (fun c cs position _ => settles_toToken (taken_lexeme c cs) position) cs

end Reckoner.Arithmetic
