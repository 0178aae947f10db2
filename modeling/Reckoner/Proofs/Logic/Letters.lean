/-
  What a logic expression that has a value is written with.

  * `Boolean.covered_of_evaluate`, `Boolean.signs_of_evaluate`: letters belong to the words of
    logic, and the rest are digits, connectives and parentheses;
  * `Bitwise.chars_of_evaluate`, `Bitwise.first_letter`: letters are digits or marks of a base,
    and a mark comes first;
  * `Comparison.chars_of_evaluate`: there are no letters;
  * `Logic.letters_of_evaluate`, `Logic.starts_of_evaluate`: **letters lie in words of logic or
    are those of literals, and the first of them start one**.
-/
import Reckoner.Logic
import Reckoner.Proofs.Logic.BitGrammar
import Reckoner.Proofs.Logic.Comparison
import Reckoner.Proofs.Text.Covered

namespace Reckoner.Logic

open Text

/-! ## Boolean expressions -/

namespace Boolean

/-- The words of logic. -/
def logicWords : List (List Char) := words.map fun w => w.1.toList

/-- What is left when words have given way: digits, connectives and parentheses. -/
def signs : List Char := ['1', '0', '(', ')', '|', '&', '^', '!']

theorem signs_of_step {s s' : State} {l : String} (h : step s l = .ok s') :
    ∀ c ∈ l.toList, c ∈ signs := by
  have hsymbols : ∀ op ∈ [Connective.or, .nor, .xor, .xnor, .and, .nand, .not],
      ∀ c ∈ op.symbol.toList, c ∈ signs := by
    decide
  unfold step at h
  split at h
  · next hone =>
    rw [beq_iff_eq.1 hone]
    decide
  split at h
  · next hzero =>
    rw [beq_iff_eq.1 hzero]
    decide
  split at h
  · next hopen =>
    rw [beq_iff_eq.1 hopen]
    decide
  split at h
  · next hclose =>
    rw [beq_iff_eq.1 hclose]
    decide
  cases hop : Connective.ofSymbol? l with
  | none =>
    rw [hop] at h
    cases h
  | some op =>
    unfold Connective.ofSymbol? at hop
    have hsymbol := List.find?_some hop
    rw [← beq_iff_eq.1 hsymbol]
    exact hsymbols op (List.mem_of_find?_eq_some hop)

section
variable {cs : List Char} {v : Bool} (h : evaluate cs = .ok v)
include h

theorem signs_of_substituted : ∀ c ∈ substituteWords cs, isBlank c = false → c ∈ signs := by
  intro c hc hblank
  obtain ⟨s, hs, -⟩ := ok_of_bind h
  obtain ⟨slice, hslice, hmem⟩ := @Slice.mem_cut _ isBlank lexeme c _ hc hblank 0
  obtain ⟨s₁, s₂, hstep⟩ := ok_of_foldlM hs _ (List.mem_map_of_mem hslice)
  refine signs_of_step hstep c ?_
  rwa [String.toList_ofList]

/-- All letters belong to the words of logic. -/
theorem covered_of_evaluate : Covered logicWords cs := by
  have hsigns : ∀ c ∈ signs, isAsciiLower c = false := by decide
  have hwords : ∀ w ∈ words, ∀ c ∈ w.1.toList, isWordChar c = true := by decide
  have hnone : ∀ c ∈ substituteWords cs, isAsciiLower c = false := by
    intro c hc
    rw [Bool.eq_false_iff]
    intro hlower
    have hsign := signs_of_substituted h c hc (isBlank_of_lower hlower)
    exact Bool.false_ne_true ((hsigns c hsign).symm.trans hlower)
  have hcovered : Covered (logicWords ++ []) cs :=
    Covered.of_replaceWords hwords nofun (.of_no_letters hnone)
  rwa [List.append_nil] at hcovered

/-- All that is neither blank nor a letter is a digit, a connective or a parenthesis. -/
theorem signs_of_evaluate :
    ∀ c ∈ cs, isBlank c = false → isAsciiLower c = true ∨ c ∈ signs := by
  intro c hc hblank
  have hwords : ∀ w ∈ words, ∀ c ∈ w.1.toList, isAsciiLower c = true := by decide
  cases hlower : isAsciiLower c with
  | true => exact .inl rfl
  | false =>
    have hout : ∀ w ∈ words, c ∉ w.1.toList := by
      intro w hw hmem
      exact Bool.false_ne_true (hlower.symm.trans (hwords w hw c hmem))
    exact .inr (signs_of_substituted h c (mem_replaceWords hc hout) hblank)

end

end Boolean

/-! ## Bitwise expressions -/

namespace Bitwise

/-- The letters of literals: the marks of the bases, and the digits above nine. -/
def letters : List Char := ['b', 'o', 'x', 'a', 'c', 'd', 'e', 'f']

/-- The signs of bitwise operators, and parentheses. -/
def signs : List Char := ['<', '>', '&', '|', '^', '~', '(', ')']

theorem mem_letters_of_baseDigit {base : Nat} {c : Char} (h : isBaseDigit base c = true) :
    isDigit c = true ∨ c ∈ letters := by
  unfold isBaseDigit at h
  split at h
  · next hdigit => exact .inl (isDigit_of_ascii hdigit)
  · right
    simp only [Bool.and_eq_true, decide_eq_true_eq] at h
    have hfirst : 97 ≤ c.toNat := UInt32.le_iff_toNat_le.1 h.1.2
    have hlast : c.toNat ≤ 102 := UInt32.le_iff_toNat_le.1 h.2
    have hall : ∀ n < 103, 97 ≤ n → Char.ofNat n ∈ letters := by decide
    have hc := hall c.toNat (by omega) hfirst
    rwa [Char.ofNat_toNat] at hc

theorem mem_letters_of_baseOf? {c : Char} {base : Nat} (h : baseOf? c = some base) :
    c ∈ ['b', 'o', 'x'] := by
  unfold baseOf? at h
  split_ifs at h with hb ho hx
  · exact beq_iff_eq.1 hb ▸ List.mem_cons_self
  · rw [beq_iff_eq.1 ho]
    decide
  · rw [beq_iff_eq.1 hx]
    decide

/-- After `0` a mark and digits may follow. -/
theorem exists_of_basedRun {b : List Char} (h : basedRun b ≠ 0) :
    ∃ mark rest base, b = mark :: rest ∧ baseOf? mark = some base ∧
      rest.takeWhile (isBaseDigit base) ≠ [] ∧
      b.take (basedRun b) = mark :: rest.takeWhile (isBaseDigit base) := by
  cases b with
  | nil => exact absurd rfl h
  | cons mark rest =>
    rw [basedRun] at h ⊢
    cases hbase : baseOf? mark with
    | none =>
      rw [hbase] at h
      exact absurd rfl h
    | some base =>
      rw [hbase] at h
      dsimp only at h ⊢
      split at h
      · exact absurd rfl h
      · next hdigits =>
        rw [if_neg hdigits, List.take_succ_cons, take_takeWhile]
        exact ⟨mark, rest, base, rfl, hbase, mt List.length_eq_zero_iff.2 hdigits, rfl⟩

theorem take_basedRun {b : List Char} (h : basedRun b ≠ 0) : ∃ mark rest, b = mark :: rest ∧
    mark ∈ ['b', 'o', 'x'] ∧
    ∀ c ∈ b.take (basedRun b), isDigit c = true ∨ c ∈ letters := by
  have hsub : ∀ c ∈ ['b', 'o', 'x'], c ∈ letters := by decide
  obtain ⟨mark, rest, base, hb, hbase, -, htake⟩ := exists_of_basedRun h
  have hmark := mem_letters_of_baseOf? hbase
  rw [htake]
  refine ⟨mark, rest, hb, hmark, List.forall_mem_cons.2 ⟨.inr (hsub mark hmark), fun c hc => ?_⟩⟩
  exact mem_letters_of_baseDigit (List.mem_takeWhile_imp hc)

/-- What a literal in another base takes after `0`, or else the digits of a number. -/
theorem lexeme_digit {d : Char} (hd : isDigit d = true) (b : List Char) :
    (d = '0' ∧ basedRun b ≠ 0 ∧ (lexeme d b).2 = basedRun b) ∨
      (lexeme d b).2 = (b.takeWhile isDigit).length := by
  unfold lexeme
  rw [if_pos hd]
  dsimp only
  by_cases hbased : (if (d == '0') = true then basedRun b else 0) = 0
  · rw [if_pos hbased]
    exact .inr rfl
  · rw [if_neg hbased]
    split at hbased
    · next hzero =>
      rw [if_pos hzero]
      exact .inl ⟨beq_iff_eq.1 hzero, hbased, rfl⟩
    · exact absurd rfl hbased

/-- A token takes digits, letters of literals and signs only. -/
theorem lexeme_chars {d : Char} {b : List Char} (h : (lexeme d b).1 ≠ .unknown) :
    ∀ c ∈ d :: b.take (lexeme d b).2, isDigit c = true ∨ c ∈ letters ∨ c ∈ signs := by
  cases hd : isDigit d with
  | true =>
    refine List.forall_mem_cons.2 ⟨.inl hd, fun c hc => ?_⟩
    rcases lexeme_digit hd b with ⟨-, hbased, hlength⟩ | hlength
    · rw [hlength] at hc
      obtain ⟨_, _, -, -, hchars⟩ := take_basedRun hbased
      exact (hchars c hc).imp_right .inl
    · rw [hlength, take_takeWhile] at hc
      exact .inl (List.mem_takeWhile_imp hc)
  | false =>
    unfold lexeme at h ⊢
    rw [if_neg (Bool.eq_false_iff.1 hd)] at h ⊢
    split_ifs at h ⊢ with hshift hsign hparen hname
    · obtain ⟨hfirst, hsecond⟩ := Bool.and_eq_true_iff.1 hshift
      have hmem : d ∈ signs := by
        rcases Bool.or_eq_true_iff.1 hfirst with hd | hd
        · exact beq_iff_eq.1 hd ▸ List.mem_cons_self
        · rw [beq_iff_eq.1 hd]
          decide
      refine List.forall_mem_cons.2 ⟨.inr (.inr hmem), fun c hc => ?_⟩
      cases b with
      | nil => exact absurd hc List.not_mem_nil
      | cons e b =>
        obtain rfl : e = d := Option.some.inj (beq_iff_eq.1 hsecond)
        rw [List.take_succ_cons, List.take_zero, List.mem_singleton] at hc
        exact .inr (.inr (hc ▸ hmem))
    · have hsub : ∀ c ∈ ['&', '|', '^', '~'], c ∈ signs := by decide
      exact List.forall_mem_singleton.2 (.inr (.inr (hsub d (List.contains_iff_mem.1 hsign))))
    · refine List.forall_mem_singleton.2 (.inr (.inr ?_))
      rcases Bool.or_eq_true_iff.1 hparen with hd | hd
      · rw [beq_iff_eq.1 hd]
        decide
      · rw [beq_iff_eq.1 hd]
        decide
    · exact absurd rfl h
    · exact absurd rfl h

theorem lexeme_of_lower {c : Char} (hc : isAsciiLower c = true) (cs : List Char) :
    (lexeme c cs).1 = .unknown := by
  have hsigns : ∀ d ∈ ['<', '>', '&', '|', '^', '~', '(', ')'], c ≠ d :=
    ne_signs_of_lower hc rfl
  simp only [List.forall_mem_cons] at hsigns
  simp [lexeme, isDigit_of_lower hc, hc, hsigns]

theorem tag_of_toToken {s : Slice TokenKind} {t : Token} (h : toToken s = .ok t) :
    s.tag ≠ .unknown := by
  intro htag
  rw [toToken, htag] at h
  cases h

section
variable {cs : List Char} {v : Int64} (h : evaluate cs = .ok v)
include h

/-- All that is not blank is a digit, a letter of a literal or a sign. -/
theorem chars_of_evaluate :
    ∀ c ∈ cs, isBlank c = false → isDigit c = true ∨ c ∈ letters ∨ c ∈ signs := by
  intro c hc hblank
  obtain ⟨tokens, htokens, -⟩ := ok_of_bind h
  obtain ⟨s, hs, hmem⟩ := @Slice.mem_cut _ isBlank lexeme c cs hc hblank 0
  obtain ⟨t, ht⟩ := ok_of_mapM htokens s hs
  obtain ⟨d, b, -, htag, htext⟩ := Slice.eq_of_mem_cut hs
  have hknown := tag_of_toToken ht
  rw [htag] at hknown
  rw [htext] at hmem
  exact lexeme_chars hknown c hmem

end

/-- The first letter is the mark of a base, and not the first character. -/
theorem first_letter {pre rest : List Char} {c : Char} {v : Int64}
    (h : evaluate (pre ++ c :: rest) = .ok v) (hc : isAsciiLower c = true)
    (hpre : ∀ d ∈ pre, isAsciiLower d = false) : pre ≠ [] ∧ c ∈ ['b', 'o', 'x'] := by
  obtain ⟨tokens, htokens, -⟩ := ok_of_bind h
  have hdigit := isDigit_of_lower hc
  rcases @Slice.cut_at _ isBlank lexeme pre rest c (isBlank_of_lower hc) 0 with
    ⟨s, hs, htag, -⟩ | ⟨a, d, mid, rfl, hmid, s, hs, htag, -⟩
  · obtain ⟨t, ht⟩ := ok_of_mapM htokens s hs
    rw [lexeme_of_lower hc] at htag
    exact absurd htag (tag_of_toToken ht)
  · -- the letter belongs to a number, where only a mark can be the first one
    refine ⟨List.append_ne_nil_of_right_ne_nil a (List.cons_ne_nil d mid), ?_⟩
    obtain ⟨t, ht⟩ := ok_of_mapM htokens s hs
    have hknown := tag_of_toToken ht
    rw [htag] at hknown
    have hdlower : isAsciiLower d = false := hpre d (by simp)
    cases hd : isDigit d with
    | true =>
      rcases lexeme_digit hd (mid ++ c :: rest) with ⟨-, hbased, -⟩ | hlength
      · obtain ⟨mark, _, heq, hmark, -⟩ := take_basedRun hbased
        cases mid with
        | nil =>
          obtain ⟨rfl, -⟩ := List.cons.inj heq
          exact hmark
        | cons e mid =>
          obtain ⟨rfl, -⟩ := List.cons.inj heq
          have hletters : ∀ m ∈ ['b', 'o', 'x'], isAsciiLower m = true := by decide
          have helower : isAsciiLower e = false := hpre e (by simp)
          exact absurd (helower.symm.trans (hletters e hmark)) Bool.false_ne_true
      · rw [hlength] at hmid
        exact absurd (hdigit.symm.trans (takeWhile_reaches hmid).2) Bool.false_ne_true
    | false =>
      unfold lexeme at hmid hknown
      rw [if_neg (Bool.eq_false_iff.1 hd)] at hmid hknown
      split_ifs at hmid hknown with hshift hsign hparen hname
      · obtain ⟨hfirst, hsecond⟩ := Bool.and_eq_true_iff.1 hshift
        obtain rfl := List.length_eq_zero_iff.1 (Nat.lt_one_iff.1 hmid)
        obtain rfl : c = d := Option.some.inj (beq_iff_eq.1 hsecond)
        exact absurd (hdlower.symm.trans hc) Bool.false_ne_true
      · exact absurd hmid (Nat.not_lt_zero _)
      · exact absurd hmid (Nat.not_lt_zero _)
      · exact absurd rfl hknown
      · exact absurd rfl hknown

theorem infix_of_hasDouble {needle : Char} {cs : List Char} (h : hasDouble needle cs = true) :
    [needle, needle] <:+: cs := by
  induction cs with
  | nil => cases h
  | cons c cs ih =>
    rw [hasDouble, Bool.or_eq_true, Bool.and_eq_true, beq_iff_eq, beq_iff_eq] at h
    rcases h with ⟨rfl, hhead⟩ | h
    · obtain ⟨rest, rfl⟩ := List.head?_eq_some_iff.1 hhead
      exact ⟨[], rest, rfl⟩
    · exact (ih h).trans (List.suffix_cons c cs).isInfix

theorem mem_of_hasDouble {needle : Char} {cs : List Char} (h : hasDouble needle cs = true) :
    needle ∈ cs :=
  (infix_of_hasDouble h).subset List.mem_cons_self

theorem mem_of_hasSingle {needle : Char} {before : Option Char} {cs : List Char}
    (h : hasSingle needle before cs = true) : needle ∈ cs := by
  induction cs generalizing before with
  | nil => cases h
  | cons c cs ih =>
    rw [hasSingle, Bool.or_eq_true, Bool.and_eq_true, Bool.and_eq_true, beq_iff_eq] at h
    rcases h with ⟨⟨rfl, -⟩, -⟩ | h
    · exact List.mem_cons_self
    · exact List.mem_cons_of_mem c (ih h)

/-- A bitwise expression has a sign of its own. -/
theorem exists_sign {cs : List Char} (h : isBitwise cs = true) :
    ∃ c ∈ cs, c ∈ ['<', '>', '~', '^', '&', '|'] := by
  simp only [isBitwise, Bool.or_eq_true, List.contains_iff_mem] at h
  rcases h with ((((h | h) | h) | h) | h) | h
  · exact ⟨_, mem_of_hasDouble h, by decide⟩
  · exact ⟨_, mem_of_hasDouble h, by decide⟩
  · exact ⟨_, h, by decide⟩
  · exact ⟨_, h, by decide⟩
  · exact ⟨_, mem_of_hasSingle h, by decide⟩
  · exact ⟨_, mem_of_hasSingle h, by decide⟩

end Bitwise

/-! ## Comparisons -/

namespace Comparison

/-- The signs of comparisons. -/
def signs : List Char := ['-', '+', '.', '=', '!', '<', '>']

/-- All that is not blank is a digit or a sign. -/
theorem IsComparison.chars {cs left right : List Char} {sign : String}
    (h : IsComparison IsOperand cs left sign right) :
    ∀ c ∈ cs, isBlank c = false → isDigit c = true ∨ c ∈ signs := by
  obtain ⟨⟨bs, bs', rfl, hbs⟩, hsign, hleft, hright⟩ := h
  have hmarks := (marks_of_sign sign hsign).2
  have hblank : ∀ b ∈ bs ++ bs', isBlank b = false → isDigit b = true ∨ b ∈ signs :=
    fun b hb hnot => absurd (hbs b hb) (Bool.eq_false_iff.1 hnot)
  have hoperand : ∀ {p : List Char}, IsOperand p →
      ∀ c ∈ p, isBlank c = false → isDigit c = true ∨ c ∈ signs :=
    fun hp c hc _ => (hp.chars c hc).imp_right (List.mem_append_left marks)
  rw [List.forall_mem_append] at hblank
  simp only [List.forall_mem_append]
  exact ⟨⟨⟨⟨hoperand hleft, hblank.1⟩, fun c hc _ => .inr (List.mem_append_right ['-', '+', '.']
    (mem_of_mark (hmarks c hc)))⟩, hblank.2⟩, hoperand hright⟩

theorem chars_of_evaluate {cs : List Char} {v : Bool} (h : evaluate cs = .ok v) :
    ∀ c ∈ cs, isBlank c = false → isDigit c = true ∨ c ∈ signs := by
  obtain ⟨left, sign, right, hform⟩ := exists_value_iff.1 ⟨v, h⟩
  obtain ⟨bs, bs', hcs, hbs, hbs'⟩ := exists_trim cs
  rw [hcs]
  simp only [List.forall_mem_append]
  exact ⟨⟨fun b hb hnot => absurd (hbs b hb) (Bool.eq_false_iff.1 hnot), hform.operands.chars⟩,
    fun b hb hnot => absurd (hbs' b hb) (Bool.eq_false_iff.1 hnot)⟩

theorem exists_sign {cs : List Char} (h : isComparison cs = true) :
    ∃ c ∈ cs, c ∈ ['<', '>', '='] := by
  induction cs with
  | nil => cases h
  | cons c cs ih =>
    simp only [isComparison, Bool.or_eq_true, Bool.and_eq_true, beq_iff_eq] at h
    rcases h with ((rfl | rfl) | ⟨-, h⟩) | h
    · exact ⟨_, List.mem_cons_self, by decide⟩
    · exact ⟨_, List.mem_cons_self, by decide⟩
    · exact ⟨_, List.mem_cons_of_mem c (List.mem_of_mem_head? h), by decide⟩
    · obtain ⟨d, hd, hsign⟩ := ih h
      exact ⟨d, List.mem_cons_of_mem c hd, hsign⟩

end Comparison

/-! ## Logic -/

/-- The signs of logic of all kinds. -/
def signs : List Char := Boolean.signs ++ Bitwise.signs ++ Comparison.signs

/-- Without any text an expression counts as boolean. -/
theorem ne_nil_of_detect {cs : List Char} (h : Mode.detect cs ≠ .boolean) : cs ≠ [] := by
  rintro rfl
  exact h (by decide)

/-- The answer follows from the canonical form, unless there is nothing in it. -/
theorem answer?_trimmed {q : String} (hne : canonical q.toList ≠ []) : answer? (trimmed q) =
    match Mode.detect (canonical q.toList) with
    | .bitwise => do
      return integerAnswer (trimmed q) (← Bitwise.evaluate (canonical q.toList))
    | .comparison => do
      return truthAnswer (trimmed q) (← Comparison.evaluate (canonical q.toList))
    | .boolean => do
      return truthAnswer (trimmed q) (← Boolean.evaluate (canonical q.toList)) := by
  have hfull : ¬ (trimmed q).isEmpty = true := by
    intro hempty
    rw [← canonical_trimmed, String.isEmpty_iff.1 hempty] at hne
    exact hne rfl
  cases hmode : Mode.detect (canonical q.toList) <;>
    simp only [answer?, if_neg hfull, canonical_trimmed, hmode]

section
variable {q : String} (h : (evaluate q).isError = false)
include h

/-- The expression has a value in one of the three modes. -/
theorem value_of_evaluate :
    (∃ v, Bitwise.evaluate (canonical q.toList) = .ok v ∧
      Bitwise.isBitwise (canonical q.toList) = true) ∨
    (∃ v, Comparison.evaluate (canonical q.toList) = .ok v ∧
      Comparison.isComparison (canonical q.toList) = true) ∨
    ∃ v, Boolean.evaluate (canonical q.toList) = .ok v := by
  simp only [evaluate] at h
  obtain ⟨a, h, -⟩ := ok_of_not_isError h
  unfold answer? at h
  dsimp only at h
  rw [canonical_trimmed] at h
  split at h
  · cases h
  · split at h
    · next hmode =>
      obtain ⟨v, hv, -⟩ := ok_of_bind h
      unfold Mode.detect at hmode
      split_ifs at hmode with hbitwise
      exact .inl ⟨v, hv, hbitwise⟩
    · next hmode =>
      obtain ⟨v, hv, -⟩ := ok_of_bind h
      unfold Mode.detect at hmode
      split_ifs at hmode with _ hcomparison
      exact .inr (.inl ⟨v, hv, hcomparison⟩)
    · obtain ⟨v, hv, -⟩ := ok_of_bind h
      exact .inr (.inr ⟨v, hv⟩)

/-- Without a sign of bitwise expressions or comparisons, the expression is boolean. -/
theorem boolean_of_evaluate
    (hsigns : ∀ c ∈ canonical q.toList, c ∉ ['<', '>', '~', '^', '&', '|', '=']) :
    ∃ v, Boolean.evaluate (canonical q.toList) = .ok v := by
  rcases value_of_evaluate h with ⟨v, -, hmode⟩ | ⟨v, -, hmode⟩ | hv
  · obtain ⟨c, hc, hsign⟩ := Bitwise.exists_sign hmode
    have hsub : ∀ c ∈ ['<', '>', '~', '^', '&', '|'], c ∈ ['<', '>', '~', '^', '&', '|', '='] := by
      decide
    exact absurd (hsub c hsign) (hsigns c hc)
  · obtain ⟨c, hc, hsign⟩ := Comparison.exists_sign hmode
    have hsub : ∀ c ∈ ['<', '>', '='], c ∈ ['<', '>', '~', '^', '&', '|', '='] := by
      decide
    exact absurd (hsub c hsign) (hsigns c hc)
  · exact hv

/-- **Letters lie in words of logic or are those of literals.** -/
theorem letters_of_evaluate {w : List Char} (hw : w <:+: canonical q.toList) (hne : w ≠ [])
    (hlower : ∀ c ∈ w, isAsciiLower c = true) :
    (∃ word ∈ Boolean.logicWords, w <:+: word) ∨ ∀ c ∈ w, c ∈ Bitwise.letters := by
  have hchar : ∀ c ∈ w, isAsciiLower c = true ∧ isBlank c = false ∧ isDigit c = false ∧
      c ∈ canonical q.toList := fun c hc =>
    ⟨hlower c hc, isBlank_of_lower (hlower c hc), isDigit_of_lower (hlower c hc), hw.subset hc⟩
  rcases value_of_evaluate h with ⟨v, hv, -⟩ | ⟨v, hv, -⟩ | ⟨v, hv⟩
  · right
    intro c hc
    obtain ⟨hc, hblank, hdigit, hmem⟩ := hchar c hc
    have hsigns : ∀ c ∈ Bitwise.signs, isAsciiLower c = false := by decide
    rcases Bitwise.chars_of_evaluate hv c hmem hblank with h | h | h
    · exact absurd (hdigit.symm.trans h) Bool.false_ne_true
    · exact h
    · exact absurd ((hsigns c h).symm.trans hc) Bool.false_ne_true
  · obtain ⟨c, hc⟩ := List.exists_mem_of_ne_nil w hne
    obtain ⟨hc, hblank, hdigit, hmem⟩ := hchar c hc
    have hsigns : ∀ c ∈ Comparison.signs, isAsciiLower c = false := by decide
    rcases Comparison.chars_of_evaluate hv c hmem hblank with h | h
    · exact absurd (hdigit.symm.trans h) Bool.false_ne_true
    · exact absurd ((hsigns c h).symm.trans hc) Bool.false_ne_true
  · exact .inl ((Boolean.covered_of_evaluate hv).exists_word hw hne hlower)

/-- **The first letters start a word of logic, or the mark of a base comes first**, which no
text starts with. -/
theorem starts_of_evaluate {pre w rest : List Char} (hcs : canonical q.toList = pre ++ w ++ rest)
    (hne : w ≠ []) (hlower : ∀ c ∈ w, isAsciiLower c = true)
    (hpre : ∀ d ∈ pre, isAsciiLower d = false) :
    (∃ word ∈ Boolean.logicWords, w <+: word ∧ word <+: w ++ rest) ∨
      (pre ≠ [] ∧ ∃ c ∈ w.take 1, c ∈ ['b', 'o', 'x']) := by
  rcases value_of_evaluate h with ⟨v, hv, -⟩ | ⟨v, hv, -⟩ | ⟨v, hv⟩
  · right
    obtain ⟨c, w, rfl⟩ := List.exists_cons_of_ne_nil hne
    rw [hcs, List.append_assoc, List.cons_append] at hv
    obtain ⟨hpre, hc⟩ := Bitwise.first_letter hv (hlower c List.mem_cons_self) hpre
    exact ⟨hpre, c, List.mem_cons_self, hc⟩
  · obtain ⟨c, hc⟩ := List.exists_mem_of_ne_nil w hne
    have hmem : c ∈ canonical q.toList :=
      hcs ▸ List.mem_append_left rest (List.mem_append_right pre hc)
    have hsigns : ∀ c ∈ Comparison.signs, isAsciiLower c = false := by decide
    rcases Comparison.chars_of_evaluate hv c hmem (isBlank_of_lower (hlower c hc)) with h | h
    · exact absurd ((isDigit_of_lower (hlower c hc)).symm.trans h) Bool.false_ne_true
    · exact absurd ((hsigns c h).symm.trans (hlower c hc)) Bool.false_ne_true
  · have hwords : ∀ word ∈ Boolean.logicWords, word.head?.all isAsciiLower = true := by decide
    have hcovered := Boolean.covered_of_evaluate hv
    rw [hcs] at hcovered
    exact .inl (hcovered.exists_prefix hne hlower hpre hwords)

/-- All that is not blank is a word character or a sign of logic. -/
theorem signs_of_evaluate :
    ∀ c ∈ canonical q.toList, isBlank c = false →
      isDigit c = true ∨ isAsciiLower c = true ∨ c ∈ signs := by
  intro c hc hblank
  rcases value_of_evaluate h with ⟨v, hv, -⟩ | ⟨v, hv, -⟩ | ⟨v, hv⟩
  · have hletters : ∀ c ∈ Bitwise.letters, isAsciiLower c = true := by decide
    rcases Bitwise.chars_of_evaluate hv c hc hblank with h | h | h
    · exact .inl h
    · exact .inr (.inl (hletters c h))
    · exact .inr (.inr (List.mem_append_left _ (List.mem_append_right _ h)))
  · rcases Comparison.chars_of_evaluate hv c hc hblank with h | h
    · exact .inl h
    · exact .inr (.inr (List.mem_append_right _ h))
  · rcases Boolean.signs_of_evaluate hv c hc hblank with h | h
    · exact .inr (.inl h)
    · exact .inr (.inr (List.mem_append_left _ (List.mem_append_left _ h)))

theorem kept_of_evaluate : ∀ c ∈ canonical q.toList, IsKept c := by
  have hsigns : ∀ c ∈ signs, c.toNat < 65 ∨ 90 < c.toNat ∧ c.toNat < 128 := by decide
  intro c hc
  cases hblank : isBlank c with
  | true => exact isKept_of_blank hblank
  | false =>
    rcases signs_of_evaluate h c hc hblank with hdigit | hlower | hsign
    · exact isKept_of_digit hdigit
    · exact isKept_of_lower hlower
    · have := hsigns c hsign
      exact isKept_of_ascii (by omega) (by omega)

end

end Reckoner.Logic
