/-
  The tokens of arithmetic that is accepted, as symbols.

  * `IsBased`: a literal in base 2, 8 or 16; `number_text`: a number is a numeral or one of these;
  * `Denotes`: a token stands for a symbol; `symbol_of_token`: **every token that the validator
    passes does, unless it is a literal in another base**;
  * `row_of_steps`: the symbols of an accepted row may stand one after another.
-/
import Reckoner.Proofs.Arithmetic.Rows
import Reckoner.Proofs.Expression.Lexer
import Reckoner.Proofs.Expression.Validate
import Reckoner.Proofs.Text.Covered

namespace Reckoner.Expression

open Text Arithmetic

/-! ## Numbers -/

/-- A literal in base 2, 8 or 16. -/
def IsBased (p : List Char) : Prop :=
  ∃ letter digits, p = '0' :: letter :: digits ∧ letter ∈ ['x', 'b', 'o'] ∧
    ∀ d ∈ digits, isWordChar d = true

theorem IsBased.not_blank {p : List Char} (h : IsBased p) : ∀ c ∈ p, isBlank c = false := by
  obtain ⟨letter, digits, rfl, hletter, hdigits⟩ := h
  have hletters : ∀ c ∈ ['x', 'b', 'o'], isBlank c = false := by decide
  refine List.forall_mem_cons.2 ⟨by decide, List.forall_mem_cons.2 ⟨hletters letter hletter, ?_⟩⟩
  exact fun d hd => isBlank_of_word (hdigits d hd)

theorem isWordChar_of_hexDigit {d : Char} (h : isHexDigit d = true) : isWordChar d = true := by
  simp only [isHexDigit, Bool.or_eq_true, Bool.and_eq_true, decide_eq_true_eq] at h
  rcases h with (hdigit | hlower) | hupper
  · exact isWordChar_of_digit (isDigit_of_ascii hdigit)
  · have hfirst : 97 ≤ d.toNat := UInt32.le_iff_toNat_le.1 hlower.1
    have hlast : d.toNat ≤ 102 := UInt32.le_iff_toNat_le.1 hlower.2
    exact isWordChar_of_lower (isAsciiLower_iff.2 ⟨hfirst, by omega⟩)
  · have hlast : d.toNat ≤ 70 := UInt32.le_iff_toNat_le.1 hupper.2
    have hletter : isAsciiLetter d = true := by
      have hle : d ≤ 'Z' := Char.le_trans hupper.2 (by decide)
      simp [isAsciiLetter, hupper.1, hle]
    rw [isWordChar, if_pos (by omega), hletter, Bool.true_or, Bool.true_or]

/-- What a base letter and the digits after it take. -/
theorem based_text {cs : List Char} (h : basedRun cs ≠ 0) :
    IsBased ('0' :: cs.take (basedRun cs)) := by
  cases cs with
  | nil => exact absurd rfl h
  | cons c cs =>
    have hdigit {base : Nat} (hbase : base ≤ 10) (d : Char)
        (hd : Logic.Bitwise.isBaseDigit base d = true) : isWordChar d = true :=
      isWordChar_of_digit (isBaseDigit_digit hbase hd)
    obtain ⟨p, hp, hletter, hrun⟩ : ∃ p : Char → Bool, (∀ d, p d = true → isWordChar d = true) ∧
        c ∈ ['x', 'b', 'o'] ∧ basedRun (c :: cs) = (cs.takeWhile p).length + 1 := by
      rw [basedRun] at h ⊢
      by_cases hx : c = 'x'
      · exact ⟨isHexDigit, fun _ => isWordChar_of_hexDigit, by simp [hx], by simp_all⟩
      by_cases hb : c = 'b'
      · exact ⟨Logic.Bitwise.isBaseDigit 2, hdigit (by omega), by simp [hb], by simp_all⟩
      by_cases ho : c = 'o'
      · exact ⟨Logic.Bitwise.isBaseDigit 8, hdigit (by omega), by simp [ho], by simp_all⟩
      simp [hx, hb, ho] at h
    rw [hrun, List.take_succ_cons, take_takeWhile]
    exact ⟨c, _, rfl, hletter, fun d hd => hp d (List.mem_takeWhile_imp hd)⟩

theorem fractionRun_cases (cs : List Char) : fractionRun cs = 0 ∨
    ∃ rest, cs = '.' :: rest ∧ rest.takeWhile isAsciiDigit ≠ [] ∧
      fractionRun cs = (rest.takeWhile isAsciiDigit).length + 1 := by
  unfold fractionRun
  split
  · next rest =>
    dsimp only
    split
    · exact .inl rfl
    · next hlength =>
      exact .inr ⟨rest, rfl, fun hnil => hlength (List.length_eq_zero_iff.2 hnil), rfl⟩
  · exact .inl rfl

/-- What a digit and the decimal number after it take. -/
theorem decimal_text {c : Char} (hc : isAsciiDigit c = true) (cs : List Char) :
    IsNumeral (c :: cs.take (decimalRun cs)) := by
  have hwhole : ∀ d ∈ c :: cs.takeWhile isAsciiDigit, isAsciiDigit d = true :=
    List.forall_mem_cons.2 ⟨hc, fun d hd => List.mem_takeWhile_imp hd⟩
  rw [decimalRun, List.take_add, take_takeWhile]
  generalize cs.drop (cs.takeWhile isAsciiDigit).length = rest
  rcases fractionRun_cases rest with hnone | ⟨rest, rfl, hne, hrun⟩
  · rw [hnone, List.take_zero, List.append_nil]
    exact ⟨_, [], hwhole, List.forall_mem_nil _, .inl ⟨rfl, List.cons_ne_nil _ _⟩⟩
  · rw [hrun, List.take_succ_cons, take_takeWhile]
    exact ⟨_, _, hwhole, fun d hd => List.mem_takeWhile_imp hd, .inr ⟨rfl, hne⟩⟩

/-- A number is a numeral, or a literal in another base. -/
theorem number_text {slash : Bool} {c : Char} {cs : List Char}
    (h : (lexeme slash c cs).1 = .number) :
    IsNumeral (c :: cs.take (lexeme slash c cs).2) ∨
      IsBased (c :: cs.take (lexeme slash c cs).2) := by
  unfold lexeme at h ⊢
  split_ifs at h ⊢ with hdigit hpoint
  · by_cases hbased : (c == '0') = true ∧ basedRun cs ≠ 0
    · obtain ⟨hc, hbased⟩ := hbased
      obtain rfl := beq_iff_eq.1 hc
      have hrun : numberRun '0' cs = basedRun cs := by simp [numberRun, hbased]
      rw [hrun]
      exact .inr (based_text hbased)
    · have hrun : numberRun c cs = decimalRun cs := by
        by_cases hc : (c == '0') = true <;> simp_all [numberRun]
      rw [hrun]
      exact .inl (decimal_text hdigit cs)
  · obtain ⟨hc, hdigits⟩ := Bool.and_eq_true_iff.1 hpoint
    obtain rfl := beq_iff_eq.1 hc
    refine .inl ⟨[], cs.takeWhile isAsciiDigit, List.forall_mem_nil _,
      fun d hd => List.mem_takeWhile_imp hd, .inr ⟨by rw [take_takeWhile]; rfl, ?_⟩⟩
    cases cs with
    | nil => cases hdigits
    | cons d cs =>
      have hd : isAsciiDigit d = true := hdigits
      simp [hd]

/-! ## Symbols -/

/-- The kind of the token of a symbol; constants have one of their own. -/
def lexedKind : Symbol → TokenKind
  | .constant _ _ => .identifier
  | s => s.kind

/-- The token stands for the symbol. -/
def Denotes (t : Token) (s : Symbol) : Prop :=
  t.kind = lexedKind s ∧ t.value = String.ofList s.text

/-- The token has a place in arithmetic. -/
def IsPart (t : Token) : Prop :=
  t.kind ∈ [.number, .identifier, .function, .parenthesis, .comma] ∨ arithmeticRules.IsOperator t

theorem IsPart.known {t : Token} (h : IsPart t) : t.kind ≠ .unknown := by
  rcases h with hkind | hoperator
  · intro hunknown
    rw [hunknown] at hkind
    exact absurd hkind (by decide)
  · simp [hoperator.1]

theorem IsPart.operator {t : Token} (h : IsPart t) (hkind : t.kind = .operator) :
    arithmeticRules.IsOperator t := by
  refine h.resolve_left fun hmem => ?_
  rw [hkind] at hmem
  exact absurd hmem (by decide)

theorem Step.isPart {p q : Progress} {t : Token} (h : Step arithmeticRules p t q) : IsPart t := by
  have hparen (hkind : t.kind = .parenthesis) : IsPart t := .inl (by simp [hkind])
  cases h with
  | operand _ ht _ => exact .inl (by rcases ht with ht | ht <;> simp [ht])
  | function _ ht _ => exact .inl (by simp [show t.kind = .function from ht])
  | sign _ ht _ =>
    refine .inr ⟨ht.1, ?_⟩
    have hsub : ["+", "-"] ⊆ ["+", "-", "*", "/", "%", "^"] := by decide
    exact hsub ht.2
  | operator _ ht _ => exact .inr ht
  | opening ht _ => exact hparen (isOpen_kind ht).1
  | closing _ ht _ _ => exact hparen (isClose_kind ht).1
  | comma _ ht _ _ => exact .inl (by simp [show t.kind = .comma from ht])

theorem Steps.isPart {p q : Progress} {ts : List Token} (h : Steps arithmeticRules p ts q) :
    ∀ t ∈ ts, IsPart t := by
  induction h with
  | nil => exact nofun
  | cons hstep _ ih => exact List.forall_mem_cons.2 ⟨hstep.isPart, ih⟩

theorem parenthesis_text {slash : Bool} {c : Char} {cs : List Char}
    (h : (lexeme slash c cs).1 = .parenthesis) :
    (c = '(' ∨ c = ')') ∧ (lexeme slash c cs).2 = 0 := by
  unfold lexeme at h ⊢
  split_ifs at h ⊢ with _ _ _ _ _ hparen
  exact ⟨by simpa using hparen, rfl⟩

theorem comma_text {slash : Bool} {c : Char} {cs : List Char}
    (h : (lexeme slash c cs).1 = .comma) : c = ',' ∧ (lexeme slash c cs).2 = 0 := by
  unfold lexeme at h ⊢
  split_ifs at h ⊢ with _ _ _ _ _ _ hcomma
  exact ⟨by simpa using hcomma, rfl⟩

/-- A word of arithmetic is the name of a function or of a constant. -/
theorem symbol_of_word {word : String} {position : Nat}
    (h : wordKind .arithmetic word ≠ .unknown) :
    ∃ s, Denotes ⟨wordKind .arithmetic word, word, position⟩ s := by
  unfold wordKind at h ⊢
  dsimp only at h ⊢
  split at h
  · next hsome =>
    obtain ⟨f, hf⟩ := Option.isSome_iff_exists.1 hsome
    have hname : f.name = word := by
      unfold Function.ofName? at hf
      have hfound := List.find?_some hf
      exact beq_iff_eq.1 hfound
    refine ⟨.function f, if_pos hsome, ?_⟩
    rw [Symbol.text, String.ofList_toList, hname]
  · next hnone =>
    split at h
    · next hany =>
      obtain ⟨c, hc, hname⟩ := List.any_eq_true.1 hany
      refine ⟨.constant c hc, by rw [if_neg hnone, if_pos hany]; rfl, ?_⟩
      rw [Symbol.text, String.ofList_toList, beq_iff_eq.1 hname]
    · exact absurd rfl h

theorem symbol_of_operator {t : Token} (h : arithmeticRules.IsOperator t) : ∃ s, Denotes t s := by
  obtain ⟨hkind, hvalue⟩ := h
  have hsymbol : ∀ v ∈ ["+", "-", "*", "/", "%", "^"], ∃ op : Operator, op.symbol = v := by
    have hall (op : Operator) : ∃ op' : Operator, op'.symbol = op.symbol := ⟨op, rfl⟩
    simp only [List.forall_mem_cons]
    exact ⟨hall .add, hall .sub, hall .mul, hall .div, hall .rem, hall .pow, nofun⟩
  obtain ⟨op, hop⟩ := hsymbol _ hvalue
  exact ⟨.operator op, hkind, by rw [Symbol.text, String.ofList_toList, hop]⟩

/-- **Every token that has a place in arithmetic stands for a symbol**, unless it is a literal in
another base. -/
theorem symbol_of_token {cs : List Char} {t : Token} (ht : t ∈ tokenize .arithmetic cs)
    (hpart : IsPart t) : t.kind = .number ∧ IsBased t.value.toList ∨ ∃ s, Denotes t s := by
  obtain ⟨s, hs, rfl⟩ := List.mem_map.1 ht
  obtain ⟨c, rest, -, htag, htext⟩ := Slice.eq_of_mem_cut hs
  obtain ⟨tag, text, position⟩ := s
  dsimp only at htag htext
  subst htext
  have hvalue (kind : TokenKind) (p : List Char) :
      (Slice.token ⟨tag, p, position⟩ kind).value.toList = p := String.toList_ofList
  cases tag with
  | number =>
    rcases number_text htag.symm with hnumeral | hbased
    · exact .inr ⟨.number _ hnumeral, rfl, rfl⟩
    · exact .inl ⟨rfl, by rwa [hvalue]⟩
  | word => exact .inr (symbol_of_word hpart.known)
  | sign => exact .inr (symbol_of_operator (hpart.operator rfl))
  | parenthesis =>
    obtain ⟨hc, hlength⟩ := parenthesis_text htag.symm
    rw [hlength, List.take_zero]
    rcases hc with rfl | rfl
    · exact .inr ⟨.opening, rfl, rfl⟩
    · exact .inr ⟨.closing, rfl, rfl⟩
  | comma =>
    obtain ⟨rfl, hlength⟩ := comma_text htag.symm
    rw [hlength, List.take_zero]
    exact .inr ⟨.comma, rfl, rfl⟩
  | other => exact absurd rfl hpart.known

theorem isProper_of_mem {cs : List Char} {t : Token} (ht : t ∈ tokenize .arithmetic cs) :
    Token.IsProper t := by
  obtain ⟨s, hs, rfl⟩ := List.mem_map.1 ht
  obtain ⟨c, rest, -, htag, htext⟩ := Slice.eq_of_mem_cut hs
  obtain ⟨tag, text, position⟩ := s
  dsimp only at htag htext
  subst htext
  intro hkind
  have htag' : tag = .parenthesis := by
    cases tag with
    | parenthesis => rfl
    | word =>
      simp only [lexemeKind, Slice.token, wordKind] at hkind
      split_ifs at hkind
    | _ => cases hkind
  subst htag'
  obtain ⟨hc, hlength⟩ := parenthesis_text htag.symm
  rw [hlength, List.take_zero]
  rcases hc with rfl | rfl
  · exact .inl rfl
  · exact .inr rfl

section
variable {cs : List Char} {ts : List Token} (hmem : ∀ t ∈ ts, t ∈ tokenize .arithmetic cs)
  (hparts : ∀ t ∈ ts, IsPart t)
include hmem hparts

theorem not_blank_of_mem : ∀ t ∈ ts, ∀ c ∈ t.value.toList, isBlank c = false := by
  intro t ht
  rcases symbol_of_token (hmem t ht) (hparts t ht) with ⟨-, hbased⟩ | ⟨s, hs⟩
  · exact hbased.not_blank
  · rw [hs.2, String.toList_ofList]
    exact s.not_blank

theorem based_or_symbols :
    (∃ t ∈ ts, t.kind = .number ∧ IsBased t.value.toList) ∨ ∃ us, List.Forall₂ Denotes ts us := by
  induction ts with
  | nil => exact .inr ⟨[], .nil⟩
  | cons t ts ih =>
    obtain ⟨ht, hmem⟩ := List.forall_mem_cons.1 hmem
    obtain ⟨hpart, hparts⟩ := List.forall_mem_cons.1 hparts
    rcases symbol_of_token ht hpart with hbased | ⟨s, hs⟩
    · exact .inl ⟨t, List.mem_cons_self, hbased⟩
    · rcases ih hmem hparts with ⟨t', ht', hbased⟩ | ⟨us, hus⟩
      · exact .inl ⟨t', List.mem_cons_of_mem t ht', hbased⟩
      · exact .inr ⟨s :: us, .cons hs hus⟩

end

/-! ## Rows that are accepted -/

namespace Denotes

variable {t t' : Token} {s s' : Symbol}

theorem function_iff (h : Denotes t s) : t.kind = .function ↔ s.isFunction = true := by
  rw [h.1]
  cases s <;> simp [lexedKind, Symbol.kind, Symbol.isFunction]

theorem open_iff (h : Denotes t s) : t.isOpen = true ↔ s.isOpening = true := by
  rw [Token.isOpen, h.1, h.2]
  cases s <;> simp [lexedKind, Symbol.kind, Symbol.isOpening, Symbol.text]

theorem close_iff (h : Denotes t s) : t.isClose = true ↔ s = .closing := by
  rw [Token.isClose, h.1, h.2]
  cases s <;> simp [lexedKind, Symbol.kind, Symbol.text]

/-- A factor may follow where the product sign may be left out. -/
theorem joins (h : Denotes t s) (h' : Denotes t' s') (hlink : s'.isLink = false)
    (hjoins : arithmeticRules.Joins t t') : Arithmetic.joins s s' = true := by
  have hopen := h'.open_iff
  rcases hjoins with hclose | ⟨hnumber, hstart⟩
  · obtain rfl := h.close_iff.1 hclose
    cases s' <;> first | rfl | cases hlink
  · rw [h.1] at hnumber
    rw [h'.1] at hstart
    cases s <;> simp_all [lexedKind, Symbol.kind]
    cases s' <;> simp_all [Symbol.isOpening, Arithmetic.joins, joinsNumber, Symbol.startsName]

end Denotes

/-- The progress of the validator after the symbol `before`, with the open groups. -/
structure Reaches (p : Progress) (groups : List Bool) (before : Symbol) : Prop where
  depth : p.depth = groups.length
  expects : p.expectOperand = !before.isEnd
  previous : p.previous = none ∧ before = .opening ∨ ∃ t, p.previous = some t ∧ Denotes t before

namespace Reaches

variable {p q : Progress} {groups : List Bool} {before s : Symbol} {t : Token}
  (h : Reaches p groups before)
include h

theorem not_function (hcalls : ¬ p.Calls arithmeticRules) : before.isFunction = false := by
  rcases h.previous with ⟨-, rfl⟩ | ⟨t, ht, hdenotes⟩
  · rfl
  · rw [Bool.eq_false_iff]
    exact fun hfunction => hcalls ⟨t, ht, hdenotes.function_iff.2 hfunction⟩

/-- A symbol that starts an operand stands where one is expected, or is a factor. -/
theorem starts (ht : Denotes t s) (hlink : s.isLink = false)
    (hstart : p.MayStart arithmeticRules t) :
    (before.isEnd = true → s.isLink = true) ∨ Arithmetic.joins before s = true := by
  rcases hstart with hexpect | ⟨t', ht', hjoins⟩
  · left
    rw [h.expects] at hexpect
    exact fun hend => absurd hend (by simpa using hexpect)
  · right
    rcases h.previous with ⟨hnone, -⟩ | ⟨t'', hsome, hdenotes⟩
    · rw [hnone] at ht'
      cases ht'
    · obtain rfl : t'' = t' := Option.some.inj (hsome.symm.trans ht')
      exact hdenotes.joins ht hlink hjoins

theorem admits_start (ht : Denotes t s) (hlink : s.isLink = false)
    (hstart : p.MayStart arithmeticRules t)
    (hfunction : before.isFunction = true → s.isOpening = true) :
    Admits Beside groups before s where
  beside := (h.starts ht hlink hstart).imp_left fun hend => ⟨hend, hfunction⟩
  starts _ hlink' := absurd (hlink.symm.trans hlink') Bool.false_ne_true
  grouped hgroup := by cases s <;> simp_all [Symbol.isLink, Symbol.needsGroup]

theorem admits_link (hexpect : p.expectOperand = false) (hcalls : ¬ p.Calls arithmeticRules)
    (hlink : s.isLink = true) (hgroup : s.needsGroup = true → p.depth ≠ 0) :
    Admits Beside groups before s where
  beside := .inl ⟨fun _ => hlink, fun hfunction =>
    absurd ((h.not_function hcalls).symm.trans hfunction) Bool.false_ne_true⟩
  starts hend _ := by
    have hexpects := h.expects
    rw [hexpect, hend] at hexpects
    cases hexpects
  grouped hneeds := by
    rintro rfl
    exact hgroup hneeds h.depth

/-- A token that the validator reads is a symbol that may stand where it does. -/
theorem step (ht : Denotes t s) (hs : Step arithmeticRules p t q) :
    Admits Beside groups before s ∧ Reaches q (groupsAfter groups before s) s := by
  have hprevious : some t = none ∧ s = .opening ∨ ∃ t', some t = some t' ∧ Denotes t' s :=
    .inr ⟨t, rfl, ht⟩
  have hnot (hcalls : ¬ p.Calls arithmeticRules) :
      before.isFunction = true → s.isOpening = true :=
    fun hfunction => absurd ((h.not_function hcalls).symm.trans hfunction) Bool.false_ne_true
  have hkind := ht.1
  cases hs with
  | operand hcalls hoperand hstart =>
    have hnumber : s.kind = .number := by
      rcases hoperand with hoperand | hoperand <;> rw [hkind] at hoperand <;>
        cases s <;> first | rfl | cases hoperand
    cases s with
    | number | constant =>
      exact ⟨h.admits_start ht rfl hstart (hnot hcalls), h.depth, rfl, hprevious⟩
    | _ => cases hnumber
  | function hcalls hfunction hstart =>
    cases s with
    | function => exact ⟨h.admits_start ht rfl hstart (hnot hcalls), h.depth, rfl, hprevious⟩
    | _ => cases hkind.symm.trans hfunction
  | sign hcalls hsign hexpect =>
    have hvalue := ht.2 ▸ hsign.2
    cases s with
    | operator op =>
      have hplus : (Symbol.operator op).isSign = true := by
        cases op <;> first | rfl | exact absurd hvalue (by decide)
      have hend : before.isEnd = false := by simpa [hexpect] using h.expects
      exact ⟨⟨.inl ⟨fun hend' => absurd (hend.symm.trans hend') Bool.false_ne_true, hnot hcalls⟩,
        fun _ _ => hplus, nofun⟩, h.depth, rfl, hprevious⟩
    | _ => cases hkind.symm.trans hsign.1
  | operator hcalls hoperator hexpect =>
    cases s with
    | operator => exact ⟨h.admits_link hexpect hcalls rfl nofun, h.depth, rfl, hprevious⟩
    | _ => cases hkind.symm.trans hoperator.1
  | opening hopen hstart =>
    have hopening := ht.open_iff.1 hopen
    cases s with
    | opening =>
      exact ⟨h.admits_start ht rfl hstart fun _ => rfl, by simp [groupsAfter, h.depth], rfl,
        hprevious⟩
    | _ => cases hopening
  | closing hcalls hclose hexpect hdepth =>
    obtain rfl := ht.close_iff.1 hclose
    have hlength := h.depth
    refine ⟨h.admits_link hexpect hcalls rfl fun _ => by omega, ?_, rfl, hprevious⟩
    rw [groupsAfter, List.length_tail, ← hlength, hdepth, Nat.add_sub_cancel]
  | comma hcalls hcomma hexpect hdepth =>
    cases s with
    | comma =>
      exact ⟨h.admits_link hexpect hcalls rfl fun _ => by omega, h.depth, rfl, hprevious⟩
    | _ => cases hkind.symm.trans hcomma

end Reaches

/-- The symbols of an accepted row may stand one after another. -/
theorem row_of_steps {p q : Progress} {ts : List Token} {groups : List Bool} {before : Symbol}
    {us : List Symbol} (hs : Steps arithmeticRules p ts q) (hq : q.isComplete = true)
    (hts : List.Forall₂ Denotes ts us) (h : Reaches p groups before) :
    Row Beside groups before us := by
  induction hs generalizing groups before us with
  | nil =>
    cases hts
    obtain ⟨hdepth, hexpect⟩ : _ ∧ _ := by simpa [Progress.isComplete] using hq
    obtain rfl : groups = [] := List.length_eq_zero_iff.1 (h.depth.symm.trans hdepth)
    exact .nil (by simpa [hexpect] using h.expects)
  | cons hstep _ ih =>
    obtain ⟨s, us, ht, hrest, rfl⟩ := List.forall₂_cons_left_iff.1 hts
    obtain ⟨hadmits, hreaches⟩ := h.step ht hstep
    exact .cons hadmits (ih hq hrest hreaches)

theorem reaches_start : Reaches {} [] .opening := ⟨rfl, rfl, .inl ⟨rfl, rfl⟩⟩

end Reckoner.Expression
