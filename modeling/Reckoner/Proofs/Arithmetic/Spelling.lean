/-
  Arithmetic as it may be spelled is brought to the tokens that are meant.

  * `Symbol`: numerals, operators, groups, commas, functions and constants;
  * `Follows`: what may stand after a symbol in an expression;
  * `Loosens`: a row of symbols with product signs left out where they may be;
  * `insertProducts`: product signs put between symbols;
  * `explicitProducts_symbols`, `putConstants_symbols`, `groupProducts_symbols`: what the steps
    of `spell` make of a row of symbols;
  * `tokenize_spell`: **however a row is spelled, its tokens are those of the row**.
-/
import Reckoner.Proofs.Arithmetic.Grammar
import Reckoner.Proofs.Arithmetic.Lexer

namespace Reckoner.Arithmetic

open Text

/-! ## Symbols -/

/-- What an expression is made of. -/
inductive Symbol where
  | number (p : List Char) (h : IsNumeral p)
  | operator (op : Operator)
  | opening
  | closing
  | comma
  | function (f : Function)
  | constant (c : String × String) (h : c ∈ constants)

namespace Symbol

/-- A symbol in lower case. -/
def text : Symbol → List Char
  | number p _ => p
  | operator op => op.symbol.toList
  | opening => ['(']
  | closing => [')']
  | comma => [',']
  | function f => f.name.toList
  | constant c _ => c.1.toList

/-- A symbol with its numeral put in for a constant. -/
def put : Symbol → List Char
  | constant c _ => c.2.toList
  | s => s.text

/-- The kind of a symbol; a constant counts as a number. -/
def kind : Symbol → TokenKind
  | number _ _ | constant _ _ => .number
  | operator _ => .operator
  | opening | closing => .parenthesis
  | comma => .comma
  | function _ => .function

/-- The product sign. -/
def times : Symbol := operator .mul

/-- An operand ends with the symbol. -/
def isEnd : Symbol → Bool
  | number _ _ | constant _ _ | closing => true
  | _ => false

/-- The symbol goes on after an operand. -/
def isLink : Symbol → Bool
  | operator _ | closing | comma => true
  | _ => false

/-- An opening parenthesis. -/
def isOpening : Symbol → Bool
  | opening => true
  | _ => false

/-- A name or a group starts with the symbol. -/
def startsName : Symbol → Bool
  | constant _ _ | function _ | opening => true
  | _ => false

/-- A function. -/
def isFunction : Symbol → Bool
  | function _ => true
  | _ => false

end Symbol

/-- What may stand after a symbol: after an operand no other operand, after a function its
arguments. -/
def Follows (s s' : Symbol) : Prop :=
  (s.isEnd = true → s'.isLink = true) ∧ (s.isFunction = true → s'.isOpening = true)

/-- The product sign may be left out after a number. -/
def joinsNumber : Symbol → Symbol → Bool
  | .number _ _, s => s.startsName
  | _, _ => false

/-- The product sign may be left out after a constant. -/
def joinsConstant : Symbol → Symbol → Bool
  | .constant _ _, s => s.isOpening
  | _, _ => false

/-- The product sign may be left out after a group. -/
def joinsGroup : Symbol → Symbol → Bool
  | .closing, .number _ _ => true
  | .closing, s => s.startsName
  | _, _ => false

/-- The product sign between the symbols may be left out. -/
def joins (s s' : Symbol) : Bool := joinsNumber s s' || joinsConstant s s' || joinsGroup s s'

/-- The second row is the first with any of the product signs left out that may be. -/
inductive Loosens : List Symbol → List Symbol → Prop
  | nil : Loosens [] []
  | keep (s) {ss us} : Loosens ss us → Loosens (s :: ss) (s :: us)
  | drop {s s' ss us} : joins s s' = true → Loosens (s' :: ss) (s' :: us) →
      Loosens (s :: .times :: s' :: ss) (s :: s' :: us)

/-! ## Products put back -/

/-- Product signs between the symbols that `p` tells. -/
def insertProducts (p : Symbol → Symbol → Bool) : List Symbol → List Symbol
  | s :: s' :: ss =>
    if p s s' then s :: .times :: insertProducts p (s' :: ss) else s :: insertProducts p (s' :: ss)
  | ss => ss

theorem insertProducts_cons (p : Symbol → Symbol → Bool) (s : Symbol) (ss : List Symbol) :
    ∃ us, insertProducts p (s :: ss) = s :: us := by
  cases ss with
  | nil => exact ⟨[], rfl⟩
  | cons s' ss =>
    rw [insertProducts]
    split
    · exact ⟨_, rfl⟩
    · exact ⟨_, rfl⟩

/-- No product sign goes next to one. -/
def Spares (p : Symbol → Symbol → Bool) : Prop := ∀ s, p s .times = false ∧ p .times s = false

theorem insertProducts_insertProducts {p q : Symbol → Symbol → Bool} (hq : Spares q)
    (ss : List Symbol) :
    insertProducts q (insertProducts p ss) = insertProducts (fun s s' => p s s' || q s s') ss := by
  induction ss with
  | nil => rfl
  | cons s ss ih =>
    cases ss with
    | nil => rfl
    | cons s' ss =>
      obtain ⟨us, hus⟩ := insertProducts_cons p s' ss
      rw [insertProducts, insertProducts, ← ih, hus]
      cases hp : p s s' with
      | true => simp [insertProducts, hq s, hq s']
      | false => simp [insertProducts]

theorem insertProducts_chain {p : Symbol → Symbol → Bool} {R : Symbol → Symbol → Prop}
    (hp : Spares p) (hleft : ∀ s s', p s s' = true → R s .times) (hright : ∀ s, R .times s)
    {ss : List Symbol} (h : ss.IsChain R) :
    (insertProducts p ss).IsChain fun s s' => R s s' ∧ p s s' = false := by
  induction ss with
  | nil => exact .nil
  | cons s ss ih =>
    cases ss with
    | nil => exact .singleton s
    | cons s' ss =>
      obtain ⟨us, hus⟩ := insertProducts_cons p s' ss
      have hrest := ih h.tail
      rw [insertProducts]
      rw [hus] at hrest ⊢
      cases hs : p s s' with
      | true =>
        rw [if_pos rfl]
        exact .cons_cons ⟨hleft s s' hs, (hp s).1⟩ (.cons_cons ⟨hright s', (hp s').2⟩ hrest)
      | false =>
        rw [if_neg Bool.false_ne_true]
        exact .cons_cons ⟨h.rel_head? rfl, hs⟩ hrest

theorem Loosens.head? {ss us : List Symbol} (h : Loosens ss us) : us.head? = ss.head? := by
  cases h with
  | nil => rfl
  | keep => rfl
  | drop => rfl

theorem not_joins_of_follows {s s' : Symbol} (h : Follows s s') : joins s s' = false := by
  obtain ⟨hend, -⟩ := h
  cases s <;> cases s' <;>
    simp_all [joins, joinsNumber, joinsConstant, joinsGroup, Symbol.isEnd, Symbol.isLink,
      Symbol.startsName, Symbol.isOpening]

/-- The product signs that were left out can be told from what is left. -/
theorem Loosens.insertProducts {ss us : List Symbol} (h : Loosens ss us)
    (hchain : ss.IsChain Follows) : insertProducts joins us = ss := by
  induction h with
  | nil => rfl
  | @keep s ss us h ih =>
    rw [← ih hchain.tail]
    cases us with
    | nil => rfl
    | cons s' us =>
      have hs' : s' ∈ ss.head? := h.head?.symm
      rw [Arithmetic.insertProducts, not_joins_of_follows (hchain.rel_head? hs'),
        if_neg Bool.false_ne_true]
  | drop hjoins _ ih => rw [Arithmetic.insertProducts, if_pos hjoins, ih hchain.tail.tail]

theorem Loosens.chain {ss us : List Symbol} (h : Loosens ss us) (hchain : ss.IsChain Follows) :
    us.IsChain fun s s' => Follows s s' ∨ joins s s' = true := by
  induction h with
  | nil => exact .nil
  | @keep s ss us h ih =>
    refine (ih hchain.tail).cons fun s' hs' => .inl (hchain.rel_head? ?_)
    rwa [← h.head?]
  | drop hjoins _ ih => exact .cons_cons (.inr hjoins) (ih hchain.tail.tail)

/-! ## The steps of spelling -/

theorem Function.isName (f : Function) : IsName f.name.toList := by
  cases f <;> exact ⟨_, _, rfl, by decide, by decide⟩

theorem isName_constant {c : String × String} (h : c ∈ constants) : IsName c.1.toList := by
  have hall : ∀ c ∈ constants, c.1.toList ≠ [] ∧ ∀ d ∈ c.1.toList, isAsciiLower d = true := by
    decide
  obtain ⟨hne, hlower⟩ := hall c h
  exact isName_of_lower hne hlower

theorem isNumeral_constant {c : String × String} (h : c ∈ constants) :
    IsNumeral c.2.toList := by
  have hall : ∀ c ∈ constants, c.2.toList = c.2.toList.take 1 ++ '.' :: c.2.toList.drop 2 ∧
      (∀ d ∈ c.2.toList.take 1, isAsciiDigit d = true) ∧
      (∀ d ∈ c.2.toList.drop 2, isAsciiDigit d = true) ∧ c.2.toList.drop 2 ≠ [] := by
    decide
  obtain ⟨heq, hwhole, hfraction, hne⟩ := hall c h
  exact ⟨_, _, hwhole, hfraction, .inr ⟨heq, hne⟩⟩

namespace Symbol

/-- What the text ends in after a symbol. -/
def tail : Symbol → Tail
  | number _ _ => .number
  | function _ | constant _ _ => .word
  | _ => .gap

/-- What the text ends in after a symbol, with its numeral put in for a constant. -/
def putTail : Symbol → Tail
  | constant _ _ => .number
  | s => s.tail

end Symbol

theorem explicitProducts_link (t : Tail) {s : Symbol} (hs : s.isLink = true) (rest : List Char) :
    explicitProducts t (s.text ++ rest) = s.text ++ explicitProducts .gap rest := by
  cases s with
  | operator op => cases op <;> exact explicitProducts_sign t rfl rfl rest
  | closing => exact explicitProducts_sign t rfl rfl rest
  | comma => exact explicitProducts_sign t rfl rfl rest
  | _ => exact Bool.noConfusion hs

/-- If a step adds a product sign before each symbol where `p` tells so, it does so to a row. -/
theorem explicitProducts_row {write : Symbol → List Char} {tail : Symbol → Tail}
    {p : Symbol → Symbol → Bool} {R : Symbol → Symbol → Prop} (htimes : write .times = ['*'])
    (hstep : ∀ s s' rest, R s s' → explicitProducts (tail s) (write s' ++ rest) =
      (if p s s' then '*' :: write s' else write s') ++ explicitProducts (tail s') rest)
    (s : Symbol) {ss : List Symbol} (h : (s :: ss).IsChain R) :
    write s ++ explicitProducts (tail s) (ss.flatMap write) =
      (insertProducts p (s :: ss)).flatMap write := by
  induction ss generalizing s with
  | nil => rfl
  | cons s' ss ih =>
    have hrest := ih s' h.tail
    rw [List.flatMap_cons, hstep s s' _ (h.rel_head? rfl), insertProducts]
    split
    · rw [List.flatMap_cons, List.flatMap_cons, htimes, ← hrest]
      rfl
    · rw [List.flatMap_cons, ← hrest]

/-- What stands side by side in a row with product signs left out. -/
def Beside (s s' : Symbol) : Prop := Follows s s' ∨ joins s s' = true

theorem explicitProducts_text {s s' : Symbol} (h : Beside s s') (rest : List Char) :
    explicitProducts s.tail (s'.text ++ rest) =
      (if joinsNumber s s' then '*' :: s'.text else s'.text) ++ explicitProducts s'.tail rest := by
  have hname : ∀ {p : List Char}, IsName p → s'.startsName = true →
      explicitProducts s.tail (p ++ rest) =
        (if joinsNumber s s' then '*' :: p else p) ++ explicitProducts .word rest := by
    intro p hp hs'
    cases s with
    | number =>
      rw [joinsNumber, if_pos hs']
      exact hp.explicit_number rest
    | function | constant => exact hp.explicit (t := .word) nofun rest
    | _ => exact hp.explicit (t := .gap) nofun rest
  cases s' with
  | number p hp =>
    have htail : s.tail = .gap := by
      cases s <;> simp_all [Beside, Follows, joins, joinsNumber, joinsConstant, joinsGroup,
        Symbol.isEnd, Symbol.isLink, Symbol.isOpening, Symbol.isFunction, Symbol.startsName,
        Symbol.tail]
    have hjoins : joinsNumber s (.number p hp) = false := by
      cases s <;> rfl
    rw [hjoins, htail]
    exact hp.explicit rest
  | function f => exact hname f.isName rfl
  | constant c hc => exact hname (isName_constant hc) rfl
  | opening =>
    cases s with
    | number => exact explicitProducts_number_opening rest
    | function | constant => exact explicitProducts_opening (t := .word) nofun rest
    | _ => exact explicitProducts_opening (t := .gap) nofun rest
  | _ =>
    rw [explicitProducts_link _ rfl, if_neg]
    · rfl
    · cases s <;> exact Bool.false_ne_true

theorem explicitProducts_put {s s' : Symbol} (h : Beside s s') (hjoins : joinsNumber s s' = false)
    (rest : List Char) :
    explicitProducts s.putTail (s'.put ++ rest) =
      (if joinsConstant s s' then '*' :: s'.put else s'.put) ++
        explicitProducts s'.putTail rest := by
  have hnumeral : ∀ {p : List Char}, IsNumeral p → s'.kind = .number →
      explicitProducts s.putTail (p ++ rest) =
        (if joinsConstant s s' then '*' :: p else p) ++ explicitProducts .number rest := by
    intro p hp hs'
    have htail : s.putTail = .gap ∧ joinsConstant s s' = false := by
      cases s <;> cases s' <;> simp_all [Beside, Follows, joins, joinsNumber, joinsConstant,
        joinsGroup, Symbol.isEnd, Symbol.isLink, Symbol.isOpening, Symbol.isFunction,
        Symbol.startsName, Symbol.tail, Symbol.putTail, Symbol.kind]
    rw [htail.1, htail.2]
    exact hp.explicit rest
  have hlink : s'.isLink = true → explicitProducts s.putTail (s'.put ++ rest) =
      (if joinsConstant s s' then '*' :: s'.put else s'.put) ++
        explicitProducts s'.putTail rest := by
    intro hs'
    have hput : s'.put = s'.text ∧ s'.putTail = .gap ∧ joinsConstant s s' = false := by
      cases s <;> cases s' <;> simp_all [Symbol.isLink, Symbol.put, Symbol.putTail, Symbol.tail,
        joinsConstant, Symbol.isOpening]
    rw [hput.1, hput.2.1, hput.2.2]
    exact explicitProducts_link _ hs' rest
  cases s' with
  | number p hp => exact hnumeral hp rfl
  | constant c hc => exact hnumeral (isNumeral_constant hc) rfl
  | function f =>
    have htail : s.putTail ≠ .number ∧ joinsConstant s (.function f) = false := by
      cases s <;> simp_all [Beside, Follows, joins, joinsNumber, joinsConstant,
        joinsGroup, Symbol.isEnd, Symbol.isLink, Symbol.isOpening, Symbol.startsName,
        Symbol.tail, Symbol.putTail]
    rw [htail.2]
    exact f.isName.explicit htail.1 rest
  | opening =>
    cases s with
    | number => exact Bool.noConfusion hjoins
    | constant => exact explicitProducts_number_opening rest
    | function => exact explicitProducts_opening (t := .word) nofun rest
    | _ => exact explicitProducts_opening (t := .gap) nofun rest
  | _ => exact hlink rfl

/-- What stands side by side once products after numbers are explicit. -/
def Parted (s s' : Symbol) : Prop := Beside s s' ∧ joinsNumber s s' = false

theorem Parted.apart {s s' : Symbol} (h : Parted s s') (rest : List Char) :
    EndsApart s.text ∨ StartsApart (s'.text ++ rest) := by
  have hs' : s'.isLink = true ∨ s'.isOpening = true → StartsApart (s'.text ++ rest) := by
    intro hs'
    cases s' with
    | operator op => cases op <;> rfl
    | opening | closing | comma => rfl
    | _ => exact absurd hs' (by simp [Symbol.isLink, Symbol.isOpening])
  obtain ⟨hbeside, hjoins⟩ := h
  cases s with
  | number | function | constant =>
    refine .inr (hs' ?_)
    cases s' <;> simp_all [Beside, Follows, joins, joinsNumber, joinsConstant, joinsGroup,
      Symbol.isEnd, Symbol.isLink, Symbol.isOpening, Symbol.isFunction, Symbol.startsName]
  | operator op => cases op <;> exact .inl rfl
  | _ => exact .inl rfl

theorem Symbol.not_blank (s : Symbol) : ∀ c ∈ s.text, isBlank c = false := by
  cases s with
  | number p hp =>
    exact hp.forall_mem (fun c hc => isBlank_of_asciiDigit hc) rfl
  | function f => exact fun c hc => isBlank_of_word (f.isName.isWordChar c hc)
  | constant d hd => exact fun c hc => isBlank_of_word ((isName_constant hd).isWordChar c hc)
  | operator op => cases op <;> decide
  | _ => decide

theorem Symbol.replaceable (s : Symbol) : Replaceable s.text := by
  cases s with
  | number p hp => exact hp.replaceable
  | function f => exact Uniform.replaceable ⟨by cases f <;> decide, .inl f.isName.isWordChar⟩
  | constant c hc =>
    refine Uniform.replaceable ⟨?_, .inl (isName_constant hc).isWordChar⟩
    obtain ⟨d, ds, hcs, -⟩ := isName_constant hc
    exact fun hnil => List.cons_ne_nil d ds (hcs.symm.trans hnil)
  | operator op => exact Uniform.replaceable (by cases op <;> decide)
  | _ => exact Uniform.replaceable (by decide)

theorem Symbol.replaced (s : Symbol) : Text.replaced constants s.text = s.put := by
  cases s with
  | number p hp =>
    have hlower : ∀ w ∈ constants, ∀ d ∈ w.1.toList, isAsciiDigit d = false := by decide
    obtain ⟨c, hc, hdigit⟩ := hp.exists_digit
    refine replaced_of_ne fun w hw heq => ?_
    exact Bool.false_ne_true ((hlower w hw c (heq ▸ hc)).symm.trans hdigit)
  | function f => cases f <;> decide
  | constant c hc =>
    have hall : ∀ c ∈ constants, Text.replaced constants c.1.toList = c.2.toList := by decide
    exact hall c hc
  | operator op => cases op <;> decide
  | _ => decide

/-- Constants give way to their numerals. -/
theorem putConstants_symbols {ss : List Symbol} (h : ss.IsChain Parted) :
    putConstants (ss.flatMap Symbol.text) = ss.flatMap Symbol.put := by
  have hspaced : Spaced Symbol.text (Apart Symbol.text) ss (ss.flatMap Symbol.text) := by
    refine (Spaced.flatMap Symbol.text ss).of_chain (fun s cs _ hblank => .inr ?_)
      (fun s s' cs hparted _ => hparted.apart cs) h
    cases cs with
    | nil => exact .nil
    | cons c cs => exact isWordChar_of_blank hblank
  have htable : ∀ c ∈ constants, c.1.toList ≠ [] ∧ ∀ d ∈ c.1.toList, isAsciiLower d = true := by
    decide
  have hput := hspaced.replaceWords
    (fun c hc => ⟨(htable c hc).1, (htable c hc).2, (isNumeral_constant hc).replaceable⟩)
    fun s _ => s.replaceable
  have hblank : ∀ c ∈ putConstants (ss.flatMap Symbol.text), isBlank c = false := by
    refine forall_mem_replaceWords (by decide) fun c hc => ?_
    obtain ⟨s, -, hs⟩ := List.mem_flatMap.1 hc
    exact s.not_blank c hs
  have hwrite : (fun s : Symbol => Text.replaced constants s.text) = Symbol.put :=
    funext Symbol.replaced
  exact hwrite ▸ hput.eq_flatMap hblank

/-- What an operand starts with tells it from the symbols that go on after one. -/
theorem head_put (s : Symbol) (rest : List Char) :
    ((s.put ++ rest).head?.any fun d => isDigit d || d == '.' || startsOperand d) =
      joinsGroup .closing s := by
  have hnumeral : ∀ {p : List Char}, IsNumeral p →
      ((p ++ rest).head?.any fun d => isDigit d || d == '.' || startsOperand d) = true := by
    intro p hp
    obtain ⟨c, cs, rfl, hc⟩ := hp.exists_cons
    show (isDigit c || c == '.' || startsOperand c) = true
    rw [hc, Bool.true_or]
  cases s with
  | number p hp => exact hnumeral hp
  | constant c hc => exact hnumeral (isNumeral_constant hc)
  | function f => cases f <;> rfl
  | operator op => cases op <;> rfl
  | _ => rfl

theorem groupProducts_symbols (ss : List Symbol) :
    groupProducts (ss.flatMap Symbol.put) = (insertProducts joinsGroup ss).flatMap Symbol.put := by
  induction ss with
  | nil => rfl
  | cons s ss ih =>
    have hkeep : ')' ∉ s.put → joinsGroup s = (fun _ => false) →
        groupProducts ((s :: ss).flatMap Symbol.put) =
          (insertProducts joinsGroup (s :: ss)).flatMap Symbol.put := by
      intro hparen hjoins
      rw [List.flatMap_cons, groupProducts_keep hparen, ih]
      cases ss with
      | nil => rfl
      | cons s' ss => rw [insertProducts, hjoins, if_neg Bool.false_ne_true, List.flatMap_cons]
    have hnumeral : ∀ {p : List Char}, IsNumeral p → ')' ∉ p := by
      intro p hp hmem
      have hne : ∀ c ∈ p, c ≠ ')' := hp.forall_mem
        (fun c hc heq => absurd (heq ▸ hc) (by decide)) (by decide)
      exact hne _ hmem rfl
    cases s with
    | closing =>
      cases ss with
      | nil => rfl
      | cons s' ss =>
        have hhead := head_put s' (ss.flatMap Symbol.put)
        rw [← List.flatMap_cons] at hhead
        show groupProducts (')' :: (s' :: ss).flatMap Symbol.put) = _
        rw [groupProducts, hhead, insertProducts]
        cases joinsGroup .closing s' with
        | true => exact congrArg (fun cs => ')' :: '*' :: cs) ih
        | false => exact congrArg (fun cs => ')' :: cs) ih
    | number p hp => exact hkeep (hnumeral hp) rfl
    | constant c hc => exact hkeep (hnumeral (isNumeral_constant hc)) rfl
    | function f =>
      exact hkeep (fun hmem => absurd (f.isName.isWordChar _ hmem) (by decide)) rfl
    | operator op => exact hkeep (by cases op <;> decide) rfl
    | _ => exact hkeep (by decide) rfl

theorem explicitProducts_symbols (write : Symbol → List Char) (tail : Symbol → Tail)
    (p : Symbol → Symbol → Bool) {R : Symbol → Symbol → Prop} (htimes : write .times = ['*'])
    (hstep : ∀ s s' rest, R s s' → explicitProducts (tail s) (write s' ++ rest) =
      (if p s s' then '*' :: write s' else write s') ++ explicitProducts (tail s') rest)
    (hopening : tail .opening = .gap) (hfirst : ∀ s, R .opening s ∧ p .opening s = false)
    {ss : List Symbol} (h : ss.IsChain R) :
    explicitProducts .gap (ss.flatMap write) = (insertProducts p ss).flatMap write := by
  have hrow := explicitProducts_row htimes hstep .opening (h.cons fun s _ => (hfirst s).1)
  rw [hopening] at hrow
  cases ss with
  | nil => rfl
  | cons s ss =>
    rw [insertProducts, (hfirst s).2, if_neg Bool.false_ne_true, List.flatMap_cons] at hrow
    exact List.append_cancel_left hrow

theorem Symbol.ascii (s : Symbol) : ∀ c ∈ s.text, c.toNat < 128 := by
  have hdigit : ∀ c, isAsciiDigit c = true → c.toNat < 128 := fun c hc => by
    have := isAsciiDigit_iff.1 hc
    omega
  have hname : ∀ {p : List Char}, IsName p → ∀ c ∈ p, c.toNat < 128 := by
    rintro _ ⟨c, cs, rfl, hc, hcs⟩
    have hlower : ∀ d, isAsciiLower d = true → d.toNat < 128 := fun d hd => by
      have := isAsciiLower_iff.1 hd
      omega
    refine List.forall_mem_cons.2 ⟨hlower c hc, fun d hd => ?_⟩
    exact ((Bool.or_eq_true_iff).1 (hcs d hd)).elim (hlower d) (hdigit d)
  cases s with
  | number p hp => exact hp.forall_mem hdigit (by decide)
  | function f => exact hname f.isName
  | constant c hc => exact hname (isName_constant hc)
  | operator op => cases op <;> decide
  | _ => decide

theorem strip_lower {us : List Symbol} {cs : List Char}
    (hcs : (strip cs).map Char.toLower = us.flatMap Symbol.text) :
    strip (lower cs) = us.flatMap Symbol.text := by
  have hplain : ∀ c ∈ cs, IsPlain c := by
    intro c hc
    by_cases hblank : isBlank c = true
    · exact .inr hblank
    · have hmem : c.toLower ∈ us.flatMap Symbol.text := by
        rw [← hcs]
        exact List.mem_map_of_mem (List.mem_filter.2 ⟨hc, by simpa using hblank⟩)
      obtain ⟨s, -, hs⟩ := List.mem_flatMap.1 hmem
      by_contra hnot
      have hascii := s.ascii _ hs
      rw [toLower_of_not_ascii fun h => hnot (.inl h)] at hascii
      exact hnot (.inl hascii)
  rw [lower_eq_map hplain, ← hcs, strip, strip, List.filter_map]
  congr 2
  funext c
  simp [isBlank_toLower]

/-- **What spelling makes of a row** is the row with its products. -/
theorem spell_symbols {ss us : List Symbol} (h : Loosens ss us) (hchain : ss.IsChain Follows)
    {cs : List Char} (hcs : strip (lower cs) = us.flatMap Symbol.text) :
    spell cs = ss.flatMap Symbol.put := by
  have hbeside : us.IsChain Beside := h.chain hchain
  have hfirst : ∀ s, Beside .opening s := fun s => .inl ⟨nofun, nofun⟩
  have htimes : ∀ s, Beside .times s := fun s => .inl ⟨nofun, nofun⟩
  have hnumber : Spares joinsNumber := fun s => ⟨by cases s <;> rfl, rfl⟩
  have hconstant : Spares joinsConstant := fun s => ⟨by cases s <;> rfl, rfl⟩
  have hgroup : Spares joinsGroup := fun s => ⟨by cases s <;> rfl, rfl⟩
  have hparted : (insertProducts joinsNumber us).IsChain Parted := by
    refine insertProducts_chain hnumber (fun s s' hjoins => .inl ?_) htimes hbeside
    cases s with
    | number => exact ⟨fun _ => rfl, nofun⟩
    | _ => exact Bool.noConfusion hjoins
  have htext : explicitProducts .gap (us.flatMap Symbol.text) =
      (insertProducts joinsNumber us).flatMap Symbol.text :=
    explicitProducts_symbols _ Symbol.tail _ rfl
      (fun _ _ rest h => explicitProducts_text h rest) rfl
      (fun s => ⟨hfirst s, rfl⟩) hbeside
  have hput : explicitProducts .gap ((insertProducts joinsNumber us).flatMap Symbol.put) =
      (insertProducts joinsConstant (insertProducts joinsNumber us)).flatMap Symbol.put :=
    explicitProducts_symbols _ Symbol.putTail _ rfl
      (fun _ _ rest h => explicitProducts_put h.1 h.2 rest) rfl
      (fun s => ⟨⟨hfirst s, rfl⟩, rfl⟩) hparted
  rw [spell, hcs, htext, putConstants_symbols hparted, hput, groupProducts_symbols,
    insertProducts_insertProducts hconstant, insertProducts_insertProducts hgroup]
  exact congrArg (List.flatMap Symbol.put) (h.insertProducts hchain)

/-! ## Tokens -/

/-- After a numeral no numeral goes on, and after a name no word. -/
def Touches (s : Symbol) (rest : List Char) : Prop :=
  s.kind = .number ∨ s.kind = .function → StartsApart rest ∧ rest.head? ≠ some '.'

theorem Symbol.takes (s : Symbol) {rest : List Char} (h : Touches s rest) :
    Takes lexeme s.put s.kind rest := by
  cases s with
  | number p hp => exact hp.takes (h (.inl rfl)).1 (h (.inl rfl)).2
  | constant c hc => exact (isNumeral_constant hc).takes (h (.inl rfl)).1 (h (.inl rfl)).2
  | function f => exact f.isName.takes (h (.inr rfl)).1
  | operator op => cases op <;> exact ⟨_, _, rfl, rfl, rfl⟩
  | _ => exact ⟨_, _, rfl, rfl, rfl⟩

theorem Symbol.toToken (s : Symbol) (position : Nat) :
    Arithmetic.toToken ⟨s.kind, s.put, position⟩ =
      .ok ⟨s.kind, String.ofList s.put, position⟩ := by
  cases s with
  | function f => cases f <;> rfl
  | _ => rfl

theorem Follows.touches {s s' : Symbol} (h : Follows s s') (rest : List Char) :
    Touches s (s'.put ++ rest) := by
  intro hkind
  have hs' : s'.isLink = true ∨ s'.isOpening = true := by
    obtain ⟨hend, hfunction⟩ := h
    cases s <;> simp_all [Symbol.kind, Symbol.isEnd, Symbol.isFunction]
  cases s' with
  | operator op => cases op <;> exact ⟨rfl, nofun⟩
  | opening | closing | comma => exact ⟨rfl, nofun⟩
  | _ => exact absurd hs' (by simp [Symbol.isLink, Symbol.isOpening])

/-- The tokens of a row with its products are those of its symbols. -/
theorem tokenize_symbols {ss : List Symbol} (hchain : ss.IsChain Follows) :
    ∃ tokens, tokenize (ss.flatMap Symbol.put) = .ok tokens ∧
      tokens.map (fun t => (t.kind, t.value)) = ss.map fun s => (s.kind, String.ofList s.put) := by
  have hspaced : Spaced Symbol.put Touches ss (ss.flatMap Symbol.put) := by
    refine (Spaced.flatMap Symbol.put ss).of_chain (fun s cs _ hblank _ => ?_)
      (fun s s' cs hfollows _ => hfollows.touches cs) hchain
    cases cs with
    | nil => exact ⟨.nil, nofun⟩
    | cons c cs =>
      refine ⟨isWordChar_of_blank hblank, fun heq => ?_⟩
      obtain rfl := Option.some.inj heq
      exact Bool.noConfusion hblank
  exact hspaced.tokens (fun s _ => s.takes) Symbol.toToken 0

/-- **However a row of symbols is spelled, its tokens are those of the row.** Product signs may be
left out, blanks may stand anywhere, and letters may be of either case; each constant is a
number. -/
theorem tokenize_spell {ss us : List Symbol} (hchain : ss.IsChain Follows) (h : Loosens ss us)
    {cs : List Char} (hcs : (strip cs).map Char.toLower = us.flatMap Symbol.text) :
    ∃ tokens, tokenize (spell cs) = .ok tokens ∧
      tokens.map (fun t => (t.kind, t.value)) = ss.map fun s => (s.kind, String.ofList s.put) := by
  rw [spell_symbols h hchain (strip_lower hcs)]
  exact tokenize_symbols hchain

/-- `2 Pi(.5 + LOG2(1 6))` is read as `2 * pi * (.5 + log2(16))`. -/
theorem tokenize_spell_products :
    ∃ tokens, tokenize (spell "2 Pi(.5 + LOG2(1 6))".toList) = .ok tokens ∧
      tokens.map (fun t => (t.kind, t.value)) =
        [(.number, "2"), (.operator, "*"), (.number, "3.141592653589793"), (.operator, "*"),
          (.parenthesis, "("), (.number, ".5"), (.operator, "+"), (.function, "log2"),
          (.parenthesis, "("), (.number, "16"), (.parenthesis, ")"), (.parenthesis, ")")] := by
  have two : IsNumeral ['2'] := ⟨['2'], [], by decide, nofun, .inl ⟨rfl, nofun⟩⟩
  have half : IsNumeral ['.', '5'] := ⟨[], ['5'], nofun, by decide, .inr ⟨rfl, nofun⟩⟩
  have sixteen : IsNumeral ['1', '6'] := ⟨['1', '6'], [], by decide, nofun, .inl ⟨rfl, nofun⟩⟩
  have hrest := Loosens.keep .opening (.keep (.number _ half) (.keep (.operator .add)
    (.keep (.function .log2) (.keep .opening (.keep (.number _ sixteen) (.keep .closing
      (.keep .closing .nil)))))))
  have hpi : ("pi", "3.141592653589793") ∈ constants := by decide
  have hloosens := @Loosens.drop (.number _ two) (.constant _ hpi) _ _ rfl (.drop rfl hrest)
  refine tokenize_spell ?_ hloosens rfl
  simp [Follows, Symbol.times, Symbol.isEnd, Symbol.isLink, Symbol.isFunction, Symbol.isOpening]

end Reckoner.Arithmetic
