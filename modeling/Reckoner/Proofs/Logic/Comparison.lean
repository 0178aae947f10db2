/-
  Comparisons and their forms.

  * `IsOperand`, `IsNumeral`: what the pattern takes for a number, and what is read as one;
    `readFloat?_isSome_iff`: **these are the operands with digits from `0` to `9`**;
  * `relations`, `IsComparison`: the signs and what they say; an operand, a sign and an operand;
  * `IsComparison.unique`: **a text is a comparison in one way**;
  * `exists_value_iff`: **a text has a value if and only if it is a comparison of numerals**;
  * `IsComparison.canonical`: **spacing and case do not matter**.
-/
import Reckoner.Logic.Comparison
import Reckoner.Proofs.Decimal.Numeral
import Reckoner.Proofs.Success
import Reckoner.Proofs.Text.Canonical
import Reckoner.Proofs.Text.Spaced
import Reckoner.Proofs.Units.Forms

namespace Reckoner.Logic.Comparison

open Text Pattern

/-! ## Operands -/

/-- A sign or none, and digits with a point before, between or after them, or without one. -/
def IsOperand (p : List Char) : Prop :=
  ∃ plus digits, p = plus ++ digits ∧ plus ∈ [[], ['-'], ['+']] ∧ Units.IsMagnitude digits

/-- An operand with digits from `0` to `9`. -/
def IsNumeral (p : List Char) : Prop :=
  IsOperand p ∧ ∀ c ∈ p, isDigit c = true → isAsciiDigit c = true

section
variable {before : Option Char} {stretch rest : List Char} {groups : List (List Char)}

theorem fits_sign : (Pattern.optional (.oneOf "-+")).Fits before stretch rest groups ↔
    stretch ∈ [[], ['-'], ['+']] ∧ groups = [] := by
  have hsigns : ∀ c, "-+".toList.contains c = true ↔ c = '-' ∨ c = '+' := by
    intro c
    rw [List.contains_iff_mem]
    simp
  simp only [Pattern.optional, oneOf, Fits, hsigns]
  constructor
  · rintro (⟨⟨c, rfl, rfl | rfl⟩, rfl⟩ | ⟨rfl, rfl⟩)
    · exact ⟨by decide, rfl⟩
    · exact ⟨by decide, rfl⟩
    · exact ⟨by decide, rfl⟩
  · simp only [List.mem_cons, List.not_mem_nil, or_false]
    rintro ⟨rfl | rfl | rfl, rfl⟩
    · exact .inr ⟨rfl, rfl⟩
    · exact .inl ⟨⟨'-', rfl, .inl rfl⟩, rfl⟩
    · exact .inl ⟨⟨'+', rfl, .inr rfl⟩, rfl⟩

/-- What the pattern for a number takes. -/
theorem fits_numeral : numeral.Fits before stretch rest groups ↔
    IsOperand stretch ∧ groups = [] := by
  constructor
  · rintro ⟨plus, digits, _, _, rfl, rfl, hfirst, hrest⟩
    obtain ⟨hplus, rfl⟩ := fits_sign.1 hfirst
    obtain ⟨hdigits, rfl⟩ := Units.fits_magnitude.1 hrest
    exact ⟨⟨plus, digits, rfl, hplus, hdigits⟩, rfl⟩
  · rintro ⟨⟨plus, digits, rfl, hplus, hdigits⟩, rfl⟩
    exact ⟨plus, digits, [], [], rfl, rfl, fits_sign.2 ⟨hplus, rfl⟩,
      Units.fits_magnitude.2 ⟨hdigits, rfl⟩⟩

end

section
variable {p digits : List Char}

theorem chars_of_magnitude (h : Units.IsMagnitude digits) :
    ∀ c ∈ digits, isDigit c = true ∨ c = '.' := by
  cases h with
  | whole _ hds => exact fun c hc => .inl (hds c hc)
  | point _ hds hfs =>
    rw [List.forall_mem_append, List.forall_mem_cons]
    exact ⟨fun c hc => .inl (hds c hc), .inr rfl, fun c hc => .inl (hfs c hc)⟩

theorem ne_nil_of_magnitude (h : Units.IsMagnitude digits) : digits ≠ [] := by
  cases h with
  | whole hne => exact hne
  | point => exact List.append_ne_nil_of_right_ne_nil _ (List.cons_ne_nil _ _)

theorem IsOperand.chars (h : IsOperand p) :
    ∀ c ∈ p, isDigit c = true ∨ c ∈ ['-', '+', '.'] := by
  obtain ⟨plus, digits, rfl, hplus, hdigits⟩ := h
  have hsigns : ∀ plus ∈ [[], ['-'], ['+']], ∀ c ∈ plus, c ∈ ['-', '+', '.'] := by decide
  rw [List.forall_mem_append]
  refine ⟨fun c hc => .inr (hsigns plus hplus c hc), fun c hc => ?_⟩
  rcases chars_of_magnitude hdigits c hc with hc | rfl
  · exact .inl hc
  · exact .inr (by decide)

theorem IsOperand.solid (h : IsOperand p) : Solid p := by
  have hsigns : ∀ c ∈ ['-', '+', '.'], isBlank c = false := by decide
  refine ⟨?_, fun c hc => (h.chars c hc).elim isBlank_of_digit (hsigns c)⟩
  obtain ⟨plus, digits, rfl, -, hdigits⟩ := h
  exact List.append_ne_nil_of_right_ne_nil _ (ne_nil_of_magnitude hdigits)

/-- A sign makes no difference to whether a number is read. -/
theorem isSome_readFloat? {plus : List Char} (hplus : plus ∈ [[], ['-'], ['+']])
    (hdigits : Units.IsMagnitude digits) :
    (Decimal.readFloat? (plus ++ digits)).isSome = (Decimal.readMagnitude? digits).isSome := by
  simp only [List.mem_cons, List.not_mem_nil, or_false] at hplus
  rcases hplus with rfl | rfl | rfl
  · obtain ⟨c, cs, rfl⟩ := List.exists_cons_of_ne_nil (ne_nil_of_magnitude hdigits)
    have hsigns : ∀ d ∈ ['-', '+'], ¬ (isDigit d = true ∨ d = '.') := by decide
    have hchar := chars_of_magnitude hdigits c List.mem_cons_self
    have hminus : c ≠ '-' := fun heq => hsigns c (by simp [heq]) hchar
    have hplus : c ≠ '+' := fun heq => hsigns c (by simp [heq]) hchar
    simp [Decimal.readFloat?, hminus, hplus]
  · simp [Decimal.readFloat?]
  · simp [Decimal.readFloat?]

/-- **An operand is read as a number if its digits are those from `0` to `9`.** -/
theorem readFloat?_isSome_iff (h : IsOperand p) :
    (∃ x, Decimal.readFloat? p = some x) ↔ IsNumeral p := by
  obtain ⟨plus, digits, rfl, hplus, hdigits⟩ := h
  have hsigns : ∀ plus ∈ [[], ['-'], ['+']], ∀ c ∈ plus, isDigit c = false := by decide
  rw [← Option.isSome_iff_exists, isSome_readFloat? hplus hdigits]
  constructor
  · intro hread
    have hplain := @isSome_readFloat? digits [] (by decide) hdigits
    rw [hread, Option.isSome_iff_exists] at hplain
    obtain ⟨x, hx⟩ := hplain
    have hascii := Decimal.readFloat?_ascii (.inl rfl) (chars_of_magnitude hdigits) hx
    refine ⟨⟨plus, digits, rfl, hplus, hdigits⟩, List.forall_mem_append.2 ⟨?_, ?_⟩⟩
    · exact fun c hc hdigit => absurd (hsigns plus hplus c hc) (by rw [hdigit]; decide)
    · rintro c hc hdigit
      rcases hascii c hc with hc | rfl
      · exact hc
      · exact absurd hdigit (by decide)
  · rintro ⟨-, hascii⟩
    obtain ⟨-, hascii⟩ := List.forall_mem_append.1 hascii
    have hdecimal : ∃ x, Decimal.readDecimal? digits = some x := by
      cases hdigits with
      | whole hne hds =>
        exact Decimal.readDecimal?_whole (fun d hd => hascii d hd (hds d hd)) hne
      | point hne hds hfs =>
        rw [List.forall_mem_append, List.forall_mem_cons] at hascii
        exact Decimal.readDecimal?_point (fun d hd => hascii.1 d hd (hds d hd))
          (fun f hf => hascii.2.2 f hf (hfs f hf)) hne
    obtain ⟨x, hx⟩ := hdecimal
    rw [Decimal.readMagnitude?, hx]
    rfl

theorem IsNumeral.exists_float (h : IsNumeral p) : ∃ x, Decimal.readFloat? p = some x :=
  (readFloat?_isSome_iff h.1).2 h

end

/-! ## Forms -/

/-- The signs of comparison and what they say of two numbers. -/
def relations : List (String × (Float → Float → Bool)) :=
  [("==", fun x y => x == y), ("!=", fun x y => x != y), ("<>", fun x y => x != y),
    ("<=", fun x y => x ≤ y), (">=", fun x y => x ≥ y), ("<", fun x y => x < y),
    (">", fun x y => x > y)]

/-- The text is an operand, a sign of comparison and an operand, with any blanks around the
sign. -/
structure IsComparison (P : List Char → Prop) (cs left : List Char) (sign : String)
    (right : List Char) : Prop where
  split : ∃ bs bs', cs = left ++ bs ++ sign.toList ++ bs' ++ right ∧
    ∀ b ∈ bs ++ bs', isBlank b = true
  sign : sign ∈ relations.map (·.1)
  left : P left
  right : P right

/-- The characters of the signs of comparison. -/
def marks : List Char := ['=', '!', '<', '>']

/-- A character of the signs of comparison. -/
def isMark (c : Char) : Bool := marks.contains c

theorem marks_of_sign : ∀ sign ∈ relations.map (·.1),
    sign.toList ≠ [] ∧ ∀ c ∈ sign.toList, isMark c = true := by
  decide

theorem mem_of_mark {c : Char} (h : isMark c = true) : c ∈ marks :=
  List.contains_iff_mem.1 h

theorem isBlank_of_mark {c : Char} (h : isMark c = true) : isBlank c = false := by
  have hmarks : ∀ c ∈ marks, isBlank c = false := by decide
  exact hmarks c (mem_of_mark h)

theorem isMark_of_blank {c : Char} (h : isBlank c = true) : isMark c = false := by
  rw [Bool.eq_false_iff]
  exact fun hmark => Bool.false_ne_true ((isBlank_of_mark hmark).symm.trans h)

theorem isWordChar_of_mark {c : Char} (h : isMark c = true) : isWordChar c = false := by
  have hmarks : ∀ c ∈ marks, isWordChar c = false := by decide
  exact hmarks c (mem_of_mark h)

/-- No character of an operand is one of a sign. -/
theorem IsOperand.not_mark {p : List Char} (h : IsOperand p) : ∀ c ∈ p, isMark c = false := by
  have hmarks : ∀ c ∈ marks, ¬ (isDigit c = true ∨ c ∈ ['-', '+', '.']) := by decide
  intro c hc
  rw [Bool.eq_false_iff]
  exact fun hmark => hmarks c (mem_of_mark hmark) (h.chars c hc)

section
variable {cs left left' right right' : List Char} {sign sign' : String}

theorem IsComparison.mono {P Q : List Char → Prop} (hPQ : ∀ p, P p → Q p)
    (h : IsComparison P cs left sign right) : IsComparison Q cs left sign right :=
  ⟨h.split, h.sign, hPQ _ h.left, hPQ _ h.right⟩

theorem IsComparison.operands (h : IsComparison IsNumeral cs left sign right) :
    IsComparison IsOperand cs left sign right :=
  h.mono fun _ hp => hp.1

/-! ## One way to cut -/

/-- Without its blanks the text is nothing but its parts. -/
theorem IsComparison.strip_eq (h : IsComparison IsOperand cs left sign right) :
    strip cs = left ++ (sign.toList ++ right) := by
  obtain ⟨⟨bs, bs', rfl, hbs⟩, hsign, hleft, hright⟩ := h
  rw [List.forall_mem_append] at hbs
  have hmarks := (marks_of_sign sign hsign).2
  rw [strip_append, strip_append, strip_append, strip_append, strip_of_blanks hbs.1,
    strip_of_blanks hbs.2, strip_of_solid hleft.solid.2, strip_of_solid hright.solid.2,
    strip_of_solid fun c hc => isBlank_of_mark (hmarks c hc)]
  simp only [List.append_nil, List.append_assoc]

/-- The first operand is what comes before all characters of signs, and the sign is all of
them. -/
theorem parts_of_append (hleft : IsOperand left) (hright : IsOperand right)
    (hsign : sign ∈ relations.map (·.1)) :
    (left ++ (sign.toList ++ right)).takeWhile (fun c => !isMark c) = left ∧
      (left ++ (sign.toList ++ right)).filter isMark = sign.toList := by
  obtain ⟨hne, hmarks⟩ := marks_of_sign sign hsign
  have hnone : ∀ {p : List Char}, IsOperand p → p.filter isMark = [] := by
    intro p hp
    exact List.filter_eq_nil_iff.2 fun c hc => Bool.eq_false_iff.1 (hp.not_mark c hc)
  constructor
  · obtain ⟨c, cs, hcs⟩ := List.exists_cons_of_ne_nil hne
    have hc : isMark c = true := hmarks c (hcs ▸ List.mem_cons_self)
    rw [List.takeWhile_append_of_pos fun c hc => by rw [hleft.not_mark c hc]; rfl, hcs,
      List.cons_append, List.takeWhile_cons_of_neg (by rw [hc]; decide), List.append_nil]
  · rw [List.filter_append, List.filter_append, hnone hleft, hnone hright,
      List.filter_eq_self.2 hmarks, List.nil_append, List.append_nil]

/-- **A text is a comparison in one way.** -/
theorem IsComparison.unique (h : IsComparison IsOperand cs left sign right)
    (h' : IsComparison IsOperand cs left' sign' right') :
    left = left' ∧ sign = sign' ∧ right = right' := by
  have heq := h.strip_eq.symm.trans h'.strip_eq
  obtain ⟨hbefore, hmarks⟩ := parts_of_append h.left h.right h.sign
  obtain ⟨hbefore', hmarks'⟩ := parts_of_append h'.left h'.right h'.sign
  rw [heq] at hbefore hmarks
  obtain rfl := hbefore.symm.trans hbefore'
  obtain rfl := String.toList_inj.1 (hmarks.symm.trans hmarks')
  exact ⟨rfl, rfl, List.append_cancel_left (List.append_cancel_left heq)⟩

/-! ## Values -/

theorem isComparison_of_groups? {groups : List (List Char)} (h : shape.groups? cs = some groups) :
    ∃ left sign right, groups = [left, sign.toList, right] ∧
      IsComparison IsOperand cs left sign right := by
  obtain ⟨pre, stretch, rest, rfl, h₁⟩ := groups?_eq_some h
  obtain ⟨rfl, h₂⟩ := fits_start_then h₁
  obtain ⟨left, _, _, rfl, rfl, hleft, h₃⟩ := fits_group_then rfl h₂
  obtain ⟨bs, _, rfl, hbs, h₄⟩ := fits_gap_then h₃
  obtain ⟨_, _, _, rfl, rfl, hfits, h₅⟩ := fits_group_then rfl h₄
  obtain ⟨⟨sign, hsign, rfl⟩, -⟩ := fits_anyText.1 hfits
  obtain ⟨bs', right, rfl, hbs', h₆⟩ := fits_gap_then h₅
  obtain ⟨rfl, rfl, hright⟩ := fits_group_finish rfl h₆
  exact ⟨left, sign, right, rfl, ⟨bs, bs', by simp, List.forall_mem_append.2 ⟨hbs, hbs'⟩⟩, hsign,
    (fits_numeral.1 hleft).1, (fits_numeral.1 hright).1⟩

theorem IsComparison.fits (h : IsComparison IsOperand cs left sign right) :
    shape.Fits none cs [] [left, sign.toList, right] := by
  obtain ⟨⟨bs, bs', rfl, hbs⟩, hsign, hleft, hright⟩ := h
  rw [List.forall_mem_append] at hbs
  simp only [List.append_assoc]
  exact ⟨[], _, [], _, rfl, rfl, ⟨rfl, rfl, rfl⟩,
    left, _, [left], _, rfl, rfl, ⟨[], rfl, fits_numeral.2 ⟨hleft, rfl⟩⟩,
    bs, _, [], _, rfl, rfl, ⟨hbs.1, rfl⟩,
    sign.toList, _, [sign.toList], _, rfl, rfl,
      ⟨[], rfl, fits_anyText.2 ⟨⟨sign, hsign, rfl⟩, rfl⟩⟩,
    bs', _, [], _, rfl, rfl, ⟨hbs.2, rfl⟩,
    right, [], [right], [], (List.append_nil _).symm, rfl,
    ⟨[], rfl, fits_numeral.2 ⟨hright, rfl⟩⟩, rfl, rfl, rfl⟩

/-- The parts of a comparison are remembered. -/
theorem IsComparison.groups? (h : IsComparison IsOperand cs left sign right) :
    shape.groups? cs = some [left, sign.toList, right] := by
  obtain ⟨groups, hgroups⟩ := groups?_of_fits h.fits
  obtain ⟨left', sign', right', rfl, h'⟩ := isComparison_of_groups? hgroups
  obtain ⟨rfl, rfl, rfl⟩ := h.unique h'
  exact hgroups

theorem ofSymbol?_of_mem : ∀ r ∈ relations, ∃ relation,
    Relation.ofSymbol? r.1 = some relation ∧ relation.holds = r.2 := by
  simp only [relations, List.forall_mem_cons]
  exact ⟨⟨.equal, rfl, rfl⟩, ⟨.notEqual, rfl, rfl⟩, ⟨.notEqual, rfl, rfl⟩, ⟨.lessOrEqual, rfl, rfl⟩,
    ⟨.greaterOrEqual, rfl, rfl⟩, ⟨.less, rfl, rfl⟩, ⟨.greater, rfl, rfl⟩, nofun⟩

theorem readOperand_eq_ok_iff {p : List Char} {x : Float} :
    readOperand p = .ok x ↔ Decimal.readFloat? p = some x := by
  unfold readOperand
  split
  · next y hy => rw [hy, Except.ok.injEq, Option.some.injEq]
  · next hnone => exact iff_of_false nofun (by rw [hnone]; exact nofun)

/-- A comparison is its sign applied to its operands. -/
theorem evaluate_of_isComparison {holds : Float → Float → Bool}
    (hmem : (sign, holds) ∈ relations) (h : IsComparison IsOperand (trim cs) left sign right) :
    evaluate cs = do return holds (← readOperand left) (← readOperand right) := by
  obtain ⟨relation, hsymbol, hholds⟩ := ofSymbol?_of_mem _ hmem
  obtain rfl : relation.holds = holds := hholds
  unfold evaluate
  rw [h.groups?]
  dsimp only
  rw [String.ofList_toList, hsymbol]

theorem evaluate_of_read {holds : Float → Float → Bool} {x y : Float}
    (hx : Decimal.readFloat? left = some x) (hy : Decimal.readFloat? right = some y)
    (hmem : (sign, holds) ∈ relations) (h : IsComparison IsOperand (trim cs) left sign right) :
    evaluate cs = .ok (holds x y) := by
  rw [evaluate_of_isComparison hmem h, readOperand_eq_ok_iff.2 hx, readOperand_eq_ok_iff.2 hy]
  rfl

/-- The value of a comparison of numerals. -/
theorem exists_value (h : IsComparison IsNumeral (trim cs) left sign right) :
    ∃ x y holds, Decimal.readFloat? left = some x ∧ Decimal.readFloat? right = some y ∧
      (sign, holds) ∈ relations ∧ evaluate cs = .ok (holds x y) := by
  obtain ⟨x, hx⟩ := h.left.exists_float
  obtain ⟨y, hy⟩ := h.right.exists_float
  obtain ⟨⟨_, holds⟩, hmem, rfl⟩ := List.mem_map.1 h.sign
  exact ⟨x, y, holds, hx, hy, hmem, evaluate_of_read hx hy hmem h.operands⟩

/-- **A text has a value if and only if it is a comparison of numerals.** -/
theorem exists_value_iff : (∃ v, evaluate cs = .ok v) ↔
    ∃ left sign right, IsComparison IsNumeral (trim cs) left sign right := by
  constructor
  · rintro ⟨v, hv⟩
    obtain ⟨groups, hgroups⟩ : ∃ groups, shape.groups? (trim cs) = some groups := by
      rw [← Option.ne_none_iff_exists']
      intro hnone
      rw [evaluate, hnone] at hv
      cases hv
    obtain ⟨left, sign, right, -, h⟩ := isComparison_of_groups? hgroups
    obtain ⟨⟨_, holds⟩, hmem, rfl⟩ := List.mem_map.1 h.sign
    rw [evaluate_of_isComparison hmem h] at hv
    obtain ⟨x, hx, hv⟩ := ok_of_bind hv
    obtain ⟨y, hy, -⟩ := ok_of_bind hv
    exact ⟨left, _, right, h.split, h.sign,
      (readFloat?_isSome_iff h.left).1 ⟨x, readOperand_eq_ok_iff.1 hx⟩,
      (readFloat?_isSome_iff h.right).1 ⟨y, readOperand_eq_ok_iff.1 hy⟩⟩
  · rintro ⟨left, sign, right, h⟩
    obtain ⟨x, y, holds, -, -, -, hv⟩ := exists_value h
    exact ⟨_, hv⟩

/-! ## Spacing and case -/

/-- No word goes across an end of a sign. -/
theorem apart_of_sign (hsign : sign ∈ relations.map (·.1)) :
    EndsApart sign.toList ∧ ∀ rest, StartsApart (sign.toList ++ rest) := by
  obtain ⟨hne, hmarks⟩ := marks_of_sign sign hsign
  constructor
  · rw [EndsApart, List.getLast?_eq_some_getLast hne]
    exact isWordChar_of_mark (hmarks _ (List.getLast_mem hne))
  · intro rest
    rw [StartsApart, List.head?_append_of_ne_nil _ hne, List.head?_eq_some_head hne]
    exact isWordChar_of_mark (hmarks _ (List.head_mem hne))

/-- The text around a comparison holds its parts. -/
theorem IsComparison.spaced {P : List Char → Prop} (h : IsComparison P (trim cs) left sign right) :
    Spaced id (Apart id) [left, sign.toList, right] cs := by
  obtain ⟨before, after, hcs, hbefore, hafter⟩ := exists_trim cs
  obtain ⟨⟨bs, bs', htrim, hbs⟩, hsign, -⟩ := h
  rw [List.forall_mem_append] at hbs
  obtain ⟨hends, hstarts⟩ := apart_of_sign hsign
  have hparts : cs = before ++ left ++ (bs ++ sign.toList ++ (bs' ++ right ++ after)) := by
    rw [hcs, htrim]
    simp only [List.append_assoc]
  have hstarts : StartsApart (bs ++ sign.toList ++ (bs' ++ right ++ after)) := by
    rw [List.append_assoc]
    exact (hstarts _).blanks_append hbs.1
  have hlast : StartsApart after := by
    have hnil := StartsApart.nil.blanks_append hafter
    rwa [List.append_nil] at hnil
  exact hparts ▸ .cons hbefore (.inr hstarts) (.cons hbs.1 (.inl hends)
    (.cons hbs.2 (.inr hlast) (.nil hafter)))

/-- A text that holds the parts of a comparison is one when trimmed. -/
theorem isComparison_of_spaced {P : List Char → Prop} {σ : Type} {text : σ → List Char}
    {touch : σ → List Char → Prop} {s₁ s₂ s₃ : σ} (h : Spaced text touch [s₁, s₂, s₃] cs)
    (h₂ : text s₂ = sign.toList) (hsign : sign ∈ relations.map (·.1)) (h₁ : P (text s₁))
    (h₃ : P (text s₃)) (hsolid₁ : Solid (text s₁)) (hsolid₃ : Solid (text s₃)) :
    IsComparison P (trim cs) (text s₁) sign (text s₃) := by
  obtain ⟨before, bs, bs', after, rfl, hbefore, hbs, hafter⟩ : ∃ before bs bs' after,
      cs = before ++ (text s₁ ++ bs ++ sign.toList ++ bs' ++ text s₃) ++ after ∧
        (∀ b ∈ before, isBlank b = true) ∧ (∀ b ∈ bs ++ bs', isBlank b = true) ∧
          ∀ b ∈ after, isBlank b = true := by
    cases h with | @cons before _ _ _ hbefore _ h =>
    cases h with | @cons bs _ _ _ hbs _ h =>
    cases h with | @cons bs' _ _ _ hbs' _ h =>
    cases h with | nil hafter =>
    refine ⟨before, bs, bs', _, ?_, hbefore, List.forall_mem_append.2 ⟨hbs, hbs'⟩, hafter⟩
    simp only [h₂, List.append_assoc]
  have htrim : trim (text s₁ ++ bs ++ sign.toList ++ bs' ++ text s₃) =
      text s₁ ++ bs ++ sign.toList ++ bs' ++ text s₃ := by
    refine trim_eq_self.2 ⟨?_, getLast_append hsolid₃.1 hsolid₃.2 _⟩
    simp only [List.append_assoc]
    rw [List.head?_append_of_ne_nil _ hsolid₁.1]
    exact fun c hc => hsolid₁.2 c (List.mem_of_head? hc)
  rw [trim_between hbefore hafter htrim]
  exact ⟨⟨bs, bs', rfl, hbs⟩, hsign, h₁, h₃⟩

/-- A piece of ASCII without blanks and capital letters. -/
def IsFixed (p : List Char) : Prop := Solid p ∧ ∀ c ∈ p, c.toNat < 128 ∧ c.toLower = c

theorem isFixed_of_numeral {p : List Char} (h : IsNumeral p) : IsFixed p := by
  obtain ⟨hp, hascii⟩ := h
  have hsigns : ∀ c ∈ ['-', '+', '.'], c.toNat < 128 ∧ c.toLower = c := by decide
  refine ⟨hp.solid, fun c hc => ?_⟩
  rcases hp.chars c hc with hdigit | hsign
  · have hcode := isAsciiDigit_iff.1 (hascii c hc hdigit)
    exact ⟨by omega, toLower_of_kept (isKept_of_digit hdigit)⟩
  · exact hsigns c hsign

theorem isFixed_of_sign (hsign : sign ∈ relations.map (·.1)) : IsFixed sign.toList := by
  obtain ⟨hne, hmarks⟩ := marks_of_sign sign hsign
  have hfixed : ∀ c ∈ marks, c.toNat < 128 ∧ c.toLower = c := by decide
  exact ⟨⟨hne, fun c hc => isBlank_of_mark (hmarks c hc)⟩,
    fun c hc => hfixed c (mem_of_mark (hmarks c hc))⟩

/-- **Spacing and case do not matter**: the canonical form is the same comparison. -/
theorem IsComparison.canonical (h : IsComparison IsNumeral (trim cs) left sign right) :
    IsComparison IsNumeral (canonical cs) left sign right := by
  have hparts : ∀ p ∈ [left, sign.toList, right], IsFixed p := by
    simp only [List.forall_mem_cons]
    exact ⟨isFixed_of_numeral h.left, isFixed_of_sign h.sign, isFixed_of_numeral h.right, nofun⟩
  have hsame : ∀ p ∈ [left, sign.toList, right], p.map Char.toLower = p := fun p hp =>
    (List.map_congr_left fun c hc => ((hparts p hp).2 c hc).2).trans (List.map_id p)
  have hspaced := h.spaced.canonical (fun p hp => (hparts p hp).1)
    fun p hp c hc => ((hparts p hp).2 c hc).1
  have hleft := hsame left (by simp)
  have hright := hsame right (by simp)
  have hcanonical := isComparison_of_spaced (P := IsNumeral) hspaced
    (hsame sign.toList (by simp)) h.sign (hleft.symm ▸ h.left) (hright.symm ▸ h.right)
    (hleft.symm ▸ h.left.1.solid) (hright.symm ▸ h.right.1.solid)
  rwa [trim_canonical, hleft, hright] at hcanonical

end

end Reckoner.Logic.Comparison
