/-
  Comparisons among the expressions of logic.

  * `detect_of_isComparison`: a comparison is told from a bitwise expression, though some of their
    signs begin alike;
  * `evaluate_comparison`: it is answered by its value, however it is spaced;
  * `comparison_spec`: **a text has a value if and only if it is a comparison of numerals**, the
    value is what its sign says of them, and signs turned round or denied answer accordingly.
-/
import Reckoner.Logic
import Reckoner.Proofs.Logic.Letters

namespace Reckoner.Logic

open Text Comparison

section
variable {cs left right : List Char} {sign : String}

/-! ## Kinds -/

/-- A stretch of characters of signs lies in the sign. -/
theorem infix_sign (h : IsComparison IsOperand cs left sign right) {w : List Char} (hne : w ≠ [])
    (hw : ∀ c ∈ w, isMark c = true) (hstretch : w <:+: cs) : w <:+: sign.toList := by
  obtain ⟨⟨bs, bs', rfl, hbs⟩, -, hleft, hright⟩ := h
  rw [List.forall_mem_append] at hbs
  have hout : ∀ c, isMark c = false → c ∉ w :=
    fun c hc hmem => Bool.false_ne_true (hc.symm.trans (hw c hmem))
  have hbefore : ∀ c ∈ left ++ bs, c ∉ w := List.forall_mem_append.2
    ⟨fun c hc => hout c (hleft.not_mark c hc), fun b hb => hout b (isMark_of_blank (hbs.1 b hb))⟩
  have hafter : ∀ c ∈ bs' ++ right, c ∉ w := List.forall_mem_append.2
    ⟨fun b hb => hout b (isMark_of_blank (hbs.2 b hb)), fun c hc => hout c (hright.not_mark c hc)⟩
  rw [List.append_assoc, List.append_assoc] at hstretch
  exact infix_of_append_end hne hafter (infix_of_append hne hbefore hstretch)

/-- A comparison is no bitwise expression: its sign is not doubled, and none of the others is
there. -/
theorem isBitwise_of_isComparison (h : IsComparison IsOperand cs left sign right) :
    Bitwise.isBitwise cs = false := by
  have hshifts : ∀ sign ∈ relations.map (·.1),
      ¬ ['<', '<'] <:+: sign.toList ∧ ¬ ['>', '>'] <:+: sign.toList := by
    decide
  have hmarks : (∀ c ∈ ['<', '<'], isMark c = true) ∧ ∀ c ∈ ['>', '>'], isMark c = true := by
    decide
  have hothers : ∀ c ∈ ['~', '^', '&', '|'], c ∉ cs := by
    have hapart : ∀ c ∈ ['~', '^', '&', '|'],
        isBlank c = false ∧ isDigit c = false ∧ c ∉ Comparison.signs := by
      decide
    intro c hc hmem
    obtain ⟨hblank, hdigit, hsign⟩ := hapart c hc
    rcases h.chars c hmem hblank with hmem | hmem
    · exact Bool.false_ne_true (hdigit.symm.trans hmem)
    · exact hsign hmem
  rw [Bool.eq_false_iff]
  intro hbitwise
  simp only [Bitwise.isBitwise, Bool.or_eq_true, List.contains_iff_mem] at hbitwise
  rcases hbitwise with ((((hdouble | hdouble) | hmem) | hmem) | hsingle) | hsingle
  · exact (hshifts sign h.sign).1 (infix_sign h (List.cons_ne_nil _ _) hmarks.1
      (Bitwise.infix_of_hasDouble hdouble))
  · exact (hshifts sign h.sign).2 (infix_sign h (List.cons_ne_nil _ _) hmarks.2
      (Bitwise.infix_of_hasDouble hdouble))
  · exact hothers '~' (by decide) hmem
  · exact hothers '^' (by decide) hmem
  · exact hothers '&' (by decide) (Bitwise.mem_of_hasSingle hsingle)
  · exact hothers '|' (by decide) (Bitwise.mem_of_hasSingle hsingle)

theorem isComparison_append (h : isComparison cs = true) (ds : List Char) :
    isComparison (ds ++ cs) = true := by
  induction ds with
  | nil => exact h
  | cons d ds ih => rw [List.cons_append, isComparison, ih, Bool.or_true]

theorem isComparison_of_sign : ∀ sign ∈ relations.map (·.1), ∀ rest,
    isComparison (sign.toList ++ rest) = true := by
  simp only [relations, List.map_cons, List.map_nil, List.forall_mem_cons]
  exact ⟨fun _ => rfl, fun _ => rfl, fun _ => rfl, fun _ => rfl, fun _ => rfl, fun _ => rfl,
    fun _ => rfl, fun sign hsign => absurd hsign List.not_mem_nil⟩

/-- A comparison is taken for one. -/
theorem detect_of_isComparison (h : IsComparison IsOperand cs left sign right) :
    Mode.detect cs = .comparison := by
  rw [Mode.detect, isBitwise_of_isComparison h, if_neg Bool.false_ne_true, if_pos]
  obtain ⟨⟨bs, bs', rfl, -⟩, hsign, -⟩ := h
  rw [List.append_assoc, List.append_assoc]
  exact isComparison_append (isComparison_of_sign sign hsign _) _

/-! ## Answers -/

/-- **A comparison is answered by its value**, however it is spaced. -/
theorem evaluate_comparison {query : String} {holds : Float → Float → Bool} {x y : Float}
    (hx : Decimal.readFloat? left = some x) (hy : Decimal.readFloat? right = some y)
    (hmem : (sign, holds) ∈ relations)
    (h : IsComparison IsNumeral (trim query.toList) left sign right) :
    evaluate query = truthAnswer (trimmed query) (holds x y) := by
  have hform := h.canonical
  have hmode := detect_of_isComparison hform.operands
  have hne := ne_nil_of_detect (by rw [hmode]; decide)
  have hvalue : Comparison.evaluate (canonical query.toList) = .ok (holds x y) := by
    rw [← trim_canonical] at hform
    exact evaluate_of_read hx hy hmem hform.operands
  rw [evaluate, answer?_trimmed hne, hmode]
  dsimp only
  rw [hvalue]
  rfl

/-- Signs that say the same of two numbers as their partners say of these exchanged. -/
def duals : List (String × String) := [("<", ">"), ("<=", ">=")]

/-- Signs that deny that two numbers are equal. -/
def denials : List String := ["!=", "<>"]

theorem dual_mem : ∀ pair ∈ duals, ∃ holds, (pair.1, holds) ∈ relations ∧
    (pair.2, fun x y => holds y x) ∈ relations := by
  simp only [duals, List.forall_mem_cons]
  refine ⟨⟨fun x y => x < y, ?_, ?_⟩, ⟨fun x y => x ≤ y, ?_, ?_⟩, nofun⟩ <;> simp [relations]

theorem equal_mem : ("==", fun x y => x == y) ∈ relations := .head _

theorem denial_mem : ∀ sign ∈ denials, (sign, fun x y => !(x == y)) ∈ relations := by
  simp only [denials, List.forall_mem_cons]
  exact ⟨.tail _ (.head _), .tail _ (.tail _ (.head _)), nofun⟩

section
variable {query query' : String} {sign' : String}

theorem evaluate_dual (hdual : (sign, sign') ∈ duals)
    (h : IsComparison IsNumeral (trim query.toList) left sign right)
    (h' : IsComparison IsNumeral (trim query'.toList) right sign' left) :
    ∃ v, evaluate query = truthAnswer (trimmed query) v ∧
      evaluate query' = truthAnswer (trimmed query') v := by
  obtain ⟨holds, hmem, hmem'⟩ := dual_mem _ hdual
  obtain ⟨x, hx⟩ := h.left.exists_float
  obtain ⟨y, hy⟩ := h.right.exists_float
  have hdual := evaluate_comparison hy hx hmem' h'
  exact ⟨holds x y, evaluate_comparison hx hy hmem h, hdual⟩

theorem evaluate_denials (hsign : sign ∈ denials) (hsign' : sign' ∈ denials)
    (h : IsComparison IsNumeral (trim query.toList) left sign right)
    (h' : IsComparison IsNumeral (trim query'.toList) left sign' right) :
    ∃ v, evaluate query = truthAnswer (trimmed query) v ∧
      evaluate query' = truthAnswer (trimmed query') v := by
  obtain ⟨x, hx⟩ := h.left.exists_float
  obtain ⟨y, hy⟩ := h.right.exists_float
  have hanswer := evaluate_comparison hx hy (denial_mem _ hsign) h
  have hanswer' := evaluate_comparison hx hy (denial_mem _ hsign') h'
  exact ⟨!(x == y), hanswer, hanswer'⟩

theorem evaluate_opposite (hsign : sign ∈ denials)
    (h : IsComparison IsNumeral (trim query.toList) left "==" right)
    (h' : IsComparison IsNumeral (trim query'.toList) left sign right) :
    ∃ v, evaluate query = truthAnswer (trimmed query) v ∧
      evaluate query' = truthAnswer (trimmed query') !v := by
  obtain ⟨x, hx⟩ := h.left.exists_float
  obtain ⟨y, hy⟩ := h.right.exists_float
  have hequal := evaluate_comparison hx hy equal_mem h
  have hdenied := evaluate_comparison hx hy (denial_mem _ hsign) h'
  exact ⟨x == y, hequal, hdenied⟩

end

end

/-- **A text has a value if and only if it is a comparison of numerals**, and the value is what its
sign says of their numbers. However they are spaced, comparisons with dual signs and their numerals
exchanged have one answer, so have those that deny that two numerals are equal, and it is the
opposite of the answer of the one that says so. -/
theorem comparison_spec :
    (∀ cs, (∃ v, Comparison.evaluate cs = .ok v) ↔
      ∃ left sign right, IsComparison IsNumeral (trim cs) left sign right) ∧
    (∀ cs left sign right, IsComparison IsNumeral (trim cs) left sign right →
      ∃ x y holds, Decimal.readFloat? left = some x ∧ Decimal.readFloat? right = some y ∧
        (sign, holds) ∈ relations ∧ Comparison.evaluate cs = .ok (holds x y)) ∧
    (∀ query query' a b sign sign', (sign, sign') ∈ duals →
      IsComparison IsNumeral (trim query.toList) a sign b →
      IsComparison IsNumeral (trim query'.toList) b sign' a →
        ∃ v, evaluate query = truthAnswer (trimmed query) v ∧
          evaluate query' = truthAnswer (trimmed query') v) ∧
    (∀ query query' a b, ∀ sign ∈ denials, ∀ sign' ∈ denials,
      IsComparison IsNumeral (trim query.toList) a sign b →
      IsComparison IsNumeral (trim query'.toList) a sign' b →
        ∃ v, evaluate query = truthAnswer (trimmed query) v ∧
          evaluate query' = truthAnswer (trimmed query') v) ∧
    ∀ query query' a b, ∀ sign ∈ denials,
      IsComparison IsNumeral (trim query.toList) a "==" b →
      IsComparison IsNumeral (trim query'.toList) a sign b →
        ∃ v, evaluate query = truthAnswer (trimmed query) v ∧
          evaluate query' = truthAnswer (trimmed query') !v :=
  ⟨fun _ => exists_value_iff, fun _ _ _ _ => exists_value,
    fun _ _ _ _ _ _ => evaluate_dual,
    fun _ _ _ _ _ hsign _ hsign' => evaluate_denials hsign hsign',
    fun _ _ _ _ _ hsign => evaluate_opposite hsign⟩

/-- A plus or a minus next to a sign of comparison belongs to the numeral, and a shorter sign is
not taken for a longer one. -/
theorem comparison_spec_glued :
    (IsComparison IsNumeral (trim "5<-3".toList) "5".toList "<" "-3".toList ∧
      IsComparison IsNumeral (trim " -3  > 5".toList) "-3".toList ">" "5".toList ∧
        ∃ v, evaluate "5<-3" = truthAnswer "5<-3" v ∧
          evaluate " -3  > 5" = truthAnswer "-3  > 5" v) ∧
    IsComparison IsNumeral (trim "5==-3".toList) "5".toList "==" "-3".toList ∧
      IsComparison IsNumeral (trim "5<> -3".toList) "5".toList "<>" "-3".toList ∧
        ∃ v, evaluate "5==-3" = truthAnswer "5==-3" v ∧
          evaluate "5<> -3" = truthAnswer "5<> -3" !v := by
  have hfive : IsNumeral "5".toList :=
    ⟨⟨[], "5".toList, rfl, by decide, .whole (by decide) (by decide)⟩, by decide⟩
  have hthree : IsNumeral "-3".toList :=
    ⟨⟨['-'], "3".toList, rfl, by decide, .whole (by decide) (by decide)⟩, by decide⟩
  have hless : IsComparison IsNumeral (trim "5<-3".toList) "5".toList "<" "-3".toList :=
    ⟨⟨[], [], by decide, nofun⟩, by decide, hfive, hthree⟩
  have hgreater : IsComparison IsNumeral (trim " -3  > 5".toList) "-3".toList ">" "5".toList :=
    ⟨⟨"  ".toList, " ".toList, by decide, by decide⟩, by decide, hthree, hfive⟩
  have hequal : IsComparison IsNumeral (trim "5==-3".toList) "5".toList "==" "-3".toList :=
    ⟨⟨[], [], by decide, nofun⟩, by decide, hfive, hthree⟩
  have hunequal : IsComparison IsNumeral (trim "5<> -3".toList) "5".toList "<>" "-3".toList :=
    ⟨⟨[], " ".toList, by decide, by decide⟩, by decide, hfive, hthree⟩
  exact ⟨⟨hless, hgreater, comparison_spec.2.2.1 _ _ _ _ _ _ (.head _) hless hgreater⟩, hequal,
    hunequal, comparison_spec.2.2.2.2 _ _ _ _ _ (by decide) hequal hunequal⟩

end Reckoner.Logic
