/-
  The names in an expression that has a value.

  * `Starred`: a text with product signs put in, none of them after a letter;
  * `covered_of_tokenize`, `signs_of_tokenize`: where cutting succeeds, letters belong to names
    of functions, and other characters to numbers and operators;
  * `names_of_evaluate`: **in an expression with a value all letters belong to names of
    functions and constants**, once its blanks are taken out;
  * `signs_of_evaluate`: **and all signs are points, operators, parentheses and commas**.
-/
import Reckoner.Arithmetic.Evaluate
import Reckoner.Proofs.Arithmetic.Lexer
import Reckoner.Proofs.Success
import Reckoner.Proofs.Text.Covered

namespace Reckoner.Arithmetic

open Text

/-! ## Product signs -/

/-- The second text is the first with product signs put in, none of them after a letter. -/
inductive Starred : List Char → List Char → Prop
  | nil : Starred [] []
  | keep (c : Char) {cs ds : List Char} : Starred cs ds → Starred (c :: cs) (c :: ds)
  | star {c : Char} {cs ds : List Char} : isAsciiLower c = false → Starred cs ds →
      Starred (c :: cs) (c :: '*' :: ds)

namespace Starred

variable {cs ds w x : List Char}

theorem of_append {xs ys : List Char} (h : Starred (xs ++ ys) ds) :
    ∃ ds₁ ds₂, ds = ds₁ ++ ds₂ ∧ Starred xs ds₁ ∧ Starred ys ds₂ := by
  induction xs generalizing ds with
  | nil => exact ⟨[], ds, rfl, .nil, h⟩
  | cons c xs ih =>
    cases h with
    | keep _ h =>
      obtain ⟨ds₁, ds₂, rfl, h₁, h₂⟩ := ih h
      exact ⟨c :: ds₁, ds₂, rfl, .keep c h₁, h₂⟩
    | star hc h =>
      obtain ⟨ds₁, ds₂, rfl, h₁, h₂⟩ := ih h
      exact ⟨c :: '*' :: ds₁, ds₂, rfl, .star hc h₁, h₂⟩

theorem eq_of_lower (hw : ∀ c ∈ w, isAsciiLower c = true) (h : Starred w ds) : ds = w := by
  induction h with
  | nil => rfl
  | keep c _ ih => rw [ih (List.forall_mem_cons.1 hw).2]
  | star hc =>
    exact absurd (hc.symm.trans (hw _ List.mem_cons_self)) Bool.false_ne_true

theorem eq_of_no_star (h : Starred cs ds) (hstar : '*' ∉ ds) : ds = cs := by
  induction h with
  | nil => rfl
  | keep c _ ih => rw [ih fun hmem => hstar (List.mem_cons_of_mem c hmem)]
  | star => exact absurd (List.mem_cons_of_mem _ List.mem_cons_self) hstar

theorem prefix_of_prefix (h : Starred cs ds) (hx : x <+: ds) (hstar : '*' ∉ x) : x <+: cs := by
  induction h generalizing x with
  | nil => exact hx
  | keep c _ ih =>
    rcases List.prefix_cons_iff.1 hx with rfl | ⟨y, rfl, hy⟩
    · exact List.nil_prefix
    · exact (List.prefix_append_right_inj [c]).2 (ih hy fun h => hstar (List.mem_cons_of_mem c h))
  | @star c _ _ _ _ ih =>
    rcases List.prefix_cons_iff.1 hx with rfl | ⟨y, rfl, hy⟩
    · exact List.nil_prefix
    · rcases List.prefix_cons_iff.1 hy with rfl | ⟨z, rfl, -⟩
      · exact List.prefix_append [c] _
      · exact absurd (List.mem_cons_of_mem c List.mem_cons_self) hstar

theorem suffix_of_suffix (h : Starred cs ds) (hx : x <:+ ds) (hstar : '*' ∉ x) : x <:+ cs := by
  induction h generalizing x with
  | nil => exact hx
  | keep c hrest ih =>
    rcases List.suffix_cons_iff.1 hx with rfl | hx
    · have heq := hrest.eq_of_no_star fun h => hstar (List.mem_cons_of_mem c h)
      exact congrArg (List.cons c) heq ▸ List.suffix_refl _
    · exact (ih hx hstar).trans (List.suffix_cons _ _)
  | star _ _ ih =>
    rcases List.suffix_cons_iff.1 hx with rfl | hx
    · exact absurd (List.mem_cons_of_mem _ List.mem_cons_self) hstar
    · rcases List.suffix_cons_iff.1 hx with rfl | hx
      · exact absurd List.mem_cons_self hstar
      · exact (ih hx hstar).trans (List.suffix_cons _ _)

theorem mem {c : Char} (h : Starred cs ds) (hc : c ∈ cs) : c ∈ ds := by
  induction h with
  | nil => exact hc
  | keep d _ ih =>
    rcases List.mem_cons.1 hc with rfl | hc
    · exact List.mem_cons_self
    · exact List.mem_cons_of_mem d (ih hc)
  | star _ _ ih =>
    rcases List.mem_cons.1 hc with rfl | hc
    · exact List.mem_cons_self
    · exact List.mem_cons_of_mem _ (List.mem_cons_of_mem _ (ih hc))

/-- Letters that lie in words after product signs are put in do so before. -/
theorem covered {words : List (List Char)} (h : Starred cs ds)
    (hwords : ∀ v ∈ words, '*' ∉ v) (hds : Covered words ds) : Covered words cs := by
  rintro pre w rest rfl hne hlower
  obtain ⟨_, rest', rfl, h, hrest⟩ := h.of_append
  obtain ⟨pre', w', rfl, hpre, hw⟩ := h.of_append
  obtain rfl := hw.eq_of_lower hlower
  obtain ⟨x, y, hx, hy, hmem⟩ := hds pre' w' rest' rfl hne hlower
  have hstar := hwords _ hmem
  simp only [List.mem_append, not_or] at hstar
  exact ⟨x, y, hpre.suffix_of_suffix hx hstar.1.1, hrest.prefix_of_prefix hy hstar.2, hmem⟩

end Starred

theorem groupProducts_starred (cs : List Char) : Starred cs (groupProducts cs) := by
  induction cs with
  | nil => exact .nil
  | cons c cs ih =>
    rw [groupProducts]
    split
    · next h =>
      obtain ⟨hparen, -⟩ := Bool.and_eq_true_iff.1 h
      obtain rfl := beq_iff_eq.1 hparen
      exact .star rfl ih
    · exact .keep c ih

/-- A number does not end in a letter. -/
theorem Tail.push_eq_number {t : Tail} {c : Char} (h : t.push c = .number) :
    isAsciiLower c = false := by
  rw [Bool.eq_false_iff]
  intro hc
  rw [push_lower t hc] at h
  exact Tail.noConfusion h

theorem explicitProducts_starred (cs : List Char) :
    Starred cs (explicitProducts .gap cs) := by
  have hfrom : ∀ (t : Tail) (c : Char) (cs : List Char),
      (t = .number → isAsciiLower c = false) → Starred (c :: cs) (c :: explicitProducts t cs) := by
    intro t c cs h
    induction cs generalizing t c with
    | nil => exact .keep c .nil
    | cons d cs ih =>
      have hrest := ih (t.push d) d Tail.push_eq_number
      cases hd : startsOperand d with
      | false =>
        rw [explicitProducts_cons t hd]
        exact .keep c hrest
      | true =>
        by_cases ht : t = .number
        · subst ht
          rw [explicitProducts_cons_number hd]
          exact .star (h rfl) hrest
        · rw [explicitProducts_cons_of_ne ht]
          exact .keep c hrest
  cases cs with
  | nil => exact .nil
  | cons c cs =>
    rw [explicitProducts_cons_of_ne (t := .gap) nofun]
    exact hfrom _ c cs Tail.push_eq_number

/-! ## Tokens -/

/-- The names of the functions. -/
def functionWords : List (List Char) := Function.all.map fun f => f.name.toList

/-- The names of the constants. -/
def constantWords : List (List Char) := constants.map fun c => c.1.toList

/-- The signs of expressions. -/
def signs : List Char := ['.', '+', '-', '*', '/', '^', '%', '(', ')', ',']

theorem take_digitRun (cs : List Char) : cs.take (digitRun cs) = cs.takeWhile isDigit :=
  take_takeWhile isDigit cs

theorem take_numeralRun (cs : List Char) :
    ∀ c ∈ cs.take (numeralRun cs), isDigit c = true ∨ c = '.' := by
  have hrun : ∀ cs : List Char, ∀ c ∈ cs.take (digitRun cs), isDigit c = true := by
    intro cs c hc
    rw [take_digitRun] at hc
    exact List.mem_takeWhile_imp hc
  intro c hc
  unfold numeralRun at hc
  dsimp only at hc
  split at hc
  · next rest hrest =>
    rw [Nat.add_assoc, List.take_add, hrest, Nat.add_comm 1, List.take_succ_cons] at hc
    rcases List.mem_append.1 hc with hc | hc
    · exact .inl (hrun cs c hc)
    · rcases List.mem_cons.1 hc with rfl | hc
      · exact .inr rfl
      · exact .inl (hrun rest c hc)
  · exact .inl (hrun cs c hc)

/-- A token takes word characters and signs only. -/
theorem lexeme_signs {d : Char} {b : List Char} (h : (lexeme d b).1 ≠ .unknown) :
    ∀ c ∈ d :: b.take (lexeme d b).2, isWordChar c = true ∨ c ∈ signs := by
  have hdigit : ∀ c, isDigit c = true ∨ c = '.' → isWordChar c = true ∨ c ∈ signs := by
    rintro c (hc | rfl)
    · exact .inl (isWordChar_of_digit hc)
    · exact .inr List.mem_cons_self
  unfold lexeme at h ⊢
  split_ifs at h ⊢ with hnumber hpoint hoperator hparen hcomma hname
  · exact List.forall_mem_cons.2
      ⟨hdigit d (.inl hnumber), fun c hc => hdigit c (take_numeralRun b c hc)⟩
  · obtain ⟨hd, -⟩ := Bool.and_eq_true_iff.1 hpoint
    refine List.forall_mem_cons.2 ⟨.inr (beq_iff_eq.1 hd ▸ List.mem_cons_self), fun c hc => ?_⟩
    rw [take_digitRun] at hc
    exact hdigit c (.inl (List.mem_takeWhile_imp hc))
  · have hsub : ∀ c ∈ operatorChars, c ∈ signs := by decide
    exact List.forall_mem_singleton.2 (.inr (hsub d (List.contains_iff_mem.1 hoperator)))
  · simp only [Bool.or_eq_true, beq_iff_eq] at hparen
    refine List.forall_mem_singleton.2 (.inr ?_)
    rcases hparen with rfl | rfl <;> decide
  · obtain rfl := beq_iff_eq.1 hcomma
    exact List.forall_mem_singleton.2 (.inr (by decide))
  · refine List.forall_mem_cons.2 ⟨.inl (isWordChar_of_lower hname), fun c hc => .inl ?_⟩
    rw [take_takeWhile] at hc
    have hname := List.mem_takeWhile_imp hc
    exact isWordChar_of_nameChar hname
  · exact absurd rfl h

/-- What is cut to a token is no unknown character. -/
theorem tag_of_toToken {s : Slice TokenKind} {t : Token} (h : toToken s = .ok t) :
    s.tag ≠ .unknown ∧ (s.tag = .function → s.text ∈ functionWords) := by
  unfold toToken at h
  dsimp only at h
  split at h
  · cases h
  · next htag =>
    split at h
    · next hsome =>
      obtain ⟨f, hf⟩ := Option.isSome_iff_exists.1 hsome
      unfold Function.ofName? at hf
      have hname := List.find?_some hf
      have hmem : f.name.toList ∈ functionWords :=
        List.mem_map_of_mem (List.mem_of_find?_eq_some hf)
      rw [beq_iff_eq.1 hname, String.toList_ofList] at hmem
      refine ⟨fun hunknown => ?_, fun _ => hmem⟩
      rw [htag] at hunknown
      cases hunknown
    · cases h
  · next hunknown hfunction => exact ⟨hunknown, fun h => absurd h hfunction⟩

/-- Where cutting fails, something is unknown. -/
theorem tokenize_error {cs : List Char} {f : Failure} (h : tokenize cs = .error f) :
    f.family = .syntactic := by
  obtain ⟨s, -, hs⟩ := error_of_mapM h
  unfold toToken at hs
  dsimp only at hs
  split at hs
  · obtain rfl := Except.error.inj hs
    rfl
  · split at hs
    · cases hs
    · obtain rfl := Except.error.inj hs
      rfl
  · cases hs

section
variable {cs : List Char} {tokens : List Token} (h : tokenize cs = .ok tokens)
include h

theorem signs_of_tokenize : ∀ c ∈ cs, isBlank c = false → isWordChar c = true ∨ c ∈ signs := by
  intro c hc hblank
  obtain ⟨s, hs, hmem⟩ := @Slice.mem_cut _ isBlank lexeme c cs hc hblank 0
  obtain ⟨t, ht⟩ := ok_of_mapM h s hs
  obtain ⟨d, b, -, htag, htext⟩ := Slice.eq_of_mem_cut hs
  have hknown := (tag_of_toToken ht).1
  rw [htag] at hknown
  rw [htext] at hmem
  exact lexeme_signs hknown c hmem

end

/-- A stretch that starts with a letter is part of a longer name only if letters and digits lead
up to it. -/
theorem lexeme_reaches {d : Char} {mid rest : List Char} {c : Char} (hc : isAsciiLower c = true)
    (h : mid.length < (lexeme d (mid ++ c :: rest)).2) :
    isAsciiLower d = true ∧ ∀ e ∈ mid, (isAsciiLower e || isAsciiDigit e) = true := by
  have hdigit := isDigit_of_lower hc
  unfold lexeme at h
  split_ifs at h with hnumber hpoint hoperator hparen hcomma hname
  · -- a numeral would take the letter as a digit or a point
    have hmem : c ∈ (mid ++ c :: rest).take (numeralRun (mid ++ c :: rest)) := by
      obtain ⟨m, hm⟩ : ∃ m, numeralRun (mid ++ c :: rest) = mid.length + (m + 1) :=
        Nat.exists_eq_add_of_lt h
      rw [hm, List.take_append, Nat.add_sub_cancel_left, List.take_succ_cons]
      exact List.mem_append_right _ List.mem_cons_self
    rcases take_numeralRun _ c hmem with hc' | rfl
    · exact absurd (hdigit.symm.trans hc') Bool.false_ne_true
    · exact absurd hc (by decide)
  · exact absurd (hdigit.symm.trans (takeWhile_reaches h).2) Bool.false_ne_true
  · exact absurd h (Nat.not_lt_zero _)
  · exact absurd h (Nat.not_lt_zero _)
  · exact absurd h (Nat.not_lt_zero _)
  · exact ⟨hname, (takeWhile_reaches h).1⟩
  · exact absurd h (Nat.not_lt_zero _)

/-- Where cutting succeeds, letters belong to names of functions. -/
theorem covered_of_tokenize {cs : List Char} {tokens : List Token}
    (h : tokenize cs = .ok tokens) : Covered functionWords cs := by
  rintro pre w rest rfl hne hlower
  obtain ⟨c, w, rfl⟩ := List.exists_cons_of_ne_nil hne
  obtain ⟨hc, hw⟩ := List.forall_mem_cons.1 hlower
  have hname : ∀ e ∈ w, (isAsciiLower e || isAsciiDigit e) = true := by
    intro e he
    rw [hw e he, Bool.true_or]
  have htext : pre ++ c :: w ++ rest = pre ++ c :: (w ++ rest) := by simp
  rw [htext] at h
  rcases @Slice.cut_at _ isBlank lexeme pre (w ++ rest) c (isBlank_of_lower hc) 0 with
    ⟨s, hs, htag, hs'⟩ | ⟨a, d, mid, rfl, hmid, s, hs, htag, hs'⟩
  · obtain ⟨t, ht⟩ := ok_of_mapM h s hs
    rw [lexeme_of_lower hc] at htag hs'
    have hword := (tag_of_toToken ht).2 htag
    rw [hs', take_takeWhile, List.takeWhile_append_of_pos hname] at hword
    exact ⟨[], _, List.nil_suffix, List.takeWhile_prefix _, hword⟩
  · obtain ⟨t, ht⟩ := ok_of_mapM h s hs
    obtain ⟨hd, hmid⟩ := lexeme_reaches hc hmid
    rw [lexeme_of_lower hd] at htag hs'
    have hword := (tag_of_toToken ht).2 htag
    have hrun : ∀ e ∈ mid ++ c :: w, (isAsciiLower e || isAsciiDigit e) = true := by
      rw [List.forall_mem_append, List.forall_mem_cons]
      exact ⟨hmid, by rw [hc, Bool.true_or], hname⟩
    rw [hs', take_takeWhile, ← List.cons_append, ← List.append_assoc,
      List.takeWhile_append_of_pos hrun] at hword
    have hcons : d :: mid ++ c :: w ++ rest.takeWhile (fun e => isAsciiLower e || isAsciiDigit e) =
        d :: (mid ++ c :: w ++ rest.takeWhile fun e => isAsciiLower e || isAsciiDigit e) := rfl
    exact ⟨d :: mid, _, List.suffix_append a _, List.takeWhile_prefix _, hcons ▸ hword⟩

/-! ## Expressions with a value -/

/-- The names that expressions are made of. -/
def nameWords : List (List Char) := constantWords ++ functionWords

theorem nameWords_letters : ∀ v ∈ nameWords, v.head?.all isAsciiLower = true := by
  decide

/-- In a text that can be cut to tokens once it is spelled out, letters belong to names. -/
theorem names_of_tokenize {cs : List Char} {tokens : List Token}
    (h : tokenize (spell cs) = .ok tokens) : Covered nameWords (strip (lower cs)) := by
  have hfunctions : ∀ v ∈ functionWords, '*' ∉ v ∧ ∀ c ∈ v, isWordChar c = true := by
    decide
  have hconstants : ∀ v ∈ constants, ∀ c ∈ v.1.toList, isWordChar c = true := by
    decide
  have hnames : ∀ v ∈ nameWords, '*' ∉ v := by
    decide
  -- the steps of spelling are undone one after another
  have hproducts := (groupProducts_starred _).covered (fun v hv => (hfunctions v hv).1)
    (covered_of_tokenize h)
  have hput := (explicitProducts_starred _).covered (fun v hv => (hfunctions v hv).1) hproducts
  have hconst : Covered nameWords _ :=
    Covered.of_replaceWords hconstants (fun v hv => (hfunctions v hv).2) hput
  exact (explicitProducts_starred _).covered hnames hconst

/-- An expression with a value can be cut to tokens. -/
theorem tokenize_of_evaluate {settings : Settings} {q : String}
    (h : (evaluate settings q).isError = false) :
    ∃ tokens, tokenize (spell (trim q.toList)) = .ok tokens := by
  simp only [evaluate] at h
  obtain ⟨_, h, -⟩ := ok_of_not_isError h
  obtain ⟨_, hvalue, -⟩ := ok_of_bind h
  unfold compute at hvalue
  split at hvalue
  · cases hvalue
  · obtain ⟨tokens, htokens, -⟩ := ok_of_bind hvalue
    rw [trimmed, String.toList_ofList] at htokens
    exact ⟨tokens, htokens⟩

section
variable {settings : Settings} {q : String} (h : (evaluate settings q).isError = false)
include h

/-- **In an expression with a value all letters belong to names of functions and constants**,
once its blanks are taken out. -/
theorem names_of_evaluate : Covered nameWords (strip (lower (trim q.toList))) := by
  obtain ⟨tokens, htokens⟩ := tokenize_of_evaluate h
  exact names_of_tokenize htokens

/-- **All its signs are points, operators, parentheses and commas.** -/
theorem signs_of_evaluate :
    ∀ c ∈ strip (lower (trim q.toList)), isWordChar c = true ∨ c ∈ signs := by
  obtain ⟨tokens, htokens⟩ := tokenize_of_evaluate h
  intro c hc
  have hblank := (mem_strip.1 hc).2
  cases hword : isWordChar c with
  | true => exact .inl rfl
  | false =>
    have hconstants : ∀ v ∈ constants, ∀ d ∈ v.1.toList, isWordChar d = true := by
      decide
    have hput : ∀ v ∈ constants, c ∉ v.1.toList := by
      intro v hv hmem
      exact Bool.false_ne_true (hword.symm.trans (hconstants v hv c hmem))
    have hspell : c ∈ spell (trim q.toList) := by
      have hfirst := mem_replaceWords ((explicitProducts_starred _).mem hc) hput
      exact (groupProducts_starred _).mem ((explicitProducts_starred _).mem hfirst)
    rw [← hword]
    exact signs_of_tokenize htokens c hspell hblank

end

end Reckoner.Arithmetic
