/-
  What the steps of spelling and the cutting of arithmetic make of numerals, names and signs.

  * `IsNumeral`, `IsName`: digits with or without a point; a letter, then letters and digits;
  * `IsNumeral.explicit`, `IsName.explicit`, `explicitProducts_sign`: where product signs are put
    before them, and what the text ends in after them;
  * `IsNumeral.replaceable`: no name is replaced in a numeral;
  * `IsNumeral.takes`, `IsName.takes`: each is one lexeme.
-/
import Mathlib.Tactic.Common
import Reckoner.Arithmetic.Lexer
import Reckoner.Arithmetic.Spelling
import Reckoner.Proofs.Text.Replace

namespace Reckoner.Arithmetic

open Text

/-- Digits, with a point between or before them. -/
def IsNumeral (p : List Char) : Prop :=
  ∃ whole fraction : List Char, (∀ c ∈ whole, isAsciiDigit c = true) ∧
    (∀ c ∈ fraction, isAsciiDigit c = true) ∧
    (p = whole ∧ whole ≠ [] ∨ p = whole ++ '.' :: fraction ∧ fraction ≠ [])

/-- A letter, then letters and digits. -/
def IsName (p : List Char) : Prop :=
  ∃ c cs, p = c :: cs ∧ isAsciiLower c = true ∧
    ∀ d ∈ cs, (isAsciiLower d || isAsciiDigit d) = true

theorem IsNumeral.exists_digit {p : List Char} (h : IsNumeral p) :
    ∃ c ∈ p, isAsciiDigit c = true := by
  obtain ⟨whole, fraction, hwhole, hfraction, ⟨rfl, hne⟩ | ⟨rfl, hne⟩⟩ := h
  · obtain ⟨c, hc⟩ := List.exists_mem_of_ne_nil _ hne
    exact ⟨c, hc, hwhole c hc⟩
  · obtain ⟨c, hc⟩ := List.exists_mem_of_ne_nil _ hne
    exact ⟨c, List.mem_append_right _ (List.mem_cons_of_mem _ hc), hfraction c hc⟩

theorem IsNumeral.exists_cons {p : List Char} (h : IsNumeral p) :
    ∃ c cs, p = c :: cs ∧ (isDigit c || c == '.') = true := by
  obtain ⟨whole, fraction, hwhole, -, hp⟩ := h
  cases whole with
  | nil =>
    obtain ⟨-, hne⟩ | ⟨rfl, -⟩ := hp
    · exact absurd rfl hne
    · exact ⟨'.', fraction, rfl, rfl⟩
  | cons c whole =>
    have hc : (isDigit c || c == '.') = true := by
      rw [isDigit_of_ascii (hwhole c List.mem_cons_self), Bool.true_or]
    obtain ⟨rfl, -⟩ | ⟨rfl, -⟩ := hp
    · exact ⟨c, _, rfl, hc⟩
    · exact ⟨c, _, rfl, hc⟩

theorem IsNumeral.forall_mem {P : Char → Prop} (hdigit : ∀ c, isAsciiDigit c = true → P c)
    (hpoint : P '.') {p : List Char} (h : IsNumeral p) : ∀ c ∈ p, P c := by
  obtain ⟨whole, fraction, hwhole, hfraction, ⟨rfl, -⟩ | ⟨rfl, -⟩⟩ := h
  · exact fun c hc => hdigit c (hwhole c hc)
  · simp only [List.forall_mem_append, List.forall_mem_cons]
    exact ⟨fun c hc => hdigit c (hwhole c hc), hpoint, fun c hc => hdigit c (hfraction c hc)⟩

theorem isName_of_lower {p : List Char} (hne : p ≠ [])
    (hp : ∀ c ∈ p, isAsciiLower c = true) : IsName p := by
  obtain ⟨c, cs, rfl⟩ := List.exists_cons_of_ne_nil hne
  obtain ⟨hc, hcs⟩ := List.forall_mem_cons.1 hp
  exact ⟨c, cs, rfl, hc, fun d hd => by rw [hcs d hd, Bool.true_or]⟩

theorem isWordChar_of_nameChar {c : Char} (h : (isAsciiLower c || isAsciiDigit c) = true) :
    isWordChar c = true := by
  rw [Bool.or_eq_true] at h
  rcases h with h | h
  · exact isWordChar_of_lower h
  · exact isWordChar_of_digit (isDigit_of_ascii h)

theorem IsName.isWordChar {p : List Char} (h : IsName p) : ∀ c ∈ p, isWordChar c = true := by
  obtain ⟨c, cs, rfl, hc, hcs⟩ := h
  exact List.forall_mem_cons.2 ⟨isWordChar_of_lower hc, fun d hd =>
    isWordChar_of_nameChar (hcs d hd)⟩

theorem startsOperand_of_digit {c : Char} (h : isAsciiDigit c = true) :
    startsOperand c = false := by
  obtain ⟨hfirst, hlast⟩ := isAsciiDigit_iff.1 h
  have hlower : isAsciiLower c = false := by
    rw [Bool.eq_false_iff]
    intro hlower
    have := isAsciiLower_iff.1 hlower
    omega
  have hopen : '(' ≠ c := by
    rintro rfl
    exact absurd hfirst (by decide)
  rw [startsOperand, hlower, beq_eq_false_iff_ne.2 hopen.symm]
  rfl

/-! ## Product signs after numbers -/

namespace Tail

theorem push_digit {t : Tail} (ht : t ≠ .word) {c : Char} (hc : isAsciiDigit c = true) :
    t.push c = .number := by
  unfold push
  rw [if_pos (isDigit_of_ascii hc)]
  cases t with
  | gap => rfl
  | number => rfl
  | word => exact absurd rfl ht

theorem push_word {c : Char} (hc : isWordChar c = true) : word.push c = word := by
  unfold push
  split_ifs
  · rfl
  · rfl

theorem push_lower (t : Tail) {c : Char} (hc : isAsciiLower c = true) : t.push c = word := by
  unfold push
  rw [isDigit_of_lower hc, if_neg Bool.false_ne_true, if_pos (isWordChar_of_lower hc)]

theorem push_sign (t : Tail) {c : Char} (hc : isWordChar c = false) : t.push c = gap := by
  have hdigit : isDigit c = false := by
    rw [Bool.eq_false_iff]
    exact fun h => Bool.false_ne_true (hc.symm.trans (isWordChar_of_digit h))
  unfold push
  rw [hdigit, if_neg Bool.false_ne_true, hc, if_neg Bool.false_ne_true]

theorem foldl_push_digits {t : Tail} (ht : t ≠ .word) {cs : List Char}
    (hcs : ∀ c ∈ cs, isAsciiDigit c = true) (hne : cs ≠ []) : cs.foldl push t = .number := by
  induction cs generalizing t with
  | nil => exact absurd rfl hne
  | cons c cs ih =>
    obtain ⟨hc, hcs⟩ := List.forall_mem_cons.1 hcs
    rw [List.foldl_cons, push_digit ht hc]
    cases cs with
    | nil => rfl
    | cons d cs => exact ih nofun hcs (List.cons_ne_nil d cs)

end Tail

theorem explicitProducts_cons (t : Tail) {c : Char} (hc : startsOperand c = false)
    (cs : List Char) : explicitProducts t (c :: cs) = c :: explicitProducts (t.push c) cs := by
  rw [explicitProducts]
  exact fun _ h => Bool.false_ne_true (hc.symm.trans h)

theorem explicitProducts_cons_of_ne {t : Tail} (ht : t ≠ .number) (c : Char) (cs : List Char) :
    explicitProducts t (c :: cs) = c :: explicitProducts (t.push c) cs := by
  rw [explicitProducts]
  exact fun h => absurd h ht

theorem explicitProducts_cons_number {c : Char} (hc : startsOperand c = true) (cs : List Char) :
    explicitProducts .number (c :: cs) = '*' :: c :: explicitProducts (Tail.number.push c) cs := by
  rw [explicitProducts]
  exact hc

theorem explicitProducts_keep {p : List Char} (hp : ∀ c ∈ p, startsOperand c = false) (t : Tail)
    (rest : List Char) :
    explicitProducts t (p ++ rest) = p ++ explicitProducts (p.foldl Tail.push t) rest := by
  induction p generalizing t with
  | nil => rfl
  | cons c p ih =>
    obtain ⟨hc, hp⟩ := List.forall_mem_cons.1 hp
    rw [List.cons_append, explicitProducts_cons t hc, ih hp]
    rfl

theorem explicitProducts_word {p : List Char} (hp : ∀ c ∈ p, isWordChar c = true)
    (rest : List Char) :
    explicitProducts .word (p ++ rest) = p ++ explicitProducts .word rest := by
  induction p with
  | nil => rfl
  | cons c p ih =>
    obtain ⟨hc, hp⟩ := List.forall_mem_cons.1 hp
    rw [List.cons_append, explicitProducts_cons_of_ne (t := .word) nofun, Tail.push_word hc, ih hp]
    rfl

theorem explicitProducts_sign (t : Tail) {c : Char} (hc : isWordChar c = false)
    (hstart : startsOperand c = false) (rest : List Char) :
    explicitProducts t (c :: rest) = c :: explicitProducts .gap rest := by
  rw [explicitProducts_cons t hstart, Tail.push_sign t hc]

theorem explicitProducts_opening {t : Tail} (ht : t ≠ .number) (rest : List Char) :
    explicitProducts t ('(' :: rest) = '(' :: explicitProducts .gap rest := by
  rw [explicitProducts_cons_of_ne ht, Tail.push_sign t rfl]

theorem explicitProducts_number_opening (rest : List Char) :
    explicitProducts .number ('(' :: rest) = '*' :: '(' :: explicitProducts .gap rest := by
  rw [explicitProducts_cons_number rfl, Tail.push_sign .number rfl]

theorem IsNumeral.explicit {p : List Char} (h : IsNumeral p) (rest : List Char) :
    explicitProducts .gap (p ++ rest) = p ++ explicitProducts .number rest := by
  obtain ⟨whole, fraction, hwhole, hfraction, ⟨rfl, hne⟩ | ⟨rfl, hne⟩⟩ := h
  · rw [explicitProducts_keep fun c hc => startsOperand_of_digit (hwhole c hc),
      Tail.foldl_push_digits (t := .gap) nofun hwhole hne]
  · have hkeep : ∀ c ∈ whole ++ '.' :: fraction, startsOperand c = false := by
      simp only [List.forall_mem_append, List.forall_mem_cons]
      exact ⟨fun c hc => startsOperand_of_digit (hwhole c hc), rfl,
        fun c hc => startsOperand_of_digit (hfraction c hc)⟩
    rw [explicitProducts_keep hkeep, List.foldl_append, List.foldl_cons,
      Tail.push_sign _ rfl, Tail.foldl_push_digits (t := .gap) nofun hfraction hne]

theorem IsName.explicit {p : List Char} (h : IsName p) {t : Tail} (ht : t ≠ .number)
    (rest : List Char) :
    explicitProducts t (p ++ rest) = p ++ explicitProducts .word rest := by
  obtain ⟨c, cs, rfl, hc, hcs⟩ := h
  rw [List.cons_append, explicitProducts_cons_of_ne ht, Tail.push_lower t hc,
    explicitProducts_word fun d hd => isWordChar_of_nameChar (hcs d hd)]
  rfl

theorem IsName.explicit_number {p : List Char} (h : IsName p) (rest : List Char) :
    explicitProducts .number (p ++ rest) = '*' :: p ++ explicitProducts .word rest := by
  obtain ⟨c, cs, rfl, hc, hcs⟩ := h
  have hstart : startsOperand c = true := by rw [startsOperand, hc, Bool.true_or]
  rw [List.cons_append, explicitProducts_cons_number hstart, Tail.push_lower _ hc,
    explicitProducts_word fun d hd => isWordChar_of_nameChar (hcs d hd)]
  rfl

/-! ## Product signs after groups -/

theorem groupProducts_keep {p : List Char} (hp : ')' ∉ p) (rest : List Char) :
    groupProducts (p ++ rest) = p ++ groupProducts rest := by
  induction p with
  | nil => rfl
  | cons c p ih =>
    rw [List.mem_cons, not_or] at hp
    have hparen : (c == ')') = false := beq_eq_false_iff_ne.2 (Ne.symm hp.1)
    rw [List.cons_append, groupProducts, hparen, Bool.false_and, if_neg Bool.false_ne_true,
      ih hp.2, List.cons_append]

/-! ## Words in numerals -/

theorem digits_ne_word {digits word : List Char} (hne : digits ≠ [])
    (hdigits : ∀ c ∈ digits, isAsciiDigit c = true) (hword : ∀ c ∈ word, isAsciiLower c = true) :
    digits ≠ word := by
  rintro rfl
  obtain ⟨c, hc⟩ := List.exists_mem_of_ne_nil _ hne
  have := isAsciiDigit_iff.1 (hdigits c hc)
  have := isAsciiLower_iff.1 (hword c hc)
  omega

theorem isWordChar_of_digits {digits : List Char}
    (hdigits : ∀ c ∈ digits, isAsciiDigit c = true) : ∀ c ∈ digits, isWordChar c = true :=
  fun c hc => isWordChar_of_digit (isDigit_of_ascii (hdigits c hc))

/-- No name is replaced in a numeral. -/
theorem IsNumeral.replaceable {p : List Char} (h : IsNumeral p) : Replaceable p := by
  obtain ⟨whole, fraction, hwhole, hfraction, ⟨rfl, hne⟩ | ⟨rfl, hne⟩⟩ := h
  · exact Uniform.replaceable ⟨hne, .inl (isWordChar_of_digits hwhole)⟩
  · intro word replacement rest hword hapart
    have hrest : StartsApart rest := by
      refine hapart.resolve_left fun hends => ?_
      rw [EndsApart, List.getLast?_append, List.getLast?_cons] at hends
      have hlast := List.getLast?_eq_some_getLast hne
      rw [hlast] at hends
      exact Bool.false_ne_true
        (hends.symm.trans (isWordChar_of_digits hfraction _ (List.getLast_mem hne)))
    have hword' : ∀ c ∈ word, isWordChar c = true := fun c hc => isWordChar_of_lower (hword c hc)
    have hneq : whole ++ '.' :: fraction ≠ word := by
      rintro rfl
      exact Bool.false_ne_true (hword '.' (by simp))
    have hkeep : replaceWord word replacement ('.' :: fraction ++ rest) =
        '.' :: fraction ++ replaceWord word replacement rest := by
      rw [List.cons_append, replaceWord_cons hword' rfl,
        replaceWord_run hne (isWordChar_of_digits hfraction) hrest,
        if_neg (digits_ne_word hne hfraction hword), List.cons_append]
    rw [if_neg hneq, List.append_assoc, List.append_assoc]
    cases whole with
    | nil => exact hkeep
    | cons c whole =>
      have hcons := List.cons_ne_nil c whole
      have hpoint : StartsApart ('.' :: fraction ++ rest) := rfl
      rw [replaceWord_run hcons (isWordChar_of_digits hwhole) hpoint,
        if_neg (digits_ne_word hcons hwhole hword), hkeep]

/-! ## Lexemes -/

theorem digitRun_apart {digits rest : List Char}
    (hdigits : ∀ c ∈ digits, isAsciiDigit c = true) (hrest : StartsApart rest) :
    digitRun (digits ++ rest) = digits.length := by
  rw [digitRun, takeWhile_apart (fun _ => isWordChar_of_digit)
    (fun c hc => isDigit_of_ascii (hdigits c hc)) hrest]

theorem numeralRun_of_whole {digits rest : List Char}
    (hdigits : ∀ c ∈ digits, isAsciiDigit c = true) (hrest : StartsApart rest)
    (hpoint : rest.head? ≠ some '.') : numeralRun (digits ++ rest) = digits.length := by
  simp only [numeralRun, digitRun_apart hdigits hrest, List.drop_left]
  split
  · exact absurd rfl hpoint
  · rfl

theorem numeralRun_of_fraction {digits fraction rest : List Char}
    (hdigits : ∀ c ∈ digits, isAsciiDigit c = true)
    (hfraction : ∀ c ∈ fraction, isAsciiDigit c = true) (hrest : StartsApart rest) :
    numeralRun (digits ++ '.' :: (fraction ++ rest)) = (digits ++ '.' :: fraction).length := by
  have hpoint : StartsApart ('.' :: (fraction ++ rest)) := rfl
  simp only [numeralRun, digitRun_apart hdigits hpoint, List.drop_left,
    digitRun_apart hfraction hrest, List.length_append, List.length_cons]
  omega

theorem IsNumeral.takes {p : List Char} (h : IsNumeral p) {rest : List Char}
    (hrest : StartsApart rest) (hpoint : rest.head? ≠ some '.') :
    Takes lexeme p .number rest := by
  obtain ⟨whole, fraction, hwhole, hfraction, hp⟩ := h
  have hstart : ∀ {c cs}, isAsciiDigit c = true → ∀ n, numeralRun cs = n →
      lexeme c cs = (.number, n) := by
    rintro c cs hc _ rfl
    rw [lexeme, if_pos (isDigit_of_ascii hc)]
  cases whole with
  | nil =>
    obtain ⟨-, hne⟩ | ⟨rfl, hne⟩ := hp
    · exact absurd rfl hne
    · obtain ⟨c, fraction, rfl⟩ := List.exists_cons_of_ne_nil hne
      have hc := isDigit_of_ascii (hfraction c List.mem_cons_self)
      refine ⟨'.', c :: fraction, rfl, rfl, ?_⟩
      rw [lexeme, if_neg (by decide), if_pos (by simpa using hc),
        digitRun_apart hfraction hrest]
  | cons c whole =>
    obtain ⟨hc, hwhole⟩ := List.forall_mem_cons.1 hwhole
    have hblank := isBlank_of_asciiDigit hc
    obtain ⟨rfl, -⟩ | ⟨rfl, -⟩ := hp
    · exact ⟨c, whole, rfl, hblank, hstart hc _ (numeralRun_of_whole hwhole hrest hpoint)⟩
    · refine ⟨c, whole ++ '.' :: fraction, rfl, hblank, hstart hc _ ?_⟩
      rw [List.append_assoc, List.cons_append]
      exact numeralRun_of_fraction hwhole hfraction hrest

theorem lexeme_of_lower {c : Char} (hc : isAsciiLower c = true) (cs : List Char) :
    lexeme c cs =
      (.function, (cs.takeWhile fun d => isAsciiLower d || isAsciiDigit d).length) := by
  have hsigns : ∀ d ∈ ['.', '+', '-', '*', '/', '^', '%', '(', ')', ','], c ≠ d :=
    ne_signs_of_lower hc rfl
  simp only [List.forall_mem_cons] at hsigns
  simp [lexeme, operatorChars, isDigit_of_lower hc, hc, hsigns]

theorem IsName.takes {p : List Char} (h : IsName p) {rest : List Char}
    (hrest : StartsApart rest) : Takes lexeme p .function rest := by
  obtain ⟨c, cs, rfl, hc, hcs⟩ := h
  refine ⟨c, cs, rfl, isBlank_of_lower hc, ?_⟩
  rw [lexeme_of_lower hc, takeWhile_apart (fun _ => isWordChar_of_nameChar) hcs hrest]

end Reckoner.Arithmetic
