/-
  How the texts of expressions are cut.

  * `cut_canonical`: a canonical text is cut at its blanks;
  * `key_tokenize`: the kinds and texts of the tokens are those of the slices;
  * `takes_minus`, `takes_numeral`, `takes_word`: each is one lexeme;
  * `parse_kind`, `parse_tokens`, `parse_error_iff`: what is read of a query that is not blank.
-/
import Reckoner.Expression
import Reckoner.Proofs.Decimal.Numeral

namespace Reckoner

open Text

/-! ## Slices -/

/-- Only the characters of the text matter to what is passed over. -/
theorem Slice.cut_congr {α : Type} {skip skip' : Char → Bool}
    {rule : Char → List Char → α × Nat} {cs : List Char} (h : ∀ c ∈ cs, skip c = skip' c)
    (position : Nat) : Slice.cut skip rule position cs = Slice.cut skip' rule position cs := by
  induction position, cs using Slice.cut_induction skip rule with
  | nil position => rw [Slice.cut_nil, Slice.cut_nil]
  | pass position c cs hc ih =>
    obtain ⟨hsame, hrest⟩ := List.forall_mem_cons.1 h
    rw [Slice.cut_pass hc, Slice.cut_pass (hsame ▸ hc), ih hrest]
  | slice position c cs hc ih =>
    obtain ⟨hsame, hrest⟩ := List.forall_mem_cons.1 h
    rw [Slice.cut_slice hc, Slice.cut_slice (hsame ▸ hc)]
    rw [ih fun d hd => hrest d (List.mem_of_mem_drop hd)]

namespace Expression

/-- A canonical text is cut at its blanks. -/
theorem cut_canonical (kind : Kind) (cs : List Char) :
    Slice.cut isSpace (lexeme (kind == .unitConversion)) 0 (canonical cs) =
      Slice.cut isBlank (lexeme (kind == .unitConversion)) 0 (canonical cs) := by
  refine Slice.cut_congr (fun c hc => ?_) 0
  rw [Bool.eq_iff_iff]
  constructor
  · intro h
    simp only [isSpace, Bool.or_eq_true, beq_iff_eq] at h
    rcases h with ((rfl | rfl) | rfl) | rfl <;> decide
  · intro h
    obtain rfl := eq_space_of_canonical c hc h
    rfl

/-- The kind and the text of a token. -/
def key (t : Token) : TokenKind × String := (t.kind, t.value)

/-- What a lexeme becomes. -/
def lexemeKey (kind : Kind) (s : Lexeme × List Char) : TokenKind × String :=
  (lexemeKind kind ⟨s.1, s.2, 0⟩, String.ofList s.2)

/-- The kinds and texts of the tokens are those of the lexemes. -/
theorem key_tokenize {kind : Kind} {cs : List Char} {pieces : List (Lexeme × List Char)}
    (h : Spaced (·.2) (fun s rest => Takes (lexeme (kind == .unitConversion)) s.2 s.1 rest) pieces
      (canonical cs)) :
    (tokenize kind (canonical cs)).map key = pieces.map (lexemeKey kind) := by
  have hcut := h.cut (fun _ _ htakes => htakes) 0
  rw [tokenize, cut_canonical]
  generalize Slice.cut isBlank _ 0 (canonical cs) = slices at hcut ⊢
  rw [List.map_map]
  have hpieces : slices.map (fun s => (s.tag, s.text)) = pieces := by
    rw [hcut]
    exact List.map_id' pieces
  rw [← hpieces, List.map_map]
  rfl

/-! ## Lexemes -/

theorem takes_minus (slash : Bool) (rest : List Char) :
    Takes (lexeme slash) ['-'] .sign rest := by
  refine ⟨'-', [], rfl, rfl, ?_⟩
  have hdouble : (rest.head?.any fun d => doubleSigns.contains ('-', d)) = false := by
    cases rest with
    | nil => rfl
    | cons d rest => simp [doubleSigns]
  rw [List.nil_append, lexeme, if_neg (by decide), if_neg (by simp), if_neg (by decide), hdouble]
  rfl

theorem lexeme_of_digit {c : Char} (hc : isAsciiDigit c = true) (slash : Bool) (cs : List Char) :
    lexeme slash c cs = (.number, numberRun c cs) := by
  rw [lexeme, if_pos hc]

theorem fractionRun_of_not_point {rest : List Char} (h : rest.head? ≠ some '.') :
    fractionRun rest = 0 := by
  unfold fractionRun
  split
  · exact absurd rfl h
  · rfl

theorem isBaseDigit_digit {base : Nat} (hbase : base ≤ 10) {c : Char}
    (h : Logic.Bitwise.isBaseDigit base c = true) : isDigit c = true := by
  rw [Logic.Bitwise.isBaseDigit] at h
  split_ifs at h with hdigit
  · exact isDigit_of_ascii hdigit
  · simp only [Bool.and_eq_true, beq_iff_eq] at h
    omega

/-- A text with a letter of base 2 or 8 and no digit after it starts with no literal. -/
theorem basedRun_eq_zero {cs : List Char} (hx : cs.head? ≠ some 'x')
    (h : ∀ c ∈ cs, isDigit c = false) : basedRun cs = 0 := by
  cases cs with
  | nil => rfl
  | cons c cs =>
    have hcx : ¬ (c == 'x') = true := by
      intro hc
      exact hx (by rw [List.head?_cons, beq_iff_eq.1 hc])
    have hrun (base : Nat) (hbase : base ≤ 10) :
        cs.takeWhile (Logic.Bitwise.isBaseDigit base) = [] := by
      cases cs with
      | nil => rfl
      | cons d cs =>
        refine List.takeWhile_cons_of_neg fun hd => ?_
        exact Bool.false_ne_true
          ((h d (by simp)).symm.trans (isBaseDigit_digit hbase hd))
    have hrun₂ := hrun 2 (by omega)
    have hrun₈ := hrun 8 (by omega)
    rw [basedRun, if_neg hcx]
    split_ifs <;> simp_all

theorem basedRun_of_digit {c : Char} (hc : (isDigit c || c == '.') = true) (cs : List Char) :
    basedRun (c :: cs) = 0 := by
  have hletters : ∀ d ∈ ['x', 'b', 'o'], ¬ (isDigit d || d == '.') = true := by decide
  have hne : ∀ d ∈ ['x', 'b', 'o'], (c == d) = false := by
    intro d hd
    rw [beq_eq_false_iff_ne]
    rintro rfl
    exact hletters c hd hc
  simp [basedRun, hne]

theorem numberRun_of_not_based {c : Char} {cs : List Char} (h : basedRun cs = 0) :
    numberRun c cs = decimalRun cs := by
  simp [numberRun, h]

theorem decimalRun_whole {whole rest : List Char} (hwhole : ∀ c ∈ whole, isAsciiDigit c = true)
    (hrest : ∀ c ∈ rest.head?, isAsciiDigit c = false ∧ c ≠ '.') :
    decimalRun (whole ++ rest) = whole.length := by
  have hrun := Decimal.takeWhile_digits hwhole fun c hc => (hrest c hc).1
  have hpoint : rest.head? ≠ some '.' := fun h => (hrest '.' h).2 rfl
  simp only [decimalRun, hrun, List.drop_left, fractionRun_of_not_point hpoint, Nat.add_zero]

theorem decimalRun_fraction {whole fraction rest : List Char}
    (hwhole : ∀ c ∈ whole, isAsciiDigit c = true)
    (hfraction : ∀ c ∈ fraction, isAsciiDigit c = true) (hne : fraction ≠ [])
    (hrest : ∀ c ∈ rest.head?, isAsciiDigit c = false) :
    decimalRun (whole ++ '.' :: (fraction ++ rest)) = (whole ++ '.' :: fraction).length := by
  have hrun := @Decimal.takeWhile_digits whole ('.' :: (fraction ++ rest)) hwhole
    (by simp; decide)
  have hrun' := Decimal.takeWhile_digits hfraction hrest
  simp only [decimalRun, hrun, List.drop_left, fractionRun, hrun', List.length_append,
    List.length_cons, List.length_eq_zero_iff, hne, if_false]

/-- A numeral is one lexeme before a text without digits and points that does not start with
the letter of base 16. -/
theorem takes_numeral {p rest : List Char} (h : Arithmetic.IsNumeral p) (slash : Bool)
    (hrest : ∀ c ∈ rest, isDigit c = false ∧ c ≠ '.') (hx : rest.head? ≠ some 'x') :
    Takes (lexeme slash) p .number rest := by
  have hascii : ∀ c ∈ rest.head?, isAsciiDigit c = false ∧ c ≠ '.' := by
    intro c hc
    have hmem := hrest c (List.mem_of_mem_head? hc)
    refine ⟨Bool.eq_false_iff.2 fun hdigit => ?_, hmem.2⟩
    exact Bool.false_ne_true (hmem.1.symm.trans (isDigit_of_ascii hdigit))
  obtain ⟨whole, fraction, hwhole, hfraction, hp⟩ := h
  cases whole with
  | nil =>
    obtain ⟨-, hne⟩ | ⟨rfl, hne⟩ := hp
    · exact absurd rfl hne
    · obtain ⟨c, fraction, rfl⟩ := List.exists_cons_of_ne_nil hne
      have hc := hfraction c List.mem_cons_self
      refine ⟨'.', c :: fraction, rfl, rfl, ?_⟩
      rw [lexeme, if_neg (by decide), if_pos (by simpa using hc),
        Decimal.takeWhile_digits hfraction fun c hc => (hascii c hc).1]
  | cons c whole =>
    obtain ⟨hc, hwhole⟩ := List.forall_mem_cons.1 hwhole
    obtain ⟨rfl, -⟩ | ⟨rfl, hne⟩ := hp
    · refine ⟨c, whole, rfl, isBlank_of_asciiDigit hc, ?_⟩
      have hbased : basedRun (whole ++ rest) = 0 := by
        cases whole with
        | nil => exact basedRun_eq_zero hx fun c hc => (hrest c hc).1
        | cons d whole =>
          exact basedRun_of_digit (by simp [isDigit_of_ascii (hwhole d List.mem_cons_self)]) _
      rw [lexeme_of_digit hc, numberRun_of_not_based hbased, decimalRun_whole hwhole hascii]
    · refine ⟨c, whole ++ '.' :: fraction, rfl, isBlank_of_asciiDigit hc, ?_⟩
      have hbased : basedRun (whole ++ '.' :: (fraction ++ rest)) = 0 := by
        cases whole with
        | nil => exact basedRun_of_digit rfl _
        | cons d whole =>
          exact basedRun_of_digit (by simp [isDigit_of_ascii (hwhole d List.mem_cons_self)]) _
      rw [lexeme_of_digit hc, List.append_assoc, List.cons_append, numberRun_of_not_based hbased,
        decimalRun_fraction hwhole hfraction hne fun c hc => (hascii c hc).1]

/-! ## Words -/

theorem asciiBlanks_not_continue :
    asciiBlanks.all fun c => !continuesWord true c := by
  decide

/-- A word ends at a blank. -/
theorem not_continuesWord_of_blank {c : Char} (h : isBlank c = true) :
    continuesWord true c = false := by
  by_cases hlt : c.toNat < 128
  · simpa using List.all_eq_true.1 asciiBlanks_not_continue c (mem_asciiBlanks h hlt)
  · obtain ⟨hletters, hdigits, hnumerals, -⟩ := has_word_of_blank h
    have hletter : isLetter c = false := by
      rw [isLetter, if_neg hlt, hletters]
    have hnumeral : isNumeral c = false := by
      rw [isNumeral, isDigit, if_neg hlt, hdigits, hnumerals, Bool.and_false, Bool.or_false]
    have hsigns : ∀ d ∈ ['_', '°', '²', '/'], (c == d) = false := by
      have hsolid : ∀ d ∈ ['_', '°', '²', '/'], isBlank d = false := by decide
      intro d hd
      rw [beq_eq_false_iff_ne]
      rintro rfl
      exact Bool.false_ne_true ((hsolid c hd).symm.trans h)
    simp [continuesWord, hletter, hnumeral, hsigns]

/-- A character that starts the name of a unit. -/
def startsName (c : Char) : Bool := (isAsciiLower c || c == '°') && c != 'x'

/-- A word of the name of a unit. -/
def isNameWord : List Char → Bool
  | [] => false
  | c :: cs => startsName c && cs.all (continuesWord true)

theorem isLetter_of_lower {c : Char} (h : isAsciiLower c = true) : isLetter c = true := by
  obtain ⟨hfirst, hlast⟩ := isAsciiLower_iff.1 h
  rw [isLetter, if_pos (by omega), isAsciiLetter, h, Bool.true_or]

theorem lexeme_of_startsName {c : Char} (hc : startsName c = true) (slash : Bool)
    (cs : List Char) :
    lexeme slash c cs = (.word, (cs.takeWhile (continuesWord slash)).length) := by
  have hstart : isAsciiDigit c = false ∧ c ≠ '.' ∧ startsWord c = true := by
    rw [startsName, Bool.and_eq_true, Bool.or_eq_true, beq_iff_eq] at hc
    rcases hc.1 with hlower | rfl
    · obtain ⟨hfirst, hlast⟩ := isAsciiLower_iff.1 hlower
      refine ⟨Bool.eq_false_iff.2 fun hdigit => ?_, ?_, ?_⟩
      · have := isAsciiDigit_iff.1 hdigit
        omega
      · rintro rfl
        exact absurd hfirst (by decide)
      · simp [startsWord, isLetter_of_lower hlower]
    · exact ⟨by decide, by decide, by simp [startsWord]⟩
  obtain ⟨hdigit, hpoint, hword⟩ := hstart
  simp [lexeme, hdigit, hpoint, hword]

theorem takes_word {p rest : List Char} (h : isNameWord p = true)
    (hrest : rest.head?.all isBlank = true) : Takes (lexeme true) p .word rest := by
  cases p with
  | nil => cases h
  | cons c cs =>
    obtain ⟨hc, hcs⟩ := Bool.and_eq_true_iff.1 h
    have hblank : isBlank c = false := by
      rw [startsName, Bool.and_eq_true, Bool.or_eq_true, beq_iff_eq] at hc
      rcases hc.1 with hlower | rfl
      · exact isBlank_of_lower hlower
      · decide
    have hstop : rest.takeWhile (continuesWord true) = [] := by
      cases rest with
      | nil => rfl
      | cons d rest =>
        exact List.takeWhile_cons_of_neg (Bool.eq_false_iff.1 (not_continuesWord_of_blank hrest))
    refine ⟨c, cs, rfl, hblank, ?_⟩
    rw [lexeme_of_startsName hc, List.takeWhile_append_of_pos (List.all_eq_true.1 hcs), hstop,
      List.append_nil]

/-! ## Queries -/

section
variable {q : String} (h : isBlankText q = false)
include h

theorem parse_kind : (parse q).kind = Kind.detect (canonical q.toList) := by
  rw [parse, if_neg (Bool.eq_false_iff.1 h)]

theorem parse_tokens :
    (parse q).tokens = tokenize (Kind.detect (canonical q.toList)) (canonical q.toList) := by
  rw [parse, if_neg (Bool.eq_false_iff.1 h)]

theorem parse_error_iff : (parse q).error = none ↔
    validate (Kind.detect (canonical q.toList))
      (tokenize (Kind.detect (canonical q.toList)) (canonical q.toList)) = .ok () := by
  rw [parse, if_neg (Bool.eq_false_iff.1 h)]
  dsimp only
  split <;> simp [*]

end

end Expression

end Reckoner
