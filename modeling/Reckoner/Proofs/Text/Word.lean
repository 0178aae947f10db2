/-
  Words that stand alone in a text.

  * `Standing`: no word character is next to a word;
  * `fits_word`, `occursIn_word`: a pattern for whole words fits between two boundaries, and
    occurs where one of them stands alone;
  * `standing_collapse`: **a word that stands alone once blanks are collapsed does so before**;
  * `lower_eq_word`: what lower-cases to an English word is that word, if it has no capitals.
-/
import Reckoner.Proofs.Text.Blank
import Reckoner.Proofs.Text.Pattern

namespace Reckoner.Text

/-! ## Blanks are no word characters -/

set_option maxRecDepth 8000 in
/-- Blanks lie apart from all that words are made of. -/
theorem blank_apart_word : blankRanges.apart
    (letterRanges ++ (digitRanges ++ (numeralRanges ++ connectorRanges))) = true := by
  decide

theorem has_word_of_blank {c : Char} (h : isBlank c = true) :
    letterRanges.has c = false ∧ digitRanges.has c = false ∧
      numeralRanges.has c = false ∧ connectorRanges.has c = false := by
  have hword := Ranges.has_of_apart blank_apart_word (isBlank_eq c ▸ h)
  simpa only [Ranges.has_append, Bool.or_eq_false_iff] using hword

theorem asciiBlanks_not_word : asciiBlanks.all fun c => !isWordChar c := by
  decide

theorem isWordChar_of_blank {c : Char} (h : isBlank c = true) : isWordChar c = false := by
  by_cases hlt : c.toNat < 128
  · simpa using List.all_eq_true.1 asciiBlanks_not_word c (mem_asciiBlanks h hlt)
  · obtain ⟨hletter, hdigit, -, hconnector⟩ := has_word_of_blank h
    rw [isWordChar, if_neg hlt, hletter, hdigit, hconnector]
    rfl

/-! ## Letters and digits -/

-- What holds of all or some characters of a text is decided along the text, never over all
-- characters.
instance decidableForallMem (cs : List Char) (p : Char → Prop) [DecidablePred p] :
    Decidable (∀ c ∈ cs, p c) :=
  List.decidableBAll p cs

instance decidableExistsMem (cs : List Char) (p : Char → Prop) [DecidablePred p] :
    Decidable (∃ c ∈ cs, p c) :=
  List.decidableBEx p cs

theorem isAsciiLower_iff {c : Char} : isAsciiLower c = true ↔ 97 ≤ c.toNat ∧ c.toNat ≤ 122 := by
  simp only [isAsciiLower, Bool.and_eq_true, decide_eq_true_eq, Char.le_def,
    UInt32.le_iff_toNat_le]
  exact Iff.rfl

theorem isDigit_of_lower {c : Char} (h : isAsciiLower c = true) : isDigit c = false := by
  obtain ⟨hfirst, hlast⟩ := isAsciiLower_iff.1 h
  rw [isDigit, if_pos (by omega), isAsciiDigit, Bool.and_eq_false_iff]
  refine .inr (decide_eq_false ?_)
  rw [Char.le_def, UInt32.le_iff_toNat_le]
  show ¬ c.toNat ≤ 57
  omega

theorem isWordChar_of_lower {c : Char} (h : isAsciiLower c = true) : isWordChar c = true := by
  obtain ⟨hfirst, hlast⟩ := isAsciiLower_iff.1 h
  rw [isWordChar, if_pos (by omega), isAsciiLetter, h]
  rfl

theorem ne_of_lower {c : Char} (h : isAsciiLower c = true) (d : Char)
    (hd : isAsciiLower d = false) : c ≠ d := by
  rintro rfl
  exact Bool.false_ne_true (hd.symm.trans h)

theorem ne_signs_of_lower {c : Char} (h : isAsciiLower c = true) {signs : List Char}
    (hsigns : signs.all (fun d => !isAsciiLower d) = true) : ∀ d ∈ signs, c ≠ d := by
  intro d hd
  exact ne_of_lower h d (by simpa using List.all_eq_true.1 hsigns d hd)

theorem isWordChar_of_digit {c : Char} (h : isDigit c = true) : isWordChar c = true := by
  unfold isDigit at h
  unfold isWordChar
  split_ifs at h ⊢ with hlt
  · rw [h, Bool.or_true, Bool.true_or]
  · rw [h, Bool.or_true, Bool.true_or]

theorem isAsciiDigit_iff {c : Char} :
    isAsciiDigit c = true ↔ 48 ≤ c.toNat ∧ c.toNat ≤ 57 := by
  simp only [isAsciiDigit, Bool.and_eq_true, decide_eq_true_eq, Char.le_def,
    UInt32.le_iff_toNat_le]
  exact Iff.rfl

theorem isDigit_of_ascii {c : Char} (h : isAsciiDigit c = true) : isDigit c = true := by
  obtain ⟨hfirst, hlast⟩ := isAsciiDigit_iff.1 h
  rwa [isDigit, if_pos (by omega)]

theorem isBlank_of_word {c : Char} (h : isWordChar c = true) : isBlank c = false := by
  rw [Bool.eq_false_iff]
  intro hblank
  exact Bool.false_ne_true ((isWordChar_of_blank hblank).symm.trans h)

theorem isBlank_of_lower {c : Char} (h : isAsciiLower c = true) : isBlank c = false :=
  isBlank_of_word (isWordChar_of_lower h)

theorem isBlank_of_digit {c : Char} (h : isDigit c = true) : isBlank c = false :=
  isBlank_of_word (isWordChar_of_digit h)

theorem isBlank_of_asciiDigit {c : Char} (h : isAsciiDigit c = true) : isBlank c = false :=
  isBlank_of_digit (isDigit_of_ascii h)

theorem isDigit_of_blank {c : Char} (h : isBlank c = true) : isDigit c = false := by
  rw [Bool.eq_false_iff]
  intro hdigit
  exact Bool.false_ne_true ((isBlank_of_digit hdigit).symm.trans h)

/-! ## Edges -/

/-- No word character ends the text. -/
def EndsApart (cs : List Char) : Prop := cs.getLast?.any isWordChar = false

/-- No word character starts the text. -/
def StartsApart (cs : List Char) : Prop := cs.head?.any isWordChar = false

theorem EndsApart.nil : EndsApart [] := rfl

theorem StartsApart.nil : StartsApart [] := rfl

theorem endsApart_append {xs ys : List Char} (hne : ys ≠ []) :
    EndsApart (xs ++ ys) ↔ EndsApart ys := by
  rw [EndsApart, List.getLast?_append_of_ne_nil _ hne, EndsApart]

theorem EndsApart.of_append {xs ys : List Char} (h : EndsApart (xs ++ ys)) : EndsApart ys := by
  cases ys with
  | nil => exact .nil
  | cons c ys => exact (endsApart_append (List.cons_ne_nil c ys)).1 h

theorem EndsApart.append_blanks {cs bs : List Char} (h : EndsApart cs)
    (hbs : ∀ b ∈ bs, isBlank b = true) : EndsApart (cs ++ bs) := by
  unfold EndsApart
  rw [List.getLast?_append]
  cases hlast : bs.getLast? with
  | none => exact h
  | some b => exact isWordChar_of_blank (hbs b (List.mem_of_getLast? hlast))

theorem EndsApart.of_blanks {cs bs : List Char} (hne : bs ≠ [])
    (hbs : ∀ b ∈ bs, isBlank b = true) : EndsApart (cs ++ bs) := by
  rw [endsApart_append hne, EndsApart, List.getLast?_eq_some_getLast hne]
  exact isWordChar_of_blank (hbs _ (List.getLast_mem hne))

theorem StartsApart.blanks_append {cs bs : List Char} (h : StartsApart cs)
    (hbs : ∀ b ∈ bs, isBlank b = true) : StartsApart (bs ++ cs) := by
  cases bs with
  | nil => exact h
  | cons b bs => exact isWordChar_of_blank (hbs b List.mem_cons_self)

theorem StartsApart.of_blanks {cs bs : List Char} (hne : bs ≠ [])
    (hbs : ∀ b ∈ bs, isBlank b = true) : StartsApart (bs ++ cs) := by
  obtain ⟨b, bs, rfl⟩ := List.exists_cons_of_ne_nil hne
  exact isWordChar_of_blank (hbs b List.mem_cons_self)

/-! ## Standing alone -/

/-- The word occurs in the text with no word character next to it. -/
def Standing (word cs : List Char) : Prop :=
  ∃ pre post, cs = pre ++ word ++ post ∧ EndsApart pre ∧ StartsApart post

/-- A text is what is left of it when trimmed, between blanks. -/
theorem exists_trim (cs : List Char) : ∃ bs bs', cs = bs ++ trim cs ++ bs' ∧
    (∀ b ∈ bs, isBlank b = true) ∧ ∀ b ∈ bs', isBlank b = true := by
  refine ⟨cs.takeWhile isBlank, (trimStart cs).rtakeWhile isBlank, ?_, ?_, ?_⟩
  · rw [List.append_assoc, trim, trimEnd_eq, List.rdropWhile_append_rtakeWhile]
    exact List.takeWhile_append_dropWhile.symm
  · exact fun b hb => List.mem_takeWhile_imp hb
  · exact fun b hb => List.mem_rtakeWhile_imp hb

/-- Lower-casing a text leaves the blanks around it. -/
theorem exists_lower_trim (cs : List Char) : ∃ bs bs', lower cs = bs ++ lower (trim cs) ++ bs' ∧
    (∀ b ∈ bs, isBlank b = true) ∧ ∀ b ∈ bs', isBlank b = true := by
  obtain ⟨bs, bs', hcs, hbs, hbs'⟩ := exists_trim cs
  refine ⟨bs, bs', ?_, hbs, hbs'⟩
  nth_rewrite 1 [hcs]
  rw [lower, lower, lowerFrom_append_blanks hbs', lowerFrom_blanks_append hbs rfl]

/-- Blanks around a text make no difference to what is left without any. -/
theorem strip_lower_trim (cs : List Char) : strip (lower (trim cs)) = strip (lower cs) := by
  obtain ⟨bs, bs', hcs, hbs, hbs'⟩ := exists_lower_trim cs
  rw [hcs, strip_append, strip_append, strip_of_blanks hbs, strip_of_blanks hbs',
    List.nil_append, List.append_nil]

/-- What neither starts nor ends with a blank in lower case has none to trim. -/
theorem lower_trim_of_edges {cs : List Char} (hfirst : ∀ c ∈ (lower cs).head?, isBlank c = false)
    (hlast : ∀ c ∈ (lower cs).getLast?, isBlank c = false) : lower (trim cs) = lower cs := by
  obtain ⟨bs, bs', hcs, hbs, hbs'⟩ := exists_lower_trim cs
  have hbs : bs = [] := by
    cases bs with
    | nil => rfl
    | cons b bs =>
      rw [hcs] at hfirst
      exact absurd (hbs b List.mem_cons_self) (Bool.eq_false_iff.1 (hfirst b rfl))
  have hbs' : bs' = [] := by
    rcases List.eq_nil_or_concat bs' with rfl | ⟨bs', b, rfl⟩
    · rfl
    · rw [hcs, List.concat_eq_append, ← List.append_assoc, List.getLast?_concat] at hlast
      have hb := hbs' b (by simp)
      exact absurd hb (Bool.eq_false_iff.1 (hlast b rfl))
  rw [hcs, hbs, hbs', List.nil_append, List.append_nil]

/-- What stands alone does so when trimmed. -/
theorem Standing.trim {part cs : List Char} (h : Standing part cs) :
    Standing (trim part) cs := by
  obtain ⟨pre, post, hcs, hpre, hpost⟩ := h
  obtain ⟨bs, bs', hpart, hbs, hbs'⟩ := exists_trim part
  refine ⟨pre ++ bs, bs' ++ post, ?_, hpre.append_blanks hbs, hpost.blanks_append hbs'⟩
  rw [hcs]
  nth_rewrite 1 [hpart]
  simp only [List.append_assoc]

section
variable {before : Option Char} {stretch rest : List Char}

/-- Before a word character a word begins if none precedes it. -/
theorem isBoundary_before (h : stretch.head?.any isWordChar = true) :
    (Place.mk before (stretch ++ rest)).isBoundary = true ↔ before.any isWordChar = false := by
  have hfirst : (stretch ++ rest).head?.any isWordChar = true := by
    cases stretch with
    | nil => exact absurd h Bool.false_ne_true
    | cons c cs => exact h
  rw [Place.isBoundary, bne_iff_ne, hfirst, Bool.eq_false_iff]

/-- After a word character a word ends if none comes next. -/
theorem isBoundary_after (h : stretch.getLast?.any isWordChar = true) :
    (Place.mk (lastOf before stretch) rest).isBoundary = true ↔ StartsApart rest := by
  have hlast : (lastOf before stretch).any isWordChar = true := by
    unfold lastOf
    cases hcs : stretch.getLast? with
    | none => simp [hcs] at h
    | some c => simpa [hcs] using h
  rw [Place.isBoundary, bne_iff_ne, hlast, StartsApart, Bool.eq_false_iff, ne_comm]

/-- A whole word fits where the word does, between two boundaries. -/
theorem fits_word {p : Pattern} {groups : List (List Char)} :
    (Pattern.word p).Fits before stretch rest groups ↔
      p.Fits before stretch rest groups ∧
        (Place.mk before (stretch ++ rest)).isBoundary = true ∧
        (Place.mk (lastOf before stretch) rest).isBoundary = true := by
  constructor
  · rintro ⟨_, _, _, _, rfl, rfl, ⟨rfl, hstart, rfl⟩, w, _, g, _, rfl, rfl, hfits, rfl, hend, rfl⟩
    have hstretch : [] ++ (w ++ []) = w := List.append_nil w
    have hgroups : [] ++ (g ++ []) = g := List.append_nil g
    rw [hstretch, hgroups]
    rw [List.append_nil] at hstart
    exact ⟨hfits, hstart, hend⟩
  · rintro ⟨hfits, hstart, hend⟩
    exact ⟨[], stretch, [], groups, rfl, rfl, ⟨rfl, hstart, rfl⟩, stretch, [], groups, [],
      (List.append_nil _).symm, (List.append_nil _).symm, hfits, rfl, hend, rfl⟩

end

/-- A pattern for whole words occurs where one of them stands alone. -/
theorem occursIn_word {s : String} {ss : List String} {t : String} (ht : t ∈ s :: ss)
    (hfirst : t.toList.head?.any isWordChar = true)
    (hlast : t.toList.getLast?.any isWordChar = true) {cs : List Char}
    (h : Standing t.toList cs) : (Pattern.word (.anyText (s :: ss))).occursIn cs = true := by
  obtain ⟨pre, post, rfl, hpre, hpost⟩ := h
  refine Pattern.occursIn_iff.2 ⟨pre, t.toList, post, [], rfl, fits_word.2 ⟨?_, ?_, ?_⟩⟩
  · exact Pattern.fits_anyText.2 ⟨⟨t, ht, rfl⟩, rfl⟩
  · exact (isBoundary_before hfirst).2 hpre
  · exact (isBoundary_after hlast).2 hpost

/-! ## Collapsing -/

/-- A stretch without blanks is not touched. -/
theorem collapse_eq_append {word post cs : List Char} (hword : ∀ c ∈ word, isBlank c = false)
    (h : collapse cs = word ++ post) : ∃ post', cs = word ++ post' ∧ collapse post' = post := by
  induction word generalizing cs with
  | nil => exact ⟨cs, rfl, h⟩
  | cons d word ih =>
    obtain ⟨hd, hrest⟩ := List.forall_mem_cons.1 hword
    cases cs with
    | nil => exact absurd h.symm (List.cons_ne_nil _ _)
    | cons c cs =>
      unfold collapse at h
      rw [collapseFrom_cons] at h
      cases hc : isBlank c with
      | true =>
        rw [hc, if_pos rfl, if_neg Bool.false_ne_true] at h
        obtain ⟨rfl, -⟩ := List.cons.inj h
        exact absurd hd (by decide)
      | false =>
        rw [hc, if_neg Bool.false_ne_true] at h
        obtain ⟨rfl, htail⟩ := List.cons.inj h
        obtain ⟨post', rfl, hpost⟩ := ih hrest htail
        exact ⟨post', rfl, hpost⟩

/-- What precedes a character that is not blank is collapsed on its own. -/
theorem collapseFrom_eq_append {open_ : Bool} {pre rest cs : List Char} {c : Char}
    (hc : isBlank c = false) (h : collapseFrom open_ cs = pre ++ c :: rest) :
    ∃ pre' rest', cs = pre' ++ rest' ∧ collapseFrom open_ pre' = pre ∧
      collapse rest' = c :: rest := by
  induction cs generalizing open_ pre with
  | nil => exact absurd h.symm (List.append_ne_nil_of_right_ne_nil pre (List.cons_ne_nil c rest))
  | cons d ds ih =>
    rw [collapseFrom_cons] at h
    cases hd : isBlank d with
    | true =>
      rw [hd, if_pos rfl] at h
      cases open_ with
      | true =>
        obtain ⟨pre', rest', rfl, hpre, hrest⟩ := ih h
        refine ⟨d :: pre', rest', rfl, ?_, hrest⟩
        rw [collapseFrom_cons, hd, if_pos rfl, if_pos rfl, hpre]
      | false =>
        rw [if_neg Bool.false_ne_true] at h
        cases pre with
        | nil =>
          obtain ⟨rfl, -⟩ := List.cons.inj h
          exact absurd hc (by decide)
        | cons e pre =>
          obtain ⟨rfl, htail⟩ := List.cons.inj h
          obtain ⟨pre', rest', rfl, hpre, hrest⟩ := ih htail
          refine ⟨d :: pre', rest', rfl, ?_, hrest⟩
          rw [collapseFrom_cons, hd, if_pos rfl, if_neg Bool.false_ne_true, hpre]
    | false =>
      have hcollapse : ∀ cs o, collapseFrom o (d :: cs) = d :: collapseFrom false cs := by
        intro cs o
        rw [collapseFrom_cons, hd, if_neg Bool.false_ne_true]
      rw [hd, if_neg Bool.false_ne_true] at h
      cases pre with
      | nil => exact ⟨[], d :: ds, rfl, rfl, (hcollapse ds false).trans h⟩
      | cons e pre =>
        obtain ⟨rfl, htail⟩ := List.cons.inj h
        obtain ⟨pre', rest', rfl, hpre, hrest⟩ := ih htail
        exact ⟨d :: pre', rest', rfl, by rw [hcollapse, hpre], hrest⟩

/-- Collapsing keeps to whether a word character comes last. -/
theorem lastOf_collapseFrom {open_ : Bool} {before before' : Option Char}
    (hbefore : before.any isWordChar = before'.any isWordChar)
    (hopen : open_ = true → before'.any isWordChar = false) (cs : List Char) :
    (lastOf before (collapseFrom open_ cs)).any isWordChar =
      (lastOf before' cs).any isWordChar := by
  induction cs generalizing open_ before before' with
  | nil => exact hbefore
  | cons d ds ih =>
    rw [collapseFrom_cons, lastOf_cons before']
    cases hd : isBlank d with
    | true =>
      have hword : (some d).any isWordChar = false := isWordChar_of_blank hd
      rw [if_pos rfl]
      cases open_ with
      | true =>
        rw [if_pos rfl]
        refine ih ?_ fun _ => hword
        rw [hbefore, hopen rfl, hword]
      | false =>
        rw [if_neg Bool.false_ne_true, lastOf_cons]
        refine ih ?_ fun _ => hword
        rw [hword]
        decide
    | false =>
      rw [if_neg Bool.false_ne_true, lastOf_cons]
      exact ih rfl fun h => Bool.noConfusion h

theorem endsApart_collapse {cs : List Char} : EndsApart (collapse cs) ↔ EndsApart cs := by
  have h := @lastOf_collapseFrom false none none rfl (fun h => Bool.noConfusion h) cs
  rw [lastOf_none, lastOf_none] at h
  unfold EndsApart collapse
  rw [h]

theorem startsApart_collapse {cs : List Char} : StartsApart (collapse cs) ↔ StartsApart cs := by
  cases cs with
  | nil => exact Iff.rfl
  | cons c cs =>
    unfold collapse
    rw [collapseFrom_cons]
    cases hc : isBlank c with
    | true =>
      have hspace : isWordChar ' ' = false := rfl
      rw [if_pos rfl, if_neg Bool.false_ne_true]
      exact iff_of_true hspace (isWordChar_of_blank hc)
    | false => exact Iff.rfl

/-- **A word that stands alone once blanks are collapsed does so before.** -/
theorem standing_collapse {word cs : List Char} (hne : word ≠ [])
    (hword : ∀ c ∈ word, isBlank c = false) (h : Standing word (collapse cs)) :
    Standing word cs := by
  obtain ⟨pre, post, hcs, hpre, hpost⟩ := h
  obtain ⟨c, word', rfl⟩ := List.exists_cons_of_ne_nil hne
  rw [List.append_assoc] at hcs
  obtain ⟨pre', rest', rfl, rfl, hrest⟩ :=
    collapseFrom_eq_append (hword c List.mem_cons_self) hcs
  obtain ⟨post', rfl, rfl⟩ := collapse_eq_append hword hrest
  exact ⟨pre', post', (List.append_assoc ..).symm, endsApart_collapse.1 hpre,
    startsApart_collapse.1 hpost⟩

/-! ## Lower-case words -/

set_option maxRecDepth 1000 in
/-- No letter but the Kelvin sign moves into ASCII when lower-cased. -/
theorem ascii_apart_lower : ∀ r ∈ caseRuns, 128 ≤ (r.first : Int) + r.offset ∨
    r.first = 0x212a ∧ r.last = 0x212a ∧ r.offset = (0x6b : Int) - 0x212a := by
  decide

/-- A letter that a run moves goes beyond ASCII, or is the Kelvin sign. -/
theorem toNat_of_run {r : CaseRun} (hr : r ∈ caseRuns) {n : Nat} (hfirst : r.first ≤ n)
    (hlast : n ≤ r.last) {d : Char} (hd : d = Char.ofNat (n + r.offset).toNat) :
    128 ≤ d.toNat ∨ d.toNat = 0 ∨ d.toNat = 0x6b := by
  have hapart := ascii_apart_lower r hr
  rw [hd]
  rcases toNat_ofNat_or (n + r.offset).toNat with hcode | hcode
  · rw [hcode]
    omega
  · exact .inr (.inl hcode)

/-- No capital letter of ASCII is left when a text is lower-cased. -/
theorem not_capital_of_mem_lowered {before cs : List Char} {c d : Char}
    (hd : d ∈ lowered before c cs) : ¬ (65 ≤ d.toNat ∧ d.toNat ≤ 90) := by
  unfold lowered lowerChar at hd
  split_ifs at hd with _ _ hlt hupper hdot
  · obtain rfl := List.mem_singleton.1 hd
    decide
  · obtain rfl := List.mem_singleton.1 hd
    decide
  · obtain rfl := List.mem_singleton.1 hd
    obtain ⟨hfirst, hlast⟩ := capital_iff.1 hupper
    rcases toNat_ofNat_or (c.toNat + 32) with hcode | hcode <;> omega
  · obtain rfl := List.mem_singleton.1 hd
    exact fun h => hupper (capital_iff.2 h)
  · rcases List.mem_pair.1 hd with rfl | rfl <;> decide
  · split at hd
    · next r hr =>
      obtain ⟨hmem, hfirst, hlast⟩ := CaseRun.mem_of_find? hr
      have := toNat_of_run hmem hfirst hlast (List.mem_singleton.1 hd)
      omega
    · obtain rfl := List.mem_singleton.1 hd
      omega

theorem not_capital_of_mem_lowerFrom {before cs : List Char} {d : Char}
    (hd : d ∈ lowerFrom before cs) : ¬ (65 ≤ d.toNat ∧ d.toNat ≤ 90) := by
  induction cs generalizing before with
  | nil => exact absurd hd List.not_mem_nil
  | cons c cs ih =>
    rw [lowerFrom_cons] at hd
    rcases List.mem_append.1 hd with hd | hd
    · exact not_capital_of_mem_lowered hd
    · exact ih hd

/-- Only a letter of English itself becomes one, but for capitals and the Kelvin sign. -/
theorem lowered_eq_self {before cs : List Char} {c : Char}
    (hc : ¬ (65 ≤ c.toNat ∧ c.toNat ≤ 90))
    (h : ∀ d ∈ lowered before c cs, 97 ≤ d.toNat ∧ d.toNat < 128 ∧ d ≠ 'k') :
    lowered before c cs = [c] := by
  unfold lowered lowerChar at h ⊢
  split_ifs at h ⊢ with _ _ hlt hupper hdot
  · exact absurd (h _ (List.mem_singleton_self _)).2.1 (by decide)
  · exact absurd (h _ (List.mem_singleton_self _)).2.1 (by decide)
  · exact absurd (capital_iff.1 hupper) hc
  · rfl
  · exact absurd (h '\u0307' (by simp)).2.1 (by decide)
  · cases hr : CaseRun.find? c.toNat with
    | none => rfl
    | some r =>
      rw [hr] at h
      obtain ⟨hmem, hfirst, hlast⟩ := CaseRun.mem_of_find? hr
      obtain ⟨hlow, hascii, hk⟩ := h _ (List.mem_singleton_self _)
      have hcode := toNat_of_run hmem hfirst hlast rfl
      refine absurd (Char.toNat_inj.1 ?_) hk
      show _ = 0x6b
      omega

/-- **What lower-cases to an English word is that word**, if it has no capitals. -/
theorem lower_eq_word {word cs : List Char}
    (hcs : ∀ c ∈ cs, ¬ (65 ≤ c.toNat ∧ c.toNat ≤ 90))
    (hword : ∀ d ∈ word, 97 ≤ d.toNat ∧ d.toNat < 128 ∧ d ≠ 'k') (h : lower cs = word) :
    cs = word := by
  have hfrom : ∀ before, lowerFrom before cs = word → cs = word := by
    clear h
    induction cs generalizing word with
    | nil => exact fun _ h => h
    | cons c cs ih =>
      intro before h
      obtain ⟨hc, hcs⟩ := List.forall_mem_cons.1 hcs
      rw [lowerFrom_cons] at h
      have hself : lowered before c cs = [c] :=
        lowered_eq_self hc fun d hd => hword d (h ▸ List.mem_append_left _ hd)
      rw [hself, List.singleton_append] at h
      cases word with
      | nil => exact absurd h (List.cons_ne_nil _ _)
      | cons d word =>
        obtain ⟨rfl, htail⟩ := List.cons.inj h
        rw [ih hcs (List.forall_mem_cons.1 hword).2 _ htail]
  exact hfrom [] h

end Reckoner.Text
