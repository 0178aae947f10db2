/-
  Which evaluators answer the same texts.

  * `unitWords_apart`: names of units do not read as words of arithmetic, logic or dates;
  * `Units.refused_by_arithmetic`, `Units.refused_by_logic`, `Units.refused_by_dates`: **what is
    converted has no other answer**;
  * `Logic.refused_by_dates`: **no text has an answer of logic and one about dates**;
  * `Logic.no_letters`: what has an answer of logic and a value in arithmetic has no letters.
-/
import Reckoner.Proofs.Arithmetic.Names
import Reckoner.Proofs.Dates.Datelike
import Reckoner.Proofs.Logic.Letters
import Reckoner.Proofs.Units.Parts

namespace Reckoner

open Text

/-! ## Words that start others -/

/-- The one text starts the other. Characters are compared as numbers, which is fast. -/
def leads : List Char → List Char → Bool
  | [], _ => true
  | _ :: _, [] => false
  | a :: as, b :: bs => Nat.beq a.toNat b.toNat && leads as bs

theorem leads_iff : ∀ {as bs : List Char}, leads as bs = true ↔ as <+: bs
  | [], bs => by simp [leads]
  | a :: as, [] => by simp [leads]
  | a :: as, b :: bs => by
    rw [leads, Bool.and_eq_true, Nat.beq_eq, Char.toNat_inj, leads_iff, List.cons_prefix_cons]

/-! ## Names of units -/

/-- The letters that the text starts with do not start a name of arithmetic. -/
def Arithmetic.Foreign (p : List Char) : Prop :=
  ∀ v ∈ nameWords, ¬ p.takeWhile isAsciiLower <+: v

namespace Arithmetic

/-- It is decided letter by letter. -/
def isForeign (p : List Char) : Bool :=
  nameWords.all fun v => !leads (p.takeWhile isAsciiLower) v

theorem isForeign_iff {p : List Char} : isForeign p = true ↔ Foreign p := by
  simp only [isForeign, Foreign, List.all_eq_true, Bool.not_eq_true', Bool.eq_false_iff, ne_eq,
    leads_iff]

set_option maxRecDepth 2000 in
theorem not_sign_degree : ¬ (isWordChar '°' = true ∨ '°' ∈ signs) := by
  decide

/-- Where all letters belong to names, no foreign text follows one without letters. -/
theorem Foreign.not_covered {pre p : List Char} (h : Foreign p)
    (hpre : ∀ c ∈ pre, isAsciiLower c = false) (rest : List Char) :
    ¬ Covered nameWords (pre ++ p ++ rest) := by
  intro hcovered
  have hne : p.takeWhile isAsciiLower ≠ [] := by
    intro hnil
    have hname : "pi".toList ∈ nameWords := by decide
    refine h _ hname ?_
    rw [hnil]
    exact List.nil_prefix
  have hsplit : pre ++ p ++ rest =
      pre ++ p.takeWhile isAsciiLower ++ (p.dropWhile isAsciiLower ++ rest) := by
    nth_rewrite 1 [← List.takeWhile_append_dropWhile (p := isAsciiLower) (l := p)]
    simp only [List.append_assoc]
  rw [hsplit] at hcovered
  obtain ⟨word, hword, hprefix, -⟩ := hcovered.exists_prefix hne
    (fun c hc => List.mem_takeWhile_imp hc) hpre nameWords_letters
  exact h word hword hprefix

end Arithmetic

namespace Units

/-- The table of names, with what is said of them in `unitWords_apart` decided letter by letter. -/
theorem unitWords_checked : ∀ d ∈ Dimension.all, ∀ s ∈ unitWords d,
    (s.contains '°' ||
      s.head?.any isAsciiLower && Logic.Boolean.logicWords.all fun w => !leads w s) ∧
    (∀ w ∈ Dates.relations, ¬ w <:+: s) ∧
    (s.contains '°' || Arithmetic.isForeign (strip s) || (unitWords d).all fun t =>
      t.contains '°' || links.all fun link => Arithmetic.isForeign (strip (s ++ link ++ t))) := by
  decide +kernel

/-- Names of units do not read as words of logic or of dates, and as names of arithmetic only
those of one unit, whatever follows it. -/
theorem unitWords_apart : ∀ d ∈ Dimension.all, ∀ s ∈ unitWords d,
    ('°' ∈ s ∨ s.head?.any isAsciiLower = true ∧ ∀ w ∈ Logic.Boolean.logicWords, ¬ w <+: s) ∧
    (∀ w ∈ Dates.relations, ¬ w <:+: s) ∧
    ('°' ∈ s ∨ Arithmetic.Foreign (strip s) ∨ ∀ t ∈ unitWords d, '°' ∈ t ∨
      ∀ link ∈ links, Arithmetic.Foreign (strip (s ++ link ++ t))) := by
  intro d hd s hs
  have hchecked := unitWords_checked d hd s hs
  simpa only [Bool.or_eq_true, Bool.and_eq_true, List.contains_iff_mem, List.all_eq_true,
    Bool.not_eq_true', Bool.eq_false_iff, ne_eq, leads_iff, Arithmetic.isForeign_iff, or_assoc]
    using hchecked

section
variable {settings : Settings} {q : String} (h : (evaluate settings q).isError = false)
include h

/-- What is converted has no value in arithmetic. -/
theorem refused_by_arithmetic : (Arithmetic.evaluate settings q).isError = true := by
  by_contra hnot
  rw [Bool.not_eq_true] at hnot
  obtain ⟨d, hd, source, hsource, target, htarget, link, hlink, hasks⟩ := asks_of_evaluate h
  have hcovered := Arithmetic.names_of_evaluate hnot
  have hsigns := Arithmetic.signs_of_evaluate hnot
  rw [← strip_canonical] at hcovered hsigns
  have hdegree : '°' ∉ canonical q.toList := by
    intro hmem
    exact Arithmetic.not_sign_degree (hsigns '°' (mem_strip.2 ⟨hmem, by decide⟩))
  obtain ⟨p, rest, hp, hforeign⟩ : ∃ p rest, strip (source ++ link ++ target) = p ++ rest ∧
      Arithmetic.Foreign p := by
    rcases (unitWords_apart d hd source hsource).2.2 with hmem | hforeign | hpairs
    · exact absurd (hasks.mem_of_source hmem) hdegree
    · exact ⟨strip source, strip (link ++ target), by rw [List.append_assoc, strip_append], hforeign⟩
    · rcases hpairs target htarget with hmem | hforeign
      · exact absurd (hasks.mem_of_target hmem) hdegree
      · exact ⟨_, [], (List.append_nil _).symm, hforeign link hlink⟩
  obtain ⟨amount, tail, hcs, hamount, -, htail⟩ := hasks.split
  rw [hcs, strip_append, htail, hp, ← List.append_assoc] at hcovered
  refine hforeign.not_covered ?_ rest hcovered
  exact fun c hc => hamount.no_letters c (mem_strip.1 hc).1

/-- What is converted has no answer of logic. -/
theorem refused_by_logic : (Logic.evaluate q).isError = true := by
  by_contra hnot
  rw [Bool.not_eq_true] at hnot
  obtain ⟨d, hd, source, hsource, target, htarget, link, hlink, hasks⟩ := asks_of_evaluate h
  -- the request has no sign of bitwise expressions or comparisons
  have hsigns : ∀ c ∈ canonical q.toList, c ∉ ['<', '>', '~', '^', '&', '|', '='] := by
    intro c hc hsign
    have hapart : ∀ c ∈ ['<', '>', '~', '^', '&', '|', '='], isBlank c = false ∧
        isDigit c = false ∧ c ≠ '.' ∧ c ≠ '-' ∧ Request.isUnitChar c = false := by
      decide
    obtain ⟨hblank, hdigit, hpoint, hminus, hunit⟩ := hapart c hsign
    rcases hasks.chars c hc hblank with h | h | h | h
    · exact Bool.false_ne_true (hdigit.symm.trans h)
    · exact hpoint h
    · exact hminus h
    · exact Bool.false_ne_true (hunit.symm.trans h)
  obtain ⟨v, hv⟩ := Logic.boolean_of_evaluate hnot hsigns
  rcases (unitWords_apart d hd target htarget).1 with hmem | ⟨hhead, hwords⟩
  · rcases Logic.Boolean.signs_of_evaluate hv '°' (hasks.mem_of_target hmem) (by decide) with h | h
    · exact absurd h (by decide)
    · exact absurd h (by decide)
  · -- the second name stands apart, so a word of logic would have to start it
    obtain ⟨pre, bs, hcs, hends, hbs⟩ := hasks.target_apart
    have hcovered := Logic.Boolean.covered_of_evaluate hv
    obtain ⟨c, rest, rfl⟩ : ∃ c rest, target = c :: rest := by
      cases target with
      | nil => exact absurd hhead Bool.false_ne_true
      | cons c rest => exact ⟨c, rest, rfl⟩
    have hc : isAsciiLower c = true := hhead
    have hsplit : canonical q.toList = pre ++ [c] ++ (rest ++ bs) := by simp [hcs]
    obtain ⟨x, y, hx, hy, hword⟩ := hcovered pre [c] (rest ++ bs) hsplit (List.cons_ne_nil c [])
      (List.forall_mem_singleton.2 hc)
    have hletters : ∀ w ∈ Logic.Boolean.logicWords, ∀ c ∈ w, isWordChar c = true := by decide
    have hchars := hletters _ hword
    simp only [List.forall_mem_append] at hchars
    rw [← List.append_nil pre] at hx
    obtain rfl := List.suffix_nil.1 (suffix_of_endsApart hx hends hchars.1.1)
    have hstart : StartsApart bs := by
      have := StartsApart.nil.blanks_append hbs
      rwa [List.append_nil] at this
    have hrest := prefix_of_startsApart hy hstart hchars.2
    exact hwords _ hword ((List.prefix_append_right_inj [c]).2 hrest)

/-- What is converted has no answer about dates. -/
theorem refused_by_dates (now : Calendar.Instant) : (Dates.evaluate now q).isError = true := by
  by_contra hnot
  rw [Bool.not_eq_true] at hnot
  obtain ⟨d, hd, source, hsource, target, htarget, link, hlink, hasks⟩ := asks_of_evaluate h
  obtain ⟨c, rest, hcons, hletter, hblank⟩ := hasks.first
  have hout : ∀ c ∈ ['+', ':', ','], c ∉ canonical q.toList := by
    intro c hc hmem
    have hapart : ∀ c ∈ ['+', ':', ','], isBlank c = false ∧
        ¬ (isDigit c = true ∨ c = '.' ∨ c = '-' ∨ Request.isUnitChar c = true) := by
      decide
    obtain ⟨hblank, hno⟩ := hapart c hc
    exact hno (hasks.chars c hmem hblank)
  cases Dates.datelike_of_evaluate hnot hasks.kept with
  | @opens bs word rest' hcs hword hbs =>
    have hheads : ∀ word ∈ Dates.openings, word.head?.any isAsciiLower = true := by decide
    have hhead := hheads word hword
    rw [hcs] at hcons
    cases bs with
    | nil =>
      cases word with
      | nil => exact Bool.false_ne_true hhead
      | cons e word =>
        obtain ⟨rfl, -⟩ := List.cons.inj hcons
        exact Bool.false_ne_true (hletter.symm.trans hhead)
    | cons b bs =>
      obtain ⟨rfl, -⟩ := List.cons.inj hcons
      exact Bool.false_ne_true (hblank.symm.trans (hbs b List.mem_cons_self))
  | @relates word hword hinfix =>
    have hwords : ∀ w ∈ Dates.relations, w ≠ [] ∧ (∀ c ∈ w, isAsciiLower c = true) ∧
        ∀ link ∈ links, ¬ w <:+: link := by
      decide
    obtain ⟨hne, hlower, hlinks⟩ := hwords word hword
    rcases hasks.infix_of_letters hinfix hne hlower with h | h | h
    · exact (unitWords_apart d hd source hsource).2.1 word hword h
    · exact hlinks link hlink h
    · exact (unitWords_apart d hd target htarget).2.1 word hword h
  | @moves pre rest' unit sign hcs hpre hsign hunit hinfix =>
    rcases List.mem_pair.1 hsign with rfl | rfl
    · refine hout '+' (by decide) ?_
      rw [hcs]
      exact List.mem_append_right pre List.mem_cons_self
    · exact hpre (hasks.minus_first hcs)
  | @marks mark hmark hmem =>
    exact hout mark (List.mem_cons_of_mem '+' hmark) hmem
  | @names pre word rest' e hcs hpre hword he hdigit =>
    have hletters : ∀ w ∈ Calendar.abbreviations, w.head?.any isAsciiLower = true := by decide
    have hhead := hletters word hword
    cases word with
    | nil => exact Bool.false_ne_true hhead
    | cons c word =>
      rw [List.append_assoc, List.cons_append] at hcs
      have hno := hasks.no_digit_after hcs hhead e (List.mem_append_right word he)
      exact Bool.false_ne_true (hno.symm.trans (isDigit_of_ascii hdigit))
  | @counts sign hchars hsign hmem =>
    have hdegree : ¬ (Calendar.IsNumeric '°' ∨ '°' = '/') := by
      unfold Calendar.IsNumeric
      decide
    rcases (unitWords_apart d hd target htarget).1 with hmem | ⟨hhead, -⟩
    · exact hdegree (hchars '°' (hasks.mem_of_target hmem))
    · cases target with
      | nil => exact Bool.false_ne_true hhead
      | cons c target =>
        have hc : isAsciiLower c = true := hhead
        rcases hchars c (hasks.mem_of_target List.mem_cons_self) with hnumeric | rfl
        · exact Bool.false_ne_true ((Dates.isAsciiLower_of_numeric hnumeric).symm.trans hc)
        · exact absurd hc (by decide)

end

end Units

namespace Logic

open Boolean (logicWords)

/-! ## Words of dates -/

/-- The letters stand in no logic expression: they are part of no word of logic, and not all of
them are those of literals. -/
def Barred (w : List Char) : Prop :=
  (∀ word ∈ logicWords, ¬ w <:+: word) ∧ ∃ c ∈ w, c ∉ Bitwise.letters

/-- The letters do not come first in a logic expression. -/
def Late (w : List Char) : Prop :=
  (∀ c ∈ w.take 1, c ∉ ['b', 'o', 'x']) ∧ ∀ word ∈ logicWords, ¬ w <+: word

instance (w : List Char) : Decidable (Barred w) := inferInstanceAs (Decidable (_ ∧ _))

instance (w : List Char) : Decidable (Late w) := inferInstanceAs (Decidable (_ ∧ _))

theorem barred_or_late_of_abbreviations : ∀ w ∈ Calendar.abbreviations, w ≠ [] ∧
    (∀ c ∈ w, isAsciiLower c = true) ∧ (Barred w ∨ Late w) := by
  decide +kernel

section
variable {q : String} (h : (evaluate q).isError = false)
include h

theorem not_infix_of_barred {w : List Char} (hbarred : Barred w)
    (hlower : ∀ c ∈ w, isAsciiLower c = true) : ¬ w <:+: canonical q.toList := by
  intro hinfix
  obtain ⟨hwords, c, hc, hletter⟩ := hbarred
  rcases letters_of_evaluate h hinfix (List.ne_nil_of_mem hc) hlower with ⟨word, hword, hw⟩ | hall
  · exact hwords word hword hw
  · exact hletter (hall c hc)

theorem not_first_of_late {pre w rest : List Char} (hlate : Late w) (hne : w ≠ [])
    (hlower : ∀ c ∈ w, isAsciiLower c = true) (hpre : ∀ c ∈ pre, isAsciiLower c = false) :
    canonical q.toList ≠ pre ++ w ++ rest := by
  intro hcs
  rcases starts_of_evaluate h hcs hne hlower hpre with ⟨word, hword, hlong, -⟩ | ⟨-, c, hc, hmark⟩
  · exact hlate.2 word hword hlong
  · exact hlate.1 c hc hmark

/-- **What has an answer of logic has none about dates.** -/
theorem refused_by_dates (now : Calendar.Instant) : (Dates.evaluate now q).isError = true := by
  by_contra hnot
  rw [Bool.not_eq_true] at hnot
  cases Dates.datelike_of_evaluate hnot (kept_of_evaluate h) with
  | @opens bs word rest hcs hword hbs =>
    have hwords : ∀ w ∈ Dates.openings, w ≠ [] ∧ (∀ c ∈ w, isAsciiLower c = true) ∧ Late w := by
      decide
    obtain ⟨hne, hlower, hlate⟩ := hwords word hword
    refine not_first_of_late h hlate hne hlower (fun b hb => ?_) hcs
    exact Dates.isAsciiLower_of_numeric (.inr (.inl (hbs b hb)))
  | @relates word hword hinfix =>
    have hwords : ∀ w ∈ Dates.relations, (∀ c ∈ w, isAsciiLower c = true) ∧ Barred w := by decide
    obtain ⟨hlower, hbarred⟩ := hwords word hword
    exact not_infix_of_barred h hbarred hlower hinfix
  | @moves pre rest unit sign hcs hpre hsign hunit hinfix =>
    have hwords : ∀ w ∈ Dates.unitNames, (∀ c ∈ w, isAsciiLower c = true) ∧ Barred w := by decide
    obtain ⟨hlower, hbarred⟩ := hwords unit hunit
    exact not_infix_of_barred h hbarred hlower hinfix
  | @marks mark hmark hmem =>
    have hmarks : ∀ c ∈ [':', ','], isBlank c = false ∧ isDigit c = false ∧
        isAsciiLower c = false ∧ c ∉ signs := by
      decide
    obtain ⟨hblank, hdigit, hlower, hsign⟩ := hmarks mark hmark
    rcases signs_of_evaluate h mark hmem hblank with h | h | h
    · exact Bool.false_ne_true (hdigit.symm.trans h)
    · exact Bool.false_ne_true (hlower.symm.trans h)
    · exact hsign h
  | @names pre word rest d hcs hpre hword hd hdigit =>
    obtain ⟨hne, hlower, hbarred | hlate⟩ := barred_or_late_of_abbreviations word hword
    · exact not_infix_of_barred h hbarred hlower ⟨pre, rest, hcs.symm⟩
    · exact not_first_of_late h hlate hne hlower hpre hcs
  | @counts sign hchars hsign hmem =>
    have hapart : ∀ c ∈ canonical q.toList, c ∉ ['<', '>', '~', '^', '&', '|', '='] := by
      have hno : ∀ c ∈ ['<', '>', '~', '^', '&', '|', '='],
          ¬ ((isAsciiDigit c = true ∨ isBlank c = true ∨ c ∈ ['+', '-']) ∨ c = '/') := by
        decide
      exact fun c hc hsign => hno c hsign (hchars c hc)
    obtain ⟨v, hv⟩ := boolean_of_evaluate h hapart
    have hsigns : ∀ c ∈ ['-', '/'], isBlank c = false ∧ isAsciiLower c = false ∧
        c ∉ Boolean.signs := by
      decide
    obtain ⟨hblank, hlower, hout⟩ := hsigns sign hsign
    rcases Boolean.signs_of_evaluate hv sign hmem hblank with h | h
    · exact Bool.false_ne_true (hlower.symm.trans h)
    · exact hout h

/-! ## Names of arithmetic -/

/-- What also has a value in arithmetic has no letters. -/
theorem no_letters {settings : Settings}
    (harithmetic : (Arithmetic.evaluate settings q).isError = false) :
    ∀ c ∈ canonical q.toList, isAsciiLower c = false := by
  have hcovered := Arithmetic.names_of_evaluate harithmetic
  rw [← strip_canonical] at hcovered
  by_contra hsome
  simp only [not_forall, Bool.not_eq_false] at hsome
  obtain ⟨d, hd, hlower⟩ := hsome
  -- the first letter starts a name, and also a word of logic or the digits of a literal
  obtain ⟨pre, c, rest, hcs, hpre, hc⟩ : ∃ pre c rest, canonical q.toList = pre ++ c :: rest ∧
      (∀ d ∈ pre, isAsciiLower d = false) ∧ isAsciiLower c = true := by
    obtain ⟨c, hfind⟩ := Option.isSome_iff_exists.1 (List.find?_isSome.2 ⟨d, hd, hlower⟩)
    obtain ⟨hc, pre, rest, hcs, hpre⟩ := List.find?_eq_some_iff_append.1 hfind
    exact ⟨pre, c, rest, hcs, fun d hd => by simpa using hpre d hd, hc⟩
  have hfirst : ∀ w rest, canonical q.toList = pre ++ w ++ rest → w ≠ [] →
      (∀ c ∈ w, isAsciiLower c = true) → ∃ word ∈ Arithmetic.nameWords, w <+: word := by
    intro w rest hcs hne hlower
    rw [hcs, strip_append, strip_append,
      strip_of_solid fun c hc => isBlank_of_lower (hlower c hc)] at hcovered
    obtain ⟨word, hword, hprefix, -⟩ := hcovered.exists_prefix hne hlower
      (fun c hc => hpre c (mem_strip.1 hc).1) Arithmetic.nameWords_letters
    exact ⟨word, hword, hprefix⟩
  rw [List.append_cons] at hcs
  rcases starts_of_evaluate h hcs (List.cons_ne_nil c []) (List.forall_mem_singleton.2 hc) hpre with
    ⟨w, hw, -, rest', hrest⟩ | ⟨-, d, hd, hmark⟩
  · have hwords : ∀ w ∈ logicWords, w ≠ [] ∧ (∀ c ∈ w, isAsciiLower c = true) ∧
        ∀ v ∈ Arithmetic.nameWords, ¬ w <+: v := by
      decide
    obtain ⟨hne, hlower, hout⟩ := hwords w hw
    rw [List.append_assoc, ← hrest, ← List.append_assoc] at hcs
    obtain ⟨word, hword, hprefix⟩ := hfirst w rest' hcs hne hlower
    exact hout word hword hprefix
  · have hmarks : ∀ c ∈ ['b', 'o', 'x'], ∀ v ∈ Arithmetic.nameWords, ¬ [c] <+: v := by
      decide
    rw [List.mem_singleton.1 hd] at hmark
    obtain ⟨word, hword, hprefix⟩ := hfirst [c] rest hcs (List.cons_ne_nil c [])
      (List.forall_mem_singleton.2 hc)
    exact hmarks c hmark word hword hprefix

end

end Logic

end Reckoner
