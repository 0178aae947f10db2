/-
  Which names of units can be used in requests.

  * `canonical_of_words`: words with single spaces between them are in canonical form;
  * `explicit_unique`, `compact_unique`: a request is read as it was meant;
  * `IsQuery`, `Answers`: a text asks for a conversion, and its answer gives it;
  * `usable_iff`: **two names can be used for a conversion if and only if neither has a digit**.
-/
import Reckoner.Proofs.Decimal.Numeral
import Reckoner.Proofs.Units.Names

namespace Reckoner.Units

open Text Request

/-! ## Texts of words -/

section
variable {ws : List (List Char)}

theorem collapseFrom_intercalate (hne : ws ≠ []) (hws : ∀ w ∈ ws, Solid w) (open_ : Bool) :
    collapseFrom open_ ([' '].intercalate ws) = [' '].intercalate ws := by
  induction ws generalizing open_ with
  | nil => exact absurd rfl hne
  | cons w ws ih =>
    obtain ⟨⟨hw, hsolid⟩, hws⟩ := List.forall_mem_cons.1 hws
    cases ws with
    | nil =>
      have hword := collapseFrom_append hw hsolid [] open_
      simpa [List.intercalate, collapseFrom_nil] using hword
    | cons w' ws =>
      have hlater := ih (List.cons_ne_nil _ _) hws true
      have hword := collapseFrom_append hw hsolid (' ' :: [' '].intercalate (w' :: ws)) open_
      have hblank : isBlank ' ' = true := rfl
      rw [collapseFrom_cons, if_pos hblank, if_neg Bool.false_ne_true, hlater] at hword
      simpa [List.intercalate] using hword

theorem exists_first_word (hne : ws ≠ []) (hws : ∀ w ∈ ws, Solid w) :
    ∃ w post, [' '].intercalate ws = w ++ post ∧ Solid w := by
  obtain ⟨w, ws, rfl⟩ := List.exists_cons_of_ne_nil hne
  have hw := hws w List.mem_cons_self
  cases ws with
  | nil => exact ⟨w, [], by simp [List.intercalate], hw⟩
  | cons w' ws => exact ⟨w, ' ' :: [' '].intercalate (w' :: ws), by simp [List.intercalate], hw⟩

theorem exists_last_word (hne : ws ≠ []) (hws : ∀ w ∈ ws, Solid w) :
    ∃ pre w, [' '].intercalate ws = pre ++ w ∧ Solid w := by
  induction ws with
  | nil => exact absurd rfl hne
  | cons w ws ih =>
    obtain ⟨hw, hws⟩ := List.forall_mem_cons.1 hws
    cases ws with
    | nil => exact ⟨[], w, by simp [List.intercalate], hw⟩
    | cons w' ws =>
      obtain ⟨pre, last, hlast, hsolid⟩ := ih (List.cons_ne_nil _ _) hws
      refine ⟨w ++ ' ' :: pre, last, ?_, hsolid⟩
      rw [List.append_assoc, List.cons_append, ← hlast]
      simp [List.intercalate]

/-- Words with single spaces between them are in canonical form. -/
theorem canonical_of_words {cs : List Char} (hwords : ∀ w ∈ cs.splitOn ' ', Solid w)
    (hkept : ∀ c ∈ cs, IsKept c) : trim cs = cs ∧ canonical cs = cs := by
  have hne := List.splitOn_ne_nil ' ' cs
  have hcollapse := collapseFrom_intercalate hne hwords false
  obtain ⟨first, post, hfirst, hsolid⟩ := exists_first_word hne hwords
  obtain ⟨pre, w, hsplit, hw⟩ := exists_last_word hne hwords
  rw [List.intercalate_splitOn] at hcollapse hfirst hsplit
  have hstart : trimStart cs = cs := by
    obtain ⟨c, first, rfl⟩ := List.exists_cons_of_ne_nil hsolid.1
    have hc := hsolid.2 c List.mem_cons_self
    rw [hfirst, trimStart, List.cons_append,
      List.dropWhile_cons_of_neg (Bool.eq_false_iff.1 hc)]
  have hend : trimEnd cs = cs := by
    have hlast := trimEnd_append hw pre []
    rwa [List.append_nil, show trimEnd [] = [] from rfl, List.append_nil, ← hsplit] at hlast
  have htrim : trim cs = cs := by rw [trim, hstart, hend]
  refine ⟨htrim, ?_⟩
  rw [canonical, htrim, collapse, hcollapse, lower_of_kept hkept]

end

/-! ## Requests -/

/-- Digits from `0` to `9` with a point between or before them, and a minus sign or none. -/
def IsLiteral (v : List Char) : Prop :=
  ∃ sign digits, v = sign ++ digits ∧ (sign = [] ∨ sign = ['-']) ∧ Arithmetic.IsNumeral digits

theorem IsLiteral.isNumber {v : List Char} (h : IsLiteral v) : IsNumber v := by
  obtain ⟨sign, digits, rfl, hsign, whole, fraction, hwhole, hfraction, hp⟩ := h
  refine ⟨sign, digits, rfl, hsign, ?_⟩
  have hascii {ds : List Char} (hds : ∀ d ∈ ds, isAsciiDigit d = true) :
      ∀ d ∈ ds, isDigit d = true :=
    fun d hd => isDigit_of_ascii (hds d hd)
  rcases hp with ⟨rfl, hne⟩ | ⟨rfl, hne⟩
  · exact .whole hne (hascii hwhole)
  · exact .point (.inr hne) (hascii hwhole) (hascii hfraction)

/-- A request with a word between the names. -/
def explicitText (v a link b : List Char) : List Char :=
  v ++ ' ' :: (a ++ ' ' :: (link ++ ' ' :: b))

/-- A request of two words. -/
def compactText (v a b : List Char) : List Char := v ++ (a ++ ' ' :: b)

section
variable {v a b link : List Char} {d : Dimension}

theorem splitOn_amount (hv : IsAmount v) : v.splitOn ' ' = [v] :=
  List.splitOn_eq_singleton fun hmem => absurd (hv.not_blank ' ' hmem) (by decide)

theorem splitOn_explicitText (hv : IsAmount v) (hlink : link = "to".toList ∨ link = "in".toList) :
    (explicitText v a link b).splitOn ' ' =
      v :: (a.splitOn ' ' ++ link :: b.splitOn ' ') := by
  have hword : link.splitOn ' ' = [link] := by rcases hlink with rfl | rfl <;> decide
  rw [explicitText, List.splitOn_append_cons_self, List.splitOn_append_cons_self,
    List.splitOn_append_cons_self, splitOn_amount hv, hword]
  simp

/-- Blanks between words without empty ones are single. -/
theorem eq_singleton_of_words {xs bs rest : List Char} (hne : bs ≠ [])
    (hbs : ∀ b ∈ bs, b = ' ') (hwords : [] ∉ (xs ++ (bs ++ rest)).splitOn ' ') :
    bs = [' '] := by
  obtain ⟨c, bs, rfl⟩ := List.exists_cons_of_ne_nil hne
  obtain ⟨rfl, hmore⟩ := List.forall_mem_cons.1 hbs
  cases bs with
  | nil => rfl
  | cons c bs =>
    obtain ⟨rfl, -⟩ := List.forall_mem_cons.1 hmore
    refine absurd ?_ hwords
    rw [List.cons_append, List.splitOn_append_cons_self, List.cons_append]
    have hempty := List.splitOn_append_cons_self (a := ' ') [] (bs ++ rest)
    rw [List.nil_append, List.splitOn_nil] at hempty
    simp [hempty]

theorem eq_of_words {s t : List Char} (h : s.splitOn ' ' = t.splitOn ' ') : s = t := by
  have hjoin := congrArg [' '].intercalate h
  rwa [List.intercalate_splitOn, List.intercalate_splitOn] at hjoin

/-- Words with a link between them are split in one way, if no link but the first or the last
word is among them. -/
theorem split_unique {as bs ss ts : List (List Char)} {link link' : List Char}
    (h : as ++ link :: bs = ss ++ link' :: ts) (hss : ss ≠ []) (hts : ts ≠ [])
    (has : link' ∉ as.tail) (hbs : link' ∉ bs.dropLast) : as = ss ∧ bs = ts := by
  rcases List.append_eq_append_iff.1 h with ⟨xs, rfl, hxs⟩ | ⟨xs, rfl, hxs⟩
  · cases xs with
    | nil =>
      obtain ⟨-, rfl⟩ := List.cons.inj hxs
      exact ⟨(List.append_nil as).symm, rfl⟩
    | cons x xs =>
      obtain ⟨rfl, rfl⟩ := List.cons.inj hxs
      refine absurd ?_ hbs
      change link' ∈ (xs ++ link' :: ts).dropLast
      rw [List.dropLast_append_of_ne_nil (List.cons_ne_nil _ _), List.dropLast_cons_of_ne_nil hts]
      simp
  · cases xs with
    | nil =>
      obtain ⟨-, rfl⟩ := List.cons.inj hxs
      exact ⟨List.append_nil ss, rfl⟩
    | cons x xs =>
      obtain ⟨rfl, rfl⟩ := List.cons.inj hxs
      refine absurd ?_ has
      obtain ⟨s, ss, rfl⟩ := List.exists_cons_of_ne_nil hss
      simp

end

/-! ## Reading a request -/

theorem solid_of_unitWord {d : Dimension} {a w : List Char} (ha : a ∈ unitWords d)
    (hw : w ∈ a.splitOn ' ') : Solid w := by
  obtain ⟨hne, -, hchars⟩ := unitWords_words d d.mem_all a ha w hw
  refine ⟨hne, fun c hc => ?_⟩
  rcases hchars c hc with hunit | hdigit
  · exact isBlank_of_unitWord (p := [c]) ⟨List.cons_ne_nil _ _, by simpa using hunit⟩ c (by simp)
  · exact isBlank_of_asciiDigit hdigit

theorem kept_of_unitWord {d : Dimension} {a : List Char} (ha : a ∈ unitWords d) :
    ∀ c ∈ a, IsKept c := by
  intro c hc
  rcases (unitWords_chars d d.mem_all a ha).2 c hc with hunit | hdigit
  · exact isKept_of_unitPhraseChar hunit
  · exact isKept_of_asciiDigit hdigit

theorem kept_of_amount {v : List Char} (hv : IsAmount v) : ∀ c ∈ v, IsKept c := by
  intro c hc
  have hchar := isAmountChar_of_isAmount hv c hc
  simp only [isAmountChar, Bool.or_eq_true, beq_iff_eq] at hchar
  rcases hchar with (hdigit | rfl) | rfl
  · exact isKept_of_digit hdigit
  · exact isKept_of_ascii (by decide) (by decide)
  · exact isKept_of_ascii (by decide) (by decide)

theorem solid_of_amount {v : List Char} (hv : IsAmount v) : Solid v := by
  refine ⟨?_, hv.not_blank⟩
  obtain ⟨sign, digits, rfl, -, hne, -⟩ := hv
  simp [hne]

theorem head_of_blank (rest : List Char) :
    ∀ c ∈ (' ' :: rest).head?, isAmountChar c = false := by
  intro c hc
  obtain rfl : ' ' = c := by simpa using hc
  decide

theorem head_of_unitWord {d : Dimension} {a : List Char} (ha : a ∈ unitWords d)
    (rest : List Char) : ∀ c ∈ (a ++ rest).head?, isAmountChar c = false := by
  have hhead := (unitWords_chars d d.mem_all a ha).1
  intro c hc
  cases a with
  | nil => exact absurd hhead Bool.false_ne_true
  | cons c' a =>
    obtain rfl : c' = c := by simpa using hc
    exact not_isAmountChar (.inr (isUnitPhraseChar_of_unit (by simpa using hhead)))

/-- The amount of a text is where it should be. -/
theorem amount_unique {v rest amount tail : List Char} (hv : IsAmount v)
    (hrest : ∀ c ∈ rest.head?, isAmountChar c = false) (hamount : IsAmount amount)
    (htail : ∀ c ∈ tail, isBlank c = true ∨ isUnitPhraseChar c = true)
    (h : v ++ rest = amount ++ tail) : v = amount ∧ rest = tail := by
  have hread := congrArg (List.takeWhile isAmountChar) h
  rw [takeWhile_amount (isAmountChar_of_isAmount hv) hrest,
    takeWhile_amount (isAmountChar_of_isAmount hamount) (head_not_amount htail)] at hread
  subst hread
  exact ⟨rfl, List.append_cancel_left h⟩

section
variable {v a b link : List Char} {d : Dimension} (hv : IsAmount v) (ha : a ∈ unitWords d)
  (hb : b ∈ unitWords d)
include hv ha hb

theorem canonical_explicitText (hlink : link = "to".toList ∨ link = "in".toList) :
    trim (explicitText v a link b) = explicitText v a link b ∧
      canonical (explicitText v a link b) = explicitText v a link b := by
  have hlinkChars : ∀ c ∈ link, isBlank c = false ∧ IsKept c := by
    have hlower : ∀ c ∈ link, isAsciiLower c = true := by rcases hlink with rfl | rfl <;> decide
    exact fun c hc => ⟨isBlank_of_lower (hlower c hc), isKept_of_lower (hlower c hc)⟩
  have hlinkNe : link ≠ [] := by rcases hlink with rfl | rfl <;> decide
  refine canonical_of_words ?_ ?_
  · rw [splitOn_explicitText hv hlink, List.forall_mem_cons, List.forall_mem_append,
      List.forall_mem_cons]
    exact ⟨solid_of_amount hv, fun w hw => solid_of_unitWord ha hw,
      ⟨hlinkNe, fun c hc => (hlinkChars c hc).1⟩, fun w hw => solid_of_unitWord hb hw⟩
  · have hspace : IsKept ' ' := isKept_of_blank rfl
    simp only [explicitText, List.forall_mem_append, List.forall_mem_cons]
    exact ⟨kept_of_amount hv, hspace, kept_of_unitWord ha, hspace,
      fun c hc => (hlinkChars c hc).2, hspace, kept_of_unitWord hb⟩

/-- A request with a word between the names is read as it was meant. -/
theorem explicit_unique {amount source target : List Char}
    (hlink : link = "to".toList ∨ link = "in".toList)
    (h : IsExplicit (explicitText v a link b) amount source target) :
    amount = v ∧ source = a ∧ target = b := by
  have hcanonical := (canonical_explicitText hv ha hb hlink).2
  have hempty : [] ∉ (explicitText v a link b).splitOn ' ' := by
    rw [splitOn_explicitText hv hlink]
    have hlinkNe : link ≠ [] := by rcases hlink with rfl | rfl <;> decide
    have hnot {s : List Char} (hs : s ∈ unitWords d) : [] ∉ s.splitOn ' ' :=
      fun hmem => (solid_of_unitWord hs hmem).1 rfl
    simp [(solid_of_amount hv).1.symm, hnot ha, hnot hb, hlinkNe.symm]
  obtain ⟨tail, hcs, htail⟩ := tail_of_explicit h
  obtain ⟨bs₁, bs₂, bs₃, link', hlink', hsplit, hblank, hne₂, hne₃, hamount, hsource, htarget⟩ := h
  simp only [List.forall_mem_append] at hblank
  -- every run of blanks is one space
  have hsingle {xs bs rest : List Char} (heq : explicitText v a link b = xs ++ (bs ++ rest))
      (hne : bs ≠ []) (hbs : ∀ b ∈ bs, isBlank b = true) : bs = [' '] := by
    refine eq_singleton_of_words hne (fun c hc => ?_) (heq ▸ hempty)
    have hmem : c ∈ canonical (explicitText v a link b) := by
      rw [hcanonical, heq]
      simp [hc]
    exact eq_space_of_canonical c hmem (hbs c hc)
  obtain ⟨rfl, -⟩ := amount_unique hv (head_of_blank _) hamount.isAmount htail hcs
  have hne₁ : bs₁ ≠ [] := by
    rintro rfl
    obtain ⟨c, source, rfl, hc, -⟩ := hsource
    have hhead : ' ' = c := by
      rw [explicitText] at hsplit
      exact (by simpa using hsplit : ' ' = c ∧ _).1
    exact absurd (hhead ▸ hc) (by decide)
  have h₁ := @hsingle v bs₁ (source ++ (bs₂ ++ (link'.toList ++ (bs₃ ++ target))))
    (by rw [hsplit]; simp) hne₁ hblank.1.1
  have h₂ := @hsingle (v ++ bs₁ ++ source) bs₂ (link'.toList ++ (bs₃ ++ target))
    (by rw [hsplit]; simp) hne₂ hblank.1.2
  have h₃ := @hsingle (v ++ bs₁ ++ source ++ bs₂ ++ link'.toList) bs₃ target
    (by rw [hsplit]; simp) hne₃ hblank.2
  subst h₁ h₂ h₃
  have hlink'' : link'.toList = "to".toList ∨ link'.toList = "in".toList := by
    have hmem := List.mem_map_of_mem (f := String.toList) hlink'
    simpa using hmem
  have heq : explicitText v a link b = explicitText v source link'.toList target := by
    rw [hsplit]
    simp [explicitText]
  have hwords := congrArg (List.splitOn ' ') heq
  rw [splitOn_explicitText hv hlink, splitOn_explicitText hv hlink''] at hwords
  have hout := unitWords_links d d.mem_all
  obtain ⟨hsourceWords, htargetWords⟩ := split_unique (List.cons.inj hwords).2
    (List.splitOn_ne_nil ' ' source) (List.splitOn_ne_nil ' ' target)
    (fun hmem => hlink''.elim ((hout a ha).1 _ hmem).1 ((hout a ha).1 _ hmem).2)
    (fun hmem => hlink''.elim ((hout b hb).2 _ hmem).1 ((hout b hb).2 _ hmem).2)
  exact ⟨rfl, (eq_of_words hsourceWords).symm, (eq_of_words htargetWords).symm⟩

theorem canonical_compactText (ha' : ' ' ∉ a) (hb' : ' ' ∉ b) :
    trim (compactText v a b) = compactText v a b ∧
      canonical (compactText v a b) = compactText v a b := by
  have hword {s : List Char} (hs : s ∈ unitWords d) (hs' : ' ' ∉ s) : Solid s :=
    solid_of_unitWord hs (by rw [List.splitOn_eq_singleton hs']; exact List.mem_singleton_self s)
  have hva : ' ' ∉ v ++ a := by
    rw [List.mem_append, not_or]
    exact ⟨fun hmem => absurd (hv.not_blank ' ' hmem) (by decide), ha'⟩
  refine canonical_of_words ?_ ?_
  · rw [compactText, ← List.append_assoc, List.splitOn_append_cons_self,
      List.splitOn_eq_singleton hva, List.splitOn_eq_singleton hb']
    have hfront : Solid (v ++ a) :=
      ⟨by simp [(solid_of_amount hv).1],
        List.forall_mem_append.2 ⟨hv.not_blank, (hword ha ha').2⟩⟩
    simpa using ⟨hfront, hword hb hb'⟩
  · simp only [compactText, List.forall_mem_append, List.forall_mem_cons]
    exact ⟨kept_of_amount hv, kept_of_unitWord ha, isKept_of_blank rfl, kept_of_unitWord hb⟩

end

/-! ## Requests of two words -/

theorem count_of_solid {p : List Char} (h : ∀ c ∈ p, isBlank c = false) : p.countP isBlank = 0 :=
  List.countP_eq_zero.2 fun c hc => by simp [h c hc]

theorem count_of_blanks {bs : List Char} (h : ∀ b ∈ bs, isBlank b = true) :
    bs.countP isBlank = bs.length :=
  List.countP_eq_length.2 h

section
variable {v a b amount source target : List Char} {d : Dimension} (hv : IsAmount v)
  (ha : a ∈ unitWords d) (hb : b ∈ unitWords d) (ha' : ' ' ∉ a) (hb' : ' ' ∉ b)
include hv ha hb ha' hb'

theorem count_compactText : (compactText v a b).countP isBlank = 1 := by
  have hsolid {s : List Char} (hs : s ∈ unitWords d) (hs' : ' ' ∉ s) : s.countP isBlank = 0 := by
    refine count_of_solid (solid_of_unitWord hs ?_).2
    rw [List.splitOn_eq_singleton hs']
    exact List.mem_singleton_self s
  rw [compactText, List.countP_append, List.countP_append, List.countP_cons, hsolid ha ha',
    hsolid hb hb', count_of_solid hv.not_blank]
  rfl

/-- A request of two words has too few blanks for a word between the names. -/
theorem not_explicit_compactText : ¬ IsExplicit (compactText v a b) amount source target := by
  rintro ⟨bs₁, bs₂, bs₃, link, -, hsplit, hblank, hne₂, hne₃, -⟩
  simp only [List.forall_mem_append] at hblank
  have hcount := count_compactText hv ha hb ha' hb'
  have hlength₂ := List.length_pos_iff.2 hne₂
  have hlength₃ := List.length_pos_iff.2 hne₃
  rw [hsplit] at hcount
  simp only [List.countP_append, count_of_blanks hblank.1.2, count_of_blanks hblank.2] at hcount
  omega

/-- A request of two words is read as it was meant. -/
theorem compact_unique (h : IsCompact (compactText v a b) amount source target) :
    amount = v ∧ source = a ∧ target = b := by
  obtain ⟨tail, hcs, htail⟩ := tail_of_compact h
  obtain ⟨bs₁, bs₂, hsplit, hblank, hne₂, hamount, hsource, htarget⟩ := h
  simp only [List.forall_mem_append] at hblank
  obtain ⟨rfl, -⟩ := amount_unique hv (head_of_unitWord ha _) hamount.isAmount htail hcs
  -- the one blank stands between the names
  have hcount := count_compactText hv ha hb ha' hb'
  have hlength := List.length_pos_iff.2 hne₂
  rw [hsplit] at hcount
  simp only [List.countP_append, count_of_blanks hblank.1, count_of_blanks hblank.2] at hcount
  obtain rfl : bs₁ = [] := List.length_eq_zero_iff.1 (by omega)
  obtain ⟨c, rfl⟩ := List.length_eq_one_iff.1 (show bs₂.length = 1 by omega)
  obtain rfl : c = ' ' := by
    have hmem : c ∈ canonical (compactText v a b) := by
      rw [(canonical_compactText hv ha hb ha' hb').2, hsplit]
      simp
    exact eq_space_of_canonical c hmem (hblank.2 c (List.mem_singleton_self c))
  have hnames : a ++ ' ' :: b = source ++ ' ' :: target := by
    simpa [compactText] using hsplit
  obtain ⟨rfl, -, rfl⟩ := (List.append_cons_inj_of_notMem ha' hb').1 hnames
  exact ⟨rfl, rfl, rfl⟩

end

/-! ## Answers -/

theorem exists_groups {cs : List Char}
    (h : explicit.occursIn cs = true ∨ compact.occursIn cs = true) :
    ∃ groups, Request.groups? cs = some groups := by
  unfold Request.groups?
  split
  · exact ⟨_, rfl⟩
  · next hnone =>
    rw [Pattern.groups?, Option.map_eq_none_iff] at hnone
    have hcompact : (compact.search? cs).isSome = true := by
      simpa [Pattern.occursIn, hnone] using h
    obtain ⟨r, hr⟩ := Option.isSome_iff_exists.1 hcompact
    exact ⟨r.groups, by rw [Pattern.groups?, hr]; rfl⟩

section
variable {v a b link : List Char} {d : Dimension}

theorem phrase_of_unitWord (ha : a ∈ unitWords d) (hnone : ∀ c ∈ a, isAsciiDigit c = false) :
    IsPhrase a := by
  obtain ⟨hhead, hchars⟩ := unitWords_chars d d.mem_all a ha
  have hphrase : ∀ c ∈ a, isUnitPhraseChar c = true := fun c hc =>
    (hchars c hc).resolve_right fun hdigit => Bool.false_ne_true ((hnone c hc).symm.trans hdigit)
  cases a with
  | nil => exact absurd hhead Bool.false_ne_true
  | cons c a => exact ⟨c, a, rfl, by simpa using hhead, (List.forall_mem_cons.1 hphrase).2⟩

theorem word_of_unitWord (ha : a ∈ unitWords d) (hnone : ∀ c ∈ a, isAsciiDigit c = false)
    (ha' : ' ' ∉ a) : IsUnitWord a := by
  have hphrase := phrase_of_unitWord ha hnone
  refine ⟨?_, fun c hc => ?_⟩
  · obtain ⟨c, cs, rfl, -⟩ := hphrase
    exact List.cons_ne_nil c cs
  · have hc' : c ≠ ' ' := fun h => ha' (h ▸ hc)
    simpa [isUnitPhraseChar, hc'] using hphrase.forall_mem c hc

section
variable (hv : IsNumber v) (ha : a ∈ unitWords d) (hb : b ∈ unitWords d)
  (hnone : ∀ c ∈ a ++ b, isAsciiDigit c = false)
include hv ha hb hnone

theorem groups?_explicitText (hlink : link = "to".toList ∨ link = "in".toList) :
    Request.groups? (explicitText v a link b) = some [v, a, b] := by
  rw [List.forall_mem_append] at hnone
  have hwhole : IsExplicit (explicitText v a link b) v a b := by
    have hmem : String.ofList link ∈ ["to", "in"] := by
      rcases hlink with rfl | rfl <;> simp
    exact ⟨[' '], [' '], [' '], _, hmem, by simp [explicitText], by decide, by decide, by decide,
      hv, phrase_of_unitWord ha hnone.1, phrase_of_unitWord hb hnone.2⟩
  have hoccurs := explicit_occursIn_iff.2 ⟨v, a, b, hwhole⟩
  obtain ⟨groups, hgroups⟩ := exists_groups (.inl hoccurs)
  obtain ⟨amount, source, target, rfl, ⟨-, hform⟩ | ⟨hnot, -⟩⟩ := groups?_cases hgroups
  · obtain ⟨rfl, rfl, rfl⟩ := explicit_unique hv.isAmount ha hb hlink hform
    exact hgroups
  · exact absurd (hnot.symm.trans hoccurs) Bool.false_ne_true

theorem groups?_compactText (ha' : ' ' ∉ a) (hb' : ' ' ∉ b) :
    Request.groups? (compactText v a b) = some [v, a, b] := by
  rw [List.forall_mem_append] at hnone
  have hwhole : IsCompact (compactText v a b) v a b :=
    ⟨[], [' '], by simp [compactText], by decide, by decide, hv, word_of_unitWord ha hnone.1 ha',
      word_of_unitWord hb hnone.2 hb'⟩
  obtain ⟨groups, hgroups⟩ := exists_groups (.inr (compact_occursIn_iff.2 ⟨v, a, b, hwhole⟩))
  obtain ⟨amount, source, target, rfl, ⟨-, hform⟩ | ⟨-, hform⟩⟩ := groups?_cases hgroups
  · exact absurd hform (not_explicit_compactText hv.isAmount ha hb ha' hb')
  · obtain ⟨rfl, rfl, rfl⟩ := compact_unique hv.isAmount ha hb ha' hb' hform
    exact hgroups

end

end

/-- The text asks for a value in the unit of one name, given in that of another. -/
inductive IsQuery (v a b : List Char) : List Char → Prop
  | explicit {link} : link = "to".toList ∨ link = "in".toList →
      IsQuery v a b (explicitText v a link b)
  | compact : ' ' ∉ a → ' ' ∉ b → IsQuery v a b (compactText v a b)

namespace IsQuery

variable {v a b cs : List Char} {d : Dimension} (h : IsQuery v a b cs) (hv : IsNumber v)
include h hv

/-- Nothing that is asked is blank. -/
theorem not_blank : cs.all isBlank = false := by
  obtain ⟨c, v, rfl⟩ := List.exists_cons_of_ne_nil (solid_of_amount hv.isAmount).1
  have hc := hv.isAmount.not_blank c List.mem_cons_self
  cases h <;> simp [explicitText, compactText, hc]

section
variable (ha : a ∈ unitWords d)
include ha

section
variable (hb : b ∈ unitWords d)
include hb

theorem canonical : trim cs = cs ∧ Text.canonical cs = cs := by
  cases h with
  | explicit hlink => exact canonical_explicitText hv.isAmount ha hb hlink
  | compact ha' hb' => exact canonical_compactText hv.isAmount ha hb ha' hb'

/-- Names without digits are read. -/
theorem groups?_eq_some (hnone : ∀ c ∈ a ++ b, isAsciiDigit c = false) :
    Request.groups? cs = some [v, a, b] := by
  cases h with
  | explicit hlink => exact groups?_explicitText hv ha hb hnone hlink
  | compact ha' hb' => exact groups?_compactText hv ha hb hnone ha' hb'

end

/-- A name with a digit is not read. -/
theorem groups?_eq_none {c : Char} (hc : c ∈ a ++ b) (hdigit : isAsciiDigit c = true) :
    Request.groups? cs = none := by
  obtain ⟨rest, rfl, hhead, hmem⟩ : ∃ rest, cs = v ++ rest ∧
      (∀ c ∈ rest.head?, isAmountChar c = false) ∧ c ∈ rest := by
    rw [List.mem_append] at hc
    cases h with
    | @explicit link hlink => exact ⟨_, rfl, head_of_blank _, by grind⟩
    | compact => exact ⟨_, rfl, head_of_unitWord ha _, by grind⟩
  rw [← Option.not_isSome_iff_eq_none, Option.isSome_iff_exists]
  rintro ⟨groups, hgroups⟩
  obtain ⟨amount, source, target, -, hform⟩ := groups?_cases hgroups
  obtain ⟨tail, hsplit, htail, hamount⟩ : ∃ tail, v ++ rest = amount ++ tail ∧
      (∀ c ∈ tail, isBlank c = true ∨ isUnitPhraseChar c = true) ∧ IsAmount amount := by
    rcases hform with ⟨-, hform⟩ | ⟨-, hform⟩
    · obtain ⟨tail, hsplit, htail⟩ := tail_of_explicit hform
      obtain ⟨_, _, _, _, -, -, -, -, -, hamount, -⟩ := hform
      exact ⟨tail, hsplit, htail, hamount.isAmount⟩
    · obtain ⟨tail, hsplit, htail⟩ := tail_of_compact hform
      obtain ⟨_, _, -, -, -, hamount, -⟩ := hform
      exact ⟨tail, hsplit, htail, hamount.isAmount⟩
  obtain ⟨-, rfl⟩ := amount_unique hv.isAmount hhead hamount htail hsplit
  have hnot := not_isAmountChar (htail c hmem)
  rw [isAmountChar, isDigit_of_ascii hdigit] at hnot
  exact Bool.noConfusion hnot

end

end IsQuery

theorem nameKey_of_mem {d : Dimension} {r : UnitRow} {name : String} (hr : r ∈ d.rows)
    (hname : name ∈ r.names) : nameKey name = name ∧ trim name.toList = name.toList := by
  have hword := mem_unitWords_of_row hr hname
  obtain ⟨htrim, hcanonical⟩ := canonical_of_words (fun w hw => solid_of_unitWord hword hw)
    (kept_of_unitWord hword)
  refine ⟨?_, htrim⟩
  rw [nameKey, htrim, lower_of_kept (kept_of_unitWord hword), String.ofList_toList]

/-- The answer to `q` is the value `v` of the unit `a` in the unit `t` of the name `b`. -/
def Answers (settings : Settings) (q v a b : String) (t : UnitRow) : Prop :=
  ∃ value x, Decimal.readFloat? v.toList = some value ∧ convert value a b = .ok (x, t) ∧
    evaluate settings q = .success q (Decimal.numberText x settings.precision) .unitConversion
      (Decimal.plainText value ++ " " ++ a ++ " = " ++ Decimal.numberText x settings.precision ++
        " " ++ b) (some x) (some t.symbol)

section
variable {d : Dimension} {s t : UnitRow} {q v a b : String} (hs : s ∈ d.rows) (ht : t ∈ d.rows)
  (ha : a ∈ s.names) (hb : b ∈ t.names) (hv : IsLiteral v.toList)
  (hq : IsQuery v.toList a.toList b.toList q.toList)
include hs ht ha hb hv hq

theorem trimmed_query : trimmed q = q ∧ Text.canonical q.toList = q.toList := by
  obtain ⟨htrim, hcanonical⟩ := hq.canonical hv.isNumber (mem_unitWords_of_row hs ha)
    (mem_unitWords_of_row ht hb)
  exact ⟨by rw [trimmed, htrim, String.ofList_toList], hcanonical⟩

/-- Names without digits are converted. -/
theorem answers_of_no_digit (settings : Settings)
    (hnone : ∀ c ∈ a.toList ++ b.toList, isAsciiDigit c = false) :
    Answers settings q v a b t := by
  obtain ⟨htrimmed, hcanonical⟩ := trimmed_query hs ht ha hb hv hq
  obtain ⟨hkey, htrim⟩ := nameKey_of_mem hs ha
  obtain ⟨hkey', htrim'⟩ := nameKey_of_mem ht hb
  obtain ⟨sign, digits, hdigits, hsign, hnumeral⟩ := hv
  obtain ⟨value, hvalue⟩ := Decimal.readFloat?_isSome hsign hnumeral
  rw [← hdigits] at hvalue
  have hnumber := IsLiteral.isNumber ⟨sign, digits, hdigits, hsign, hnumeral⟩
  have hcommon : common? a b = some (d, s, t) :=
    common?_of_mem hs ht (by rwa [hkey]) (by rwa [hkey'])
  obtain ⟨x, hconvert⟩ := convert_of_common hcommon value
  have hgroups : Request.groups? (Text.canonical q.toList) =
      some [v.toList, a.toList, b.toList] := by
    rw [hcanonical]
    exact hq.groups?_eq_some hnumber (mem_unitWords_of_row hs ha) (mem_unitWords_of_row ht hb) hnone
  refine ⟨value, x, hvalue, hconvert, ?_⟩
  have hconvert' : convert value (String.ofList (trim a.toList)) (String.ofList (trim b.toList)) =
      .ok (x, t) := by
    rwa [htrim, htrim', String.ofList_toList, String.ofList_toList]
  rw [evaluate_of_request (hq.not_blank hnumber) hgroups hvalue hconvert', htrimmed, htrim, htrim',
    String.ofList_toList, String.ofList_toList]

/-- A name with a digit is refused. -/
theorem refused_of_digit (settings : Settings) {c : Char} (hc : c ∈ a.toList ++ b.toList)
    (hdigit : isAsciiDigit c = true) :
    evaluate settings q = .failure q Failure.invalidConversionFormat.message := by
  obtain ⟨htrimmed, hcanonical⟩ := trimmed_query hs ht ha hb hv hq
  have hgroups := hq.groups?_eq_none hv.isNumber (mem_unitWords_of_row hs ha) hc hdigit
  have hread : Request.read q = .error .invalidConversionFormat := by
    rw [Request.read, hcanonical, hgroups]
  have hblank := hq.not_blank hv.isNumber
  have hempty : q.isEmpty = false := by
    rw [← htrimmed, trimmed_isEmpty]
    exact hblank
  have hanswer : answer? settings q = .error .invalidConversionFormat := by
    simp [answer?, hempty, hread, bind, Except.bind]
  rw [evaluate, htrimmed, hanswer]
  rfl

/-- **Two names of units of one quantity can be used for a conversion if and only if neither has a
digit.** With a word between them or as two words, the value is converted; with a digit, the text is
no request. -/
theorem usable_iff (settings : Settings) :
    (Answers settings q v a b t ↔ ∀ c ∈ a.toList ++ b.toList, isAsciiDigit c = false) ∧
      (¬ Answers settings q v a b t →
        evaluate settings q = .failure q Failure.invalidConversionFormat.message) := by
  by_cases hnone : ∀ c ∈ a.toList ++ b.toList, isAsciiDigit c = false
  · have hanswers := answers_of_no_digit hs ht ha hb hv hq settings hnone
    exact ⟨iff_of_true hanswers hnone, fun hnot => absurd hanswers hnot⟩
  · obtain ⟨c, hc, hdigit⟩ : ∃ c ∈ a.toList ++ b.toList, isAsciiDigit c = true := by
      simpa using hnone
    have hrefused := refused_of_digit hs ht ha hb hv hq settings hc hdigit
    refine ⟨iff_of_false ?_ hnone, fun _ => hrefused⟩
    rintro ⟨value, x, -, -, hanswer⟩
    rw [hrefused] at hanswer
    exact absurd (congrArg Answer.isError hanswer) (by simp [Answer.failure, Answer.success])

end

/-- Five kilometers in miles, asked in two ways. -/
theorem kilometers_usable : ∃ t ∈ Dimension.length.rows, "miles" ∈ t.names ∧
    Answers {} "5 km to miles" "5" "km" "miles" t ∧ Answers {} "5km miles" "5" "km" "miles" t := by
  have hkm : ∃ s ∈ Dimension.length.rows, "km" ∈ s.names := ⟨_, .tail _ (.head _), by decide⟩
  have hmiles : ∃ t ∈ Dimension.length.rows, "miles" ∈ t.names :=
    ⟨_, .tail _ (.tail _ (.head _)), by decide⟩
  obtain ⟨s, hs, hkm⟩ := hkm
  obtain ⟨t, ht, hmiles⟩ := hmiles
  have hfive : IsLiteral "5".toList :=
    ⟨[], _, rfl, .inl rfl, "5".toList, [], by decide, nofun, .inl ⟨rfl, by decide⟩⟩
  have hnone : ∀ c ∈ "km".toList ++ "miles".toList, isAsciiDigit c = false := by decide
  have hlinked : IsQuery "5".toList "km".toList "miles".toList "5 km to miles".toList :=
    .explicit (.inl rfl)
  have htwo : IsQuery "5".toList "km".toList "miles".toList "5km miles".toList :=
    .compact (by decide) (by decide)
  exact ⟨t, ht, hmiles, (usable_iff hs ht hkm hmiles hfive hlinked {}).1.2 hnone,
    (usable_iff hs ht hkm hmiles hfive htwo {}).1.2 hnone⟩

/-- A name of the square meter cannot be used, though it is in the table. -/
theorem square_meters_refused : ∃ t ∈ Dimension.area.rows, "m2" ∈ t.names ∧ "sqm" ∈ t.names ∧
    IsLiteral "5".toList ∧
    IsQuery "5".toList "m2".toList "sqm".toList "5 m2 to sqm".toList ∧
    ¬ Answers {} "5 m2 to sqm" "5" "m2" "sqm" t := by
  have hrow : ∃ t ∈ Dimension.area.rows, "m2" ∈ t.names ∧ "sqm" ∈ t.names :=
    ⟨_, .head _, by decide, by decide⟩
  obtain ⟨t, ht, hm2, hsqm⟩ := hrow
  have hfive : IsLiteral "5".toList :=
    ⟨[], _, rfl, .inl rfl, "5".toList, [], by decide, nofun, .inl ⟨rfl, by decide⟩⟩
  have hlinked : IsQuery "5".toList "m2".toList "sqm".toList "5 m2 to sqm".toList :=
    .explicit (.inl rfl)
  have hrefused := refused_of_digit ht ht hm2 hsqm hfive hlinked {} (show '2' ∈ _ by decide) rfl
  refine ⟨t, ht, hm2, hsqm, hfive, hlinked, ?_⟩
  rintro ⟨value, x, -, -, hanswer⟩
  rw [hrefused] at hanswer
  exact absurd (congrArg Answer.isError hanswer) (by simp [Answer.failure, Answer.success])

/-- The names with digits. -/
example : (Dimension.all.flatMap fun d => d.rows.flatMap (·.names)).filter
    (·.toList.any isAsciiDigit) = ["m2", "km2", "ft2"] := by
  decide

end Reckoner.Units
