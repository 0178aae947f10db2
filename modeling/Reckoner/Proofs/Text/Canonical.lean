/-
  Canonical texts.

  * `lower_lower`: **lower case stays as it is**, for no letter becomes one that has a lower case
    of its own;
  * `trim_lower`, `trim_collapse`: lower-casing and collapsing leave the ends of a trimmed text;
  * `canonical_eq_self`: **a text is canonical if it is trimmed, single-spaced and in lower case**;
    `canonical_words`: two words are.
-/
import Reckoner.Proofs.Text.Covered

namespace Reckoner.Text

/-! ## Lower case -/

/-- The code points of the letters of a run. -/
def CaseRun.codes (r : CaseRun) : List Nat :=
  List.range' r.first ((r.last - r.first) / r.step + 1) r.step

/-- The capital letters above ASCII, with the one that becomes two characters. -/
def capitalLetters : Ranges :=
  (0x130 :: caseRuns.flatMap CaseRun.codes).map fun n => (n, n)

/-- The letters that the others become. -/
def smallLetters : Ranges :=
  (caseRuns.flatMap fun r => r.codes.map fun n : Nat => (n + r.offset).toNat).map fun n => (n, n)

set_option maxRecDepth 8000 in
/-- No letter becomes one that is a capital itself. -/
theorem small_apart_capital : smallLetters.apart capitalLetters = true := by
  decide

/-- A letter that a run moves is one of its letters. -/
theorem CaseRun.mem_codes {r : CaseRun} {n : Nat} (h : CaseRun.find? n = some r) :
    n ∈ r.codes := by
  obtain ⟨-, hfirst, hlast⟩ := CaseRun.mem_of_find? h
  have hstep : (n - r.first) % r.step = 0 := by
    have hfound := List.find?_some h
    simp only [Bool.and_eq_true, beq_iff_eq] at hfound
    exact hfound.2
  refine List.mem_range'.2 ⟨(n - r.first) / r.step, ?_, ?_⟩
  · exact Nat.lt_succ_of_le (Nat.div_le_div_right (Nat.sub_le_sub_right hlast r.first))
  · have hdiv := Nat.div_add_mod (n - r.first) r.step
    omega

theorem capitalLetters_has_of_find? {r : CaseRun} {c : Char}
    (h : CaseRun.find? c.toNat = some r) : capitalLetters.has c = true := by
  have hcode : c.toNat ∈ caseRuns.flatMap CaseRun.codes :=
    List.mem_flatMap.2 ⟨r, (CaseRun.mem_of_find? h).1, CaseRun.mem_codes h⟩
  exact Ranges.has_iff.2 ⟨(c.toNat, c.toNat),
    List.mem_map_of_mem (List.mem_cons_of_mem _ hcode), Nat.le_refl _, Nat.le_refl _⟩

theorem smallLetters_has_of_find? {r : CaseRun} {n : Nat} {c : Char}
    (h : CaseRun.find? n = some r) (hc : c.toNat = (n + r.offset).toNat) :
    smallLetters.has c = true := by
  have hcode : c.toNat ∈
      caseRuns.flatMap fun r => r.codes.map fun n : Nat => (n + r.offset).toNat :=
    List.mem_flatMap.2 ⟨r, (CaseRun.mem_of_find? h).1,
      List.mem_map.2 ⟨n, CaseRun.mem_codes h, hc.symm⟩⟩
  exact Ranges.has_iff.2 ⟨(c.toNat, c.toNat), List.mem_map_of_mem hcode, Nat.le_refl _,
    Nat.le_refl _⟩

/-- A character above ASCII that is no capital is kept. -/
theorem isKept_of_no_run {c : Char} (hlt : ¬ c.toNat < 128) (hdot : c ≠ 'İ')
    (hrun : CaseRun.find? c.toNat = none) : IsKept c := by
  constructor
  · rintro rfl
    exact absurd hrun (by decide)
  · rw [lowerChar, if_neg hlt, if_neg (mt beq_iff_eq.1 hdot), hrun]

/-- What a letter of a run becomes is kept. -/
theorem isKept_of_run {r : CaseRun} {n : Nat} (h : CaseRun.find? n = some r) :
    IsKept (Char.ofNat (n + r.offset).toNat) := by
  obtain ⟨hmem, hfirst, hlast⟩ := CaseRun.mem_of_find? h
  have habove := ascii_apart_lower r hmem
  rcases toNat_ofNat_or (n + r.offset).toNat with hcode | hcode
  · by_cases hlt : (n + r.offset).toNat < 128
    · exact isKept_of_ascii (hcode.trans_lt hlt) (by omega)
    · -- it is none of the capitals
      have hcapital := Ranges.has_of_apart small_apart_capital (smallLetters_has_of_find? h hcode)
      refine isKept_of_no_run (by rwa [hcode]) ?_ ?_
      · intro hdot
        rw [hdot] at hcapital
        exact absurd hcapital (by decide)
      · rw [Option.eq_none_iff_forall_ne_some]
        intro s hs
        exact Bool.false_ne_true (hcapital.symm.trans (capitalLetters_has_of_find? hs))
  · exact isKept_of_ascii (by omega) (by omega)

theorem isKept_of_lowerChar {c : Char} : ∀ d ∈ lowerChar c, IsKept d := by
  unfold lowerChar
  split_ifs with hlt hcapital hdot
  · refine List.forall_mem_singleton.2 (isKept_of_lower ?_)
    obtain ⟨hfirst, hlast⟩ := capital_iff.1 hcapital
    have hcodes : ∀ n < 123, 97 ≤ n → isAsciiLower (Char.ofNat n) = true := by decide
    exact hcodes _ (by omega) (by omega)
  · exact List.forall_mem_singleton.2 (isKept_of_ascii hlt (mt capital_iff.2 hcapital))
  · have hmarks : ∀ d ∈ ['i', '\u0307'], d ≠ 'Σ' ∧ lowerChar d = [d] := by decide
    exact hmarks
  · split
    · next r hr => exact List.forall_mem_singleton.2 (isKept_of_run hr)
    · next hr =>
      exact List.forall_mem_singleton.2 (isKept_of_no_run hlt (mt beq_iff_eq.2 hdot) hr)

theorem isKept_of_lowerFrom (before cs : List Char) : ∀ d ∈ lowerFrom before cs, IsKept d := by
  induction cs generalizing before with
  | nil => exact nofun
  | cons c cs ih =>
    rw [lowerFrom_cons, List.forall_mem_append]
    refine ⟨?_, ih _⟩
    unfold lowered
    split_ifs
    · exact List.forall_mem_singleton.2 ⟨by decide, by decide⟩
    · exact List.forall_mem_singleton.2 ⟨by decide, by decide⟩
    · exact isKept_of_lowerChar

/-- **Lower case stays as it is.** -/
theorem lower_lower (cs : List Char) : lower (lower cs) = lower cs :=
  lower_of_kept (isKept_of_lowerFrom [] cs)

theorem getLast_append {P : Char → Prop} {us : List Char} (hne : us ≠ []) (hus : ∀ c ∈ us, P c)
    (xs : List Char) : ∀ c ∈ (xs ++ us).getLast?, P c := by
  rw [List.getLast?_append_of_ne_nil _ hne]
  exact fun c hc => hus c (List.mem_of_getLast? hc)

section
variable {cs : List Char}

theorem trimStart_eq_self : trimStart cs = cs ↔ ∀ c ∈ cs.head?, isBlank c = false := by
  cases cs with
  | nil => exact iff_of_true rfl nofun
  | cons c cs =>
    rw [trimStart, List.dropWhile_eq_self_iff]
    simp

theorem trimEnd_eq_self : trimEnd cs = cs ↔ ∀ c ∈ cs.getLast?, isBlank c = false := by
  rw [trimEnd, List.reverse_eq_iff, ← List.head?_reverse]
  exact trimStart_eq_self

/-- A text without blanks at its ends has none to trim. -/
theorem trim_eq_self : trim cs = cs ↔
    (∀ c ∈ cs.head?, isBlank c = false) ∧ ∀ c ∈ cs.getLast?, isBlank c = false := by
  rw [← trimStart_eq_self, ← trimEnd_eq_self]
  constructor
  · intro h
    have hstart : trimStart cs = cs := by
      rw [← h]
      exact trimStart_trimEnd (trimStart_trimStart cs)
    exact ⟨hstart, by rwa [trim, hstart] at h⟩
  · rintro ⟨hstart, hend⟩
    rw [trim, hstart, hend]

/-- Blanks behind a text are trimmed. -/
theorem trim_append_blanks {bs : List Char} (hbs : ∀ b ∈ bs, isBlank b = true) (cs : List Char) :
    trim (cs ++ bs) = trim cs := by
  have hbs' : ∀ b ∈ bs.reverse, isBlank b = true := fun b hb => hbs b (List.mem_reverse.1 hb)
  rw [trim, trim, trimStart, trimStart, List.dropWhile_append]
  split_ifs with hnil
  · rw [List.isEmpty_iff.1 hnil, List.dropWhile_eq_nil_iff.2 hbs]
  · rw [trimEnd, trimEnd, List.reverse_append, List.dropWhile_append_of_pos hbs']

/-- Blanks around a trimmed text are trimmed. -/
theorem trim_between {bs bs' : List Char} (hbs : ∀ b ∈ bs, isBlank b = true)
    (hbs' : ∀ b ∈ bs', isBlank b = true) (h : trim cs = cs) : trim (bs ++ cs ++ bs') = cs := by
  rw [trim_append_blanks hbs', trim, trimStart, List.dropWhile_append_of_pos hbs]
  exact h

theorem head_lowerFrom (h : ∀ c ∈ cs.head?, isBlank c = false) (before : List Char) :
    ∀ c ∈ (lowerFrom before cs).head?, isBlank c = false := by
  cases cs with
  | nil => exact nofun
  | cons c cs =>
    obtain ⟨hne, hlow⟩ := lowered_of_not_blank (h c rfl) before cs
    obtain ⟨d, ds, hd⟩ := List.exists_cons_of_ne_nil hne
    rw [lowerFrom_cons, hd]
    rw [hd] at hlow
    exact fun e he => hlow e (List.mem_cons.2 (.inl (Option.some.inj he).symm))

theorem lowered_ne_nil (before : List Char) (c : Char) (cs : List Char) :
    lowered before c cs ≠ [] := by
  cases hc : isBlank c with
  | true => rw [lowered_of_blank hc]; exact List.cons_ne_nil _ _
  | false => exact (lowered_of_not_blank hc before cs).1

theorem getLast_lowerFrom (h : ∀ c ∈ cs.getLast?, isBlank c = false) (before : List Char) :
    ∀ c ∈ (lowerFrom before cs).getLast?, isBlank c = false := by
  induction cs generalizing before with
  | nil => exact nofun
  | cons c cs ih =>
    rw [lowerFrom_cons]
    cases cs with
    | nil =>
      obtain ⟨-, hlow⟩ := lowered_of_not_blank (h c rfl) before []
      rw [lowerFrom, List.append_nil]
      exact fun d hd => hlow d (List.mem_of_getLast? hd)
    | cons c' cs =>
      have hne : lowerFrom (c :: before) (c' :: cs) ≠ [] :=
        List.append_ne_nil_of_left_ne_nil (lowered_ne_nil _ c' cs) _
      rw [List.getLast?_append_of_ne_nil _ hne]
      exact ih h _

/-- Lower-casing leaves the ends of a trimmed text without blanks. -/
theorem trim_lower (h : trim cs = cs) : trim (lower cs) = lower cs := by
  obtain ⟨hfirst, hlast⟩ := trim_eq_self.1 h
  exact trim_eq_self.2 ⟨head_lowerFrom hfirst [], getLast_lowerFrom hlast []⟩

end

/-! ## Single spaces -/

theorem collapseFrom_collapseFrom (open_ : Bool) (cs : List Char) :
    collapseFrom open_ (collapseFrom open_ cs) = collapseFrom open_ cs := by
  induction cs generalizing open_ with
  | nil => rfl
  | cons c cs ih =>
    rw [collapseFrom_cons]
    split_ifs with hc hopen
    · rw [hopen]
      exact ih true
    · rw [collapseFrom_cons, if_pos (by decide), if_neg hopen, ih]
    · rw [collapseFrom_cons, if_neg hc, ih]

theorem collapse_collapse (cs : List Char) : collapse (collapse cs) = collapse cs :=
  collapseFrom_collapseFrom false cs

/-- A run of blanks ends where a character that is not blank comes. -/
theorem collapseFrom_append_cons {c : Char} (hc : isBlank c = false) (open_ : Bool)
    (cs ds : List Char) :
    collapseFrom open_ (cs ++ c :: ds) = collapseFrom open_ cs ++ c :: collapseFrom false ds := by
  induction cs generalizing open_ with
  | nil => exact if_neg (Bool.eq_false_iff.1 hc)
  | cons b cs ih =>
    rw [List.cons_append, collapseFrom_cons, collapseFrom_cons]
    split_ifs
    · exact ih true
    · rw [ih, List.cons_append]
    · rw [ih, List.cons_append]

/-- Collapsing leaves the ends of a trimmed text without blanks. -/
theorem trim_collapse {cs : List Char} (h : trim cs = cs) : trim (collapse cs) = collapse cs := by
  obtain ⟨hfirst, hlast⟩ := trim_eq_self.1 h
  refine trim_eq_self.2 ⟨?_, ?_⟩
  · cases cs with
    | nil =>
      intro d hd
      cases hd
    | cons c cs =>
      have hc := hfirst c rfl
      have hcollapse := collapseFrom_append_cons hc false [] cs
      rw [List.nil_append] at hcollapse
      rw [collapse, hcollapse]
      exact fun d hd => Option.some.inj hd ▸ hc
  · rcases List.eq_nil_or_concat cs with rfl | ⟨cs, c, rfl⟩
    · intro d hd
      cases hd
    · rw [List.concat_eq_append, List.getLast?_concat] at hlast
      have hc := hlast c rfl
      rw [List.concat_eq_append, collapse, collapseFrom_append_cons hc, collapseFrom_nil,
        List.getLast?_concat]
      exact fun d hd => Option.some.inj hd ▸ hc

theorem trim_canonical (cs : List Char) : trim (canonical cs) = canonical cs :=
  trim_lower (trim_collapse (trim_trim cs))

/-- **A text is canonical if it is trimmed, single-spaced and in lower case.** -/
theorem canonical_eq_self {cs : List Char} :
    canonical cs = cs ↔ trim cs = cs ∧ collapse cs = cs ∧ lower cs = cs := by
  constructor
  · intro h
    refine ⟨?_, ?_, ?_⟩
    · rw [← h]
      exact trim_canonical cs
    · rw [← h, canonical_eq, collapse_collapse]
    · rw [← h]
      exact lower_lower _
  · rintro ⟨htrim, hcollapse, hlower⟩
    rw [canonical, htrim, hcollapse, hlower]

/-- The canonical form is canonical. -/
theorem canonical_canonical (cs : List Char) : canonical (canonical cs) = canonical cs := by
  refine canonical_eq_self.2 ⟨trim_canonical cs, ?_, lower_lower _⟩
  rw [canonical_eq, collapse_collapse]

end Reckoner.Text
