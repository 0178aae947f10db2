/-
  Trimming, and lower-casing among blanks.

  * `trim_trim`, `trim_eq_nil`: a trimmed text stays as it is; only blanks trim to nothing;
  * `lowerChar_of_blank`, `lowerChar_of_not_blank`: lower-casing keeps blanks, and makes
    nothing else one;
  * `lower_collapse`: **lower-casing commutes with collapsing runs of blanks**, for what a
    capital sigma becomes is decided by letters that no blank parts from it;
  * `eq_space_of_canonical`: the only blank in a canonical text is the space.
-/
import Mathlib.Data.List.DropRight
import Reckoner.Text.Blank

namespace Reckoner.Text

/-! ## Trimming -/

theorem trimEnd_eq (cs : List Char) : trimEnd cs = cs.rdropWhile isBlank := rfl

theorem trimStart_trimStart (cs : List Char) : trimStart (trimStart cs) = trimStart cs :=
  List.dropWhile_idempotent isBlank cs

theorem trimEnd_trimEnd (cs : List Char) : trimEnd (trimEnd cs) = trimEnd cs :=
  List.rdropWhile_idempotent isBlank cs

/-- Dropping blanks at the end leaves a text that starts with none as it starts. -/
theorem trimStart_trimEnd {cs : List Char} (h : trimStart cs = cs) :
    trimStart (trimEnd cs) = trimEnd cs := by
  unfold trimStart at h ⊢
  rw [List.dropWhile_eq_self_iff] at h ⊢
  intro hlen
  have hpre : trimEnd cs <+: cs := List.rdropWhile_prefix isBlank cs
  rw [hpre.getElem hlen]
  exact h _

theorem trim_trim (cs : List Char) : trim (trim cs) = trim cs := by
  unfold trim
  rw [trimStart_trimEnd (trimStart_trimStart cs), trimEnd_trimEnd]

theorem trim_eq_nil {cs : List Char} : trim cs = [] ↔ cs.all isBlank = true := by
  rw [trim, trimEnd_eq, List.rdropWhile_eq_nil_iff, List.all_eq_true]
  constructor
  · intro h
    have hstart : trimStart cs = [] := by
      refine List.eq_nil_iff_forall_not_mem.2 fun c hc => ?_
      have hne : trimStart cs ≠ [] := List.ne_nil_of_mem hc
      have hhead : isBlank ((trimStart cs).head hne) = false :=
        List.head_dropWhile_not isBlank hne
      rw [h _ (List.head_mem hne)] at hhead
      exact Bool.noConfusion hhead
    exact List.dropWhile_eq_nil_iff.1 hstart
  · intro h c hc
    exact h c ((List.dropWhile_suffix _).subset hc)

theorem trimmed_trimmed (s : String) : trimmed (trimmed s) = trimmed s := by
  simp only [trimmed, String.toList_ofList, trim_trim]

theorem trimmed_isEmpty (s : String) : (trimmed s).isEmpty = isBlankText s := by
  rw [Bool.eq_iff_iff, String.isEmpty_iff, isBlankText, ← trim_eq_nil, trimmed]
  simp

/-! ## Lower-casing a character -/

/-- The code points of blanks. -/
def blankRanges : Ranges :=
  [(9, 13), (0x20, 0x20), (0x85, 0x85), (0xa0, 0xa0), (0x1680, 0x1680), (0x2000, 0x200a),
    (0x2028, 0x2029), (0x202f, 0x202f), (0x205f, 0x205f), (0x3000, 0x3000)]

theorem isBlank_eq (c : Char) : isBlank c = blankRanges.has c := by
  have hone (k : Nat) : k ≤ c.toNat ∧ c.toNat ≤ k ↔ c.toNat = k := by omega
  have htwo : 0x2028 ≤ c.toNat ∧ c.toNat ≤ 0x2029 ↔ c.toNat = 0x2028 ∨ c.toNat = 0x2029 := by
    omega
  rw [Bool.eq_iff_iff]
  simp only [isBlank, blankRanges, Ranges.has, List.any_cons, List.any_nil, Bool.or_eq_true,
    Bool.and_eq_true, beq_iff_eq, decide_eq_true_eq, Bool.false_eq_true, or_false, hone, htwo,
    or_assoc]
  exact or_left_comm

theorem Ranges.has_iff {rs : Ranges} {c : Char} :
    rs.has c = true ↔ ∃ r ∈ rs, r.1 ≤ c.toNat ∧ c.toNat ≤ r.2 := by
  simp [Ranges.has]

theorem Ranges.has_append (rs ss : Ranges) (c : Char) :
    Ranges.has (rs ++ ss) c = (rs.has c || ss.has c) :=
  List.any_append

/-- The code points of the ranges as the bits of one number. -/
def Ranges.bits (rs : Ranges) : Nat :=
  rs.foldr (fun r set => set ||| (1 <<< (r.2 + 1 - r.1) - 1) <<< r.1) 0

theorem Ranges.testBit_bits (rs : Ranges) (c : Char) : rs.bits.testBit c.toNat = rs.has c := by
  induction rs with
  | nil => exact Nat.zero_testBit _
  | cons r rs ih =>
    have hbits : Ranges.bits (r :: rs) =
      Ranges.bits rs ||| (1 <<< (r.2 + 1 - r.1) - 1) <<< r.1 := rfl
    have hhas : Ranges.has (r :: rs) c =
      ((r.1 ≤ c.toNat && c.toNat ≤ r.2) || Ranges.has rs c) := rfl
    rw [hbits, hhas, Nat.testBit_or, ih, Nat.testBit_shiftLeft, Nat.one_shiftLeft,
      Nat.testBit_two_pow_sub_one, Bool.or_comm]
    congr 1
    rw [Bool.eq_iff_iff]
    simp only [Bool.and_eq_true, decide_eq_true_eq]
    omega

/-- No range of the one set meets one of the other. -/
def Ranges.apart (rs ss : Ranges) : Bool := rs.bits &&& ss.bits == 0

/-- Ranges that lie apart share no character. -/
theorem Ranges.has_of_apart {rs ss : Ranges} (h : rs.apart ss = true) {c : Char}
    (hc : rs.has c = true) : ss.has c = false := by
  have hbit := congrArg (Nat.testBit · c.toNat) (beq_iff_eq.1 h)
  rwa [Nat.testBit_and, testBit_bits, testBit_bits, hc, Bool.true_and, Nat.zero_testBit] at hbit

/-- The code points of the letters that lower-casing moves. -/
def capitalRanges : Ranges := caseRuns.map fun r => (r.first, r.last)

/-- The code points that it moves them to. -/
def smallRanges : Ranges :=
  caseRuns.map fun r => ((r.first + r.offset).toNat, (r.last + r.offset).toNat)

set_option maxRecDepth 4000 in
/-- Blanks lie apart from all that lower-casing reads and writes. -/
theorem blank_apart_case : blankRanges.apart
    (casedRanges ++ (caseIgnorableRanges ++ (capitalRanges ++ smallRanges))) = true := by
  decide

theorem has_case_of_blank {c : Char} (h : isBlank c = true) :
    casedRanges.has c = false ∧ caseIgnorableRanges.has c = false ∧
      capitalRanges.has c = false ∧ smallRanges.has c = false := by
  have hcase := Ranges.has_of_apart blank_apart_case (isBlank_eq c ▸ h)
  simpa only [Ranges.has_append, Bool.or_eq_false_iff] using hcase

theorem CaseRun.mem_of_find? {n : Nat} {r : CaseRun} (h : CaseRun.find? n = some r) :
    r ∈ caseRuns ∧ r.first ≤ n ∧ n ≤ r.last := by
  refine ⟨List.mem_of_find?_eq_some h, ?_⟩
  have := List.find?_some h
  simp only [Bool.and_eq_true, decide_eq_true_eq] at this
  exact this.1

/-- No run moves a character that is no capital. -/
theorem CaseRun.find?_eq_none {c : Char} (h : capitalRanges.has c = false) :
    CaseRun.find? c.toNat = none := by
  rw [Option.eq_none_iff_forall_ne_some]
  intro r hr
  obtain ⟨hmem, hfirst, hlast⟩ := CaseRun.mem_of_find? hr
  exact Bool.eq_false_iff.1 h (Ranges.has_iff.2 ⟨_, List.mem_map_of_mem hmem, hfirst, hlast⟩)

/-- The blanks of ASCII. -/
def asciiBlanks : List Char := [' ', '\t', '\n', '\x0b', '\x0c', '\r']

theorem mem_asciiBlanks {c : Char} (h : isBlank c = true) (hlt : c.toNat < 128) :
    c ∈ asciiBlanks := by
  have hc : c.toNat ∈ asciiBlanks.map Char.toNat := by
    simp only [isBlank, Bool.or_eq_true, Bool.and_eq_true, beq_iff_eq, decide_eq_true_eq] at h
    simp only [asciiBlanks, List.map_cons, List.map_nil, List.mem_cons, List.not_mem_nil, or_false]
    show c.toNat = 32 ∨ c.toNat = 9 ∨ c.toNat = 10 ∨ c.toNat = 11 ∨ c.toNat = 12 ∨ c.toNat = 13
    omega
  obtain ⟨d, hd, hdc⟩ := List.mem_map.1 hc
  rwa [← Char.toNat_inj.1 hdc]

theorem asciiBlanks_caseless :
    asciiBlanks.all fun c => !isCased c && !isCaseIgnorable c && lowerChar c == [c] := by
  decide

theorem caseless_of_ascii {c : Char} (h : c ∈ asciiBlanks) :
    isCased c = false ∧ isCaseIgnorable c = false ∧ lowerChar c = [c] := by
  simpa [and_assoc] using List.all_eq_true.1 asciiBlanks_caseless c h

/-- A blank has no case. -/
theorem isCased_of_blank {c : Char} (h : isBlank c = true) : isCased c = false := by
  by_cases hlt : c.toNat < 128
  · exact (caseless_of_ascii (mem_asciiBlanks h hlt)).1
  · rw [isCased, if_neg hlt]
    exact (has_case_of_blank h).1

theorem isCaseIgnorable_of_blank {c : Char} (h : isBlank c = true) :
    isCaseIgnorable c = false := by
  by_cases hlt : c.toNat < 128
  · exact (caseless_of_ascii (mem_asciiBlanks h hlt)).2.1
  · rw [isCaseIgnorable, if_neg hlt]
    exact (has_case_of_blank h).2.1

theorem lowerChar_of_blank {c : Char} (h : isBlank c = true) : lowerChar c = [c] := by
  by_cases hlt : c.toNat < 128
  · exact (caseless_of_ascii (mem_asciiBlanks h hlt)).2.2
  · have hdot : ¬ (c == 'İ') = true := by
      rintro hc
      obtain rfl := beq_iff_eq.1 hc
      exact absurd h (by decide)
    have hrun := CaseRun.find?_eq_none (has_case_of_blank h).2.2.1
    rw [lowerChar, if_neg hlt, if_neg hdot, hrun]

theorem capital_iff {c : Char} :
    ('A' ≤ c && c ≤ 'Z') = true ↔ 65 ≤ c.toNat ∧ c.toNat ≤ 90 := by
  simp only [Bool.and_eq_true, decide_eq_true_eq, Char.le_def, UInt32.le_iff_toNat_le]
  exact Iff.rfl

/-- No capital letter of ASCII becomes blank. -/
theorem not_blank_of_upper {c : Char} (h : ('A' ≤ c && c ≤ 'Z') = true) :
    isBlank (Char.ofNat (c.toNat + 32)) = false := by
  obtain ⟨hfirst, hlast⟩ := capital_iff.1 h
  have hcodes : ∀ n < 123, 97 ≤ n → isBlank (Char.ofNat n) = false := by decide
  exact hcodes _ (by omega) (by omega)

/-- A code point is that of its character, if it has one. -/
theorem toNat_ofNat_or (n : Nat) : (Char.ofNat n).toNat = n ∨ (Char.ofNat n).toNat = 0 := by
  by_cases h : n.isValidChar
  · exact .inl (congrArg Char.toNat (dif_pos h))
  · exact .inr (congrArg Char.toNat (dif_neg h))

/-- What a run of letters moves does not become blank. -/
theorem not_blank_of_run {r : CaseRun} (hr : r ∈ caseRuns) {n : Nat} (hfirst : r.first ≤ n)
    (hlast : n ≤ r.last) : isBlank (Char.ofNat (n + r.offset).toNat) = false := by
  rw [Bool.eq_false_iff]
  intro hb
  have hpos : ∀ s ∈ blankRanges, 0 < s.1 := by decide
  obtain ⟨b, hmem, hfirst', -⟩ := Ranges.has_iff.1 (isBlank_eq _ ▸ hb)
  have := hpos b hmem
  rcases toNat_ofNat_or (n + r.offset).toNat with hcode | hcode
  · refine Bool.eq_false_iff.1 (has_case_of_blank hb).2.2.2 (Ranges.has_iff.2 ⟨_,
      List.mem_map_of_mem hr, ?_⟩)
    rw [hcode]
    constructor <;> dsimp only <;> omega
  · omega

theorem not_blank_singleton {c : Char} (h : isBlank c = false) :
    [c] ≠ [] ∧ ∀ d ∈ [c], isBlank d = false :=
  ⟨List.cons_ne_nil _ _, List.forall_mem_singleton.2 h⟩

/-- What is not blank becomes something, and nothing blank. -/
theorem lowerChar_of_not_blank {c : Char} (h : isBlank c = false) :
    lowerChar c ≠ [] ∧ ∀ d ∈ lowerChar c, isBlank d = false := by
  unfold lowerChar
  split_ifs with hlt hupper hdot
  · exact not_blank_singleton (not_blank_of_upper hupper)
  · exact not_blank_singleton h
  · refine ⟨List.cons_ne_nil _ _, List.forall_mem_cons.2 ⟨by decide, ?_⟩⟩
    exact (not_blank_singleton (by decide)).2
  · split
    · next r hr =>
      obtain ⟨hmem, hfirst, hlast⟩ := CaseRun.mem_of_find? hr
      exact not_blank_singleton (not_blank_of_run hmem hfirst hlast)
    · exact not_blank_singleton h

/-! ## Lower-casing a text -/

theorem meetsCased_cons (c : Char) (cs : List Char) :
    meetsCased (c :: cs) = if isCaseIgnorable c then meetsCased cs else isCased c := by
  unfold meetsCased
  cases h : isCaseIgnorable c <;> simp [h]

theorem meetsCased_of_blank {c : Char} (h : isBlank c = true) (cs : List Char) :
    meetsCased (c :: cs) = false := by
  rw [meetsCased_cons, isCaseIgnorable_of_blank h, isCased_of_blank h]
  rfl

/-- What the character `c` becomes after `before` and before `cs`. -/
def lowered (before : List Char) (c : Char) (cs : List Char) : List Char :=
  if c == 'Σ' then [if meetsCased before && !meetsCased cs then 'ς' else 'σ'] else lowerChar c

theorem lowerFrom_cons (before : List Char) (c : Char) (cs : List Char) :
    lowerFrom before (c :: cs) = lowered before c cs ++ lowerFrom (c :: before) cs := rfl

theorem lowered_of_blank {c : Char} (h : isBlank c = true) (before cs : List Char) :
    lowered before c cs = [c] := by
  have hsigma : ¬ (c == 'Σ') = true := by
    intro hc
    obtain rfl := beq_iff_eq.1 hc
    exact absurd h (by decide)
  rw [lowered, if_neg hsigma, lowerChar_of_blank h]

theorem lowered_of_not_blank {c : Char} (h : isBlank c = false) (before cs : List Char) :
    lowered before c cs ≠ [] ∧ ∀ d ∈ lowered before c cs, isBlank d = false := by
  unfold lowered
  split_ifs
  · exact not_blank_singleton (by decide)
  · exact not_blank_singleton (by decide)
  · exact lowerChar_of_not_blank h

/-- Of the text before, it only matters whether the next character looked at has case. -/
theorem lowered_congr {before before' cs cs' : List Char}
    (hbefore : meetsCased before = meetsCased before') (hcs : meetsCased cs = meetsCased cs')
    (c : Char) : lowered before c cs = lowered before' c cs' := by
  rw [lowered, lowered, hbefore, hcs]

theorem meetsCased_congr {before before' : List Char}
    (h : meetsCased before = meetsCased before') (c : Char) :
    meetsCased (c :: before) = meetsCased (c :: before') := by
  rw [meetsCased_cons, meetsCased_cons, h]

/-! ## Collapsing -/

theorem collapseFrom_nil (open_ : Bool) : collapseFrom open_ [] = [] := rfl

theorem collapseFrom_cons (open_ : Bool) (c : Char) (cs : List Char) :
    collapseFrom open_ (c :: cs) =
      if isBlank c then if open_ then collapseFrom true cs else ' ' :: collapseFrom true cs
      else c :: collapseFrom false cs :=
  rfl

theorem collapseFrom_append {ds : List Char} (hne : ds ≠ []) (h : ∀ d ∈ ds, isBlank d = false)
    (cs : List Char) (open_ : Bool) :
    collapseFrom open_ (ds ++ cs) = ds ++ collapseFrom false cs := by
  induction ds generalizing open_ with
  | nil => exact absurd rfl hne
  | cons d ds ih =>
    have hd : isBlank d = false := h d List.mem_cons_self
    rw [List.cons_append, collapseFrom_cons, hd, if_neg Bool.false_ne_true, List.cons_append]
    cases ds with
    | nil => rfl
    | cons d' ds =>
      rw [ih (List.cons_ne_nil _ _) fun e he => h e (List.mem_cons_of_mem d he)]

theorem meetsCased_collapse (cs : List Char) : meetsCased (collapse cs) = meetsCased cs := by
  induction cs with
  | nil => rfl
  | cons c cs ih =>
    unfold collapse at ih ⊢
    rw [collapseFrom_cons]
    cases hc : isBlank c with
    | true =>
      have hspace : isBlank ' ' = true := rfl
      simp only [if_true, Bool.false_eq_true, if_false]
      rw [meetsCased_of_blank hspace, meetsCased_of_blank hc]
    | false =>
      simp only [Bool.false_eq_true, if_false]
      rw [meetsCased_cons, meetsCased_cons, ih]

/-- Within a run of blanks nothing before it matters. -/
theorem lowerFrom_collapseFrom {open_ : Bool} {before before' cs : List Char}
    (hbefore : meetsCased before = meetsCased before')
    (hopen : open_ = true → meetsCased before' = false) :
    lowerFrom before (collapseFrom open_ cs) = collapseFrom open_ (lowerFrom before' cs) := by
  induction cs generalizing open_ before before' with
  | nil => rfl
  | cons c cs ih =>
    cases hc : isBlank c with
    | true =>
      have hspace : isBlank ' ' = true := rfl
      have hafter : meetsCased (c :: before') = false := meetsCased_of_blank hc before'
      rw [lowerFrom_cons, lowered_of_blank hc, List.singleton_append, collapseFrom_cons,
        collapseFrom_cons, if_pos hc, if_pos hc]
      cases open_ with
      | true =>
        simp only [if_true]
        refine ih ?_ fun _ => hafter
        rw [hbefore, hopen rfl, hafter]
      | false =>
        simp only [Bool.false_eq_true, if_false]
        rw [lowerFrom_cons, lowered_of_blank hspace, List.singleton_append]
        refine congrArg _ (ih ?_ fun _ => hafter)
        rw [meetsCased_of_blank hspace, hafter]
    | false =>
      obtain ⟨hne, hlow⟩ := lowered_of_not_blank hc before' cs
      have hcs : meetsCased (collapseFrom false cs) = meetsCased cs := meetsCased_collapse cs
      rw [collapseFrom_cons, hc, if_neg Bool.false_ne_true, lowerFrom_cons, lowerFrom_cons,
        collapseFrom_append hne hlow, lowered_congr hbefore hcs]
      exact congrArg _ (ih (meetsCased_congr hbefore c) fun h => Bool.noConfusion h)

/-- **Lower-casing commutes with collapsing runs of blanks.** -/
theorem lower_collapse (cs : List Char) : lower (collapse cs) = collapse (lower cs) :=
  lowerFrom_collapseFrom rfl fun h => Bool.noConfusion h

/-- The canonical form of a text is that of its trimmed lower-case form. -/
theorem canonical_eq (cs : List Char) : canonical cs = collapse (lower (trim cs)) :=
  lower_collapse (trim cs)

theorem eq_space_of_collapseFrom {open_ : Bool} {cs : List Char} :
    ∀ c ∈ collapseFrom open_ cs, isBlank c = true → c = ' ' := by
  induction cs generalizing open_ with
  | nil => exact nofun
  | cons d cs ih =>
    intro c hc hblank
    rw [collapseFrom_cons] at hc
    split_ifs at hc with hd hopen
    · exact ih c hc hblank
    · rcases List.mem_cons.1 hc with rfl | hc
      · rfl
      · exact ih c hc hblank
    · rcases List.mem_cons.1 hc with rfl | hc
      · exact absurd hblank hd
      · exact ih c hc hblank

/-- The only blank in a canonical text is the space. -/
theorem eq_space_of_canonical {cs : List Char} :
    ∀ c ∈ canonical cs, isBlank c = true → c = ' ' := by
  rw [canonical_eq]
  exact eq_space_of_collapseFrom

theorem strip_append (xs ys : List Char) : strip (xs ++ ys) = strip xs ++ strip ys :=
  List.filter_append ..

theorem strip_of_blanks {cs : List Char} (h : ∀ c ∈ cs, isBlank c = true) : strip cs = [] := by
  refine List.filter_eq_nil_iff.2 fun c hc => ?_
  rw [h c hc]
  exact Bool.false_ne_true

/-- Without any blank, it does not matter how the text was spaced. -/
theorem strip_collapseFrom (open_ : Bool) (cs : List Char) :
    strip (collapseFrom open_ cs) = strip cs := by
  unfold strip
  induction cs generalizing open_ with
  | nil => rfl
  | cons c cs ih =>
    rw [collapseFrom_cons]
    cases hc : isBlank c with
    | true =>
      have hspace : isBlank ' ' = true := rfl
      cases open_ <;> simp [hc, hspace, ih]
    | false => simp [hc, ih]

theorem strip_canonical (cs : List Char) : strip (canonical cs) = strip (lower (trim cs)) := by
  rw [canonical_eq, collapse, strip_collapseFrom]

theorem canonical_trimmed (s : String) : canonical (trimmed s).toList = canonical s.toList := by
  simp only [canonical, trimmed, String.toList_ofList, trim_trim]

/-- Of the text before, only the nearest character looked at matters. -/
theorem lowerFrom_congr {before before' : List Char} (h : meetsCased before = meetsCased before')
    (cs : List Char) : lowerFrom before cs = lowerFrom before' cs := by
  induction cs generalizing before before' with
  | nil => rfl
  | cons c cs ih =>
    rw [lowerFrom_cons, lowerFrom_cons, lowered_congr h rfl, ih (meetsCased_congr h c)]

theorem meetsCased_append_blanks {bs : List Char} (hbs : ∀ b ∈ bs, isBlank b = true)
    (cs : List Char) : meetsCased (cs ++ bs) = meetsCased cs := by
  induction cs with
  | nil =>
    cases bs with
    | nil => rfl
    | cons b bs => rw [List.nil_append, meetsCased_of_blank (hbs b List.mem_cons_self)]; rfl
  | cons c cs ih => rw [List.cons_append, meetsCased_cons, meetsCased_cons, ih]

theorem lowerFrom_of_blanks {bs : List Char} (hbs : ∀ b ∈ bs, isBlank b = true)
    (before : List Char) : lowerFrom before bs = bs := by
  induction bs generalizing before with
  | nil => rfl
  | cons b bs ih =>
    obtain ⟨hb, hbs⟩ := List.forall_mem_cons.1 hbs
    rw [lowerFrom_cons, lowered_of_blank hb, ih hbs, List.singleton_append]

theorem lowerFrom_append_blanks {bs : List Char} (hbs : ∀ b ∈ bs, isBlank b = true)
    (before cs : List Char) : lowerFrom before (cs ++ bs) = lowerFrom before cs ++ bs := by
  induction cs generalizing before with
  | nil => exact lowerFrom_of_blanks hbs before
  | cons c cs ih =>
    rw [List.cons_append, lowerFrom_cons, lowerFrom_cons, ih, List.append_assoc,
      lowered_congr rfl (meetsCased_append_blanks hbs cs)]

theorem lowerFrom_blanks_append {bs : List Char} (hbs : ∀ b ∈ bs, isBlank b = true)
    {before : List Char} (hbefore : meetsCased before = false) (cs : List Char) :
    lowerFrom before (bs ++ cs) = bs ++ lowerFrom before cs := by
  induction bs generalizing before with
  | nil => rfl
  | cons b bs ih =>
    obtain ⟨hb, hbs⟩ := List.forall_mem_cons.1 hbs
    have hmeets := meetsCased_of_blank hb before
    rw [List.cons_append, lowerFrom_cons, lowered_of_blank hb, ih hbs hmeets,
      lowerFrom_congr (hmeets.trans hbefore.symm), List.singleton_append, List.cons_append]

theorem lowerFrom_all_blank (before cs : List Char) :
    (lowerFrom before cs).all isBlank = cs.all isBlank := by
  induction cs generalizing before with
  | nil => rfl
  | cons c cs ih =>
    rw [lowerFrom_cons, List.all_append, ih, List.all_cons]
    cases hc : isBlank c with
    | true => rw [lowered_of_blank hc, List.all_cons, hc, List.all_nil, Bool.and_true]
    | false =>
      obtain ⟨hne, hlow⟩ := lowered_of_not_blank hc before cs
      obtain ⟨d, ds, hd⟩ := List.exists_cons_of_ne_nil hne
      rw [hd] at hlow ⊢
      rw [List.all_cons, hlow d List.mem_cons_self, Bool.false_and, Bool.false_and]

theorem lower_all_blank (cs : List Char) : (lower cs).all isBlank = cs.all isBlank :=
  lowerFrom_all_blank [] cs

end Reckoner.Text
