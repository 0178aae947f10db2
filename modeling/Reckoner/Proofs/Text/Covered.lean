/-
  The words that the letters of a text lie in.

  * `Covered`: every stretch of lower-case letters of a text lies in one of the given words;
  * `Covered.of_replaceWords`: **a text is covered by the words replaced in it and those that
    cover the result**;
  * `Slice.mem_cut`, `Slice.cut_at`: the slices of a text hold all its characters, and where
    the one that holds a character begins; `Slice.strip_eq_flatMap`: together they are the text;
  * `IsKept`, `lower_of_kept`: characters that lower-casing leaves as they are.
-/
import Reckoner.Proofs.Text.Replace

namespace Reckoner

/-! ## Stretches -/

namespace Text

variable {words : List (List Char)} {pre w rest cs : List Char}

/-- Every stretch of lower-case letters lies in one of the words where it occurs. -/
def Covered (words : List (List Char)) (cs : List Char) : Prop :=
  ∀ pre w rest, cs = pre ++ w ++ rest → w ≠ [] → (∀ c ∈ w, isAsciiLower c = true) →
    ∃ x y, x <:+ pre ∧ y <+: rest ∧ x ++ w ++ y ∈ words

namespace Covered

theorem exists_word (h : Covered words cs) (hw : w <:+: cs) (hne : w ≠ [])
    (hlower : ∀ c ∈ w, isAsciiLower c = true) : ∃ word ∈ words, w <:+: word := by
  obtain ⟨pre, rest, rfl⟩ := hw
  obtain ⟨x, y, -, -, hword⟩ := h pre w rest rfl hne hlower
  exact ⟨_, hword, x, y, rfl⟩

/-- After a text without letters a word begins, if words begin with letters. -/
theorem exists_prefix (h : Covered words (pre ++ w ++ rest)) (hne : w ≠ [])
    (hlower : ∀ c ∈ w, isAsciiLower c = true) (hpre : ∀ c ∈ pre, isAsciiLower c = false)
    (hwords : ∀ word ∈ words, word.head?.all isAsciiLower = true) :
    ∃ word ∈ words, w <+: word ∧ word <+: w ++ rest := by
  obtain ⟨x, y, hx, hy, hword⟩ := h pre w rest rfl hne hlower
  cases x with
  | nil => exact ⟨w ++ y, hword, List.prefix_append w y, (List.prefix_append_right_inj w).2 hy⟩
  | cons c x =>
    have hc : isAsciiLower c = true := hwords _ hword
    exact absurd ((hpre c (hx.subset List.mem_cons_self)).symm.trans hc) Bool.false_ne_true

theorem mono {words' : List (List Char)} (hwords : words ⊆ words') (h : Covered words cs) :
    Covered words' cs := by
  intro pre w rest hcs hne hlower
  obtain ⟨x, y, hx, hy, hword⟩ := h pre w rest hcs hne hlower
  exact ⟨x, y, hx, hy, hwords hword⟩

/-- A text without letters needs no words. -/
theorem of_no_letters (h : ∀ c ∈ cs, isAsciiLower c = false) : Covered words cs := by
  rintro pre w rest rfl hne hlower
  obtain ⟨c, hc⟩ := List.exists_mem_of_ne_nil w hne
  have hmem : c ∈ pre ++ w ++ rest := List.mem_append_left _ (List.mem_append_right _ hc)
  exact absurd ((h c hmem).symm.trans (hlower c hc)) Bool.false_ne_true

end Covered

/-! ## Stretches of a text in parts -/

section
variable {xs bs ys : List Char}

/-- A stretch without a character lies before it or after it. -/
theorem infix_of_cons {c : Char} (hc : c ∉ w) (h : w <:+: xs ++ c :: ys) :
    w <:+: xs ∨ w <:+: ys := by
  obtain ⟨s, t, h⟩ := h
  rcases List.append_eq_append_iff.1 h with ⟨a, rfl, -⟩ | ⟨a, h', ht⟩
  · exact .inl ⟨s, a, rfl⟩
  · cases a with
    | nil => exact .inl ⟨s, [], by simpa using h'⟩
    | cons d a =>
      obtain ⟨rfl, rfl⟩ := List.cons.inj ht
      rcases List.append_eq_append_iff.1 h' with ⟨b, rfl, hb⟩ | ⟨b, rfl, hb⟩
      · exact absurd (hb ▸ List.mem_append_right b List.mem_cons_self) hc
      · cases b with
        | nil =>
          obtain rfl : c :: a = w := hb
          exact absurd List.mem_cons_self hc
        | cons e b =>
          obtain ⟨rfl, rfl⟩ := List.cons.inj hb
          exact .inr ⟨b, t, rfl⟩

/-- A stretch does not begin before what has its characters. -/
theorem infix_of_append (hne : w ≠ []) (hxs : ∀ c ∈ xs, c ∉ w) (h : w <:+: xs ++ ys) :
    w <:+: ys := by
  induction xs with
  | nil => exact h
  | cons c xs ih =>
    obtain ⟨hc, hxs⟩ := List.forall_mem_cons.1 hxs
    rcases @infix_of_cons w [] (xs ++ ys) c hc h with hnil | hrest
    · exact absurd (List.infix_nil.1 hnil) hne
    · exact ih hxs hrest

/-- A stretch does not go across what has none of its characters. -/
theorem infix_of_append_apart (hne : w ≠ []) (hbs : bs ≠ []) (hout : ∀ c ∈ bs, c ∉ w)
    (h : w <:+: xs ++ bs ++ ys) : w <:+: xs ∨ w <:+: ys := by
  obtain ⟨b, bs, rfl⟩ := List.exists_cons_of_ne_nil hbs
  obtain ⟨hb, hout⟩ := List.forall_mem_cons.1 hout
  rw [List.append_assoc, List.cons_append] at h
  exact (infix_of_cons hb h).imp_right (infix_of_append hne hout)

/-- A stretch ends in what has its characters. -/
theorem infix_of_append_end (hne : w ≠ []) (hout : ∀ c ∈ ys, c ∉ w) (h : w <:+: xs ++ ys) :
    w <:+: xs := by
  cases ys with
  | nil => rwa [List.append_nil] at h
  | cons y ys =>
    have hnil : w <:+: xs ++ y :: ys ++ [] := by rwa [List.append_nil]
    rcases infix_of_append_apart hne (List.cons_ne_nil y ys) hout hnil with h | h
    · exact h
    · exact absurd (List.infix_nil.1 h) hne

end

/-! ## Words replaced -/

theorem exists_word_end (cs : List Char) : ∃ a u, cs = a ++ u ∧ EndsApart a ∧
    ∀ c ∈ u, isWordChar c = true := by
  obtain ⟨v, b, hcs, hv, hb⟩ := exists_word_start cs.reverse
  refine ⟨b.reverse, v.reverse, ?_, ?_, fun c hc => hv c (List.mem_reverse.1 hc)⟩
  · rw [← List.reverse_append, ← hcs, List.reverse_reverse]
  · unfold EndsApart
    rw [List.getLast?_reverse]
    exact hb

/-- Word characters at the end do not reach into a text that ends apart. -/
theorem suffix_of_endsApart {x a u : List Char} (hx : x <:+ a ++ u) (ha : EndsApart a)
    (hword : ∀ c ∈ x, isWordChar c = true) : x <:+ u := by
  rcases List.suffix_or_suffix_of_suffix hx (List.suffix_append a u) with hxu | ⟨t, rfl⟩
  · exact hxu
  · obtain ⟨s, hs⟩ := hx
    rw [← List.append_assoc] at hs
    obtain rfl := List.append_cancel_right hs
    cases ht : t.getLast? with
    | none =>
      obtain rfl := List.getLast?_eq_none_iff.1 ht
      exact List.suffix_refl u
    | some c =>
      rw [EndsApart, List.getLast?_append, ht] at ha
      have hc := hword c (List.mem_append_left u (List.mem_of_getLast? ht))
      exact absurd (ha.symm.trans hc) Bool.false_ne_true

/-- Word characters at the start do not reach into a text that starts apart. -/
theorem prefix_of_startsApart {y v b : List Char} (hy : y <+: v ++ b) (hb : StartsApart b)
    (hword : ∀ c ∈ y, isWordChar c = true) : y <+: v := by
  rcases List.prefix_or_prefix_of_prefix hy (List.prefix_append v b) with hyv | ⟨t, rfl⟩
  · exact hyv
  · have ht : t <+: b := (List.prefix_append_right_inj v).1 hy
    cases t with
    | nil => simp
    | cons c t =>
      obtain ⟨s, rfl⟩ := ht
      have hc := hword c (List.mem_append_right v List.mem_cons_self)
      exact absurd (hb.symm.trans hc) Bool.false_ne_true

section
variable {word replacement : List Char} (hword : ∀ c ∈ word, isWordChar c = true)
include hword

/-- Where no word runs from one text into the next, each is replaced on its own. -/
theorem replaceWord_append_apart (xs : List Char) {ys : List Char}
    (h : EndsApart xs ∨ StartsApart ys) :
    replaceWord word replacement (xs ++ ys) =
      replaceWord word replacement xs ++ replaceWord word replacement ys := by
  induction xs using word_induction with
  | nil => rfl
  | sign c xs hc ih =>
    have hrest : EndsApart xs ∨ StartsApart ys := h.imp_left (@EndsApart.of_append [c] xs)
    rw [List.cons_append, replaceWord_cons hword hc, replaceWord_cons hword hc, ih hrest,
      List.cons_append]
  | run run more hne hrun hmore ih =>
    -- what comes after the run starts apart, in `more` or in `ys`
    have hrest : (EndsApart more ∨ StartsApart ys) ∧ StartsApart (more ++ ys) := by
      cases more with
      | nil =>
        rw [List.append_nil] at h
        have hys : StartsApart ys := h.resolve_left (not_endsApart hne hrun)
        exact ⟨.inr hys, hys⟩
      | cons d more => exact ⟨h.imp_left EndsApart.of_append, hmore⟩
    obtain ⟨hapart, hstarts⟩ := hrest
    rw [List.append_assoc, replaceWord_run hne hrun hstarts, replaceWord_run hne hrun hmore,
      ih hapart, List.append_assoc]

theorem endsApart_replaceWord (h : EndsApart cs) : EndsApart (replaceWord word replacement cs) := by
  rcases List.eq_nil_or_concat cs with rfl | ⟨xs, c, rfl⟩
  · exact .nil
  · have hc : isWordChar c = false := by simpa [EndsApart] using h
    have hstart : StartsApart [c] := hc
    rw [List.concat_eq_append, replaceWord_append_apart hword xs (.inr hstart),
      replaceWord_cons hword hc]
    simpa [EndsApart, replaceWord, wordRuns] using hc

/-- What is covered once a word has been replaced was covered by that word and the others. -/
theorem Covered.of_replaceWord (hwords : ∀ v ∈ words, ∀ c ∈ v, isWordChar c = true)
    (h : Covered words (replaceWord word replacement cs)) : Covered (word :: words) cs := by
  rintro pre w rest rfl hne hlower
  obtain ⟨a, u, rfl, ha, hu⟩ := exists_word_end pre
  obtain ⟨v, b, rfl, hv, hb⟩ := exists_word_start rest
  have hrun : ∀ c ∈ u ++ w ++ v, isWordChar c = true := by
    simp only [List.forall_mem_append]
    exact ⟨⟨hu, fun c hc => isWordChar_of_lower (hlower c hc)⟩, hv⟩
  by_cases heq : u ++ w ++ v = word
  · exact ⟨u, v, List.suffix_append a u, List.prefix_append v b, heq ▸ List.mem_cons_self⟩
  · have hreplaced : replaceWord word replacement (a ++ u ++ w ++ (v ++ b)) =
        (replaceWord word replacement a ++ u) ++ w ++ (v ++ replaceWord word replacement b) := by
      have hsplit : a ++ u ++ w ++ (v ++ b) = a ++ ((u ++ w ++ v) ++ b) := by simp
      have hrunne : u ++ w ++ v ≠ [] := by simp [hne]
      rw [hsplit, replaceWord_append_apart hword a (.inl ha), replaceWord_run hrunne hrun hb,
        if_neg heq]
      simp
    obtain ⟨x, y, hx, hy, hmem⟩ := h _ w _ hreplaced hne hlower
    have hxy := hwords _ hmem
    simp only [List.forall_mem_append] at hxy
    obtain ⟨⟨hxword, -⟩, hyword⟩ := hxy
    refine ⟨x, y, ?_, ?_, List.mem_cons_of_mem _ hmem⟩
    · have hxu := suffix_of_endsApart hx (endsApart_replaceWord hword ha) hxword
      exact hxu.trans (List.suffix_append a u)
    · have hyv := prefix_of_startsApart hy (startsApart_replaceWord hword hb) hyword
      exact hyv.trans (List.prefix_append v b)

end

/-- What no word holds is still there when words are replaced. -/
theorem mem_replaceWord {word : List Char} (replacement : List Char) {c : Char} (hc : c ∈ cs)
    (hword : c ∉ word) : c ∈ replaceWord word replacement cs := by
  rw [← flatten_wordRuns cs] at hc
  obtain ⟨run, hrun, hmem⟩ := List.mem_flatten.1 hc
  refine List.mem_flatMap.2 ⟨run, hrun, ?_⟩
  rw [if_neg]
  · exact hmem
  · rintro rfl
    exact hword hmem

section
variable {table : List (String × String)}

/-- **A text is covered by the words replaced in it and those that cover the result.** -/
theorem Covered.of_replaceWords
    (htable : ∀ v ∈ table, ∀ c ∈ v.1.toList, isWordChar c = true)
    (hwords : ∀ v ∈ words, ∀ c ∈ v, isWordChar c = true)
    (h : Covered words (table.foldl (fun cs v => replaceWord v.1.toList v.2.toList cs) cs)) :
    Covered (table.map (fun v => v.1.toList) ++ words) cs := by
  induction table generalizing cs with
  | nil => exact h
  | cons v table ih =>
    obtain ⟨hv, htable⟩ := List.forall_mem_cons.1 htable
    refine Covered.of_replaceWord hv ?_ (ih htable h)
    intro word hword
    rcases List.mem_append.1 hword with hmem | hmem
    · obtain ⟨t, ht, rfl⟩ := List.mem_map.1 hmem
      exact htable t ht
    · exact hwords word hmem

theorem mem_replaceWords {c : Char} (hc : c ∈ cs) (htable : ∀ v ∈ table, c ∉ v.1.toList) :
    c ∈ table.foldl (fun cs v => replaceWord v.1.toList v.2.toList cs) cs := by
  induction table generalizing cs with
  | nil => exact hc
  | cons v table ih =>
    obtain ⟨hv, htable⟩ := List.forall_mem_cons.1 htable
    exact ih (mem_replaceWord _ hc hv) htable

end

/-! ## Blanks taken out -/

theorem strip_of_solid (h : ∀ c ∈ w, isBlank c = false) : strip w = w := by
  refine List.filter_eq_self.2 fun c hc => ?_
  rw [h c hc]
  rfl

theorem infix_strip (hw : w <:+: cs) (h : ∀ c ∈ w, isBlank c = false) : w <:+: strip cs := by
  obtain ⟨pre, rest, rfl⟩ := hw
  rw [strip_append, strip_append, strip_of_solid h]
  exact ⟨strip pre, strip rest, rfl⟩

/-- Collapsing keeps a stretch without blanks. -/
theorem infix_collapse (hw : w <:+: cs) (hne : w ≠ []) (h : ∀ c ∈ w, isBlank c = false) :
    w <:+: collapse cs := by
  have hfrom : ∀ (pre rest : List Char) (open_ : Bool),
      w <:+: collapseFrom open_ (pre ++ (w ++ rest)) := by
    intro pre rest open_
    induction pre generalizing open_ with
    | nil =>
      rw [List.nil_append, collapseFrom_append hne h]
      exact (List.prefix_append w _).isInfix
    | cons c pre ih =>
      rw [List.cons_append, collapseFrom_cons]
      split
      · cases open_ with
        | true => exact ih true
        | false => exact (ih true).trans (List.suffix_cons _ _).isInfix
      · exact (ih false).trans (List.suffix_cons _ _).isInfix
  obtain ⟨pre, rest, rfl⟩ := hw
  rw [List.append_assoc]
  exact hfrom pre rest false

theorem mem_strip {c : Char} : c ∈ strip cs ↔ c ∈ cs ∧ isBlank c = false := by
  simp [strip]

/-! ## Characters that are kept -/

/-- Lower-casing leaves the character as it is. -/
def IsKept (c : Char) : Prop := c ≠ 'Σ' ∧ lowerChar c = [c]

theorem isKept_of_ascii {c : Char} (hlt : c.toNat < 128)
    (hcapital : ¬ (65 ≤ c.toNat ∧ c.toNat ≤ 90)) : IsKept c := by
  constructor
  · rintro rfl
    exact absurd hlt (by decide)
  · rw [lowerChar, if_pos hlt, if_neg (mt capital_iff.1 hcapital)]

theorem isKept_of_lower {c : Char} (h : isAsciiLower c = true) : IsKept c := by
  obtain ⟨hfirst, hlast⟩ := isAsciiLower_iff.1 h
  exact isKept_of_ascii (by omega) (by omega)

theorem isKept_of_blank {c : Char} (h : isBlank c = true) : IsKept c := by
  refine ⟨?_, lowerChar_of_blank h⟩
  rintro rfl
  exact absurd h (by decide)

set_option maxRecDepth 1000 in
/-- No digit is the upper case of something. -/
theorem digit_apart_capital : digitRanges.apart capitalRanges = true := by
  decide

theorem isKept_of_digit {c : Char} (h : isDigit c = true) : IsKept c := by
  unfold isDigit at h
  split at h
  · obtain ⟨hfirst, hlast⟩ := isAsciiDigit_iff.1 h
    exact isKept_of_ascii (by omega) (by omega)
  · next hlt =>
    constructor
    · rintro rfl
      exact absurd h (by decide)
    · have hdot : ¬ (c == 'İ') = true := by
        intro hc
        obtain rfl := beq_iff_eq.1 hc
        exact absurd h (by decide)
      have hrun := CaseRun.find?_eq_none (Ranges.has_of_apart digit_apart_capital h)
      rw [lowerChar, if_neg hlt, if_neg hdot, hrun]

theorem isKept_of_asciiDigit {c : Char} (h : isAsciiDigit c = true) : IsKept c :=
  isKept_of_digit (isDigit_of_ascii h)

/-- A character that is kept is no capital letter of ASCII. -/
theorem IsKept.not_capital {c : Char} (h : IsKept c) : ¬ (65 ≤ c.toNat ∧ c.toNat ≤ 90) := by
  intro hcapital
  have hlow := h.2
  rw [lowerChar, if_pos (by omega), if_pos (capital_iff.2 hcapital)] at hlow
  have hcode := congrArg Char.toNat (List.cons.inj hlow).1
  rcases toNat_ofNat_or (c.toNat + 32) with h' | h'
  · rw [h'] at hcode
    omega
  · rw [h'] at hcode
    omega

theorem toLower_of_kept {c : Char} (h : IsKept c) : c.toLower = c := by
  unfold Char.toLower
  rw [dif_neg]
  rintro ⟨hfirst, hlast⟩
  exact h.not_capital ⟨UInt32.le_iff_toNat_le.1 hfirst, UInt32.le_iff_toNat_le.1 hlast⟩

theorem lowerFrom_of_kept (h : ∀ c ∈ cs, IsKept c) (before : List Char) :
    lowerFrom before cs = cs := by
  induction cs generalizing before with
  | nil => rfl
  | cons c cs ih =>
    obtain ⟨⟨hsigma, hc⟩, hcs⟩ := List.forall_mem_cons.1 h
    rw [lowerFrom_cons, lowered, if_neg (mt beq_iff_eq.1 hsigma), hc, ih hcs,
      List.singleton_append]

theorem lower_of_kept (h : ∀ c ∈ cs, IsKept c) : lower cs = cs := lowerFrom_of_kept h []

end Text

/-! ## Slices -/

theorem take_takeWhile (p : Char → Bool) (cs : List Char) :
    cs.take (cs.takeWhile p).length = cs.takeWhile p :=
  (List.prefix_iff_eq_take.1 (List.takeWhile_prefix p)).symm

/-- A run that goes beyond what precedes a character takes that character as well. -/
theorem takeWhile_reaches {p : Char → Bool} {mid rest : List Char} {c : Char}
    (h : mid.length < ((mid ++ c :: rest).takeWhile p).length) :
    (∀ d ∈ mid, p d = true) ∧ p c = true := by
  have hlength : (mid ++ [c]).length ≤ ((mid ++ c :: rest).takeWhile p).length := by
    rw [List.length_append]
    exact h
  have hprefix : mid ++ [c] <+: mid ++ c :: rest := by simp
  have hreach := List.prefix_of_prefix_length_le hprefix (List.takeWhile_prefix p) hlength
  have hall : ∀ d ∈ mid ++ [c], p d = true := fun d hd => List.mem_takeWhile_imp (hreach.subset hd)
  rw [List.forall_mem_append, List.forall_mem_singleton] at hall
  exact hall

namespace Slice

open Text

variable {α : Type} {skip : Char → Bool} {rule : Char → List Char → α × Nat}

theorem eq_of_mem_cut {cs : List Char} {position : Nat} {s : Slice α}
    (h : s ∈ cut skip rule position cs) : ∃ c rest, skip c = false ∧
      s.tag = (rule c rest).1 ∧ s.text = c :: rest.take (rule c rest).2 := by
  induction position, cs using cut_induction skip rule with
  | nil position => exact absurd (cut_nil ▸ h) List.not_mem_nil
  | pass position c cs hc ih =>
    rw [cut_pass hc] at h
    exact ih h
  | slice position c cs hc ih =>
    rw [cut_slice hc] at h
    rcases List.mem_cons.1 h with rfl | h
    · exact ⟨c, cs, hc, rfl, rfl⟩
    · exact ih h

/-- Slices without blanks hold a text whole, apart from its blanks. -/
theorem strip_eq_flatMap {cs : List Char} {position : Nat}
    (h : ∀ s ∈ cut isBlank rule position cs, ∀ c ∈ s.text, isBlank c = false) :
    strip cs = (cut isBlank rule position cs).flatMap (·.text) := by
  induction position, cs using cut_induction isBlank rule with
  | nil position => simp [strip]
  | pass position c cs hc ih =>
    rw [cut_pass hc] at h ⊢
    rw [← ih h, ← List.singleton_append, strip_append, strip_of_blanks (by simpa using hc),
      List.nil_append]
  | slice position c cs hc ih =>
    rw [cut_slice hc] at h ⊢
    obtain ⟨htext, hrest⟩ := List.forall_mem_cons.1 h
    rw [List.flatMap_cons, ← ih hrest, ← strip_of_solid htext, ← strip_append, List.cons_append,
      List.take_append_drop]

/-- A character that is not passed over is in some slice. -/
theorem mem_cut {c : Char} {cs : List Char} (hc : c ∈ cs) (hskip : skip c = false)
    (position : Nat) : ∃ s ∈ cut skip rule position cs, c ∈ s.text := by
  induction position, cs using cut_induction skip rule with
  | nil position => exact absurd hc List.not_mem_nil
  | pass position d cs hd ih =>
    have hcd : c ≠ d := by
      rintro rfl
      exact Bool.false_ne_true (hskip.symm.trans hd)
    rw [cut_pass hd]
    exact ih (List.mem_of_ne_of_mem hcd hc)
  | slice position d cs hd ih =>
    rw [cut_slice hd]
    rw [← List.take_append_drop (rule d cs).2 cs, ← List.cons_append] at hc
    rcases List.mem_append.1 hc with hc | hc
    · exact ⟨_, List.mem_cons_self, hc⟩
    · obtain ⟨s, hs, hmem⟩ := ih hc
      exact ⟨s, List.mem_cons_of_mem _ hs, hmem⟩

/-- A character that is not passed over starts a slice, or is in one that starts before it. -/
theorem cut_at {pre rest : List Char} {c : Char} (hskip : skip c = false) (position : Nat) :
    (∃ s ∈ cut skip rule position (pre ++ c :: rest),
      s.tag = (rule c rest).1 ∧ s.text = c :: rest.take (rule c rest).2) ∨
    ∃ a d mid, pre = a ++ d :: mid ∧ mid.length < (rule d (mid ++ c :: rest)).2 ∧
      ∃ s ∈ cut skip rule position (pre ++ c :: rest),
        s.tag = (rule d (mid ++ c :: rest)).1 ∧
        s.text = d :: (mid ++ c :: rest).take (rule d (mid ++ c :: rest)).2 := by
  induction hlength : pre.length using Nat.strong_induction_on generalizing pre position with
  | _ n ih =>
    subst hlength
    cases pre with
    | nil =>
      rw [List.nil_append, cut, if_neg (Bool.eq_false_iff.1 hskip)]
      exact .inl ⟨_, List.mem_cons_self, rfl, rfl⟩
    | cons d pre =>
      rw [List.cons_append, cut]
      split
      · rcases ih pre.length (Nat.lt_succ_self _) _ rfl with h | ⟨a, e, mid, rfl, hmid, h⟩
        · exact .inl h
        · exact .inr ⟨d :: a, e, mid, rfl, hmid, h⟩
      · dsimp only
        by_cases hlong : pre.length < (rule d (pre ++ c :: rest)).2
        · exact .inr ⟨[], d, pre, rfl, hlong, _, List.mem_cons_self, rfl, rfl⟩
        · rw [List.drop_append_of_le_length (Nat.le_of_not_lt hlong)]
          have hshorter : (pre.drop (rule d (pre ++ c :: rest)).2).length <
              (d :: pre).length := by
            simp only [List.length_drop, List.length_cons]
            omega
          rcases ih _ hshorter _ rfl with ⟨s, hs, h⟩ | ⟨a, e, mid, hpre, hmid, s, hs, h⟩
          · exact .inl ⟨s, List.mem_cons_of_mem _ hs, h⟩
          · refine .inr ⟨d :: (pre.take (rule d (pre ++ c :: rest)).2 ++ a), e, mid, ?_, hmid, s,
              List.mem_cons_of_mem _ hs, h⟩
            rw [List.cons_append, List.append_assoc, ← hpre, List.take_append_drop]

end Slice

end Reckoner
