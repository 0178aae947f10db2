/-
  Words replaced wherever their pattern is found.

  * `Pattern.replaceAll`: every stretch that a pattern is found on gives way to a text, from left
    to right, and the search goes on after it;
  * `Pattern.wholeWord`, `fits_wholeWord`: the pattern of a word fits that word, and only where no
    word character is next to it;
  * `replaceAll_wholeWord`: **to replace the pattern of a word is to replace the runs that are
    this word**.
-/
import Reckoner.Proofs.Text.Replace

namespace Reckoner.Text

namespace Pattern

/-! ## Replacing what fits -/

/-- A text with `replacement` in place of every stretch that is found, where `skip` characters of
the last one are still to be passed over. The pattern takes a character at least. -/
def replaceFrom (p : Pattern) (replacement : List Char) :
    Nat → Option Char → List Char → List Char
  | _, _, [] => []
  | skip + 1, _, c :: cs => p.replaceFrom replacement skip (some c) cs
  | 0, before, c :: cs =>
    match p.readings ⟨before, c :: cs⟩ with
    | r :: _ =>
      replacement ++ p.replaceFrom replacement (cs.length - r.place.rest.length) (some c) cs
    | [] => c :: p.replaceFrom replacement 0 (some c) cs

/-- A text with `replacement` in place of every stretch that the pattern is found on. -/
def replaceAll (p : Pattern) (replacement cs : List Char) : List Char :=
  p.replaceFrom replacement 0 none cs

section
variable {p : Pattern} {replacement : List Char} {before : Option Char} {cs : List Char}

theorem replaceFrom_skip (xs : List Char) :
    p.replaceFrom replacement xs.length before (xs ++ cs) =
      p.replaceFrom replacement 0 (lastOf before xs) cs := by
  induction xs generalizing before with
  | nil => rfl
  | cons x xs ih =>
    rw [List.length_cons, List.cons_append, replaceFrom, ih, lastOf_cons]

/-- Where nothing fits, the next character is kept. -/
theorem replaceFrom_of_not_fits {c : Char}
    (h : ∀ stretch rest groups, c :: cs = stretch ++ rest → ¬ p.Fits before stretch rest groups) :
    p.replaceFrom replacement 0 before (c :: cs) =
      c :: p.replaceFrom replacement 0 (some c) cs := by
  have hnone : p.readings ⟨before, c :: cs⟩ = [] := by
    refine List.eq_nil_iff_forall_not_mem.2 fun r hr => ?_
    obtain ⟨stretch, hcs, -, hfits⟩ := mem_readings.1 hr
    exact h stretch _ _ hcs hfits
  rw [replaceFrom, hnone]

/-- Where one stretch only fits, it gives way to the replacement. -/
theorem replaceFrom_of_fits {c : Char} {xs : List Char} {groups : List (List Char)}
    (hfits : p.Fits before (c :: xs) cs groups)
    (hunique : ∀ stretch rest groups, p.Fits before stretch rest groups → stretch = c :: xs) :
    p.replaceFrom replacement 0 before (c :: xs ++ cs) =
      replacement ++ p.replaceFrom replacement 0 (lastOf before (c :: xs)) cs := by
  have hmem : ⟨⟨lastOf before (c :: xs), cs⟩, groups⟩ ∈ p.readings ⟨before, c :: xs ++ cs⟩ :=
    mem_readings.2 ⟨c :: xs, rfl, rfl, hfits⟩
  rw [List.cons_append, replaceFrom]
  split
  · next r more hreadings =>
    have hr : r ∈ p.readings ⟨before, c :: (xs ++ cs)⟩ := hreadings ▸ List.mem_cons_self
    obtain ⟨stretch, hcs, -, hr⟩ := mem_readings.1 hr
    obtain rfl := hunique _ _ _ hr
    have hrest : cs = r.place.rest := by simpa using hcs
    have hlength : (xs ++ cs).length - cs.length = xs.length := by
      rw [List.length_append, Nat.add_sub_cancel]
    rw [← hrest, hlength, replaceFrom_skip, ← lastOf_cons]
  · next hreadings =>
    rw [List.cons_append, hreadings] at hmem
    exact absurd hmem List.not_mem_nil

end

/-! ## Whole words -/

/-- The pattern of a word that stands alone. -/
def wholeWord (s : String) : Pattern := word (text s)

section
variable {s : String} (hne : s.toList ≠ []) (hword : ∀ c ∈ s.toList, isWordChar c = true)
include hne hword

theorem fits_wholeWord {before : Option Char} {stretch rest : List Char}
    {groups : List (List Char)} :
    (wholeWord s).Fits before stretch rest groups ↔
      stretch = s.toList ∧ groups = [] ∧ before.any isWordChar = false ∧ StartsApart rest := by
  have hfirst : s.toList.head?.any isWordChar = true := by
    rw [List.head?_eq_some_head hne]
    exact hword _ (List.head_mem hne)
  have hlast : s.toList.getLast?.any isWordChar = true := by
    rw [List.getLast?_eq_some_getLast hne]
    exact hword _ (List.getLast_mem hne)
  rw [wholeWord, fits_word, fits_text]
  constructor
  · rintro ⟨⟨rfl, rfl⟩, hstart, hend⟩
    exact ⟨rfl, rfl, (isBoundary_before hfirst).1 hstart, (isBoundary_after hlast).1 hend⟩
  · rintro ⟨rfl, rfl, hbefore, hrest⟩
    exact ⟨⟨rfl, rfl⟩, (isBoundary_before hfirst).2 hbefore, (isBoundary_after hlast).2 hrest⟩

/-- In the midst of a run nothing is replaced. -/
theorem replaceFrom_inside {replacement run cs : List Char} {before : Option Char}
    (hbefore : before.any isWordChar = true) (hrun : ∀ c ∈ run, isWordChar c = true) :
    (wholeWord s).replaceFrom replacement 0 before (run ++ cs) =
      run ++ (wholeWord s).replaceFrom replacement 0 (lastOf before run) cs := by
  induction run generalizing before with
  | nil => rfl
  | cons c run ih =>
    obtain ⟨hc, hrun⟩ := List.forall_mem_cons.1 hrun
    have hinside : (some c).any isWordChar = true := hc
    rw [List.cons_append, replaceFrom_of_not_fits, ih hinside hrun, lastOf_cons, List.cons_append]
    intro stretch rest groups _ hfits
    obtain ⟨-, -, hapart, -⟩ := (fits_wholeWord hne hword).1 hfits
    exact Bool.false_ne_true (hapart.symm.trans hbefore)

/-- From a place with no run on both sides, the pattern is replaced where the word is. -/
theorem replaceFrom_wholeWord (replacement cs : List Char) {before : Option Char}
    (h : before.any isWordChar = false ∨ StartsApart cs) :
    (wholeWord s).replaceFrom replacement 0 before cs =
      replaceWord s.toList replacement cs := by
  induction cs using word_induction generalizing before with
  | nil => rfl
  | sign c cs hc ih =>
    have hapart : (some c).any isWordChar = false := hc
    rw [replaceFrom_of_not_fits, ih (.inl hapart), replaceWord_cons hword hc]
    intro stretch rest groups hcs hfits
    obtain ⟨rfl, -, -, -⟩ := (fits_wholeWord hne hword).1 hfits
    obtain ⟨d, xs, hs⟩ := List.exists_cons_of_ne_nil hne
    rw [hs] at hcs
    obtain ⟨rfl, -⟩ := List.cons.inj hcs
    have hd := hword c (hs ▸ List.mem_cons_self)
    exact Bool.false_ne_true (hc.symm.trans hd)
  | run run cs hrunne hrun hcs ih =>
    obtain ⟨c, xs, rfl⟩ := List.exists_cons_of_ne_nil hrunne
    obtain ⟨hc, hxs⟩ := List.forall_mem_cons.1 hrun
    have hbefore : before.any isWordChar = false :=
      h.resolve_right fun hapart => Bool.false_ne_true (hapart.symm.trans hc)
    have hinside : (some c).any isWordChar = true := hc
    rw [replaceWord_run hrunne hrun hcs]
    by_cases heq : c :: xs = s.toList
    · rw [if_pos heq, replaceFrom_of_fits, ih (.inr hcs)]
      · exact (fits_wholeWord hne hword).2 ⟨heq, rfl, hbefore, hcs⟩
      · intro stretch rest groups hfits
        exact ((fits_wholeWord hne hword).1 hfits).1.trans heq.symm
    · rw [if_neg heq, List.cons_append, replaceFrom_of_not_fits,
        replaceFrom_inside hne hword hinside hxs, ih (.inr hcs), List.cons_append]
      intro stretch rest groups hsplit hfits
      obtain ⟨rfl, -, -, hrest⟩ := (fits_wholeWord hne hword).1 hfits
      exact heq (run_unique hrun hword hcs hrest hsplit).1

/-- **To replace the pattern of a word is to replace the runs that are this word.** -/
theorem replaceAll_wholeWord (replacement cs : List Char) :
    (wholeWord s).replaceAll replacement cs = replaceWord s.toList replacement cs :=
  replaceFrom_wholeWord hne hword replacement cs (.inl rfl)

end

end Pattern

end Reckoner.Text
