/-
  Replacing words in a text made of pieces.

  * `word_induction`: a text is read run by run;
  * `replaceWord_run`, `replaceWord_cons`: a run of word characters is replaced if it is the
    word; other characters are kept;
  * `Spaced.replaceWord`: so a text is replaced piece by piece;
  * `Replaceable`: a piece that is replaced as a whole or kept;
  * `Spaced.replaceWords`: **a table of words replaces the pieces of a text**.
-/
import Reckoner.Proofs.Text.Spaced
import Reckoner.Text.Words

namespace Reckoner.Text

variable {word replacement cs : List Char}

/-! ## Runs -/

theorem exists_word_start (cs : List Char) : ∃ v b, cs = v ++ b ∧
    (∀ c ∈ v, isWordChar c = true) ∧ StartsApart b := by
  refine ⟨cs.takeWhile isWordChar, cs.dropWhile isWordChar,
    List.takeWhile_append_dropWhile.symm, fun c hc => List.mem_takeWhile_imp hc, ?_⟩
  have hhead := List.head?_dropWhile_not isWordChar cs
  unfold StartsApart
  cases h : (cs.dropWhile isWordChar).head? with
  | none => rfl
  | some d => simpa [h] using hhead

/-- A text is read run by run: a character that is in no word, or a run of word characters up to
where none comes next. -/
@[elab_as_elim]
theorem word_induction {motive : List Char → Prop} (nil : motive [])
    (sign : ∀ c cs, isWordChar c = false → motive cs → motive (c :: cs))
    (run : ∀ run cs, run ≠ [] → (∀ c ∈ run, isWordChar c = true) → StartsApart cs →
      motive cs → motive (run ++ cs)) (cs : List Char) : motive cs := by
  induction hlength : cs.length using Nat.strong_induction_on generalizing cs with
  | _ n ih =>
    subst hlength
    obtain ⟨v, b, rfl, hv, hb⟩ := exists_word_start cs
    cases v with
    | cons c v =>
      have hshorter : b.length < (c :: v ++ b).length := by
        simp only [List.length_append, List.length_cons]
        omega
      exact run (c :: v) b (List.cons_ne_nil c v) hv hb (ih _ hshorter b rfl)
    | nil =>
      cases b with
      | nil => exact nil
      | cons c b => exact sign c b hb (ih _ (Nat.lt_succ_self _) b rfl)

theorem takeWhile_run {run : List Char} (hrun : ∀ c ∈ run, isWordChar c = true)
    (hcs : StartsApart cs) : (run ++ cs).takeWhile isWordChar = run := by
  rw [List.takeWhile_append_of_pos hrun]
  cases cs with
  | nil => simp
  | cons c cs =>
    have hc : isWordChar c = false := hcs
    simp [hc]

/-- The run at the start of a text is determined by the text. -/
theorem run_unique {run run' cs' : List Char} (hrun : ∀ c ∈ run, isWordChar c = true)
    (hrun' : ∀ c ∈ run', isWordChar c = true) (hcs : StartsApart cs) (hcs' : StartsApart cs')
    (h : run ++ cs = run' ++ cs') : run = run' ∧ cs = cs' := by
  have heq : run = run' := by
    rw [← takeWhile_run hrun hcs, h, takeWhile_run hrun' hcs']
  subst heq
  exact ⟨rfl, List.append_cancel_left h⟩

theorem wordRuns_cons (c : Char) (cs : List Char) :
    ∃ run runs, wordRuns (c :: cs) = (c :: run) :: runs := by
  rw [wordRuns]
  split
  · split
    · exact ⟨_, _, rfl⟩
    · exact ⟨_, _, rfl⟩
  · exact ⟨_, _, rfl⟩

theorem wordRuns_run {run : List Char} (hne : run ≠ []) (hrun : ∀ c ∈ run, isWordChar c = true)
    (hcs : StartsApart cs) : wordRuns (run ++ cs) = run :: wordRuns cs := by
  induction run with
  | nil => exact absurd rfl hne
  | cons c run ih =>
    obtain ⟨hc, hrun⟩ := List.forall_mem_cons.1 hrun
    cases run with
    | nil =>
      cases cs with
      | nil => rfl
      | cons d cs =>
        obtain ⟨more, runs, heq⟩ := wordRuns_cons d cs
        have hd : isWordChar d = false := hcs
        rw [List.singleton_append, wordRuns, heq]
        simp [hc, hd]
    | cons d run =>
      have hd := hrun d List.mem_cons_self
      rw [List.cons_append, wordRuns, ih (List.cons_ne_nil d run) hrun]
      simp [hc, hd]

theorem replaceWord_run {run : List Char} (hne : run ≠ [])
    (hrun : ∀ c ∈ run, isWordChar c = true) (hcs : StartsApart cs) :
    replaceWord word replacement (run ++ cs) =
      (if run = word then replacement else run) ++ replaceWord word replacement cs := by
  rw [replaceWord, wordRuns_run hne hrun hcs, List.flatMap_cons]
  rfl

/-- Where runs that start apart are kept, a character that is in no word is kept on its own. -/
theorem flatMap_wordRuns_cons {f : List Char → List Char}
    (hf : ∀ d run, isWordChar d = false → f (d :: run) = d :: run) {c : Char}
    (hc : isWordChar c = false) :
    (wordRuns (c :: cs)).flatMap f = c :: (wordRuns cs).flatMap f := by
  rw [wordRuns]
  split
  · next d run runs heq =>
    split
    · next hsame =>
      have hd : isWordChar d = false := by rw [← beq_iff_eq.1 hsame, hc]
      rw [heq, List.flatMap_cons, List.flatMap_cons, hf c _ hc, hf d _ hd]
      rfl
    · rw [heq, List.flatMap_cons, hf c _ hc]
      rfl
  · rw [List.flatMap_cons, hf c _ hc]
    rfl

section
variable (hword : ∀ c ∈ word, isWordChar c = true)
include hword

theorem replaceWord_cons {c : Char} (hc : isWordChar c = false) :
    replaceWord word replacement (c :: cs) = c :: replaceWord word replacement cs := by
  -- a run that starts with such a character is not the word
  have hrun : ∀ d run, isWordChar d = false →
      (if d :: run = word then replacement else d :: run) = d :: run := by
    intro d run hd
    refine if_neg ?_
    rintro rfl
    exact Bool.false_ne_true (hd.symm.trans (hword d List.mem_cons_self))
  exact flatMap_wordRuns_cons hrun hc

theorem replaceWord_apart {run : List Char} (hrun : ∀ c ∈ run, isWordChar c = false) :
    replaceWord word replacement (run ++ cs) = run ++ replaceWord word replacement cs := by
  induction run with
  | nil => rfl
  | cons c run ih =>
    obtain ⟨hc, hrun⟩ := List.forall_mem_cons.1 hrun
    rw [List.cons_append, replaceWord_cons hword hc, ih hrun, List.cons_append]

theorem startsApart_replaceWord (h : StartsApart cs) :
    StartsApart (replaceWord word replacement cs) := by
  cases cs with
  | nil => exact .nil
  | cons c cs =>
    rw [replaceWord_cons hword h]
    exact h

/-! ## Pieces -/

variable {σ : Type} {text text' : σ → List Char} {ss : List σ}

/-- A text is replaced piece by piece. -/
theorem Spaced.replaceWord (h : Spaced text (Apart text) ss cs)
    (hpiece : ∀ s ∈ ss, ∀ cs, Apart text s cs →
      replaceWord word replacement (text s ++ cs) =
        text' s ++ replaceWord word replacement cs)
    (hends : ∀ s ∈ ss, EndsApart (text s) → EndsApart (text' s)) :
    Spaced text' (Apart text') ss (replaceWord word replacement cs) := by
  induction h with
  | @nil bs hbs =>
    have hkeep := @replaceWord_apart word replacement [] hword bs fun b hb =>
      isWordChar_of_blank (hbs b hb)
    rw [List.append_nil] at hkeep
    rw [hkeep]
    exact .nil (by simpa [Text.replaceWord, wordRuns] using hbs)
  | @cons bs s ss cs hbs htouch _ ih =>
    obtain ⟨hs, hpiece⟩ := List.forall_mem_cons.1 hpiece
    obtain ⟨hend, hends⟩ := List.forall_mem_cons.1 hends
    rw [List.append_assoc, replaceWord_apart hword fun b hb => isWordChar_of_blank (hbs b hb),
      hs cs htouch, ← List.append_assoc]
    exact .cons hbs (htouch.imp hend (startsApart_replaceWord hword)) (ih hpiece hends)

end

/-- Where no word runs into it, the piece is replaced as a whole if it is the word, and else it
is kept. -/
def Replaceable (p : List Char) : Prop :=
  ∀ word replacement rest : List Char, (∀ c ∈ word, isAsciiLower c = true) →
    EndsApart p ∨ StartsApart rest →
      replaceWord word replacement (p ++ rest) =
        (if p = word then replacement else p) ++ replaceWord word replacement rest

theorem not_endsApart {p : List Char} (hne : p ≠ []) (hp : ∀ c ∈ p, isWordChar c = true) :
    ¬ EndsApart p := by
  intro h
  unfold EndsApart at h
  rw [List.getLast?_eq_some_getLast hne] at h
  exact Bool.false_ne_true (h.symm.trans (hp _ (List.getLast_mem hne)))

/-- A word, or signs that are no part of one. -/
def Uniform (p : List Char) : Prop :=
  p ≠ [] ∧ ((∀ c ∈ p, isWordChar c = true) ∨ ∀ c ∈ p, isWordChar c = false)

instance (p : List Char) : Decidable (Uniform p) := inferInstanceAs (Decidable (_ ∧ _))

theorem Uniform.replaceable {p : List Char} (h : Uniform p) : Replaceable p := by
  intro word replacement rest hword hapart
  have hword' : ∀ c ∈ word, isWordChar c = true := fun c hc => isWordChar_of_lower (hword c hc)
  obtain ⟨hne, hrun | hrun⟩ := h
  · exact replaceWord_run hne hrun (hapart.resolve_left (not_endsApart hne hrun))
  · have hneq : p ≠ word := by
      obtain ⟨c, hc⟩ := List.exists_mem_of_ne_nil _ hne
      rintro rfl
      exact Bool.false_ne_true ((hrun c hc).symm.trans (hword' c hc))
    rw [if_neg hneq, replaceWord_apart hword' hrun]

/-- What a table of words makes of a piece. -/
def replaced (table : List (String × String)) (p : List Char) : List Char :=
  table.foldl (fun p w => if p = w.1.toList then w.2.toList else p) p

theorem replaced_of_ne {table : List (String × String)} {p : List Char}
    (h : ∀ w ∈ table, p ≠ w.1.toList) : replaced table p = p := by
  induction table with
  | nil => rfl
  | cons w table ih =>
    obtain ⟨hw, htable⟩ := List.forall_mem_cons.1 h
    rw [replaced, List.foldl_cons, if_neg hw]
    exact ih htable

/-- What holds of the characters of a text and of the replacements holds of what they give. -/
theorem forall_mem_replaceWords {P : Char → Prop} {table : List (String × String)}
    (htable : ∀ w ∈ table, ∀ c ∈ w.2.toList, P c) {cs : List Char} (hcs : ∀ c ∈ cs, P c) :
    ∀ c ∈ table.foldl (fun cs w => replaceWord w.1.toList w.2.toList cs) cs, P c := by
  induction table generalizing cs with
  | nil => exact hcs
  | cons w table ih =>
    obtain ⟨hw, htable⟩ := List.forall_mem_cons.1 htable
    refine ih htable fun c hc => ?_
    obtain ⟨run, hrun, hmem⟩ := List.mem_flatMap.1 hc
    split at hmem
    · exact hw c hmem
    · exact hcs c (flatten_wordRuns cs ▸ List.mem_flatten.2 ⟨run, hrun, hmem⟩)

/-- **A table of words replaces the pieces of a text.** -/
theorem Spaced.replaceWords {σ : Type} {text : σ → List Char} {ss : List σ}
    {table : List (String × String)}
    (htable : ∀ w ∈ table, w.1.toList ≠ [] ∧ (∀ c ∈ w.1.toList, isAsciiLower c = true) ∧
      Replaceable w.2.toList)
    (htext : ∀ s ∈ ss, Replaceable (text s)) (h : Spaced text (Apart text) ss cs) :
    Spaced (fun s => replaced table (text s)) (Apart fun s => replaced table (text s)) ss
      (table.foldl (fun cs w => Text.replaceWord w.1.toList w.2.toList cs) cs) := by
  induction table generalizing text cs with
  | nil => exact h
  | cons w table ih =>
    obtain ⟨⟨hne, hlower, hreplacement⟩, htable⟩ := List.forall_mem_cons.1 htable
    have hword : ∀ c ∈ w.1.toList, isWordChar c = true :=
      fun c hc => isWordChar_of_lower (hlower c hc)
    have hspaced : Spaced (fun s => if text s = w.1.toList then w.2.toList else text s)
        (Apart fun s => if text s = w.1.toList then w.2.toList else text s) ss
        (Text.replaceWord w.1.toList w.2.toList cs) := by
      refine h.replaceWord hword (fun s hs cs => htext s hs _ _ cs hlower) fun s _ hends => ?_
      have hneq : text s ≠ w.1.toList := fun heq => not_endsApart hne hword (heq ▸ hends)
      rwa [if_neg hneq]
    refine ih htable (fun s hs => ?_) hspaced
    show Replaceable (if text s = w.1.toList then w.2.toList else text s)
    split
    · exact hreplacement
    · exact htext s hs

end Reckoner.Text
