/-
  A table of words replaced in a text, all at once or one word after another.

  * `rewrite`: every maximal run that is a word of the table gives way to its symbol at once;
  * `rewriteInTurn`: the pattern of one word after another is replaced, each throughout what the
    earlier ones have made;
  * `Independent`: words and symbols are runs each, and no symbol is a word;
  * `rewriteInTurn_eq_rewrite`: **one after another, the words of such a table are replaced as
    they are all at once**;
  * `exists_acts_of_rewrite`: **a word acts on nothing that another one has put in**.
-/
import Mathlib.Data.List.SplitBy
import Reckoner.Proofs.Text.Covered
import Reckoner.Proofs.Text.WholeWord

namespace Reckoner.Text

variable {table : List (String × String)} {run cs : List Char}

/-! ## All at once -/

/-- Two neighbours belong to one run. -/
def sameRun (c d : Char) : Bool := isWordChar c == isWordChar d

/-- What a table puts in place of a run: the symbol of the word that it is, if it is one. -/
def symbolOf (table : List (String × String)) (run : List Char) : List Char :=
  ((table.find? fun rule => rule.1.toList == run).map (·.2.toList)).getD run

/-- Every maximal run of a text that is a word of the table gives way to its symbol. -/
def rewrite (table : List (String × String)) (cs : List Char) : List Char :=
  (cs.splitBy sameRun).flatMap (symbolOf table)

/-- The runs of a text are its longest stretches of neighbours that belong to one run. -/
theorem wordRuns_eq_splitBy (cs : List Char) : wordRuns cs = cs.splitBy sameRun := by
  have hspec : [] ∉ wordRuns cs ∧ (∀ run ∈ wordRuns cs, run.IsChain fun c d => sameRun c d) ∧
      (wordRuns cs).IsChain fun a b => ∃ ha hb, sameRun (a.getLast ha) (b.head hb) = false := by
    induction cs with
    | nil => simp [wordRuns]
    | cons c cs ih =>
      cases cs with
      | nil => simp [wordRuns]
      | cons d cs =>
        obtain ⟨run, runs, heq⟩ := wordRuns_cons d cs
        rw [heq] at ih
        obtain ⟨hne, hruns, hnext⟩ := ih
        have hrun := hruns _ List.mem_cons_self
        rw [wordRuns, heq]
        dsimp only
        split
        · next hsame =>
          have hchain : (c :: d :: run).IsChain fun c d => sameRun c d :=
            List.isChain_cons_cons.2 ⟨hsame, hrun⟩
          have htail := (List.forall_mem_cons.1 hruns).2
          refine ⟨by simpa using hne, List.forall_mem_cons.2 ⟨hchain, htail⟩, ?_⟩
          -- the first run ends as it did before
          obtain ⟨hnext, hrest⟩ := List.isChain_cons.1 hnext
          refine List.isChain_cons.2 ⟨fun b hb => ?_, hrest⟩
          obtain ⟨_, hb, hdiffer⟩ := hnext b hb
          exact ⟨List.cons_ne_nil c _, hb, by simpa using hdiffer⟩
        · next hdiffer =>
          refine ⟨by simpa using hne, List.forall_mem_cons.2 ⟨.singleton c, hruns⟩, ?_⟩
          refine List.isChain_cons_cons.2 ⟨?_, hnext⟩
          exact ⟨List.cons_ne_nil c _, List.cons_ne_nil d _, Bool.eq_false_iff.2 hdiffer⟩
  obtain ⟨hne, hrun, hnext⟩ := hspec
  exact (List.splitBy_eq_iff.2 ⟨(flatten_wordRuns cs).symm, hne, hrun, hnext⟩).symm

theorem rewrite_eq (table : List (String × String)) (cs : List Char) :
    rewrite table cs = (wordRuns cs).flatMap (symbolOf table) := by
  rw [wordRuns_eq_splitBy, rewrite]

/-- A run is a word of the table and gives way to its symbol, or it is none and is kept. -/
theorem symbolOf_cases (table : List (String × String)) (run : List Char) :
    (∃ rule ∈ table, rule.1.toList = run ∧ symbolOf table run = rule.2.toList) ∨
      (∀ rule ∈ table, rule.1.toList ≠ run) ∧ symbolOf table run = run := by
  unfold symbolOf
  cases h : table.find? fun rule => rule.1.toList == run with
  | none =>
    refine .inr ⟨fun rule hrule => ?_, rfl⟩
    simpa using List.find?_eq_none.1 h rule hrule
  | some rule =>
    have hword := List.find?_some h
    exact .inl ⟨rule, List.mem_of_find?_eq_some h, beq_iff_eq.1 hword, rfl⟩

theorem symbolOf_of_ne (h : ∀ rule ∈ table, rule.1.toList ≠ run) : symbolOf table run = run := by
  rcases symbolOf_cases table run with ⟨rule, hrule, hword, -⟩ | ⟨-, hkept⟩
  · exact absurd hword (h rule hrule)
  · exact hkept

theorem symbolOf_cons (rule : String × String) (table : List (String × String))
    (run : List Char) : symbolOf (rule :: table) run =
      if run = rule.1.toList then rule.2.toList else symbolOf table run := by
  unfold symbolOf
  rw [List.find?_cons]
  split
  · next hword => rw [if_pos (beq_iff_eq.1 hword).symm]; rfl
  · next hother => rw [if_neg fun heq => by simp [heq] at hother]

@[simp] theorem rewrite_nil (table : List (String × String)) : rewrite table [] = [] := rfl

theorem rewrite_run (hne : run ≠ []) (hrun : ∀ c ∈ run, isWordChar c = true)
    (hcs : StartsApart cs) :
    rewrite table (run ++ cs) = symbolOf table run ++ rewrite table cs := by
  rw [rewrite_eq, rewrite_eq, wordRuns_run hne hrun hcs, List.flatMap_cons]

/-- An empty table leaves a text as it is. -/
theorem rewrite_empty (cs : List Char) : rewrite [] cs = cs := by
  have hkept : symbolOf [] = id := rfl
  rw [rewrite, hkept, List.flatMap_id, List.flatten_splitBy]

/-! ## Rules apart from each other -/

/-- The words of a table and their symbols are runs each, and no symbol is a word. -/
structure Independent (table : List (String × String)) : Prop where
  /-- A word is a run of word characters. -/
  word : ∀ rule ∈ table, rule.1.toList ≠ [] ∧ ∀ c ∈ rule.1.toList, isWordChar c = true
  /-- A symbol is a run of word characters or of others. -/
  symbol : ∀ rule ∈ table, Uniform rule.2.toList
  /-- A word has one symbol. -/
  functional : ∀ rule ∈ table, ∀ other ∈ table, rule.1 = other.1 → rule.2 = other.2
  /-- A symbol is no word. -/
  apart : ∀ rule ∈ table, ∀ other ∈ table, rule.2 ≠ other.1

namespace Independent

theorem subset {table' : List (String × String)} (h : Independent table)
    (hsub : table' ⊆ table) : Independent table' where
  word rule hrule := h.word rule (hsub hrule)
  symbol rule hrule := h.symbol rule (hsub hrule)
  functional rule hrule other hother := h.functional rule (hsub hrule) other (hsub hother)
  apart rule hrule other hother := h.apart rule (hsub hrule) other (hsub hother)

variable (h : Independent table)
include h

theorem symbol_ne_word {rule other : String × String} (hrule : rule ∈ table)
    (hother : other ∈ table) : rule.2.toList ≠ other.1.toList :=
  fun heq => h.apart rule hrule other hother (String.toList_injective heq)

theorem symbolOf_word {rule : String × String} (hrule : rule ∈ table) :
    symbolOf table rule.1.toList = rule.2.toList := by
  rcases symbolOf_cases table rule.1.toList with ⟨other, hother, hword, hsymbol⟩ | ⟨hnone, -⟩
  · have hword := String.toList_injective hword
    rw [hsymbol, h.functional other hother rule hrule hword]
  · exact absurd rfl (hnone rule hrule)

theorem uniform_symbolOf (hne : run ≠ []) (hrun : ∀ c ∈ run, isWordChar c = true) :
    Uniform (symbolOf table run) := by
  rcases symbolOf_cases table run with ⟨rule, hrule, -, hsymbol⟩ | ⟨-, hkept⟩
  · exact hsymbol ▸ h.symbol rule hrule
  · exact hkept.symm ▸ ⟨hne, .inl hrun⟩

theorem rewrite_cons {c : Char} (hc : isWordChar c = false) :
    rewrite table (c :: cs) = c :: rewrite table cs := by
  rw [rewrite_eq, rewrite_eq]
  refine flatMap_wordRuns_cons (fun d run hd => symbolOf_of_ne fun rule hrule heq => ?_) hc
  have hword := (h.word rule hrule).2 d (heq ▸ List.mem_cons_self)
  exact Bool.false_ne_true (hd.symm.trans hword)

theorem rewrite_apart {signs : List Char} (hsigns : ∀ c ∈ signs, isWordChar c = false) :
    rewrite table (signs ++ cs) = signs ++ rewrite table cs := by
  induction signs with
  | nil => rfl
  | cons c signs ih =>
    obtain ⟨hc, hsigns⟩ := List.forall_mem_cons.1 hsigns
    rw [List.cons_append, h.rewrite_cons hc, ih hsigns, List.cons_append]

theorem startsApart_rewrite (hcs : StartsApart cs) : StartsApart (rewrite table cs) := by
  cases cs with
  | nil => exact .nil
  | cons c cs =>
    rw [h.rewrite_cons hcs]
    exact hcs

/-- A run is kept between others if it is no word of the table. -/
theorem rewrite_kept {p : List Char} (hp : Uniform p) (hnone : ∀ rule ∈ table, rule.1.toList ≠ p)
    (hcs : StartsApart cs) : rewrite table (p ++ cs) = p ++ rewrite table cs := by
  obtain ⟨hne, hrun | hsigns⟩ := hp
  · rw [rewrite_run hne hrun hcs, symbolOf_of_ne hnone]
  · exact h.rewrite_apart hsigns

end Independent

/-! ## One after another -/

/-- The pattern of one word after another is replaced, throughout what the earlier ones made. -/
def rewriteInTurn (table : List (String × String)) (cs : List Char) : List Char :=
  table.foldl (fun cs rule => (Pattern.wholeWord rule.1).replaceAll rule.2.toList cs) cs

theorem rewriteInTurn_append (table table' : List (String × String)) (cs : List Char) :
    rewriteInTurn (table ++ table') cs = rewriteInTurn table' (rewriteInTurn table cs) :=
  List.foldl_append

/-- What the first word leaves is rewritten to what the table makes of the text. -/
theorem Independent.rewrite_replaceWord {rule : String × String}
    (h : Independent (rule :: table)) (cs : List Char) :
    rewrite table (replaceWord rule.1.toList rule.2.toList cs) = rewrite (rule :: table) cs := by
  have htable : Independent table := h.subset (List.subset_cons_self rule table)
  have hword := (h.word rule List.mem_cons_self).2
  induction cs using word_induction with
  | nil => rfl
  | sign c cs hc ih =>
    rw [replaceWord_cons hword hc, htable.rewrite_cons hc, h.rewrite_cons hc, ih]
  | run run cs hne hrun hcs ih =>
    have hrest : StartsApart (replaceWord rule.1.toList rule.2.toList cs) :=
      startsApart_replaceWord hword hcs
    rw [replaceWord_run hne hrun hcs, rewrite_run hne hrun hcs, symbolOf_cons, ← ih]
    split
    · -- the symbol is a run of its own, which no later word is
      refine htable.rewrite_kept (h.symbol rule List.mem_cons_self) (fun other hother => ?_) hrest
      exact (h.symbol_ne_word List.mem_cons_self (List.mem_cons_of_mem rule hother)).symm
    · exact rewrite_run hne hrun hrest

/-- **One after another, words are replaced as they are all at once.** -/
theorem rewriteInTurn_eq_rewrite (h : Independent table) (cs : List Char) :
    rewriteInTurn table cs = rewrite table cs := by
  induction table generalizing cs with
  | nil => exact (rewrite_empty cs).symm
  | cons rule table ih =>
    obtain ⟨hne, hword⟩ := h.word rule List.mem_cons_self
    have htable : Independent table := h.subset (List.subset_cons_self rule table)
    calc rewriteInTurn (rule :: table) cs
        = rewriteInTurn table (replaceWord rule.1.toList rule.2.toList cs) := by
          rw [← Pattern.replaceAll_wholeWord hne hword]; rfl
      _ = rewrite table (replaceWord rule.1.toList rule.2.toList cs) := ih htable _
      _ = rewrite (rule :: table) cs := h.rewrite_replaceWord cs

/-- Which words a table has makes the difference, not their order or number. -/
theorem Independent.rewrite_congr {table' : List (String × String)} (h : Independent table)
    (hmem : ∀ rule, rule ∈ table' ↔ rule ∈ table) (cs : List Char) :
    rewrite table' cs = rewrite table cs := by
  have hsymbol : symbolOf table' = symbolOf table := by
    funext run
    rcases symbolOf_cases table' run with ⟨rule, hrule, rfl, hsymbol⟩ | ⟨hnone, hkept⟩
    · rw [hsymbol, h.symbolOf_word ((hmem rule).1 hrule)]
    · rw [hkept, symbolOf_of_ne fun rule hrule => hnone rule ((hmem rule).2 hrule)]
  rw [rewrite, hsymbol, rewrite]

/-! ## Where a word acts -/

/-- A word acts on a text between two parts of it: its pattern fits there. -/
def Acts (rule : String × String) (pre post cs : List Char) : Prop :=
  cs = pre ++ rule.1.toList ++ post ∧
    (Pattern.wholeWord rule.1).Fits pre.getLast? rule.1.toList post []

theorem Independent.acts_iff (h : Independent table) {rule : String × String}
    (hrule : rule ∈ table) {pre post : List Char} :
    Acts rule pre post cs ↔
      cs = pre ++ rule.1.toList ++ post ∧ EndsApart pre ∧ StartsApart post := by
  obtain ⟨hne, hword⟩ := h.word rule hrule
  rw [Acts, Pattern.fits_wholeWord hne hword, EndsApart]
  simp

section
variable {p rest pre v post : List Char} (hne : v ≠ []) (hv : ∀ c ∈ v, isWordChar c = true)
  (hpre : EndsApart pre) (hpost : StartsApart post)
include hne hv hpre hpost

/-- A word that stands alone in a text is the run that the text starts with, or comes after it. -/
theorem Uniform.split (hp : Uniform p) (hrest : (∀ c ∈ p, isWordChar c = true) → StartsApart rest)
    (h : p ++ rest = pre ++ v ++ post) :
    (pre = [] ∧ p = v ∧ rest = post) ∨ ∃ more, pre = p ++ more ∧ rest = more ++ v ++ post := by
  rw [List.append_assoc] at h
  rcases List.append_eq_append_iff.1 h with ⟨more, hmore, hafter⟩ | ⟨inner, rfl, hafter⟩
  · exact .inr ⟨more, hmore, hafter.trans (List.append_assoc ..).symm⟩
  · cases inner with
    | nil => exact .inr ⟨[], by simp, by simpa using hafter.symm⟩
    | cons c inner =>
      obtain ⟨-, hrun | hsigns⟩ := hp
      · -- nothing of the run comes before the word
        obtain rfl : pre = [] := by
          by_contra hsome
          exact not_endsApart hsome (fun d hd => hrun d (List.mem_append_left _ hd)) hpre
        obtain ⟨heq, hends⟩ := run_unique hv hrun hpost (hrest hrun) hafter
        exact .inl ⟨rfl, heq.symm, hends.symm⟩
      · obtain ⟨d, v, rfl⟩ := List.exists_cons_of_ne_nil hne
        obtain ⟨rfl, -⟩ := List.cons.inj hafter
        have hsign := hsigns d (List.mem_append_right pre List.mem_cons_self)
        exact absurd (hsign.symm.trans (hv d List.mem_cons_self)) Bool.false_ne_true

/-- A word that stands alone once a text is rewritten, and is no symbol, stood there before. -/
theorem Independent.exists_standing (h : Independent table)
    (hsymbol : ∀ rule ∈ table, rule.2.toList ≠ v) (heq : rewrite table cs = pre ++ v ++ post) :
    ∃ pre' post', cs = pre' ++ v ++ post' ∧ EndsApart pre' ∧ StartsApart post' ∧
      rewrite table pre' = pre ∧ rewrite table post' = post := by
  induction cs using word_induction generalizing pre with
  | nil =>
    obtain ⟨-, hnil, -⟩ : pre = [] ∧ v = [] ∧ post = [] := by simpa using heq.symm
    exact absurd hnil hne
  | sign c cs hc ih =>
    have hp : Uniform [c] := ⟨List.cons_ne_nil c [], .inr (List.forall_mem_singleton.2 hc)⟩
    have hrest : (∀ d ∈ [c], isWordChar d = true) → StartsApart (rewrite table cs) := by
      intro hword
      exact absurd (hc.symm.trans (hword c List.mem_cons_self)) Bool.false_ne_true
    rw [h.rewrite_cons hc] at heq
    rcases hp.split hne hv hpre hpost hrest heq with ⟨-, rfl, -⟩ | ⟨more, rfl, hmore⟩
    · exact absurd (hc.symm.trans (hv c List.mem_cons_self)) Bool.false_ne_true
    · obtain ⟨pre', post', rfl, hpre', hpost', rfl, hlast⟩ := ih hpre.of_append hmore
      refine ⟨c :: pre', post', rfl, ?_, hpost', h.rewrite_cons hc, hlast⟩
      cases pre' with
      | nil => exact hc
      | cons d pre' => exact hpre'
  | run run cs hrunne hrun hcs ih =>
    have hp : Uniform (symbolOf table run) := h.uniform_symbolOf hrunne hrun
    rw [rewrite_run hrunne hrun hcs] at heq
    rcases hp.split hne hv hpre hpost (fun _ => h.startsApart_rewrite hcs) heq with
      ⟨rfl, hword, hlast⟩ | ⟨more, rfl, hmore⟩
    · -- the run is kept, for its symbol would be the word
      rcases symbolOf_cases table run with ⟨rule, hrule, -, hput⟩ | ⟨-, hkept⟩
      · exact absurd (hput.symm.trans hword) (hsymbol rule hrule)
      · exact ⟨[], cs, by rw [← hword, hkept]; rfl, .nil, hcs, rfl, hlast⟩
    · obtain ⟨pre', post', rfl, hpre', hpost', rfl, hlast⟩ := ih hpre.of_append hmore
      cases pre' with
      | nil =>
        -- two runs do not touch
        obtain ⟨d, v, rfl⟩ := List.exists_cons_of_ne_nil hne
        exact absurd (hcs.symm.trans (hv d List.mem_cons_self)) Bool.false_ne_true
      | cons d pre' =>
        have hends : EndsApart (run ++ d :: pre') :=
          (endsApart_append (List.cons_ne_nil d pre')).2 hpre'
        exact ⟨run ++ d :: pre', post', by simp, hends, hpost', rewrite_run hrunne hrun hcs, hlast⟩

end

/-- **A word acts on nothing that another one has put in**: where it acts once a text is rewritten,
it acts on the text itself, and what comes before and after it there has been rewritten on its
own. -/
theorem exists_acts_of_rewrite (h : Independent table) {earlier : List (String × String)}
    (hearlier : earlier ⊆ table) {rule : String × String} (hrule : rule ∈ table)
    {pre post : List Char} (hacts : Acts rule pre post (rewrite earlier cs)) :
    ∃ pre' post', Acts rule pre' post' cs ∧ rewrite earlier pre' = pre ∧
      rewrite earlier post' = post := by
  obtain ⟨heq, hpre, hpost⟩ := (h.acts_iff hrule).1 hacts
  obtain ⟨hne, hword⟩ := h.word rule hrule
  obtain ⟨pre', post', hcs, hpre', hpost', hfirst, hlast⟩ :=
    (h.subset hearlier).exists_standing hne hword hpre hpost
      (fun other hother => h.symbol_ne_word (hearlier hother) hrule) heq
  exact ⟨pre', post', (h.acts_iff hrule).2 ⟨hcs, hpre', hpost'⟩, hfirst, hlast⟩

end Reckoner.Text
