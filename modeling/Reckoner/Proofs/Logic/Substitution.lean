/-
  The words of boolean expressions give way to signs and digits all at once.

  * `independent_words`: no sign or digit that stands for a word is a word;
  * `rewriteInTurn_of_mem_iff`: which words there are makes the difference, not their order;
  * `substituteWords_simultaneous`: **to substitute the words is to rewrite every run that is one
    of them**, in any order, and once for all.
-/
import Reckoner.Logic.Boolean
import Reckoner.Proofs.Text.Rewriting

namespace Reckoner.Logic.Boolean

open Text

theorem independent_words : Independent words where
  word := by decide
  symbol := by decide
  functional := by decide
  apart := by decide

/-- The words are substituted as their patterns are replaced, one after another. -/
theorem substituteWords_eq (cs : List Char) : substituteWords cs = rewriteInTurn words cs := by
  refine List.foldl_ext _ _ cs fun cs rule hrule => ?_
  obtain ⟨hne, hword⟩ := independent_words.word rule hrule
  exact (Pattern.replaceAll_wholeWord hne hword rule.2.toList cs).symm

theorem substituteWords_eq_rewrite (cs : List Char) :
    substituteWords cs = rewrite words cs := by
  rw [substituteWords_eq, rewriteInTurn_eq_rewrite independent_words]

-- A word inside a longer run is kept, and so is a capital.
example : substituteWords "android nor (xor1^NOT)".toList = "android !| (xor1^NOT)".toList := by
  decide

/-- The words in any order, and any number of times each, do what they do in theirs. -/
theorem rewriteInTurn_of_mem_iff {table : List (String × String)}
    (h : ∀ rule, rule ∈ table ↔ rule ∈ words) (cs : List Char) :
    rewriteInTurn table cs = substituteWords cs := by
  have htable : Independent table := independent_words.subset fun rule hrule => (h rule).1 hrule
  rw [rewriteInTurn_eq_rewrite htable, independent_words.rewrite_congr h,
    substituteWords_eq_rewrite]

theorem substituteWords_substituteWords (cs : List Char) :
    substituteWords (substituteWords cs) = substituteWords cs := by
  have hmem : ∀ rule, rule ∈ words ++ words ↔ rule ∈ words := by simp
  calc substituteWords (substituteWords cs)
      = rewriteInTurn words (rewriteInTurn words cs) := by
        rw [substituteWords_eq, substituteWords_eq]
    _ = rewriteInTurn (words ++ words) cs := (rewriteInTurn_append words words cs).symm
    _ = substituteWords cs := rewriteInTurn_of_mem_iff hmem cs

/-- Where a word acts after some of the others, it acts on the text itself. -/
theorem exists_acts_of_rewriteInTurn {earlier : List (String × String)} (hearlier : earlier ⊆ words)
    {rule : String × String} (hrule : rule ∈ words) {pre post cs : List Char}
    (hacts : Acts rule pre post (rewriteInTurn earlier cs)) :
    ∃ pre' post', Acts rule pre' post' cs ∧ rewriteInTurn earlier pre' = pre ∧
      rewriteInTurn earlier post' = post := by
  have hindependent : Independent earlier := independent_words.subset hearlier
  simp only [rewriteInTurn_eq_rewrite hindependent] at hacts ⊢
  exact exists_acts_of_rewrite independent_words hearlier hrule hacts

/-- **The words of an expression are substituted all at once.** Every maximal run of word characters
that is a word gives way to its symbol, and all else is kept; and so it is when the patterns of the
words are replaced one after another, in any order. Whichever words came before, a word acts only
where it stood in the text itself, where what is before it and after it has been rewritten on its
own. Once substituted, nothing is left to substitute. -/
theorem substituteWords_simultaneous (cs : List Char) :
    substituteWords cs = rewrite words cs ∧
      (∀ table : List (String × String), table.Perm words →
        rewriteInTurn table cs = substituteWords cs) ∧
      (∀ earlier ⊆ words, ∀ rule ∈ words, ∀ pre post,
        Acts rule pre post (rewriteInTurn earlier cs) →
          ∃ pre' post', Acts rule pre' post' cs ∧ rewriteInTurn earlier pre' = pre ∧
            rewriteInTurn earlier post' = post) ∧
      substituteWords (substituteWords cs) = substituteWords cs := by
  refine ⟨substituteWords_eq_rewrite cs, ?_, ?_, substituteWords_substituteWords cs⟩
  · intro table hperm
    exact rewriteInTurn_of_mem_iff (fun _ => hperm.mem_iff) cs
  · intro earlier hearlier rule hrule pre post hacts
    exact exists_acts_of_rewriteInTurn hearlier hrule hacts

/-- The words of `not (true xor false)` in the opposite order, and `xor` once both truths have
given way to digits. -/
theorem substituteWords_simultaneous_xor :
    (words.reverse.Perm words ∧
      rewriteInTurn words.reverse "not (true xor false)".toList = "! (1 ^ 0)".toList) ∧
    [("true", "1"), ("false", "0")] ⊆ words ∧ ("xor", "^") ∈ words ∧
      Acts ("xor", "^") "not (1 ".toList " 0)".toList
        (rewriteInTurn [("true", "1"), ("false", "0")] "not (true xor false)".toList) ∧
      ∃ pre post, Acts ("xor", "^") pre post "not (true xor false)".toList ∧
        rewriteInTurn [("true", "1"), ("false", "0")] pre = "not (1 ".toList ∧
        rewriteInTurn [("true", "1"), ("false", "0")] post = " 0)".toList := by
  obtain ⟨-, hperm, hacts, -⟩ := substituteWords_simultaneous "not (true xor false)".toList
  have hreverse : words.reverse.Perm words := List.reverse_perm words
  have hsub : [("true", "1"), ("false", "0")] ⊆ words := by decide
  have hxor : ("xor", "^") ∈ words := by decide
  have hthere : Acts ("xor", "^") "not (1 ".toList " 0)".toList
      (rewriteInTurn [("true", "1"), ("false", "0")] "not (true xor false)".toList) :=
    (independent_words.acts_iff hxor).2 ⟨by decide, rfl, rfl⟩
  refine ⟨⟨hreverse, ?_⟩, hsub, hxor, hthere, hacts _ hsub _ hxor _ _ hthere⟩
  rw [hperm _ hreverse]
  decide

end Reckoner.Logic.Boolean
