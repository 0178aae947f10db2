/-
  Texts as runs of word characters.

  * `wordRuns`: the maximal runs of word characters, and the runs between them;
  * `replaceWord`: replaces every run that is exactly a given word;
  * `byteLength`: the length of a text in UTF-8, in which positions are counted.
-/
import Reckoner.Text.Letter

namespace Reckoner.Text

/-- Splits a text into maximal runs of word characters and maximal runs of others. -/
def wordRuns : List Char → List (List Char)
  | [] => []
  | c :: cs =>
    match wordRuns cs with
    | (d :: run) :: runs =>
      if isWordChar c == isWordChar d then (c :: d :: run) :: runs else [c] :: (d :: run) :: runs
    | runs => [c] :: runs

/-- Nothing is lost between the runs. -/
theorem flatten_wordRuns (cs : List Char) : (wordRuns cs).flatten = cs := by
  induction cs with
  | nil => rfl
  | cons c cs ih =>
    rw [wordRuns]
    split
    · next d run runs h =>
      rw [h] at ih
      split <;> simp_all
    · simp [ih]

/-- Replaces every maximal run of word characters that is exactly `word`. -/
def replaceWord (word replacement cs : List Char) : List Char :=
  (wordRuns cs).flatMap fun run => if run = word then replacement else run

/-- The number of bytes of a text in UTF-8. -/
def byteLength (cs : List Char) : Nat := cs.foldr (fun c n => c.utf8Size + n) 0

end Reckoner.Text
