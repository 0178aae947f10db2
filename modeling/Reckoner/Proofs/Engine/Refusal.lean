/-
  Texts that start with an unknown name.

  * `Units.evaluate_refuses`, `Logic.evaluate_refuses`, `Arithmetic.evaluate_refuses`: **an
    evaluator refuses a text that starts with a name unknown to it**.
-/
import Reckoner.Proofs.Arithmetic.Names
import Reckoner.Proofs.Logic.Letters
import Reckoner.Proofs.Units.Parts

namespace Reckoner

open Text

/-- No request starts with a letter. -/
theorem Units.evaluate_refuses (settings : Settings) {q : String} {c : Char} {rest : List Char}
    (hc : isAsciiLower c = true) (h : canonical q.toList = c :: rest) :
    (Units.evaluate settings q).isError = true := by
  by_contra hnot
  rw [Bool.not_eq_true] at hnot
  obtain ⟨_, _, _, _, _, _, _, _, hasks⟩ := asks_of_evaluate hnot
  obtain ⟨d, rest', hcons, hletter, -⟩ := hasks.first
  obtain ⟨rfl, -⟩ := List.cons.inj (h.symm.trans hcons)
  exact Bool.false_ne_true (hletter.symm.trans hc)

section
variable {q : String} {name rest : List Char} (hne : name ≠ [])
  (hname : ∀ c ∈ name, isAsciiLower c = true)
include hne hname

/-- A name that is no word of logic, nor the start of one, starts no logic expression. -/
theorem Logic.evaluate_refuses (hwords : ∀ w ∈ Boolean.words, ¬ name <+: w.1.toList)
    (h : canonical q.toList = name ++ rest) : (Logic.evaluate q).isError = true := by
  by_contra hnot
  rw [Bool.not_eq_true] at hnot
  have hcs : canonical q.toList = [] ++ name ++ rest := h
  rcases starts_of_evaluate hnot hcs hne hname nofun with ⟨_, hword, hprefix, -⟩ | ⟨hnil, -⟩
  · obtain ⟨w, hw, rfl⟩ := List.mem_map.1 hword
    exact hwords w hw hprefix
  · exact hnil rfl

/-- A name that no constant and no function starts with starts no expression. -/
theorem Arithmetic.evaluate_refuses (settings : Settings)
    (hnames : ∀ v ∈ nameWords, ¬ name <+: v)
    (h : strip (lower (trim q.toList)) = name ++ rest) :
    (Arithmetic.evaluate settings q).isError = true := by
  by_contra hnot
  rw [Bool.not_eq_true] at hnot
  have hcovered := names_of_evaluate hnot
  rw [h, ← List.nil_append name] at hcovered
  obtain ⟨v, hv, hprefix, -⟩ := hcovered.exists_prefix hne hname nofun nameWords_letters
  exact hnames v hv hprefix

end

end Reckoner
