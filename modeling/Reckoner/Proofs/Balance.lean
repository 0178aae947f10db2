/-
  Groups that match.

  * `Token.closes`: the token ends a group;
  * `Balances`: with some groups open before them, no beginning of the tokens closes more groups
    than are open, and in the end none is;
  * `balances_cons`: the same, a token at a time.
-/
import Reckoner.Token

namespace Reckoner

/-- The token closes a group: a parenthesis that does not open one does. -/
def Token.closes (t : Token) : Bool := t.kind == .parenthesis && !t.isOpen

/-- With `groups` open groups before them, no beginning of the tokens closes more than are open,
and all of them close all. -/
structure Balances (groups : Nat) (ts : List Token) : Prop where
  never : ∀ n, (ts.take n).countP Token.closes ≤ groups + (ts.take n).countP Token.isOpen
  all : ts.countP Token.closes = groups + ts.countP Token.isOpen

section
variable {groups : Nat} {t : Token} {ts : List Token}

theorem Token.kind_of_isOpen (h : t.isOpen = true) : t.kind = .parenthesis := by
  unfold Token.isOpen at h
  rw [Bool.and_eq_true, beq_iff_eq] at h
  exact h.1

theorem Token.kind_of_closes (h : t.closes = true) : t.kind = .parenthesis := by
  unfold Token.closes at h
  rw [Bool.and_eq_true, beq_iff_eq] at h
  exact h.1

theorem Token.isOpen_of_closes (h : t.closes = true) : t.isOpen = false := by
  unfold Token.closes at h
  rw [Bool.and_eq_true, Bool.not_eq_true'] at h
  exact h.2

theorem Token.isOpen_of_kind (h : t.kind ≠ .parenthesis) : t.isOpen = false := by
  unfold Token.isOpen
  rw [beq_eq_false_iff_ne.2 h, Bool.false_and]

theorem Token.closes_of_kind (h : t.kind ≠ .parenthesis) : t.closes = false := by
  unfold Token.closes
  rw [beq_eq_false_iff_ne.2 h, Bool.false_and]

theorem balances_nil : Balances groups [] ↔ groups = 0 := by
  constructor
  · intro h
    simpa using h.all.symm
  · rintro rfl
    exact ⟨fun n => by simp, rfl⟩

/-- The first token opens a group, closes one or neither, and those after it close what is open
then. -/
theorem balances_cons : Balances groups (t :: ts) ↔
    ∃ rest, rest + (if t.closes then 1 else 0) = groups + (if t.isOpen then 1 else 0) ∧
      Balances rest ts := by
  constructor
  · rintro ⟨hnever, hall⟩
    rw [List.countP_cons, List.countP_cons] at hall
    have hfirst := hnever 1
    simp only [List.take_succ_cons, List.take_zero, List.countP_cons, List.countP_nil,
      Nat.zero_add] at hfirst
    obtain ⟨rest, hrest⟩ := Nat.exists_eq_add_of_le' hfirst
    refine ⟨rest, hrest.symm, fun n => ?_, by omega⟩
    have hn := hnever (n + 1)
    simp only [List.take_succ_cons, List.countP_cons] at hn
    omega
  · rintro ⟨rest, hrest, hnever, hall⟩
    refine ⟨fun n => ?_, ?_⟩
    · cases n with
      | zero => simp only [List.take_zero, List.countP_nil, Nat.zero_le]
      | succ n =>
        have hn := hnever n
        simp only [List.take_succ_cons, List.countP_cons]
        omega
    · rw [List.countP_cons, List.countP_cons]
      omega

theorem balances_cons_open (h : t.isOpen = true) :
    Balances groups (t :: ts) ↔ Balances (groups + 1) ts := by
  have hclose : t.closes = false := by
    unfold Token.closes
    rw [h, Bool.not_true, Bool.and_false]
  simp only [balances_cons, h, hclose, if_true, Bool.false_eq_true, if_false, Nat.add_zero,
    exists_eq_left]

theorem balances_cons_close (h : t.closes = true) :
    Balances groups (t :: ts) ↔ ∃ rest, groups = rest + 1 ∧ Balances rest ts := by
  simp only [balances_cons, h, Token.isOpen_of_closes h, if_true, Bool.false_eq_true, if_false,
    Nat.add_zero, eq_comm]

theorem balances_cons_other (h : t.kind ≠ .parenthesis) :
    Balances groups (t :: ts) ↔ Balances groups ts := by
  simp only [balances_cons, Token.closes_of_kind h, Token.isOpen_of_kind h, Bool.false_eq_true,
    if_false, Nat.add_zero, exists_eq_left]

/-- The beginnings of a row are those up to its length. -/
theorem balances_iff : Balances groups ts ↔
    (∀ n ≤ ts.length, (ts.take n).countP Token.closes ≤
      groups + (ts.take n).countP Token.isOpen) ∧
    ts.countP Token.closes = groups + ts.countP Token.isOpen := by
  constructor
  · rintro ⟨hnever, hall⟩
    exact ⟨fun n _ => hnever n, hall⟩
  · rintro ⟨hnever, hall⟩
    refine ⟨fun n => ?_, hall⟩
    by_cases hn : n ≤ ts.length
    · exact hnever n hn
    · rw [List.take_of_length_le (by omega)]
      exact Nat.le_of_eq hall

instance : Decidable (Balances groups ts) := decidable_of_iff' _ balances_iff

end

end Reckoner
