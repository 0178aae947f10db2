/-
  What the two stacks hold after an infix expression.

  * `applyAll`: operators that wait work on the values one after another;
  * `Blocks`: what waits is not released by operators of a level;
  * `Leaves`: reading an expression has left values and operators that come to its value;
  * `Leaves.operator`, `Leaves.close`, `Leaves.finish`: **the next operator, the end of the
    group and the end of the text bring out that value**;
  * `Leaves.waiting`: an operator that has waited works on the value that comes out.
-/
import Mathlib.Tactic.Common
import Reckoner.Logic.Infix

namespace Reckoner.Logic.Infix

variable {ω ν : Type} {rules : Rules ω ν}

/-! ## Operators that wait -/

/-- Operators work on the values one after another. -/
def applyAll (rules : Rules ω ν) (values : List ν) (ops : List ω) : Except Failure (List ν) :=
  ops.foldlM (fun values op => rules.apply op values) values

/-- What waits is not released by operators of the level. -/
def Blocks (rules : Rules ω ν) (level : Nat) : List (Option ω) → Prop
  | some op :: _ => rules.level op < level
  | _ => True

theorem Blocks.mono {level level' : Nat} {waiting : List (Option ω)}
    (h : Blocks rules level waiting) (hle : level ≤ level') : Blocks rules level' waiting := by
  match waiting, h with
  | [], _ => exact trivial
  | none :: _, _ => exact trivial
  | some _ :: _, h => exact Nat.lt_of_lt_of_le h hle

theorem release_of_blocks {level : Nat} {waiting : List (Option ω)}
    (h : Blocks rules level waiting) (values : List ν) :
    release rules level values waiting = .ok ⟨values, waiting⟩ := by
  match waiting, h with
  | [], _ => rfl
  | none :: _, _ => rfl
  | some op :: _, h => rw [release, if_neg (Nat.not_le_of_lt h)]

/-- An operator releases those that bind at least as strongly, down to what keeps it back. -/
theorem release_append {level : Nat} {pending : List ω}
    (hpending : ∀ op ∈ pending, level ≤ rules.level op) {waiting : List (Option ω)}
    (hwaiting : Blocks rules level waiting) (values : List ν) :
    release rules level values (pending.map some ++ waiting) = do
      return ⟨← applyAll rules values pending, waiting⟩ := by
  induction pending generalizing values with
  | nil => exact release_of_blocks hwaiting values
  | cons op pending ih =>
    obtain ⟨hop, hpending⟩ := List.forall_mem_cons.1 hpending
    simp only [List.map_cons, List.cons_append, release, if_pos hop, applyAll, List.foldlM_cons,
      bind_assoc]
    exact bind_congr fun values => ih hpending values

theorem closeFrom_append (pending : List ω) (waiting : List (Option ω)) (values : List ν) :
    closeFrom rules values (pending.map some ++ none :: waiting) = do
      return ⟨← applyAll rules values pending, waiting⟩ := by
  induction pending generalizing values with
  | nil => rfl
  | cons op pending ih =>
    simp only [List.map_cons, List.cons_append, closeFrom, applyAll, List.foldlM_cons, bind_assoc]
    exact bind_congr ih

theorem finishFrom_map (pending : List ω) (values : List ν) :
    finishFrom rules values (pending.map some) =
      (do finishFrom rules (← applyAll rules values pending) []) := by
  induction pending generalizing values with
  | nil => rfl
  | cons op pending ih =>
    simp only [List.map_cons, finishFrom, applyAll, List.foldlM_cons, bind_assoc]
    exact bind_congr ih

/-! ## What an expression leaves -/

/-- From `e` on an expression has been read: operators wait that bind at least as strongly as
`level`, and when they have worked on the values, its value lies on those of `e`. -/
def Leaves (rules : Rules ω ν) (e : Infix ω ν) (level : Nat) (value : Except Failure ν)
    (r : Except Failure (Infix ω ν)) : Prop :=
  ∃ (pending : List ω) (values : Except Failure (List ν)),
    (∀ op ∈ pending, level ≤ rules.level op) ∧
    r = (do return ⟨← values, pending.map some ++ e.waiting⟩) ∧
    (do applyAll rules (← values) pending) = (do return (← value) :: e.values)

namespace Leaves

variable {e : Infix ω ν} {level : Nat} {value : Except Failure ν}
  {r : Except Failure (Infix ω ν)}

/-- An operand leaves its value. -/
theorem operand (e : Infix ω ν) (level : Nat) (value : Except Failure ν) :
    Leaves rules e level value (do return e.value (← value)) := by
  refine ⟨[], do return (← value) :: e.values, nofun, ?_, ?_⟩
  · cases value <;> rfl
  · cases value <;> rfl

/-- A failure ends the reading. -/
theorem error (e : Infix ω ν) (level : Nat) (f : Failure) :
    Leaves rules e level (.error f) (.error f) :=
  ⟨[], .error f, nofun, rfl, rfl⟩

/-- An operator brings out the value and waits on it. -/
theorem operator (op : ω) (h : Leaves rules e level value r) (hlevel : rules.level op ≤ level)
    (hwaiting : Blocks rules (rules.level op) e.waiting) :
    (do (← r).operator rules op) =
      (do return ⟨(← value) :: e.values, some op :: e.waiting⟩) := by
  obtain ⟨pending, values, hpending, rfl, hvalue⟩ := h
  have hrelease : ∀ vs, release rules (rules.level op) vs (pending.map some ++ e.waiting) = do
      return ⟨← applyAll rules vs pending, e.waiting⟩ :=
    release_append (fun op' hop' => Nat.le_trans hlevel (hpending op' hop')) hwaiting
  simp only [Infix.operator, bind_assoc, pure_bind, hrelease, prefixed]
  rw [← bind_assoc values, hvalue]
  simp only [bind_assoc, pure_bind]

/-- The end of a group brings out the value of what stands in it. -/
theorem close (h : Leaves rules e.open_ level value r) :
    (do (← r).close rules) = (do return e.value (← value)) := by
  obtain ⟨pending, values, -, rfl, hvalue⟩ := h
  simp only [Infix.close, bind_assoc, pure_bind, open_, closeFrom_append]
  rw [← bind_assoc values, hvalue]
  simp only [bind_assoc, pure_bind, open_, Infix.value]

/-- The end of the text brings out the value. -/
theorem finish (h : Leaves rules {} level value r) : (do (← r).finish rules) = value := by
  obtain ⟨pending, values, -, rfl, hvalue⟩ := h
  simp only [Infix.finish, bind_assoc, pure_bind, List.append_nil, finishFrom_map]
  rw [← bind_assoc values, hvalue]
  cases value <;> rfl

/-- An operator that waits works on the value. -/
theorem waiting {op : ω} {values values' : List ν} {waiting : List (Option ω)} {level' : Nat}
    {g : ν → Except Failure ν} (h : Leaves rules ⟨values, some op :: waiting⟩ level value r)
    (hop : level' ≤ rules.level op) (hlevel : level' ≤ level)
    (happly : ∀ y, rules.apply op (y :: values) = do return (← g y) :: values') :
    Leaves rules ⟨values', waiting⟩ level' (do g (← value)) r := by
  obtain ⟨pending, vs, hpending, rfl, hvalue⟩ := h
  refine ⟨pending ++ [op], vs, ?_, by simp, ?_⟩
  · intro op' hop'
    rcases List.mem_append.1 hop' with hop' | hop'
    · exact Nat.le_trans hlevel (hpending op' hop')
    · obtain rfl := List.mem_singleton.1 hop'
      exact hop
  · have hall : ∀ us, applyAll rules us (pending ++ [op]) =
        (do rules.apply op (← applyAll rules us pending)) := by
      intro us
      simp only [applyAll, List.foldlM_append, List.foldlM_cons, List.foldlM_nil, bind_pure]
    simp only [hall]
    rw [← bind_assoc vs, hvalue]
    simp only [bind_assoc, pure_bind, happly]

end Leaves

end Reckoner.Logic.Infix
