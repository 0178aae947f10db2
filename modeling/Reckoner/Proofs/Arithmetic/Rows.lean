/-
  Rows of symbols in which operands and operators take turns.

  * `Row`: symbols that may stand one after another, every group closed;
  * `explicit`, `Row.explicit`: **with all product signs put back, a row is one in which none is
    left out**;
  * `commasInCalls`, `charge`: where the commas stand, and how many more there are than functions
    ask for; product signs change neither.
-/
import Mathlib.Algebra.Ring.Int.Defs
import Reckoner.Proofs.Arithmetic.Spelling

namespace Reckoner.Arithmetic

/-! ## Rows -/

namespace Symbol

/-- A sign that may stand before an operand. -/
def isSign : Symbol → Bool
  | operator .add | operator .sub => true
  | _ => false

/-- A comma. -/
def isComma : Symbol → Bool
  | comma => true
  | _ => false

/-- The symbol stands in a group only. -/
def needsGroup : Symbol → Bool
  | closing | comma => true
  | _ => false

end Symbol

/-- The open groups after a symbol, innermost first; those of calls are true. -/
def groupsAfter (groups : List Bool) (before : Symbol) : Symbol → List Bool
  | .opening => before.isFunction :: groups
  | .closing => groups.tail
  | _ => groups

/-- The symbol may stand after the one before, where `R` tells what may stand side by side. -/
structure Admits (R : Symbol → Symbol → Prop) (groups : List Bool) (before s : Symbol) : Prop where
  beside : R before s
  starts : before.isEnd = false → s.isLink = true → s.isSign = true
  grouped : s.needsGroup = true → groups ≠ []

/-- The symbols may follow the one before, and close all open groups. -/
inductive Row (R : Symbol → Symbol → Prop) : List Bool → Symbol → List Symbol → Prop
  | nil {before} : before.isEnd = true → Row R [] before []
  | cons {groups before s ss} : Admits R groups before s →
      Row R (groupsAfter groups before s) s ss → Row R groups before (s :: ss)

/-- Every comma stands in the group of a call. -/
def commasInCalls (groups : List Bool) (before : Symbol) : List Symbol → Bool
  | [] => true
  | s :: ss => (!s.isComma || groups.head? == some true) &&
      commasInCalls (groupsAfter groups before s) s ss

/-- What a symbol adds to the weight of the code, apart from what ends an operand. -/
def charge : Symbol → Int
  | .comma => 1
  | .function f => 1 - f.arity
  | _ => 0

theorem Row.chain {R : Symbol → Symbol → Prop} {groups : List Bool} {before : Symbol}
    {ss : List Symbol} (h : Row R groups before ss) : (before :: ss).IsChain R := by
  induction h with
  | nil => exact .singleton _
  | cons hadmits _ ih => exact .cons_cons hadmits.beside ih

/-! ## Product signs put back -/

theorem joins_spec {s s' : Symbol} (h : joins s s' = true) :
    s.isEnd = true ∧ s.isFunction = false ∧ s'.isLink = false ∧ s'.needsGroup = false := by
  cases s <;> cases s' <;>
    simp_all [joins, joinsNumber, joinsConstant, joinsGroup, Symbol.isEnd, Symbol.isFunction,
      Symbol.isLink, Symbol.startsName, Symbol.isOpening, Symbol.needsGroup]

/-- The row with its product signs, after the symbol before it. -/
def explicit (before : Symbol) (us : List Symbol) : List Symbol :=
  (insertProducts joins (before :: us)).tail

theorem insertProducts_eq (before : Symbol) (us : List Symbol) :
    insertProducts joins (before :: us) = before :: explicit before us := by
  obtain ⟨ss, hss⟩ := insertProducts_cons joins before us
  rw [explicit, hss, List.tail_cons]

theorem explicit_cons (before s : Symbol) (us : List Symbol) :
    explicit before (s :: us) =
      if joins before s then .times :: s :: explicit s us else s :: explicit s us := by
  rw [explicit, insertProducts, insertProducts_eq]
  split <;> rfl

theorem explicit_opening (us : List Symbol) : explicit .opening us = insertProducts joins us := by
  cases us with
  | nil => rfl
  | cons s us =>
    have hjoins : joins .opening s = false := by cases s <;> rfl
    rw [explicit_cons, hjoins, if_neg Bool.false_ne_true, insertProducts_eq]

theorem groupsAfter_times {before s : Symbol} (h : joins before s = true) (groups : List Bool) :
    groupsAfter groups .times s = groupsAfter groups before s := by
  cases s with
  | opening => rw [groupsAfter, groupsAfter, (joins_spec h).2.1]; rfl
  | _ => rfl

section
variable {groups : List Bool} {before : Symbol} {us : List Symbol}

/-- With its product signs put back, a row is one in which none is left out. -/
theorem Row.explicit (h : Row Beside groups before us) :
    Row Follows groups before (explicit before us) := by
  induction h with
  | nil hend => exact .nil hend
  | @cons groups before s us hadmits _ ih =>
    rw [explicit_cons]
    cases hjoins : joins before s with
    | true =>
      obtain ⟨hend, hfunction, hlink, hgroup⟩ := joins_spec hjoins
      rw [if_pos rfl]
      refine .cons ⟨⟨fun _ => rfl, fun h => ?_⟩, fun h => ?_, nofun⟩
        (.cons ⟨⟨nofun, nofun⟩, fun _ h => ?_, fun h => ?_⟩ ?_)
      · exact absurd (hfunction.symm.trans h) Bool.false_ne_true
      · exact absurd (h.symm.trans hend) Bool.false_ne_true
      · exact absurd (hlink.symm.trans h) Bool.false_ne_true
      · exact absurd (hgroup.symm.trans h) Bool.false_ne_true
      · show Row Follows (groupsAfter groups .times s) s _
        rwa [groupsAfter_times hjoins]
    | false =>
      rw [if_neg Bool.false_ne_true]
      refine .cons ⟨hadmits.beside.resolve_right fun h => ?_, hadmits.starts, hadmits.grouped⟩ ih
      exact Bool.false_ne_true (hjoins.symm.trans h)

theorem commasInCalls_explicit (groups : List Bool) (before : Symbol) (us : List Symbol) :
    commasInCalls groups before (explicit before us) = commasInCalls groups before us := by
  induction us generalizing groups before with
  | nil => rfl
  | cons s us ih =>
    rw [explicit_cons]
    cases hjoins : joins before s with
    | true =>
      have hcomma : s.isComma = false := by
        have hgroup := (joins_spec hjoins).2.2.2
        cases s <;> first | rfl | exact hgroup
      have htimes := groupsAfter_times hjoins groups
      simp only [if_true, commasInCalls, hcomma, Bool.not_false, Bool.true_or, Bool.true_and]
      rw [show Symbol.times.isComma = false from rfl,
        show groupsAfter groups before .times = groups from rfl, htimes, ih]
      rfl
    | false => rw [if_neg Bool.false_ne_true, commasInCalls, commasInCalls, ih]

theorem charge_explicit (before : Symbol) (us : List Symbol) :
    ((explicit before us).map charge).sum = (us.map charge).sum := by
  induction us generalizing before with
  | nil => rfl
  | cons s us ih =>
    rw [explicit_cons]
    have htimes : charge .times = 0 := rfl
    split <;> simp [ih, htimes]

end

theorem loosens_insertProducts (us : List Symbol) : Loosens (insertProducts joins us) us := by
  induction us with
  | nil => exact .nil
  | cons s us ih =>
    cases us with
    | nil => exact .keep s .nil
    | cons s' us =>
      obtain ⟨ss, hss⟩ := insertProducts_cons joins s' us
      rw [insertProducts]
      rw [hss] at ih ⊢
      split
      · next hjoins => exact .drop hjoins ih
      · exact .keep s ih

end Reckoner.Arithmetic
