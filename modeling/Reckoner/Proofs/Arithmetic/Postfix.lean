/-
  Postfix order keeps the tokens.

  * `readings`: the numbers, functions and operators of a row, with a prefix minus as the operator
    it becomes and without prefix plus;
  * `Yard.Pops`: the innermost of what waits is written; a released operator, the end of a group
    and the end of the row are all of this kind;
  * `Yard.Transition`: what reading one token can do;
  * `Yard.Stands`: what may be written and what may wait;
  * `Yard.run_spec`: what a row reads as is written or waits, and so do its open groups;
  * `toPostfix_tokens`: **what is converted has matching groups, and the result has its tokens; and
    whatever has matching groups and no comma is converted**.
-/
import Mathlib.Data.List.Perm.Basic
import Reckoner.Arithmetic.Postfix
import Reckoner.Proofs.Balance
import Reckoner.Proofs.Success

namespace Reckoner.Arithmetic

/-! ## What a row reads as -/

/-- The token is a number. -/
def isNumber (t : Token) : Bool := t.kind == .number

/-- An operand has to come next: nothing is before, or an operator, the name of a function, a comma
or the start of a group. -/
def operandDue : Option Token → Bool
  | none => true
  | some t => t.kind == .operator || t.kind == .function || t.kind == .comma || t.isOpen

/-- What a token reads as after the one before it. -/
def reading (before : Option Token) (t : Token) : List Token :=
  match t.kind with
  | .number | .function => [t]
  | .operator =>
    if operandDue before && t.value == "-" then [{ t with value := negation }]
    else if operandDue before && t.value == "+" then []
    else [t]
  | _ => []

/-- What the tokens of a row read as. -/
def readings (before : Option Token) : List Token → List Token
  | [] => []
  | t :: ts => reading before t ++ readings (some t) ts

namespace Yard

/-! ## Writing what waits -/

/-- The innermost of what waits is written, group by group at most. -/
inductive Pops : Yard → Yard → Prop
  | refl (y : Yard) : Pops y y
  | pop {output waiting : List Token} {expect : Bool} {top : Token} {z : Yard} :
      top.isOpen = false → Pops ⟨top :: output, waiting, expect⟩ z →
      Pops ⟨output, top :: waiting, expect⟩ z

/-- What is written, and what waits but for the starts of groups. -/
def held (y : Yard) : List Token := y.output ++ y.waiting.filter (!·.isOpen)

/-- How many groups are open. -/
def groups (y : Yard) : Nat := y.waiting.countP Token.isOpen

/-- After the token `before`: numbers, functions and operators are written, functions, operators
and the starts of groups wait. -/
structure Stands (before : Option Token) (y : Yard) : Prop where
  expect : y.expectOperand = operandDue before
  output : ∀ u ∈ y.output, u.kind = .number ∨ u.kind = .function ∨ u.kind = .operator
  waiting : ∀ u ∈ y.waiting, u.kind = .function ∨ u.kind = .operator ∨ u.isOpen = true

theorem Stands.start : Stands none {} := ⟨rfl, nofun, nofun⟩

section
variable {output waiting : List Token} {expect : Bool} {u : Token}

theorem held_cons (h : u.isOpen = false) :
    (held ⟨output, u :: waiting, expect⟩).Perm (u :: held ⟨output, waiting, expect⟩) := by
  simp only [held, List.filter_cons, h, Bool.not_false, if_true]
  exact List.perm_middle

theorem held_cons_open (h : u.isOpen = true) :
    held ⟨output, u :: waiting, expect⟩ = held ⟨output, waiting, expect⟩ := by
  simp only [held, List.filter_cons, h, Bool.not_true, Bool.false_eq_true, if_false]

theorem groups_cons (h : u.isOpen = false) :
    groups ⟨output, u :: waiting, expect⟩ = groups ⟨output, waiting, expect⟩ :=
  List.countP_cons_of_neg (Bool.eq_false_iff.1 h)

theorem groups_cons_open (h : u.isOpen = true) :
    groups ⟨output, u :: waiting, expect⟩ = groups ⟨output, waiting, expect⟩ + 1 :=
  List.countP_cons_of_pos h

end

section
variable {before : Option Token} {y z : Yard}

theorem Pops.held_perm (h : Pops y z) : z.held.Perm y.held := by
  induction h with
  | refl => rfl
  | pop htop _ ih => exact ih.trans (held_cons htop).symm

theorem Pops.groups_eq (h : Pops y z) : z.groups = y.groups := by
  induction h with
  | refl => rfl
  | pop htop _ ih =>
    rw [ih, groups_cons htop]
    rfl

theorem Pops.stands (h : Pops y z) (hy : Stands before y) : Stands before z := by
  induction h with
  | refl => exact hy
  | @pop output waiting expect top z htop _ ih =>
    refine ih ⟨hy.expect, ?_, fun u hu => hy.waiting u (List.mem_cons_of_mem _ hu)⟩
    rintro u (_ | ⟨_, hu⟩)
    · obtain hfunction | hoperator | hopen := hy.waiting top List.mem_cons_self
      · exact .inr (.inl hfunction)
      · exact .inr (.inr hoperator)
      · exact absurd hopen (Bool.eq_false_iff.1 htop)
    · exact hy.output u hu

/-- No number waits. -/
theorem Pops.numbers_eq (h : Pops y z) (hy : Stands before y) :
    z.output.filter isNumber = y.output.filter isNumber := by
  induction h with
  | refl => rfl
  | @pop output waiting expect top z htop hpops ih =>
    have hstands := (Pops.pop htop (.refl _)).stands hy
    have htop' : ¬ isNumber top = true := by
      intro hnumber
      have hkind := eq_of_beq hnumber
      have := hy.waiting top List.mem_cons_self
      grind
    rw [ih hstands, List.filter_cons_of_neg htop']

end

section
variable {output output' waiting waiting' : List Token}

/-- Operators are released. -/
theorem pops_release (level : Nat) (output waiting : List Token) (expect : Bool) :
    Pops ⟨output, waiting, expect⟩
      ⟨(release level output waiting).1, (release level output waiting).2, expect⟩ := by
  induction waiting generalizing output with
  | nil => exact .refl _
  | cons top waiting ih =>
    unfold release
    split
    · rename_i htop
      rw [Bool.and_eq_true, beq_iff_eq] at htop
      have hopen : top.isOpen = false := Token.isOpen_of_kind (by simp [htop.1])
      exact .pop hopen (ih _)
    · exact .refl _

/-- What waits within the innermost group is written. -/
theorem pops_flush (expect : Bool) (h : flush output waiting = .ok (output', waiting')) :
    Pops ⟨output, waiting, expect⟩ ⟨output', waiting', expect⟩ ∧
      ∃ top rest, waiting' = top :: rest ∧ top.isOpen = true := by
  induction waiting generalizing output with
  | nil => cases h
  | cons top waiting ih =>
    unfold flush at h
    split at h
    · rename_i htop
      cases h
      exact ⟨.refl _, top, waiting, rfl, htop⟩
    · rename_i htop
      obtain ⟨hpops, hopen⟩ := ih h
      exact ⟨.pop (Bool.eq_false_iff.2 htop) hpops, hopen⟩

/-- An open group can be ended. -/
theorem exists_flush (h : 0 < waiting.countP Token.isOpen) (output : List Token) :
    ∃ result, flush output waiting = .ok result := by
  induction waiting generalizing output with
  | nil => exact absurd h (Nat.lt_irrefl 0)
  | cons top waiting ih =>
    by_cases htop : top.isOpen = true
    · exact ⟨_, if_pos htop⟩
    · rw [List.countP_cons_of_neg htop] at h
      obtain ⟨result, hresult⟩ := ih h (top :: output)
      exact ⟨result, (if_neg htop).trans hresult⟩

/-- At the end all that waits is written. -/
theorem pops_drain (expect : Bool) {out : List Token} (h : drain output waiting = .ok out) :
    Pops ⟨output, waiting, expect⟩ ⟨out.reverse, [], expect⟩ := by
  induction waiting generalizing output with
  | nil =>
    cases h
    rw [List.reverse_reverse]
    exact .refl _
  | cons top waiting ih =>
    unfold drain at h
    split at h
    · cases h
    · rename_i htop
      exact .pop (Token.isOpen_of_kind (beq_eq_false_iff_ne.1 (Bool.eq_false_iff.2 htop))) (ih h)

/-- Where no group is open, the conversion can end. -/
theorem exists_drain (h : ∀ u ∈ waiting, u.kind ≠ .parenthesis) (output : List Token) :
    ∃ out, drain output waiting = .ok out := by
  induction waiting generalizing output with
  | nil => exact ⟨_, rfl⟩
  | cons top waiting ih =>
    obtain ⟨htop, hwaiting⟩ := List.forall_mem_cons.1 h
    obtain ⟨out, hout⟩ := ih hwaiting (top :: output)
    exact ⟨out, (if_neg (fun h => htop (eq_of_beq h))).trans hout⟩

end

/-! ## Reading one token -/

/-- What reading one token does: it is written or waits, and what waits before it may be
written. -/
inductive Transition : Yard → Token → Yard → Prop
  | number {y : Yard} {t : Token} : t.kind = .number →
      Transition y t ⟨t :: y.output, y.waiting, false⟩
  | function {y : Yard} {t : Token} : t.kind = .function →
      Transition y t ⟨y.output, t :: y.waiting, true⟩
  | minus {y : Yard} {t : Token} : t.kind = .operator → y.expectOperand = true → t.value = "-" →
      Transition y t { y with waiting := { t with value := negation } :: y.waiting }
  | plus {y : Yard} {t : Token} : t.kind = .operator → y.expectOperand = true → t.value = "+" →
      Transition y t y
  | operator {y z : Yard} {t : Token} : t.kind = .operator →
      (y.expectOperand = true → t.value ≠ "-" ∧ t.value ≠ "+") → Pops y z →
      Transition y t ⟨z.output, t :: z.waiting, true⟩
  | comma {y z : Yard} {t : Token} : t.kind = .comma → Pops y z →
      Transition y t ⟨z.output, z.waiting, true⟩
  | opening {y : Yard} {t : Token} : t.isOpen = true →
      Transition y t ⟨y.output, t :: y.waiting, true⟩
  | closing {y : Yard} {output waiting : List Token} {expect : Bool} {top t : Token} :
      t.closes = true → Pops y ⟨output, top :: waiting, expect⟩ → top.isOpen = true →
      Transition y t ⟨output, waiting, false⟩
  | call {y : Yard} {output waiting : List Token} {expect : Bool} {top name t : Token} :
      t.closes = true → Pops y ⟨output, top :: name :: waiting, expect⟩ → top.isOpen = true →
      name.kind = .function → Transition y t ⟨name :: output, waiting, false⟩

theorem transition_of_step {y y' : Yard} {t : Token} (h : y.step t = .ok y') :
    Transition y t y' := by
  unfold step at h
  split at h
  case h_1 ht =>
    cases h
    exact .number ht
  case h_2 ht =>
    cases h
    exact .function ht
  case h_3 ht =>
    split at h
    · rename_i hminus
      rw [Bool.and_eq_true, beq_iff_eq] at hminus
      cases h
      exact .minus ht hminus.1 hminus.2
    · rename_i hminus
      split at h
      · rename_i hplus
        rw [Bool.and_eq_true, beq_iff_eq] at hplus
        cases h
        exact .plus ht hplus.1 hplus.2
      · rename_i hplus
        cases h
        refine .operator ht (fun hexpect => ⟨?_, ?_⟩) (pops_release _ _ _ y.expectOperand)
        · rwa [hexpect, Bool.true_and, beq_iff_eq] at hminus
        · rwa [hexpect, Bool.true_and, beq_iff_eq] at hplus
  case h_4 ht =>
    obtain ⟨⟨output, waiting⟩, hflush, h⟩ := ok_of_bind h
    obtain ⟨hpops, -⟩ := pops_flush y.expectOperand hflush
    dsimp only at h
    split at h
    · cases h
      exact .comma ht hpops
    · cases h
  case h_5 ht =>
    split at h
    · rename_i hopen
      cases h
      exact .opening (by simp only [Token.isOpen, ht, hopen, beq_self_eq_true, Bool.and_self])
    · rename_i hopen
      have hclose : t.closes = true := by
        simp only [Token.closes, Token.isOpen, ht, beq_self_eq_true, Bool.true_and, hopen,
          Bool.not_eq_true']
      obtain ⟨⟨output, waiting⟩, hflush, h⟩ := ok_of_bind h
      obtain ⟨hpops, top, rest, rfl, htop⟩ := pops_flush y.expectOperand hflush
      dsimp only at h
      rw [List.drop_succ_cons, List.drop_zero] at h
      obtain _ | ⟨name, rest⟩ := rest
      · cases h
        exact .closing hclose hpops htop
      · dsimp only at h
        split at h
        · rename_i hname
          cases h
          exact .call hclose hpops htop (eq_of_beq hname)
        · cases h
          exact .closing hclose hpops htop
  case h_6 => cases h

section
variable {before : Option Token} {y y' : Yard} {t : Token}

theorem Transition.stands (h : Transition y t y') (hy : Stands before y) : Stands (some t) y' := by
  cases h with
  | number ht =>
    refine ⟨?_, List.forall_mem_cons.2 ⟨.inl ht, hy.output⟩, hy.waiting⟩
    have hopen : t.isOpen = false := Token.isOpen_of_kind (by simp [ht])
    simp only [operandDue, ht, hopen]
    rfl
  | function ht =>
    refine ⟨?_, hy.output, List.forall_mem_cons.2 ⟨.inl ht, hy.waiting⟩⟩
    simp only [operandDue, ht]
    rfl
  | minus ht hexpect =>
    refine ⟨?_, hy.output, List.forall_mem_cons.2 ⟨.inr (.inl ht), hy.waiting⟩⟩
    simp only [operandDue, ht, hexpect]
    rfl
  | plus ht hexpect =>
    refine ⟨?_, hy.output, hy.waiting⟩
    simp only [operandDue, ht, hexpect]
    rfl
  | operator ht _ hpops =>
    have hz := hpops.stands hy
    refine ⟨?_, hz.output, List.forall_mem_cons.2 ⟨.inr (.inl ht), hz.waiting⟩⟩
    simp only [operandDue, ht]
    rfl
  | comma ht hpops =>
    have hz := hpops.stands hy
    refine ⟨?_, hz.output, hz.waiting⟩
    simp only [operandDue, ht]
    rfl
  | opening ht =>
    refine ⟨?_, hy.output, List.forall_mem_cons.2 ⟨.inr (.inr ht), hy.waiting⟩⟩
    simp only [operandDue, ht, Bool.or_true]
  | closing ht hpops =>
    have hz := hpops.stands hy
    refine ⟨?_, hz.output, (List.forall_mem_cons.1 hz.waiting).2⟩
    simp only [operandDue, Token.kind_of_closes ht, Token.isOpen_of_closes ht]
    rfl
  | call ht hpops _ hname =>
    have hz := hpops.stands hy
    have hwaiting := (List.forall_mem_cons.1 (List.forall_mem_cons.1 hz.waiting).2).2
    refine ⟨?_, List.forall_mem_cons.2 ⟨.inr (.inl hname), hz.output⟩, hwaiting⟩
    simp only [operandDue, Token.kind_of_closes ht, Token.isOpen_of_closes ht]
    rfl

/-- What a token reads as is written or waits. -/
theorem Transition.held_perm (h : Transition y t y') (hy : Stands before y) :
    y'.held.Perm (reading before t ++ y.held) := by
  cases h with
  | number ht =>
    simp only [reading, ht]
    rfl
  | function ht =>
    simp only [reading, ht]
    exact held_cons (Token.isOpen_of_kind (by simp [ht]))
  | minus ht hexpect hvalue =>
    rw [hy.expect] at hexpect
    simp only [reading, ht, hexpect, hvalue, beq_self_eq_true, Bool.and_self, if_true]
    exact held_cons (Token.isOpen_of_kind (by dsimp only; decide))
  | plus ht hexpect hvalue =>
    rw [hy.expect] at hexpect
    simp only [reading, ht, hexpect, hvalue]
    rfl
  | operator ht hsign hpops =>
    have hread : reading before t = [t] := by
      rw [hy.expect] at hsign
      simp only [reading, ht]
      by_cases hdue : operandDue before = true
      · obtain ⟨hminus, hplus⟩ := hsign hdue
        rw [beq_eq_false_iff_ne.2 hminus, beq_eq_false_iff_ne.2 hplus, Bool.and_false]
        rfl
      · rw [Bool.eq_false_iff.2 hdue, Bool.false_and, Bool.false_and]
        rfl
    rw [hread]
    refine (held_cons (Token.isOpen_of_kind (by simp [ht]))).trans ?_
    exact hpops.held_perm.cons t
  | comma ht hpops =>
    simp only [reading, ht]
    exact hpops.held_perm
  | opening ht =>
    simp only [reading, Token.kind_of_isOpen ht]
    rw [held_cons_open ht]
    rfl
  | closing ht hpops htop =>
    simp only [reading, Token.kind_of_closes ht]
    have hperm := hpops.held_perm
    rw [held_cons_open htop] at hperm
    exact hperm
  | call ht hpops htop hname =>
    simp only [reading, Token.kind_of_closes ht]
    have hperm := hpops.held_perm
    rw [held_cons_open htop] at hperm
    exact (held_cons (Token.isOpen_of_kind (by simp [hname]))).symm.trans hperm

/-- The numbers are written in order. -/
theorem Transition.numbers_eq (h : Transition y t y') (hy : Stands before y) :
    y'.output.filter isNumber = ([t].filter isNumber).reverse ++ y.output.filter isNumber := by
  have hother : ∀ {u : Token} {us : List Token}, u.kind ≠ .number →
      (u :: us).filter isNumber = us.filter isNumber := by
    intro u us hu
    exact List.filter_cons_of_neg fun h => hu (eq_of_beq h)
  cases h with
  | number ht =>
    have hnumber : isNumber t = true := beq_iff_eq.2 ht
    rw [List.filter_cons_of_pos hnumber, List.filter_cons_of_pos hnumber]
    rfl
  | function ht =>
    rw [hother (by simp [ht])]
    rfl
  | minus ht =>
    rw [hother (by simp [ht])]
    rfl
  | plus ht =>
    rw [hother (by simp [ht])]
    rfl
  | operator ht _ hpops =>
    rw [hother (by simp [ht])]
    exact hpops.numbers_eq hy
  | comma ht hpops =>
    rw [hother (by simp [ht])]
    exact hpops.numbers_eq hy
  | opening ht =>
    rw [hother (by simp [Token.kind_of_isOpen ht])]
    rfl
  | closing ht hpops =>
    rw [hother (by simp [Token.kind_of_closes ht])]
    exact hpops.numbers_eq hy
  | call ht hpops _ hname =>
    have ht' : t.kind ≠ .number := by simp [Token.kind_of_closes ht]
    rw [hother ht', hother (by simp [hname])]
    exact hpops.numbers_eq hy

/-- The groups that wait are those that are open. -/
theorem Transition.balances_iff (h : Transition y t y') (rest : List Token) :
    Balances y.groups (t :: rest) ↔ Balances y'.groups rest := by
  cases h with
  | number ht => exact balances_cons_other (by simp [ht])
  | function ht =>
    have hkind : t.kind ≠ .parenthesis := by simp [ht]
    rw [balances_cons_other hkind, groups_cons (Token.isOpen_of_kind hkind)]
    rfl
  | minus ht =>
    have hkind : t.kind ≠ .parenthesis := by simp [ht]
    have hopen : Token.isOpen { t with value := negation } = false := Token.isOpen_of_kind hkind
    rw [balances_cons_other hkind, groups_cons hopen]
  | plus ht => exact balances_cons_other (by simp [ht])
  | operator ht _ hpops =>
    have hkind : t.kind ≠ .parenthesis := by simp [ht]
    rw [balances_cons_other hkind, groups_cons (Token.isOpen_of_kind hkind), ← hpops.groups_eq]
    rfl
  | comma ht hpops =>
    rw [balances_cons_other (by simp [ht]), ← hpops.groups_eq]
    rfl
  | opening ht =>
    rw [balances_cons_open ht, groups_cons_open ht]
    rfl
  | closing ht hpops htop =>
    rw [balances_cons_close ht, ← hpops.groups_eq, groups_cons_open htop]
    simp only [Nat.add_right_cancel_iff, exists_eq_left']
    rfl
  | @call _ _ _ _ name _ ht hpops htop hname =>
    have hkind : name.isOpen = false := Token.isOpen_of_kind (by simp [hname])
    rw [balances_cons_close ht, ← hpops.groups_eq, groups_cons_open htop, groups_cons hkind]
    simp only [Nat.add_right_cancel_iff, exists_eq_left']
    rfl

/-- A token that is no comma is read unless it ends a group where none is open. -/
theorem exists_step {rest : List Token} (ht : t.kind = .number ∨ t.kind = .operator ∨
    t.kind = .function ∨ t.kind = .parenthesis) (hrest : Balances y.groups (t :: rest)) :
    ∃ y', y.step t = .ok y' := by
  unfold step
  obtain ht | ht | ht | ht := ht <;> rw [ht] <;> dsimp only
  · exact ⟨_, rfl⟩
  · split
    · exact ⟨_, rfl⟩
    · split <;> exact ⟨_, rfl⟩
  · exact ⟨_, rfl⟩
  · split
    · exact ⟨_, rfl⟩
    · rename_i hopen
      have hclose : t.closes = true := by
        simp only [Token.closes, Token.isOpen, ht, beq_self_eq_true, Bool.true_and, hopen,
          Bool.not_eq_true']
      obtain ⟨n, hgroups, -⟩ := (balances_cons_close hclose).1 hrest
      have hpos : 0 < y.waiting.countP Token.isOpen := by
        change 0 < y.groups
        omega
      obtain ⟨⟨output, waiting⟩, hflush⟩ := exists_flush hpos y.output
      rw [hflush]
      simp only [bind, Except.bind]
      split
      · split <;> exact ⟨_, rfl⟩
      · exact ⟨_, rfl⟩

end

/-! ## Reading a row -/

section
variable {before : Option Token} {y y' : Yard} {ts : List Token}

/-- What a row reads as is written or waits, its numbers are written in order, and the groups that
wait are those that are open. -/
theorem run_spec (hy : Stands before y) (h : ts.foldlM step y = .ok y') :
    (∃ before', Stands before' y') ∧ y'.held.Perm (readings before ts ++ y.held) ∧
      y'.output.filter isNumber = (ts.filter isNumber).reverse ++ y.output.filter isNumber ∧
      (Balances y.groups ts ↔ y'.groups = 0) := by
  induction ts generalizing before y with
  | nil =>
    obtain rfl : y = y' := Except.ok.inj h
    exact ⟨⟨before, hy⟩, .rfl, rfl, balances_nil⟩
  | cons t ts ih =>
    rw [List.foldlM_cons] at h
    obtain ⟨z, hstep, hrun⟩ := ok_of_bind h
    have ht := transition_of_step hstep
    obtain ⟨hstands, hheld, hnumbers, hgroups⟩ := ih (ht.stands hy) hrun
    refine ⟨hstands, ?_, ?_, (ht.balances_iff ts).trans hgroups⟩
    · refine hheld.trans (((ht.held_perm hy).append_left _).trans ?_)
      rw [readings, List.append_assoc, ← List.append_assoc, ← List.append_assoc]
      exact List.perm_append_comm.append_right _
    · have hcons : (t :: ts).filter isNumber = [t].filter isNumber ++ ts.filter isNumber :=
        List.filter_append [t] ts
      rw [hnumbers, ht.numbers_eq hy, hcons, List.reverse_append, List.append_assoc]

/-- A row without commas is read if its groups match. -/
theorem exists_run (hts : ∀ t ∈ ts, t.kind = .number ∨ t.kind = .operator ∨ t.kind = .function ∨
    t.kind = .parenthesis) (hbalances : Balances y.groups ts) :
    ∃ y', ts.foldlM step y = .ok y' := by
  induction ts generalizing y with
  | nil => exact ⟨y, rfl⟩
  | cons t ts ih =>
    obtain ⟨ht, hts⟩ := List.forall_mem_cons.1 hts
    obtain ⟨z, hstep⟩ := exists_step ht hbalances
    have hrest := ((transition_of_step hstep).balances_iff ts).1 hbalances
    obtain ⟨y', hrun⟩ := ih hts hrest
    refine ⟨y', ?_⟩
    rw [List.foldlM_cons, hstep]
    exact hrun

end

end Yard

/-- **Conversion keeps the tokens.** The result has the numbers of the row in order, all it reads as
in some order, and no parenthesis or comma, and the groups of the row match; and every row without
commas whose groups match is converted. -/
theorem toPostfix_tokens (ts : List Token) :
    (∀ out, toPostfix ts = .ok out →
      out.filter isNumber = ts.filter isNumber ∧ out.Perm (readings none ts) ∧
      (∀ t ∈ out, t.kind ≠ .parenthesis ∧ t.kind ≠ .comma) ∧ Balances 0 ts) ∧
    ((∀ t ∈ ts, t.kind = .number ∨ t.kind = .operator ∨ t.kind = .function ∨
      t.kind = .parenthesis) → Balances 0 ts → ∃ out, toPostfix ts = .ok out) := by
  refine ⟨fun out h => ?_, fun hts hbalances => ?_⟩
  · obtain ⟨y, hrun, hfinish⟩ := ok_of_bind h
    obtain ⟨⟨before, hstands⟩, hheld, hnumbers, hgroups⟩ := Yard.run_spec .start hrun
    have hpops := Yard.pops_drain y.expectOperand hfinish
    refine ⟨?_, ?_, ?_, ?_⟩
    · have hwritten := hpops.numbers_eq hstands
      rw [hnumbers, List.filter_nil, List.append_nil] at hwritten
      rw [← List.reverse_reverse out, List.filter_reverse, hwritten, List.reverse_reverse]
    · have hwritten := hpops.held_perm.trans hheld
      simp only [Yard.held, List.filter_nil, List.append_nil] at hwritten
      exact (List.reverse_perm out).symm.trans hwritten
    · intro t ht
      have hkind := (hpops.stands hstands).output t (List.mem_reverse.2 ht)
      obtain hkind | hkind | hkind := hkind <;> rw [hkind] <;> decide
    · exact hgroups.2 hpops.groups_eq.symm
  · obtain ⟨y, hrun⟩ := Yard.exists_run (y := {}) hts hbalances
    obtain ⟨⟨before, hstands⟩, -, -, hgroups⟩ := Yard.run_spec .start hrun
    have hclosed : ∀ u ∈ y.waiting, u.kind ≠ .parenthesis := by
      intro u hu
      have hopen := List.countP_eq_zero.1 (hgroups.1 hbalances) u hu
      obtain hkind | hkind | hkind := hstands.waiting u hu
      · rw [hkind]
        decide
      · rw [hkind]
        decide
      · exact absurd hkind hopen
    obtain ⟨out, hout⟩ := Yard.exists_drain hclosed y.output
    refine ⟨out, ?_⟩
    unfold toPostfix
    rw [hrun]
    exact hout

/-- A sign before a group becomes the operator that waits for it. -/
theorem toPostfix_tokens_sign : ∃ out,
    toPostfix [⟨.operator, "-", 0⟩, ⟨.parenthesis, "(", 1⟩, ⟨.number, "2", 2⟩,
      ⟨.parenthesis, ")", 3⟩] = .ok out ∧
    out.Perm [⟨.operator, negation, 0⟩, ⟨.number, "2", 2⟩] := by
  obtain ⟨hkeeps, hconverts⟩ := toPostfix_tokens [⟨.operator, "-", 0⟩, ⟨.parenthesis, "(", 1⟩,
    ⟨.number, "2", 2⟩, ⟨.parenthesis, ")", 3⟩]
  obtain ⟨out, hout⟩ := hconverts (by decide) (by decide)
  exact ⟨out, hout, (hkeeps out hout).2.1⟩

end Reckoner.Arithmetic
