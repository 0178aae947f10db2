/-
  How many values lie on the stack of an infix expression.

  * `Counts`: what the operators of a language do to the number of values;
  * `due`, `groups`: the values that what waits takes away, and the groups that are open;
  * `release_ok`, `closeFrom_ok`, `finishFrom_ok`: applying what waits keeps the difference of the
    two numbers, and `release_error`, `closeFrom_error`, `finishFrom_error`: with enough values it
    fails for what the values are alone;
  * `Turn`, `Turn.tally`, `Turns.tally`: reading tokens adds a value for each operand, one to come
    for each operator, and a group for each parenthesis;
  * `Turns.finish`: **an expression that comes to a value has one operand more than operators, and
    its groups match**;
  * `Keeps`: where operands and operators alternate there are always enough values;
  * `Counts.judges`: how an evaluator judges a row that it reads in turn.
-/
import Reckoner.Proofs.Logic.Alternation
import Reckoner.Logic.Infix
import Reckoner.Proofs.Success

namespace Reckoner.Logic.Infix

open Expression (logicRules Derives Progress Step Steps)

variable {ω ν : Type}

/-- Operators that may wait take `drop` values away, and with more than these they fail for what
the values are alone. -/
structure Counts (rules : Rules ω ν) (MayWait : ω → Prop) (drop : ω → Nat)
    (Late : Failure → Prop) : Prop where
  ok : ∀ {op values values'}, MayWait op → rules.apply op values = .ok values' →
    values.length = values'.length + drop op
  error : ∀ {op values f}, MayWait op → rules.apply op values = .error f →
    drop op < values.length → Late f

/-- The number of values that operators take away. -/
def due (drop : ω → Nat) : List (Option ω) → Nat
  | [] => 0
  | some op :: waiting => drop op + due drop waiting
  | none :: waiting => due drop waiting

/-- The number of open groups. -/
def groups (waiting : List (Option ω)) : Nat := waiting.countP Option.isNone

/-- Nothing waits that may not. -/
def Waits (MayWait : ω → Prop) (waiting : List (Option ω)) : Prop :=
  ∀ op, some op ∈ waiting → MayWait op

variable {rules : Rules ω ν} {MayWait : ω → Prop} {drop : ω → Nat} {Late : Failure → Prop}

section
variable {op : ω} {waiting : List (Option ω)}

theorem due_some : due drop (some op :: waiting) = drop op + due drop waiting := rfl

theorem groups_some : groups (some op :: waiting) = groups waiting :=
  List.countP_cons_of_neg Bool.false_ne_true

theorem due_prefixed {e : Infix ω ν} :
    due drop (e.prefixed op).waiting = drop op + due drop e.waiting := rfl

theorem groups_prefixed {e : Infix ω ν} : groups (e.prefixed op).waiting = groups e.waiting :=
  groups_some

theorem groups_none : groups (none :: waiting) = groups waiting + 1 :=
  List.countP_cons_of_pos rfl

theorem Waits.nil : Waits MayWait [] := nofun

theorem Waits.some (hop : MayWait op) (h : Waits MayWait waiting) :
    Waits MayWait (some op :: waiting) := by
  rintro op' (_ | ⟨_, hop'⟩)
  · exact hop
  · exact h op' hop'

theorem Waits.none (h : Waits MayWait waiting) : Waits MayWait (none :: waiting) := by
  rintro op' (_ | ⟨_, hop'⟩)
  exact h op' hop'

theorem Waits.head (h : Waits MayWait (.some op :: waiting)) : MayWait op :=
  h op List.mem_cons_self

theorem Waits.tail {top : Option ω} (h : Waits MayWait (top :: waiting)) :
    Waits MayWait waiting :=
  fun op' hop' => h op' (List.mem_cons_of_mem _ hop')

end

/-! ## Applying what waits -/

section
variable {values : List ν} {waiting : List (Option ω)} {e : Infix ω ν} {v : ν} {level : Nat}
  {f : Failure} (hcounts : Counts rules MayWait drop Late) (hwaits : Waits MayWait waiting)
include hcounts hwaits

theorem release_ok (h : release rules level values waiting = .ok e) :
    Waits MayWait e.waiting ∧
      e.values.length + due drop waiting = values.length + due drop e.waiting ∧
      groups e.waiting = groups waiting := by
  induction waiting generalizing values with
  | nil =>
    obtain rfl := Except.ok.inj h
    exact ⟨hwaits, rfl, rfl⟩
  | cons top waiting ih =>
    cases top with
    | none =>
      obtain rfl := Except.ok.inj h
      exact ⟨hwaits, rfl, rfl⟩
    | some op =>
      unfold release at h
      split at h
      · obtain ⟨values', happly, h⟩ := ok_of_bind h
        obtain ⟨hwaits', hlength, hgroups⟩ := ih hwaits.tail h
        have hdrop := hcounts.ok hwaits.head happly
        refine ⟨hwaits', ?_, hgroups.trans groups_some.symm⟩
        rw [due_some]
        omega
      · obtain rfl := Except.ok.inj h
        exact ⟨hwaits, rfl, rfl⟩

theorem release_error (h : release rules level values waiting = .error f)
    (henough : due drop waiting < values.length) : Late f := by
  induction waiting generalizing values with
  | nil => cases h
  | cons top waiting ih =>
    cases top with
    | none => cases h
    | some op =>
      rw [due_some] at henough
      unfold release at h
      split at h
      · obtain hop | ⟨values', happly, h⟩ := error_of_bind h
        · exact hcounts.error hwaits.head hop (by omega)
        · have hdrop := hcounts.ok hwaits.head happly
          exact ih hwaits.tail h (by omega)
      · cases h

theorem closeFrom_ok (h : closeFrom rules values waiting = .ok e) :
    Waits MayWait e.waiting ∧
      e.values.length + due drop waiting = values.length + due drop e.waiting ∧
      groups waiting = groups e.waiting + 1 := by
  induction waiting generalizing values with
  | nil => cases h
  | cons top waiting ih =>
    cases top with
    | none =>
      obtain rfl := Except.ok.inj h
      exact ⟨hwaits.tail, rfl, groups_none⟩
    | some op =>
      obtain ⟨values', happly, h⟩ := ok_of_bind h
      obtain ⟨hwaits', hlength, hgroups⟩ := ih hwaits.tail h
      have hdrop := hcounts.ok hwaits.head happly
      refine ⟨hwaits', ?_, groups_some.trans hgroups⟩
      rw [due_some]
      omega

theorem closeFrom_error (h : closeFrom rules values waiting = .error f)
    (henough : due drop waiting < values.length) (hopen : 0 < groups waiting) : Late f := by
  induction waiting generalizing values with
  | nil => exact absurd hopen (Nat.lt_irrefl 0)
  | cons top waiting ih =>
    cases top with
    | none => cases h
    | some op =>
      rw [due_some] at henough
      rw [groups_some] at hopen
      obtain hop | ⟨values', happly, h⟩ := error_of_bind h
      · exact hcounts.error hwaits.head hop (by omega)
      · have hdrop := hcounts.ok hwaits.head happly
        exact ih hwaits.tail h (by omega) hopen

theorem finishFrom_ok (h : finishFrom rules values waiting = .ok v) :
    values.length = due drop waiting + 1 ∧ groups waiting = 0 := by
  induction waiting generalizing values with
  | nil =>
    unfold finishFrom at h
    split at h
    · exact ⟨rfl, rfl⟩
    · cases h
  | cons top waiting ih =>
    cases top with
    | none => cases h
    | some op =>
      obtain ⟨values', happly, h⟩ := ok_of_bind h
      obtain ⟨hlength, hgroups⟩ := ih hwaits.tail h
      have hdrop := hcounts.ok hwaits.head happly
      refine ⟨?_, groups_some.trans hgroups⟩
      rw [due_some]
      omega

theorem finishFrom_error (h : finishFrom rules values waiting = .error f)
    (hlength : values.length = due drop waiting + 1) (hclosed : groups waiting = 0) : Late f := by
  induction waiting generalizing values with
  | nil =>
    obtain ⟨v, rfl⟩ := List.length_eq_one_iff.1 hlength
    cases h
  | cons top waiting ih =>
    cases top with
    | none =>
      rw [groups_none] at hclosed
      cases hclosed
    | some op =>
      rw [due_some] at hlength
      rw [groups_some] at hclosed
      obtain hop | ⟨values', happly, h⟩ := error_of_bind h
      · exact hcounts.error hwaits.head hop (by omega)
      · have hdrop := hcounts.ok hwaits.head happly
        exact ih hwaits.tail h (by omega) hclosed

end

/-! ## Reading tokens -/

/-- What reading one token can do to an expression under way. A prefix waits, or it is kept in mind
elsewhere; when a group is closed, its value may give way to another. -/
inductive Turn (rules : Rules ω ν) (MayWait : ω → Prop) (drop : ω → Nat) (e : Infix ω ν)
    (t : Token) : Infix ω ν → Prop
  | value {v : ν} : isValue t = true → Turn rules MayWait drop e t (e.value v)
  | open_ : t.isOpen = true → Turn rules MayWait drop e t e.open_
  | prefixed {op : ω} : isPrefix t = true → MayWait op → drop op = 0 →
      Turn rules MayWait drop e t (e.prefixed op)
  | sign : isPrefix t = true → Turn rules MayWait drop e t e
  | operator {op : ω} {e' : Infix ω ν} : isBinary t = true → MayWait op → drop op = 1 →
      e.operator rules op = .ok e' → Turn rules MayWait drop e t e'
  | close {e' : Infix ω ν} {values : List ν} : t.isClose = true → e.close rules = .ok e' →
      values.length = e'.values.length → Turn rules MayWait drop e t ⟨values, e'.waiting⟩

/-- What reading a row of tokens can do. -/
inductive Turns (rules : Rules ω ν) (MayWait : ω → Prop) (drop : ω → Nat) :
    Infix ω ν → List Token → Infix ω ν → Prop
  | nil {e : Infix ω ν} : Turns rules MayWait drop e [] e
  | cons {e e' e'' : Infix ω ν} {t : Token} {ts : List Token} : Turn rules MayWait drop e t e' →
      Turns rules MayWait drop e' ts e'' → Turns rules MayWait drop e (t :: ts) e''

section
variable {e e' : Infix ω ν} {t : Token} {ts : List Token} {v : ν}

theorem Turn.part (h : Turn rules MayWait drop e t e') : IsPart t := by
  cases h with
  | value ht => exact .value ht
  | open_ ht => exact .opening ht
  | prefixed ht => exact .sign ht
  | sign ht => exact .sign ht
  | operator ht => exact .binary ht
  | close ht => exact .closing ht

/-- An operand adds a value, an operator one that is to come, and a parenthesis opens or closes a
group. -/
theorem Turn.tally (hcounts : Counts rules MayWait drop Late)
    (hwaits : Waits MayWait e.waiting) (h : Turn rules MayWait drop e t e') :
    Waits MayWait e'.waiting ∧
      e'.values.length + due drop e.waiting + (isBinary t).toNat =
        e.values.length + due drop e'.waiting + (isValue t).toNat ∧
      groups e'.waiting + (if t.closes then 1 else 0) =
        groups e.waiting + if t.isOpen then 1 else 0 := by
  cases h with
  | value ht =>
    have hrole := role_of_value ht
    rw [hrole.binary, hrole.value, hrole.closes, hrole.opening]
    refine ⟨hwaits, ?_, rfl⟩
    simp only [Infix.value, List.length_cons, Bool.toNat_true, Bool.toNat_false]
    omega
  | open_ ht =>
    have hrole := role_of_open ht
    rw [hrole.binary, hrole.value, hrole.closes, hrole.opening]
    exact ⟨hwaits.none, rfl, groups_none⟩
  | prefixed ht hop hdrop =>
    have hrole := role_of_sign ht
    rw [hrole.binary, hrole.value, hrole.closes, hrole.opening, due_prefixed, groups_prefixed,
      hdrop, Nat.zero_add]
    exact ⟨hwaits.some hop, rfl, rfl⟩
  | sign ht =>
    have hrole := role_of_sign ht
    rw [hrole.binary, hrole.value, hrole.closes, hrole.opening]
    exact ⟨hwaits, rfl, rfl⟩
  | operator ht hop hdrop hoperator =>
    have hrole := role_of_binary ht
    rw [hrole.binary, hrole.value, hrole.closes, hrole.opening]
    obtain ⟨e'', hrelease, h⟩ := ok_of_bind hoperator
    obtain rfl := Except.ok.inj h
    obtain ⟨hwaits', hlength, hgroups⟩ := release_ok hcounts hwaits hrelease
    rw [due_prefixed, groups_prefixed, hdrop, hgroups]
    refine ⟨hwaits'.some hop, ?_, rfl⟩
    simp only [Infix.prefixed, Bool.toNat_true, Bool.toNat_false]
    omega
  | close ht hclose hvalues =>
    have hrole := role_of_close ht
    rw [hrole.binary, hrole.value, hrole.closes, hrole.opening]
    obtain ⟨hwaits', hlength, hgroups⟩ := closeFrom_ok hcounts hwaits hclose
    refine ⟨hwaits', ?_, hgroups.symm⟩
    dsimp only
    rw [hvalues]
    exact congrArg (· + 0) hlength

theorem Turns.tally (hcounts : Counts rules MayWait drop Late)
    (hwaits : Waits MayWait e.waiting) (h : Turns rules MayWait drop e ts e') :
    Waits MayWait e'.waiting ∧ (∀ t ∈ ts, IsPart t) ∧
      e'.values.length + due drop e.waiting + ts.countP isBinary =
        e.values.length + due drop e'.waiting + ts.countP isValue ∧
      (Balances (groups e.waiting) ts ↔ groups e'.waiting = 0) := by
  induction h with
  | nil => exact ⟨hwaits, nofun, rfl, balances_nil⟩
  | @cons e e' e'' t ts hturn _ ih =>
    obtain ⟨hwaits', hcount, hgroups⟩ := hturn.tally hcounts hwaits
    obtain ⟨hwaits'', hparts, hcounts', hbalances⟩ := ih hwaits'
    refine ⟨hwaits'', List.forall_mem_cons.2 ⟨hturn.part, hparts⟩, ?_, ?_⟩
    · rw [countP_cons_toNat, countP_cons_toNat]
      omega
    · rw [← hbalances, balances_cons]
      constructor
      · rintro ⟨rest, hrest, hts⟩
        obtain rfl : rest = groups e'.waiting := by omega
        exact hts
      · exact fun hts => ⟨_, hgroups, hts⟩

theorem Turns.append {e'' : Infix ω ν} {us : List Token} (h : Turns rules MayWait drop e ts e')
    (h' : Turns rules MayWait drop e' us e'') : Turns rules MayWait drop e (ts ++ us) e'' := by
  induction h with
  | nil => exact h'
  | cons hturn _ ih => exact .cons hturn (ih h')

/-- **An expression that comes to a value has one operand more than operators, and its groups
match.** -/
theorem Turns.finish (hcounts : Counts rules MayWait drop Late)
    (h : Turns rules MayWait drop {} ts e) (hfinish : e.finish rules = .ok v) :
    (∀ t ∈ ts, IsPart t) ∧ Balances 0 ts ∧ ts.countP isValue = ts.countP isBinary + 1 := by
  obtain ⟨hwaits, hparts, hcount, hgroups⟩ := h.tally hcounts .nil
  obtain ⟨hlength, hclosed⟩ := finishFrom_ok hcounts hwaits hfinish
  refine ⟨hparts, hgroups.2 hclosed, ?_⟩
  simp only [due, List.length_nil] at hcount
  omega

end

/-! ## Alternating rows -/

/-- The values are as many as operators wait for, and one more after an operand. -/
structure Keeps (MayWait : ω → Prop) (drop : ω → Nat) (p : Progress) (e : Infix ω ν) : Prop where
  waits : Waits MayWait e.waiting
  values : e.values.length = due drop e.waiting + (!p.expectOperand).toNat
  groups : groups e.waiting = p.depth

section
variable {p q : Progress} {e e' : Infix ω ν} {t : Token} {op : ω} {f : Failure}

theorem Keeps.start : Keeps MayWait drop {} ({} : Infix ω ν) := ⟨.nil, rfl, rfl⟩

theorem Keeps.turn (hcounts : Counts rules MayWait drop Late) (h : Keeps MayWait drop p e)
    (hstep : Step logicRules p t q) (hturn : Turn rules MayWait drop e t e') :
    Keeps MayWait drop q e' := by
  obtain ⟨hpart, hdue, hnext, hdepth, -⟩ := step_iff.1 hstep
  obtain ⟨hwaits, hcount, hgroups⟩ := hturn.tally hcounts h.waits
  have htally := hpart.tally
  have hvalues := h.values
  have hopen := h.groups
  refine ⟨hwaits, ?_, by omega⟩
  rw [hdue] at hvalues
  rw [hnext, Bool.not_not]
  have hnot : ∀ b : Bool, (!b).toNat + b.toNat = 1 := by decide
  have hstarts := hnot (startsOperand t)
  have hends := hnot (endsOperand t)
  omega

theorem Keeps.turns {ts : List Token} (hcounts : Counts rules MayWait drop Late)
    (h : Keeps MayWait drop p e) (hsteps : Steps logicRules p ts q)
    (hturns : Turns rules MayWait drop e ts e') : Keeps MayWait drop q e' := by
  induction hturns generalizing p with
  | nil =>
    cases hsteps
    exact h
  | cons hturn _ ih =>
    cases hsteps with
    | cons hstep hsteps => exact ih (h.turn hcounts hstep hturn) hsteps

theorem Keeps.enough (h : Keeps MayWait drop p e) (hexpect : p.expectOperand = false) :
    due drop e.waiting < e.values.length := by
  rw [h.values, hexpect]
  exact Nat.lt_succ_self _

variable (hcounts : Counts rules MayWait drop Late) (h : Keeps MayWait drop p e)
include hcounts h

theorem Keeps.operator_error (hexpect : p.expectOperand = false)
    (hoperator : e.operator rules op = .error f) : Late f := by
  obtain hrelease | ⟨_, _, h'⟩ := error_of_bind hoperator
  · exact release_error hcounts h.waits hrelease (h.enough hexpect)
  · cases h'

theorem Keeps.close_error (hexpect : p.expectOperand = false) (hdepth : 0 < p.depth)
    (hclose : e.close rules = .error f) : Late f :=
  closeFrom_error hcounts h.waits hclose (h.enough hexpect) (h.groups ▸ hdepth)

theorem Keeps.finish_error (hcomplete : p.isComplete = true)
    (hfinish : e.finish rules = .error f) : Late f := by
  rw [Progress.isComplete, Bool.and_eq_true, beq_iff_eq, Bool.not_eq_true'] at hcomplete
  refine finishFrom_error hcounts h.waits hfinish ?_ (h.groups.trans hcomplete.1)
  rw [h.values, hcomplete.2]
  rfl

end

/-! ## Judging -/

/-- An evaluator that reads a row token by token judges it so, if it fails on well-formed rows for
what their values are alone and takes no others for expressions. -/
theorem Counts.judges {σ : Type} {row : List Token} {wellFormed : Prop}
    {read : Except Failure σ} {expr : σ → Infix ω ν} (hcounts : Counts rules MayWait drop Late)
    (hderives : wellFormed → Derives logicRules .expression row)
    (hok : ∀ s, read = .ok s → Turns rules MayWait drop {} row (expr s) ∧
      (Derives logicRules .expression row → wellFormed))
    (herror : wellFormed → ∀ f, read = .error f → Late f) :
    Judges (do (expr (← read)).finish rules) row wellFormed Late := by
  have hvalue : ∀ v, (do (expr (← read)).finish rules) = Except.ok v →
      (Derives logicRules .expression row → wellFormed) ∧ (∀ t ∈ row, IsPart t) ∧
        Balances 0 row ∧ row.countP isValue = row.countP isBinary + 1 := by
    intro v h
    obtain ⟨s, hread, hfinish⟩ := ok_of_bind h
    obtain ⟨hturns, hwell⟩ := hok s hread
    exact ⟨hwell, hturns.finish hcounts hfinish⟩
  refine ⟨fun hwell f h => ?_, fun v h => (hvalue v h).2.2.1, fun v h => (hvalue v h).2.2.2,
    fun v h => ?_⟩
  · obtain hread | ⟨s, hread, hfinish⟩ := error_of_bind h
    · exact herror hwell f hread
    · obtain ⟨q, hsteps, hcomplete⟩ := derives_iff_steps.1 (hderives hwell)
      have hkeeps := Keeps.start.turns hcounts hsteps (hok s hread).1
      exact hkeeps.finish_error hcounts hcomplete hfinish
  · obtain ⟨hwell, hparts, hgroups, hcount⟩ := hvalue v h
    rw [← derives_iff_separated hparts hgroups hcount]
    exact ⟨hderives, hwell⟩

end Reckoner.Logic.Infix
