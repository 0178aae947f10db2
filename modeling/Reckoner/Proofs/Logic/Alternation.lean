/-
  Rows in which operands and operators alternate.

  * `startsOperand`, `endsOperand`: what an operand can start and end with;
  * `Separated`: no operand stands directly after another;
  * `step_iff`: by the rules of logic, an operand starts exactly where one is due, and after its
    end none is;
  * `steps_of_count`: **a row without neighbouring operands, with one operand more than operators
    and with matching groups is an expression**: each token out of place is an operand too few,
    and only neighbouring operands could make up for it;
  * `derives_iff_separated`: so, of the rows with these counts, the expressions are the separated
    ones;
  * `Judges`: how an evaluator judges a row.
-/
import Mathlib.Data.List.Chain
import Reckoner.Proofs.Balance
import Reckoner.Proofs.Expression.Validate

namespace Reckoner.Logic

open Expression (logicRules Derives Progress Step Steps Viable)

/-! ## Tokens -/

theorem countP_cons_toNat {α : Type} (p : α → Bool) (a : α) (as : List α) :
    (a :: as).countP p = as.countP p + (p a).toNat := by
  rw [List.countP_cons]
  cases p a <;> rfl

/-- The prefix operators. -/
def prefixes : List String := ["!", "not", "~"]

/-- The token is an operand by itself. -/
def isValue (t : Token) : Bool := t.kind == .number || t.kind == .keyword

/-- The token is an operator before an operand. -/
def isPrefix (t : Token) : Bool := t.kind == .operator && prefixes.contains t.value

/-- The token is an operator between two operands. -/
def isBinary (t : Token) : Bool := t.kind == .operator && !prefixes.contains t.value

/-- An operand can start with the token. -/
def startsOperand (t : Token) : Bool := isValue t || isPrefix t || t.isOpen

/-- An operand can end with the token. -/
def endsOperand (t : Token) : Bool := isValue t || t.isClose

/-- Expressions can have the token. -/
inductive IsPart (t : Token) : Prop
  | value : isValue t = true → IsPart t
  | sign : isPrefix t = true → IsPart t
  | binary : isBinary t = true → IsPart t
  | opening : t.isOpen = true → IsPart t
  | closing : t.isClose = true → IsPart t

/-- No operand stands directly after another. -/
def Separated (ts : List Token) : Prop :=
  ts.IsChain fun s t => ¬ (endsOperand s = true ∧ startsOperand t = true)

instance (ts : List Token) : Decidable (Separated ts) :=
  inferInstanceAs (Decidable (List.IsChain _ ts))

/-- Whether the token is a value, a prefix or an operator, and whether it opens or closes a
group. -/
structure Role (t : Token) (v p b o c : Bool) : Prop where
  value : isValue t = v
  sign : isPrefix t = p
  binary : isBinary t = b
  opening : t.isOpen = o
  closing : t.isClose = c
  closes : t.closes = c

section
variable {t : Token}

theorem Role.starts {v p b o c : Bool} (h : Role t v p b o c) : startsOperand t = (v || p || o) := by
  rw [startsOperand, h.value, h.sign, h.opening]

theorem Role.ends {v p b o c : Bool} (h : Role t v p b o c) : endsOperand t = (v || c) := by
  rw [endsOperand, h.value, h.closing]

theorem role_of_value (h : isValue t = true) : Role t true false false false false := by
  have hkind : t.kind = .number ∨ t.kind = .keyword := by
    simpa only [isValue, Bool.or_eq_true, beq_iff_eq] using h
  obtain hkind | hkind := hkind <;> constructor <;>
    simp [isValue, isPrefix, isBinary, Token.closes, Token.isOpen, Token.isClose, hkind]

theorem role_of_sign (h : isPrefix t = true) : Role t false true false false false := by
  rw [isPrefix, Bool.and_eq_true, beq_iff_eq] at h
  obtain ⟨hkind, hvalue⟩ := h
  constructor <;>
    simp only [isValue, isPrefix, isBinary, Token.closes, Token.isOpen, Token.isClose, hkind,
      hvalue] <;> rfl

theorem role_of_binary (h : isBinary t = true) : Role t false false true false false := by
  rw [isBinary, Bool.and_eq_true, beq_iff_eq, Bool.not_eq_true'] at h
  obtain ⟨hkind, hvalue⟩ := h
  constructor <;>
    simp only [isValue, isPrefix, isBinary, Token.closes, Token.isOpen, Token.isClose, hkind,
      hvalue] <;> rfl

theorem role_of_open (h : t.isOpen = true) : Role t false false false true false := by
  obtain ⟨hkind, hclose⟩ := Expression.isOpen_kind h
  constructor <;> simp [isValue, isPrefix, isBinary, Token.closes, hkind, hclose, h]

theorem role_of_close (h : t.isClose = true) : Role t false false false false true := by
  obtain ⟨hkind, hopen⟩ := Expression.isClose_kind h
  constructor <;> simp [isValue, isPrefix, isBinary, Token.closes, hkind, hopen, h]

theorem IsPart.kind_ne (h : IsPart t) : t.kind ≠ .unknown := by
  intro hkind
  cases h with
  | value h => simp [isValue, hkind] at h
  | sign h => simp [isPrefix, hkind] at h
  | binary h => simp [isBinary, hkind] at h
  | opening h => simp [Token.isOpen, hkind] at h
  | closing h => simp [Token.isClose, hkind] at h

/-- A token is one operand more or one operator more, or it leaves things as they are. -/
theorem IsPart.tally (h : IsPart t) :
    (startsOperand t).toNat + (isBinary t).toNat = (!endsOperand t).toNat + (isValue t).toNat := by
  have hrole : ∀ {v p b o c : Bool}, Role t v p b o c →
      (v || p || o).toNat + b.toNat = (!(v || c)).toNat + v.toNat →
      (startsOperand t).toNat + (isBinary t).toNat =
        (!endsOperand t).toNat + (isValue t).toNat := by
    intro v p b o c h hsum
    rw [h.starts, h.ends, h.binary, h.value, hsum]
  cases h with
  | value h => exact hrole (role_of_value h) rfl
  | sign h => exact hrole (role_of_sign h) rfl
  | binary h => exact hrole (role_of_binary h) rfl
  | opening h => exact hrole (role_of_open h) rfl
  | closing h => exact hrole (role_of_close h) rfl

end

/-! ## Steps -/

section
variable {p q : Progress} {t : Token} {ts : List Token}

theorem isOperand_iff : logicRules.IsOperand t ↔ isValue t = true := by
  simp only [logicRules, isValue, Bool.or_eq_true, beq_iff_eq]

theorem isSign_iff : logicRules.IsSign t ↔ isPrefix t = true := by
  simp only [logicRules, isPrefix, prefixes, Bool.and_eq_true, beq_iff_eq, List.contains_iff_mem]

theorem isOperator_iff : logicRules.IsOperator t ↔ isBinary t = true := by
  simp only [logicRules, isBinary, prefixes, Bool.and_eq_true, beq_iff_eq, Bool.not_eq_true',
    List.contains_eq_mem, decide_eq_false_iff_not]

theorem not_calls : ¬ p.Calls logicRules := by
  rintro ⟨_, _, h⟩
  exact h

theorem mayStart_iff : p.MayStart logicRules t ↔ p.expectOperand = true := by
  constructor
  · rintro (h | ⟨_, _, h⟩)
    · exact h
    · exact h.elim
  · exact .inl

/-- An operand starts exactly where one is due, and after its end none is. -/
structure Alternates (p : Progress) (t : Token) (q : Progress) : Prop where
  part : IsPart t
  due : p.expectOperand = startsOperand t
  next : q.expectOperand = !endsOperand t
  depth : q.depth + (if t.closes then 1 else 0) = p.depth + if t.isOpen then 1 else 0
  previous : q.previous = some t

theorem Alternates.of_step (h : Step logicRules p t q) : Alternates p t q := by
  cases h with
  | operand _ ht hstart =>
    have hrole := role_of_value (isOperand_iff.1 ht)
    refine ⟨.value hrole.value, ?_, ?_, ?_, rfl⟩
    · rw [mayStart_iff.1 hstart, hrole.starts, Bool.true_or, Bool.true_or]
    · rw [hrole.ends, Bool.true_or, Bool.not_true]
    · rw [hrole.closes, hrole.opening]
  | function _ hf => exact hf.elim
  | sign _ ht hexpect =>
    have hrole := role_of_sign (isSign_iff.1 ht)
    refine ⟨.sign hrole.sign, ?_, ?_, ?_, rfl⟩
    · rw [hexpect, hrole.starts, Bool.or_true, Bool.true_or]
    · rw [hrole.ends, Bool.or_false, Bool.not_false]
    · rw [hrole.closes, hrole.opening]
  | operator _ ht hexpect =>
    have hrole := role_of_binary (isOperator_iff.1 ht)
    refine ⟨.binary hrole.binary, ?_, ?_, ?_, rfl⟩
    · rw [hexpect, hrole.starts, Bool.or_false, Bool.or_false]
    · rw [hrole.ends, Bool.or_false, Bool.not_false]
    · rw [hrole.closes, hrole.opening]
  | opening ht hstart =>
    have hrole := role_of_open ht
    refine ⟨.opening ht, ?_, ?_, ?_, rfl⟩
    · rw [mayStart_iff.1 hstart, hrole.starts, Bool.or_true]
    · rw [hrole.ends, Bool.or_false, Bool.not_false]
    · rw [hrole.closes, hrole.opening]
      rfl
  | closing _ ht hexpect hdepth =>
    have hrole := role_of_close ht
    refine ⟨.closing ht, ?_, ?_, ?_, rfl⟩
    · rw [hexpect, hrole.starts, Bool.or_false, Bool.or_false]
    · rw [hrole.ends, Bool.or_true, Bool.not_true]
    · rw [hrole.closes, hrole.opening, hdepth]
      rfl
  | comma _ hc => exact hc.elim

theorem Alternates.step (h : Alternates p t q) : Step logicRules p t q := by
  obtain ⟨depth, expect, previous⟩ := q
  obtain ⟨hpart, hdue, hnext, hdepth, hprevious⟩ := h
  dsimp only at hnext hdepth hprevious
  subst hnext hprevious
  cases hpart with
  | value h =>
    have hrole := role_of_value h
    rw [hrole.closes, hrole.opening] at hdepth
    rw [hrole.starts] at hdue
    rw [hrole.ends]
    obtain rfl : depth = p.depth := hdepth
    exact .operand not_calls (isOperand_iff.2 h) (mayStart_iff.2 hdue)
  | sign h =>
    have hrole := role_of_sign h
    rw [hrole.closes, hrole.opening] at hdepth
    rw [hrole.starts] at hdue
    rw [hrole.ends]
    obtain rfl : depth = p.depth := hdepth
    exact .sign not_calls (isSign_iff.2 h) hdue
  | binary h =>
    have hrole := role_of_binary h
    rw [hrole.closes, hrole.opening] at hdepth
    rw [hrole.starts] at hdue
    rw [hrole.ends]
    obtain rfl : depth = p.depth := hdepth
    exact .operator not_calls (isOperator_iff.2 h) hdue
  | opening h =>
    have hrole := role_of_open h
    rw [hrole.closes, hrole.opening] at hdepth
    rw [hrole.starts] at hdue
    rw [hrole.ends]
    obtain rfl : depth = p.depth + 1 := hdepth
    exact .opening h (mayStart_iff.2 hdue)
  | closing h =>
    have hrole := role_of_close h
    rw [hrole.closes, hrole.opening] at hdepth
    rw [hrole.starts] at hdue
    rw [hrole.ends]
    exact .closing not_calls h hdue hdepth.symm

/-- A group is open where one is closed. -/
theorem Alternates.depth_pos (h : Alternates p t q) (ht : t.isClose = true) : 0 < p.depth := by
  have hrole := role_of_close ht
  have hdepth := h.depth
  rw [hrole.closes, hrole.opening] at hdepth
  have hdepth' : q.depth + 1 = p.depth := hdepth
  rw [← hdepth']
  exact Nat.succ_pos _

/-- By the rules of logic operands and operators alternate. -/
theorem step_iff : Step logicRules p t q ↔ Alternates p t q :=
  ⟨.of_step, Alternates.step⟩

theorem split_steps {us : List Token} (h : Steps logicRules p (ts ++ us) q) :
    ∃ r, Steps logicRules p ts r ∧ Steps logicRules r us q := by
  induction ts generalizing p with
  | nil => exact ⟨p, .nil, h⟩
  | cons t ts ih =>
    cases h with
    | cons hstep hsteps =>
      obtain ⟨r, hts, hus⟩ := ih hsteps
      exact ⟨r, .cons hstep hts, hus⟩

/-- A row without neighbouring operands has at most one operand more than operators, none if it
comes after an operand; and where it has as many as that, all its tokens are in place. -/
theorem steps_of_count (hparts : ∀ t ∈ ts, IsPart t) (hgroups : Balances p.depth ts)
    (hfirst : p.expectOperand = false → ∀ t ∈ ts.head?, startsOperand t = false)
    (hseparated : Separated ts) :
    ts.countP isValue ≤ ts.countP isBinary + p.expectOperand.toNat ∧
      (ts.countP isValue = ts.countP isBinary + p.expectOperand.toNat →
        ∃ q, Steps logicRules p ts q ∧ q.isComplete = true) := by
  induction ts generalizing p with
  | nil =>
    refine ⟨Nat.zero_le _, fun hcount => ⟨p, .nil, ?_⟩⟩
    have hdepth := balances_nil.1 hgroups
    cases hexpect : p.expectOperand with
    | true =>
      rw [hexpect] at hcount
      cases hcount
    | false => simp only [Progress.isComplete, hdepth, hexpect, beq_self_eq_true, Bool.not_false,
        Bool.and_self]
  | cons t ts ih =>
    obtain ⟨hpart, hparts⟩ := List.forall_mem_cons.1 hparts
    obtain ⟨depth, hdepth, hrest⟩ := balances_cons.1 hgroups
    obtain ⟨hneighbour, hseparated⟩ := List.isChain_cons.1 hseparated
    obtain ⟨hle, hsteps⟩ := ih (p := ⟨depth, !endsOperand t, some t⟩) hparts hrest
      (fun hend u hu => by
        have hend' : endsOperand t = true := by simpa using hend
        exact Bool.eq_false_iff.2 fun hstart => hneighbour u hu ⟨hend', hstart⟩) hseparated
    have htally := hpart.tally
    have hstart : (startsOperand t).toNat ≤ p.expectOperand.toNat := by
      cases hexpect : p.expectOperand with
      | true => exact Bool.toNat_le _
      | false =>
        rw [hfirst hexpect t rfl]
    rw [countP_cons_toNat, countP_cons_toNat]
    dsimp only at hle hsteps
    refine ⟨by omega, fun hcount => ?_⟩
    obtain ⟨q, hq, hcomplete⟩ := hsteps (by omega)
    have hdue : p.expectOperand = startsOperand t := by
      have heq : (startsOperand t).toNat = p.expectOperand.toNat := by omega
      revert heq
      cases p.expectOperand <;> cases startsOperand t <;> simp
    exact ⟨q, .cons (step_iff.2 ⟨hpart, hdue, rfl, hdepth, rfl⟩) hq, hcomplete⟩

/-- Where operands and operators alternate no operand stands directly after another. -/
theorem separated_of_steps (h : Steps logicRules p ts q) :
    (p.expectOperand = false → ∀ t ∈ ts.head?, startsOperand t = false) ∧ Separated ts := by
  induction h with
  | nil => exact ⟨fun _ => nofun, .nil⟩
  | @cons p t q ts r hstep _ ih =>
    have halt := step_iff.1 hstep
    obtain ⟨hfirst, hseparated⟩ := ih
    refine ⟨fun hexpect u hu => ?_, List.isChain_cons.2 ⟨fun u hu hboth => ?_, hseparated⟩⟩
    · obtain rfl := Option.some.inj hu
      rw [← halt.due, hexpect]
    · have hnext : q.expectOperand = false := by rw [halt.next, hboth.1, Bool.not_true]
      exact Bool.false_ne_true ((hfirst hnext u hu).symm.trans hboth.2)

end

/-- The expressions are the rows that are read to their end. -/
theorem derives_iff_steps {ts : List Token} : Derives logicRules .expression ts ↔
    ∃ q, Steps logicRules {} ts q ∧ q.isComplete = true := by
  constructor
  · intro h
    obtain ⟨last, -, -, hsteps⟩ := h.steps (p := {}) not_calls rfl
    exact ⟨_, hsteps, rfl⟩
  · rintro ⟨q, hsteps, hcomplete⟩
    exact (Viable.start.steps hsteps).derives hcomplete

theorem separated_of_derives {ts : List Token} (h : Derives logicRules .expression ts) :
    Separated ts := by
  obtain ⟨q, hsteps, -⟩ := derives_iff_steps.1 h
  exact (separated_of_steps hsteps).2

/-- **With one operand more than operators and with matching groups, a row is an expression
exactly if no operand stands directly after another.** -/
theorem derives_iff_separated {ts : List Token} (hparts : ∀ t ∈ ts, IsPart t)
    (hgroups : Balances 0 ts) (hcount : ts.countP isValue = ts.countP isBinary + 1) :
    Derives logicRules .expression ts ↔ Separated ts := by
  constructor
  · exact separated_of_derives
  · intro hseparated
    exact derives_iff_steps.2
      ((steps_of_count (p := {}) hparts hgroups nofun hseparated).2 hcount)

/-! ## Judging -/

/-- How an evaluator judges a row of tokens. Well-formed ones fail for what their values are alone;
what comes to a value has matching groups and one operand more than operators, and it is well-formed
exactly if no operand stands directly after another. -/
structure Judges {α : Type} (result : Except Failure α) (row : List Token) (wellFormed : Prop)
    (Late : Failure → Prop) : Prop where
  complete : wellFormed → ∀ f, result = .error f → Late f
  groups : ∀ v, result = .ok v → Balances 0 row
  count : ∀ v, result = .ok v → row.countP isValue = row.countP isBinary + 1
  separated : ∀ v, result = .ok v → (wellFormed ↔ Separated row)

end Reckoner.Logic
