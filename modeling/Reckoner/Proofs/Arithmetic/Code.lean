/-
  How code in postfix order can fail.

  * `IsCode`: a numeral, an operator, a negation or a function;
  * `Failure.IsLate`: a failure that is about operands and values only;
  * `heightAfter`, `Meets`: the height that a step leaves, if the stack is high enough;
  * `meets_number`, `meets_negation`, `meets_symbol`, `meets_function`: **each step leaves the
    height it should, or fails on a value**;
  * `weight`: what a token adds to the height of the stack;
  * `runStep_cases`, `run_cases`: **code fails late, or changes the height by its weight**;
  * `runPostfix_fits`, `runPostfix_surplus`: **code that weighs one or less fails late if it fails,
    and code that weighs more always fails**.
-/
import Mathlib.Algebra.Ring.Int.Defs
import Reckoner.Proofs.Arithmetic.Yard
import Reckoner.Proofs.Decimal.Numeral
import Reckoner.Proofs.Success

namespace Reckoner

/-- The failure is about operands or values, and not about how the text is written. -/
def Failure.IsLate (f : Failure) : Prop := f.family = .arity ∨ f.family = .domain

namespace Arithmetic

/-! ## Failures -/

/-- A token that can be run. -/
inductive IsCode : Token → Prop
  | number {p position} : IsNumeral p → IsCode ⟨.number, String.ofList p, position⟩
  | negation {position} : IsCode ⟨.operator, negation, position⟩
  | operator (op : Operator) {position} : IsCode ⟨.operator, op.symbol, position⟩
  | function (f : Function) {position} : IsCode ⟨.function, f.name, position⟩

section
variable {f : Failure}

theorem checkFinite_error {operation : String} {operands : List Float} {value : Float}
    (h : checkFinite operation operands value = .error f) : f.family = .domain := by
  rw [checkFinite] at h
  split at h
  · obtain rfl := Except.error.inj h
    rfl
  · cases h

theorem Operator.apply_error {op : Operator} {a b : Float} (h : op.apply a b = .error f) :
    f.family = .domain := by
  have hdivision {x : Float} {checked : Except Failure Float}
      (hchecked : checked = .error f → f.family = .domain)
      (h : (if x == 0.0 then .error .divisionByZero else checked) = .error f) :
      f.family = .domain := by
    split at h
    · obtain rfl := Except.error.inj h
      rfl
    · exact hchecked h
  cases op with
  | div | rem => exact hdivision checkFinite_error h
  | _ => exact checkFinite_error h

theorem factorial_error {x : Float} (h : factorial x = .error f) : f.family = .domain := by
  rw [factorial] at h
  split at h
  · obtain rfl := Except.error.inj h
    rfl
  · split at h
    · obtain rfl := Except.error.inj h
      rfl
    · cases h

/-- A function with as many arguments as it takes fails on their values only. -/
theorem Function.apply_error {function : Function} {angles : AngleUnit} {xs : List Float}
    (hxs : xs.length = function.arity) (h : function.apply angles xs = .error f) :
    f.family = .domain := by
  cases xs with
  | nil => exact absurd hxs (Nat.ne_of_lt function.arity_pos)
  | cons x more =>
    cases function with
    | exp => exact checkFinite_error h
    | factorial => exact factorial_error h
    | pow =>
      cases more with
      | nil => cases hxs
      | cons y more => exact checkFinite_error h
    | _ => cases h

end

/-! ## Heights -/

/-- The height of a stack once `count` numbers on it have given way to one, if they are there. -/
def heightAfter (count height : Nat) : Option Nat :=
  if count ≤ height then some (height - count + 1) else none

/-- A computation on a stack ends at a height, or fails on a value before it does. Without a
height to end at, it fails. -/
def Meets : Option Nat → Except Failure (List Float) → Prop
  | none, .ok _ => False
  | none, .error f => f.IsLate
  | some height, .ok stack => stack.length = height
  | some _, .error f => f.family = .domain

theorem Meets.bind {height : Option Nat} {effect : Nat → Option Nat}
    {x : Except Failure (List Float)} {k : List Float → Except Failure (List Float)}
    (h : Meets height x) (hk : ∀ stack, Meets (effect stack.length) (k stack)) :
    Meets (height.bind effect) (x >>= k) := by
  cases height with
  | none =>
    cases x with
    | ok stack => exact h.elim
    | error f => exact h
  | some height =>
    cases x with
    | ok stack =>
      obtain rfl : stack.length = height := h
      exact hk stack
    | error f =>
      have hdomain : f.family = .domain := h
      change Meets (effect height) (.error f)
      cases effect height with
      | none => exact .inr hdomain
      | some _ => exact hdomain

section
variable {angles : AngleUnit} {stack : List Float} {position : Nat}

theorem meets_push {value : Except Failure Float} {height : Nat}
    (hvalue : ∀ f, value = .error f → f.family = .domain) (hheight : stack.length + 1 = height) :
    Meets (some height) (do return (← value) :: stack) := by
  cases value with
  | ok x => exact hheight
  | error f => exact hvalue f rfl

theorem meets_number {numeral : String} (h : (Decimal.readFloat? numeral.toList).isSome) :
    Meets (heightAfter 0 stack.length) (runStep angles stack ⟨.number, numeral, position⟩) := by
  obtain ⟨x, hx⟩ := Option.isSome_iff_exists.1 h
  simp only [runStep, hx]
  rfl

theorem meets_negation :
    Meets (heightAfter 1 stack.length)
      (runStep angles stack ⟨.operator, negation, position⟩) := by
  cases stack with
  | nil => exact .inl rfl
  | cons x stack => exact rfl

theorem meets_symbol (op : Operator) :
    Meets (heightAfter 2 stack.length)
      (runStep angles stack ⟨.operator, op.symbol, position⟩) := by
  have hsymbol : (op.symbol == negation) = false := by simpa using op.symbol_ne_negation
  have hmissing : Meets none (.error (.insufficientOperands op.symbol)) := .inl rfl
  rcases stack with _ | ⟨b, _ | ⟨a, stack⟩⟩
  · simpa [runStep, hsymbol, heightAfter] using hmissing
  · simpa [runStep, hsymbol, heightAfter] using hmissing
  · rw [runStep_symbol]
    exact meets_push (fun _ => Operator.apply_error) rfl

theorem meets_function (f : Function) :
    Meets (heightAfter f.arity stack.length)
      (runStep angles stack ⟨.function, f.name, position⟩) := by
  simp only [runStep, f.ofName?_name, heightAfter]
  by_cases hle : f.arity ≤ stack.length
  · rw [if_pos hle, if_neg (Nat.not_lt.2 hle)]
    refine meets_push (fun _ => Function.apply_error ?_) ?_
    · rw [List.length_reverse, List.length_take, Nat.min_eq_left hle]
    · rw [List.length_drop]
  · rw [if_neg hle, if_pos (Nat.lt_of_not_le hle)]
    exact .inl rfl

end

/-! ## Steps -/

/-- What a token adds to the height of the stack. -/
def weight (t : Token) : Int :=
  match t.kind with
  | .number => 1
  | .operator => if t.value == negation then 0 else -1
  | .function =>
    match Function.ofName? t.value with
    | some f => 1 - f.arity
    | none => 0
  | _ => 0

theorem weight_operator (op : Operator) (position : Nat) :
    weight ⟨.operator, op.symbol, position⟩ = -1 :=
  if_neg (by simpa using op.symbol_ne_negation)

theorem weight_function (f : Function) (position : Nat) :
    weight ⟨.function, f.name, position⟩ = 1 - f.arity := by
  simp [weight, f.ofName?_name]

theorem Meets.cases {count height : Nat} {x : Except Failure (List Float)}
    (h : Meets (heightAfter count height) x) : (∃ f, x = .error f ∧ f.IsLate) ∨
      ∃ y rest, x = .ok (y :: rest) ∧ (rest.length + 1 : Int) = height + (1 - count) := by
  unfold heightAfter at h
  split_ifs at h with hle
  · cases x with
    | error f => exact .inl ⟨f, rfl, .inr h⟩
    | ok stack =>
      have hlength : stack.length = height - count + 1 := h
      obtain ⟨y, rest, rfl⟩ := List.exists_cons_of_length_eq_add_one hlength
      refine .inr ⟨y, rest, rfl, ?_⟩
      rw [List.length_cons] at hlength
      omega
  · cases x with
    | error f => exact .inl ⟨f, rfl, h⟩
    | ok stack => exact h.elim

/-- A step fails late, or replaces numbers on the stack by one. -/
theorem runStep_cases (angles : AngleUnit) (stack : List Float) {t : Token} (ht : IsCode t) :
    (∃ f, runStep angles stack t = .error f ∧ f.IsLate) ∨
      ∃ x rest, runStep angles stack t = .ok (x :: rest) ∧
        (rest.length + 1 : Int) = stack.length + weight t := by
  cases ht with
  | @number p position hp =>
    obtain ⟨x, hx⟩ := Decimal.readFloat?_isSome (.inl rfl) hp
    rw [List.nil_append] at hx
    exact (meets_number (by rw [String.toList_ofList, hx]; rfl)).cases
  | negation => exact meets_negation.cases
  | @operator op position =>
    rw [weight_operator]
    exact (meets_symbol op).cases
  | @function f position =>
    rw [weight_function]
    exact (meets_function f).cases

/-! ## Runs -/

section
variable {angles : AngleUnit} {code : List Token} (hcode : ∀ t ∈ code, IsCode t)
include hcode

/-- A run fails late, or changes the height of the stack by the weight of the code. -/
theorem run_cases (angles : AngleUnit) (stack : List Float) :
    (∃ f, code.foldlM (runStep angles) stack = .error f ∧ f.IsLate) ∨
      ∃ stack', code.foldlM (runStep angles) stack = .ok stack' ∧
        (stack'.length : Int) = stack.length + (code.map weight).sum ∧
        (code ≠ [] → stack' ≠ []) := by
  induction code generalizing stack with
  | nil => exact .inr ⟨stack, rfl, by simp, nofun⟩
  | cons t code ih =>
    obtain ⟨ht, hcode⟩ := List.forall_mem_cons.1 hcode
    rw [List.foldlM_cons]
    rcases runStep_cases angles stack ht with ⟨f, hf, hlate⟩ | ⟨x, rest, hstep, hheight⟩
    · exact .inl ⟨f, by rw [hf]; rfl, hlate⟩
    · rw [hstep]
      rcases ih hcode (x :: rest) with ⟨f, hf, hlate⟩ | ⟨stack', hrun, hheight', hne⟩
      · exact .inl ⟨f, hf, hlate⟩
      · refine .inr ⟨stack', hrun, ?_, fun _ => ?_⟩
        · rw [hheight', List.map_cons, List.sum_cons, List.length_cons]
          push_cast
          omega
        · cases code with
          | nil =>
            obtain rfl : x :: rest = stack' := Except.ok.inj hrun
            exact List.cons_ne_nil x rest
          | cons u code => exact hne (List.cons_ne_nil u code)

/-- Code that weighs one or less fails late, if it fails. -/
theorem runPostfix_fits (hne : code ≠ []) (hweight : (code.map weight).sum ≤ 1) {f : Failure}
    (h : runPostfix angles code = .error f) : f.IsLate := by
  rw [runPostfix] at h
  rcases run_cases hcode angles [] with ⟨e, he, hlate⟩ | ⟨stack, hrun, hheight, hfull⟩
  · rw [he] at h
    obtain rfl : e = f := Except.error.inj h
    exact hlate
  · rw [hrun] at h
    rcases stack with _ | ⟨x, _ | ⟨y, stack⟩⟩
    · exact absurd rfl (hfull hne)
    · cases h
    · simp only [List.length_cons, List.length_nil] at hheight
      push_cast at hheight
      omega

/-- Code that weighs more than one always fails: late, or with numbers left over. -/
theorem runPostfix_surplus (hweight : 1 < (code.map weight).sum) :
    ∃ f, runPostfix angles code = .error f ∧ (f = .invalidExpression ∨ f.IsLate) := by
  rw [runPostfix]
  rcases run_cases hcode angles [] with ⟨f, hf, hlate⟩ | ⟨stack, hrun, hheight, -⟩
  · exact ⟨f, by rw [hf]; rfl, .inr hlate⟩
  · rw [hrun]
    refine ⟨.invalidExpression, ?_, .inl rfl⟩
    rcases stack with _ | ⟨x, _ | ⟨y, stack⟩⟩
    · rfl
    · simp only [List.length_cons, List.length_nil] at hheight
      push_cast at hheight
      omega
    · rfl

end

end Arithmetic

end Reckoner
