/-
  Arithmetic expressions as trees, their values and their spellings.

  * `Expr`: numerals, operators, the two signs, and calls with as many arguments as the
    function takes; `Expr.eval`: the value, operands and arguments from left to right;
  * `Spells`: the token lists that stand for a tree, with any groups around its parts;
  * `Expr.tokens`: the list with only the groups that the levels ask for;
  * `Expr.spells_tokens`: that list is one of them.

  A sign may stand before any operand. The operand of a minus takes the powers after it and
  nothing else, so a part that ends in such an operand is open: a `^` after it would belong
  to the operand. `2^-3*4` is `(2^(-3))*4`, and `-2^2` is `-(2^2)`.
-/
import Reckoner.Arithmetic.Evaluate

namespace Reckoner.Arithmetic

/-! ## Trees -/

/-- A binary operator. -/
inductive Operator where
  | add | sub | mul | div | rem | pow
  deriving DecidableEq, Repr

namespace Operator

/-- The sign of an operator. -/
def symbol : Operator → String
  | add => "+"
  | sub => "-"
  | mul => "*"
  | div => "/"
  | rem => "%"
  | pow => "^"

/-- How strongly an operator binds. -/
def level : Operator → Nat
  | add | sub => 1
  | mul | div | rem => 2
  | pow => 3

/-- The value between two numbers. -/
def apply (operator : Operator) (a b : Float) : Except Failure Float :=
  match operator with
  | add => checkFinite "+" [a, b] (a + b)
  | sub => checkFinite "-" [a, b] (a - b)
  | mul => checkFinite "*" [a, b] (a * b)
  | div => if b == 0.0 then .error .divisionByZero else checkFinite "/" [a, b] (a / b)
  | rem =>
    if b == 0.0 then .error .divisionByZero else checkFinite "%" [a, b] (Decimal.remainder a b)
  | pow => checkFinite "^" [a, b] (a.pow b)

theorem level_le (operator : Operator) : operator.level ≤ 3 := by
  cases operator <;> decide

end Operator

/-- An arithmetic expression. -/
inductive Expr where
  | literal (numeral : String)
  | binary (operator : Operator) (left right : Expr)
  | minus (operand : Expr)
  | plus (operand : Expr)
  | call (f : Function) (args : Fin f.arity → Expr)

namespace Expr

/-- The value of an expression, or the failure that comes first from left to right. -/
def eval (angles : AngleUnit) : Expr → Except Failure Float
  | literal numeral =>
    match Decimal.readFloat? numeral.toList with
    | some x => .ok x
    | none => .error (.invalidNumber numeral)
  | binary operator left right => do
    let a ← left.eval angles
    let b ← right.eval angles
    operator.apply a b
  | minus operand => do return -(← operand.eval angles)
  | plus operand => operand.eval angles
  | call f args => do
    f.apply angles (← (List.ofFn fun i => (args i).eval angles).mapM id)

end Expr

/-! ## Spellings -/

/-- Token lists joined by commas. -/
inductive Joined : List (List Token) → List Token → Prop
  | last {ts} : Joined [ts] ts
  | more {ts tss rest p} : Joined tss rest → Joined (ts :: tss) (ts ++ ⟨.comma, ",", p⟩ :: rest)

/-- The tokens `ts` stand for an expression. `level` is that of its weakest operator outside
    groups, 4 if there is none; it is open if it ends in the operand of a minus. -/
inductive Spells : Nat → Bool → Expr → List Token → Prop
  | literal {numeral p} : Spells 4 false (.literal numeral) [⟨.number, numeral, p⟩]
  | group {level isOpen e ts p q} : Spells level isOpen e ts →
      Spells 4 false e (⟨.parenthesis, "(", p⟩ :: ts ++ [⟨.parenthesis, ")", q⟩])
  | call {f} {args : Fin f.arity → Expr} {levels : Fin f.arity → Nat}
      {opens : Fin f.arity → Bool} {spellings : Fin f.arity → List Token} {ts p q r} :
      (∀ i, Spells (levels i) (opens i) (args i) (spellings i)) →
      Joined (List.ofFn spellings) ts →
      Spells 4 false (.call f args)
        (⟨.function, f.name, p⟩ :: ⟨.parenthesis, "(", q⟩ :: ts ++ [⟨.parenthesis, ")", r⟩])
  | minus {level isOpen e ts p} : 3 ≤ level → Spells level isOpen e ts →
      Spells 4 true (.minus e) (⟨.operator, "-", p⟩ :: ts)
  | plus {level isOpen e ts p} : Spells level isOpen e ts →
      Spells level isOpen (.plus e) (⟨.operator, "+", p⟩ :: ts)
  | binary (operator : Operator) {level₁ level₂ isOpen₁ isOpen₂ a b ts₁ ts₂ p} :
      operator.level ≤ level₁ → (operator.level = 3 → isOpen₁ = false) →
      operator.level < level₂ → Spells level₁ isOpen₁ a ts₁ → Spells level₂ isOpen₂ b ts₂ →
      Spells operator.level isOpen₂ (.binary operator a b)
        (ts₁ ++ ⟨.operator, operator.symbol, p⟩ :: ts₂)

/-! ## The spelling with the fewest groups -/

/-- Tokens in a group, if they need one. -/
def enclose (needed : Bool) (ts : List Token) : List Token :=
  if needed then ⟨.parenthesis, "(", 0⟩ :: ts ++ [⟨.parenthesis, ")", 0⟩] else ts

theorem Spells.enclose {level : Nat} {isOpen : Bool} {e : Expr} {ts : List Token}
    (h : Spells level isOpen e ts) (needed : Bool) :
    Spells (if needed then 4 else level) (!needed && isOpen) e (enclose needed ts) := by
  cases needed with
  | true => exact .group h
  | false => exact h

namespace Expr

/-- The level of the weakest operator that stands in no group. -/
def level : Expr → Nat
  | literal _ | call _ _ | minus _ => 4
  | plus operand => operand.level
  | binary operator _ _ => operator.level

/-- A right operand that does not bind more strongly needs a group. -/
def rightGroup (operator : Operator) (right : Expr) : Bool := right.level ≤ operator.level

/-- The expression ends in the operand of a minus. -/
def isOpen : Expr → Bool
  | literal _ | call _ _ => false
  | minus _ => true
  | plus operand => operand.isOpen
  | binary operator _ right => !rightGroup operator right && right.isOpen

/-- A left operand that binds less strongly needs a group, and so does one that would take a
power for itself. -/
def leftGroup (operator : Operator) (left : Expr) : Bool :=
  left.level < operator.level || (operator.level == 3 && left.isOpen)

/-- The tokens of an expression with only the groups that the levels ask for. -/
def tokens : Expr → List Token
  | literal numeral => [⟨.number, numeral, 0⟩]
  | binary operator left right =>
    enclose (leftGroup operator left) left.tokens ++
      ⟨.operator, operator.symbol, 0⟩ :: enclose (rightGroup operator right) right.tokens
  | minus operand => ⟨.operator, "-", 0⟩ :: enclose (operand.level < 3) operand.tokens
  | plus operand => ⟨.operator, "+", 0⟩ :: operand.tokens
  | call f args =>
    ⟨.function, f.name, 0⟩ :: ⟨.parenthesis, "(", 0⟩ ::
      [⟨.comma, ",", 0⟩].intercalate (List.ofFn fun i => (args i).tokens) ++
        [⟨.parenthesis, ")", 0⟩]

end Expr

theorem Joined.intercalate : ∀ {tss : List (List Token)}, tss ≠ [] →
    Joined tss ([⟨.comma, ",", 0⟩].intercalate tss)
  | [], h => absurd rfl h
  | [ts], _ => by simpa [List.intercalate] using Joined.last
  | ts :: ts' :: tss, _ => by
    have ih : Joined (ts' :: tss) _ := intercalate (List.cons_ne_nil ts' tss)
    simpa [List.intercalate] using ih.more

/-- A function takes at least one argument. -/
theorem Function.arity_pos (f : Function) : 0 < f.arity := by
  cases f <;> decide

/-- **The list with the fewest groups spells the expression.** -/
theorem Expr.spells_tokens : ∀ e : Expr, Spells e.level e.isOpen e e.tokens
  | literal _ => .literal
  | plus operand => .plus operand.spells_tokens
  | minus operand => by
    refine .minus ?_ (operand.spells_tokens.enclose _)
    split <;> simp_all
  | call f args => by
    refine .call (fun i => (args i).spells_tokens) (Joined.intercalate ?_)
    simpa [List.ofFn_eq_nil_iff] using Nat.ne_of_gt f.arity_pos
  | binary operator left right => by
    have hleft := left.spells_tokens.enclose (leftGroup operator left)
    have hright := right.spells_tokens.enclose (rightGroup operator right)
    refine .binary operator ?_ ?_ ?_ hleft hright
    · have := operator.level_le
      cases h : leftGroup operator left <;> simp_all [leftGroup]
      omega
    · intro h3
      cases h : leftGroup operator left <;> simp_all [leftGroup]
    · have := operator.level_le
      cases h : rightGroup operator right <;> simp_all [rightGroup]
      omega

end Reckoner.Arithmetic
