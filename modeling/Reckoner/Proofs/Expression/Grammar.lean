/-
  The grammars of rows of tokens, and what may stand where.

  * `Rules`: which tokens are operands, signs, operators, names of functions and commas, and
    which may be joined without an operator; `arithmeticRules`, `logicRules`;
  * `Derives`: the rows that are an operand, a signed operand, an expression or a list;
  * `Context`: the rows after which such a part may stand, with the number of open groups;
  * `Stands`: the rows that are an expression as far as they go, with `n` groups open;
  * `Context.fill`, `Stands.close`: a part that stands where it may is part of the expression
    around it, and a closing parenthesis makes a group of one;
  * `Stands.complete`: **an expression is complete when its groups are closed**.
-/
import Mathlib.Data.List.Basic
import Reckoner.Expression.Validate

namespace Reckoner.Expression

/-! ## Rules -/

/-- What the tokens of a row of operands and operators may be. -/
structure Rules where
  /-- an operand by itself -/
  IsOperand : Token → Prop
  /-- a function, its arguments in the group after it -/
  IsFunction : Token → Prop
  /-- a sign before an operand -/
  IsSign : Token → Prop
  /-- an operator between two operands -/
  IsOperator : Token → Prop
  /-- a comma between two expressions of a list -/
  IsComma : Token → Prop
  /-- what starts with the second token may follow what ends with the first as a factor -/
  Joins : Token → Token → Prop
  /-- a function is nothing else -/
  function_alone : ∀ t, IsFunction t → ¬ IsOperand t ∧ ¬ IsSign t ∧ ¬ IsOperator t ∧
    ¬ IsComma t ∧ t.isOpen = false ∧ t.isClose = false
  /-- the number 1 is an operand -/
  operand_one : IsOperand ⟨.number, "1", 0⟩

theorem Token.not_paren_of_kind {t : Token} (h : t.kind ≠ .parenthesis) :
    t.isOpen = false ∧ t.isClose = false := by
  simp [Token.isOpen, Token.isClose, h]

/-- Numbers and constants with the operators of arithmetic between them, and the signs `+` and
`-`. A factor may follow a closing parenthesis, and one that is no number may follow a number. -/
def arithmeticRules : Rules where
  IsOperand t := t.kind = .number ∨ t.kind = .identifier
  IsFunction t := t.kind = .function
  IsSign t := t.kind = .operator ∧ t.value ∈ ["+", "-"]
  IsOperator t := t.kind = .operator ∧ t.value ∈ ["+", "-", "*", "/", "%", "^"]
  IsComma t := t.kind = .comma
  Joins s t := s.isClose = true ∨
    s.kind = .number ∧ (t.kind = .identifier ∨ t.kind = .function ∨ t.isOpen = true)
  function_alone t h := by simp [h, Token.not_paren_of_kind]
  operand_one := .inl rfl

/-- Numbers and truth values with operators between them, and the prefixes `!`, `not` and `~`.
There are no functions, no lists and no factors without an operator. -/
def logicRules : Rules where
  IsOperand t := t.kind = .number ∨ t.kind = .keyword
  IsFunction _ := False
  IsSign t := t.kind = .operator ∧ t.value ∈ ["!", "not", "~"]
  IsOperator t := t.kind = .operator ∧ t.value ∉ ["!", "not", "~"]
  IsComma _ := False
  Joins _ _ := False
  function_alone _ h := h.elim
  operand_one := .inl rfl

/-! ## Rows -/

/-- What a row can be. -/
inductive Part where
  | operand
  /-- an operand with signs before it -/
  | signed
  | expression
  /-- expressions with commas between them -/
  | list

section
variable (G : Rules)

/-- The row is a part of the kind. Operators are left-associative, and a factor joined without
one has no sign. -/
inductive Derives : Part → List Token → Prop
  | token {t} : G.IsOperand t → Derives .operand [t]
  | group {o ts c} : o.isOpen = true → Derives .list ts → c.isClose = true →
      Derives .operand (o :: ts ++ [c])
  | call {f o ts c} : G.IsFunction f → o.isOpen = true → Derives .list ts → c.isClose = true →
      Derives .operand (f :: o :: ts ++ [c])
  | operand {ts} : Derives .operand ts → Derives .signed ts
  | sign {s ts} : G.IsSign s → Derives .signed ts → Derives .signed (s :: ts)
  | signed {ts} : Derives .signed ts → Derives .expression ts
  | binary {xs b ys} : Derives .expression xs → G.IsOperator b → Derives .signed ys →
      Derives .expression (xs ++ b :: ys)
  | factor {xs s t ys} : Derives .expression xs → xs.getLast? = some s → G.Joins s t →
      ys.head? = some t → Derives .operand ys → Derives .expression (xs ++ ys)
  | expression {ts} : Derives .expression ts → Derives .list ts
  | comma {xs c ys} : Derives .list xs → G.IsComma c → Derives .expression ys →
      Derives .list (xs ++ c :: ys)

/-! ## Slots -/

/-- What may stand after a row. -/
inductive Slot where
  /-- an operand that starts with the given token -/
  | operand (first : Token)
  | signed
  | expression
  | list

/-- After the row, with `n` groups open, a part may stand. -/
inductive Context : Slot → Nat → List Token → Prop
  | start : Context .expression 0 []
  | group {n pre o} : Context (.operand o) n pre → o.isOpen = true →
      Context .list (n + 1) (pre ++ [o])
  | call {n pre f o} : Context (.operand f) n pre → G.IsFunction f → o.isOpen = true →
      Context .list (n + 1) (pre ++ [f, o])
  | first {n pre} : Context .list n pre → Context .expression n pre
  | comma {n pre xs c} : Context .list n pre → Derives G .list xs → G.IsComma c →
      Context .expression n (pre ++ (xs ++ [c]))
  | left {n pre} : Context .expression n pre → Context .signed n pre
  | right {n pre xs b} : Context .expression n pre → Derives G .expression xs →
      G.IsOperator b → Context .signed n (pre ++ (xs ++ [b]))
  | sign {n pre s} : Context .signed n pre → G.IsSign s → Context .signed n (pre ++ [s])
  | operand {n pre t} : Context .signed n pre → Context (.operand t) n pre
  | factor {n pre xs s t} : Context .expression n pre → Derives G .expression xs →
      xs.getLast? = some s → G.Joins s t → Context (.operand t) n (pre ++ xs)

/-- The row is an expression that may go on, with `n` groups open. -/
def Stands (n : Nat) (ts : List Token) : Prop :=
  ∃ pre xs, ts = pre ++ xs ∧ Context G .expression n pre ∧ Derives G .expression xs ∧
    xs.getLast? = ts.getLast?

end

variable {G : Rules}

theorem Derives.ne_nil {part : Part} {ts : List Token} (h : Derives G part ts) : ts ≠ [] := by
  induction h with
  | token | group | call | sign => exact List.cons_ne_nil _ _
  | binary | comma => simp
  | factor _ _ _ _ _ ih => simp [ih]
  | operand _ ih | signed _ ih | expression _ ih => exact ih

theorem Stands.of_expression {n : Nat} {pre xs : List Token} (hpre : Context G .expression n pre)
    (hxs : Derives G .expression xs) : Stands G n (pre ++ xs) :=
  ⟨pre, xs, rfl, hpre, hxs, (List.getLast?_append_of_ne_nil _ hxs.ne_nil).symm⟩

namespace Context

variable {n : Nat} {pre xs ys : List Token}

/-- A signed operand goes on with the expression before it. -/
theorem fill_signed (h : Context G .signed n pre) (hys : Derives G .signed ys) :
    Stands G n (pre ++ ys) := by
  generalize hslot : Slot.signed = slot at h
  induction h generalizing ys with
  | left hpre => exact .of_expression hpre (.signed hys)
  | right hpre hxs hb =>
    rw [List.append_assoc, List.append_assoc]
    exact .of_expression hpre (.binary hxs hb hys)
  | sign _ hs ih =>
    rw [List.append_assoc]
    exact ih (.sign hs hys) hslot
  | _ => cases hslot

/-- An operand goes on with the expression before it. -/
theorem fill {t : Token} (h : Context G (.operand t) n pre) (hys : Derives G .operand ys)
    (hhead : ys.head? = some t) : Stands G n (pre ++ ys) := by
  cases h with
  | operand hpre => exact hpre.fill_signed (.operand hys)
  | factor hpre hxs hlast hjoins =>
    rw [List.append_assoc]
    exact .of_expression hpre (.factor hxs hlast hjoins hhead hys)

/-- In a group, the expressions so far are a list. -/
theorem exists_list (h : Context G .expression (n + 1) pre) (hxs : Derives G .expression xs) :
    ∃ pre' ys, pre ++ xs = pre' ++ ys ∧ Context G .list (n + 1) pre' ∧ Derives G .list ys := by
  cases h with
  | first hpre => exact ⟨pre, xs, rfl, hpre, .expression hxs⟩
  | @comma _ pre' ys c hpre hys hc =>
    exact ⟨pre', ys ++ c :: xs, by simp, hpre, .comma hys hc hxs⟩

/-- A closing parenthesis makes an operand of the list in the group. -/
theorem close_list {c : Token} (h : Context G .list (n + 1) pre) (hys : Derives G .list ys)
    (hc : c.isClose = true) : Stands G n (pre ++ ys ++ [c]) := by
  cases h with
  | group hpre ho =>
    simpa using hpre.fill (.group ho hys hc) rfl
  | call hpre hf ho =>
    simpa using hpre.fill (.call hf ho hys hc) rfl

theorem eq_nil_of_zero (h : Context G .expression 0 pre) : pre = [] := by
  cases h with
  | start => rfl
  | first h => cases h
  | comma h => cases h

end Context

namespace Stands

variable {n : Nat} {ts : List Token}

theorem close {c : Token} (h : Stands G (n + 1) ts) (hc : c.isClose = true) :
    Stands G n (ts ++ [c]) := by
  obtain ⟨pre, xs, rfl, hpre, hxs, -⟩ := h
  obtain ⟨pre', ys, heq, hpre', hys⟩ := hpre.exists_list hxs
  rw [heq]
  exact hpre'.close_list hys hc

theorem derives (h : Stands G 0 ts) : Derives G .expression ts := by
  obtain ⟨pre, xs, rfl, hpre, hxs, -⟩ := h
  rwa [hpre.eq_nil_of_zero]

/-- Closing its groups completes an expression. -/
theorem complete {c : Token} (hc : c.isClose = true) (h : Stands G n ts) :
    Derives G .expression (ts ++ List.replicate n c) := by
  induction n generalizing ts with
  | zero => simpa using h.derives
  | succ n ih =>
    rw [List.replicate_succ, List.append_cons]
    exact ih (h.close hc)

end Stands

end Reckoner.Expression
