/-
  Tokens, and the cutting of a text into them.

  * `Token`: a kind, the text, and the byte at which it starts;
  * `Slice.cut`: cuts a text into slices, passing over the characters between them; a rule
    says, for the character at which a slice starts and the text after it, what the slice
    is and how many more characters belong to it.
-/
import Reckoner.Diagnostic.Span

namespace Reckoner

/-! ## Tokens -/

/-- What a token is. -/
inductive TokenKind where
  | number
  | operator
  | function
  | identifier
  | unit
  | parenthesis
  | comma
  | keyword
  | unknown
  deriving DecidableEq, Repr

namespace TokenKind

/-- Every kind. -/
def all : List TokenKind :=
  [number, operator, function, identifier, unit, parenthesis, comma, keyword, unknown]

/-- The name of a kind. -/
def name : TokenKind → String
  | number => "number"
  | operator => "operator"
  | function => "function"
  | identifier => "variable"
  | unit => "unit"
  | parenthesis => "parenthesis"
  | comma => "comma"
  | keyword => "keyword"
  | unknown => "unknown"

/-- The name of a kind with a capital letter. -/
def title : TokenKind → String
  | number => "Number"
  | operator => "Operator"
  | function => "Function"
  | identifier => "Variable"
  | unit => "Unit"
  | parenthesis => "Parenthesis"
  | comma => "Comma"
  | keyword => "Keyword"
  | unknown => "Unknown"

end TokenKind

/-- A token and the byte at which it starts in its text. -/
structure Token where
  kind : TokenKind
  value : String
  position : Nat
  deriving DecidableEq, Repr

namespace Token

/-- The stretch of the text that the token takes. -/
def span (t : Token) : Span := ⟨t.position, t.position + Text.byteLength t.value.toList⟩

/-- The token opens a group. -/
def isOpen (t : Token) : Bool := t.kind == .parenthesis && t.value == "("

/-- The token closes a group. -/
def isClose (t : Token) : Bool := t.kind == .parenthesis && t.value == ")"

/-- The token as it is shown. -/
def label (t : Token) : String :=
  t.kind.name ++ "(" ++ t.value ++ ")@" ++ Decimal.integerText t.position

end Token

/-! ## Cutting a text -/

/-- A stretch of text with the byte at which it starts. -/
structure Slice (α : Type) where
  tag : α
  text : List Char
  position : Nat

namespace Slice

variable {α : Type}

/-- Cuts the text that starts at byte `position`. Characters that `skip` are passed over
between slices; `rule c cs` tells what starts with `c` before `cs`, and its length after
`c`. -/
def cut (skip : Char → Bool) (rule : Char → List Char → α × Nat) (position : Nat) :
    List Char → List (Slice α)
  | [] => []
  | c :: cs =>
    if skip c then cut skip rule (position + c.utf8Size) cs
    else
      let (tag, more) := rule c cs
      let text := c :: cs.take more
      ⟨tag, text, position⟩ :: cut skip rule (position + Text.byteLength text) (cs.drop more)
termination_by cs => cs.length
decreasing_by all_goals simp +arith

section
variable {skip : Char → Bool} {rule : Char → List Char → α × Nat} {position : Nat} {c : Char}
  {cs : List Char}

@[simp] theorem cut_nil : cut skip rule position [] = [] := by rw [cut]

theorem cut_pass (hc : skip c = true) :
    cut skip rule position (c :: cs) = cut skip rule (position + c.utf8Size) cs := by
  rw [cut, if_pos hc]

theorem cut_slice (hc : skip c = false) :
    cut skip rule position (c :: cs) = ⟨(rule c cs).1, c :: cs.take (rule c cs).2, position⟩ ::
      cut skip rule (position + Text.byteLength (c :: cs.take (rule c cs).2))
        (cs.drop (rule c cs).2) := by
  rw [cut, if_neg (Bool.eq_false_iff.1 hc)]

/-- A text is cut character by character where it is passed over, and else slice by slice. -/
@[elab_as_elim]
theorem cut_induction (skip : Char → Bool) (rule : Char → List Char → α × Nat)
    {motive : Nat → List Char → Prop} (nil : ∀ position, motive position [])
    (pass : ∀ position c cs, skip c = true → motive (position + c.utf8Size) cs →
      motive position (c :: cs))
    (slice : ∀ position c cs, skip c = false →
      motive (position + Text.byteLength (c :: cs.take (rule c cs).2)) (cs.drop (rule c cs).2) →
      motive position (c :: cs))
    (position : Nat) (cs : List Char) : motive position cs := by
  induction position, cs using cut.induct skip rule with
  | case1 position => exact nil position
  | case2 position c cs hc ih => exact pass position c cs hc ih
  | case3 position c cs hc tag more hrule text ih =>
    exact slice position c cs (Bool.eq_false_iff.2 hc) (by rw [hrule]; exact ih)

end

/-- A token made of a slice. -/
def token (s : Slice α) (kind : TokenKind) : Token :=
  ⟨kind, String.ofList s.text, s.position⟩

end Slice

end Reckoner
