/-
  Boolean expressions are evaluated to the truth of their trees.

  * `Expr`, `Expr.truth`: trees and their truth;
  * `Spells`: the rows of symbols that stand for a tree, with any groups around its parts;
  * `Written`: a symbol as it is written, as a word in letters of either case or as a sign;
  * `Reads`: symbols are read as an expression of a truth value, wherever what waits lets it
    wait;
  * `evaluate_written`: **a text is a boolean expression with the truth of its tree**.
-/
import Reckoner.Evaluators
import Reckoner.Proofs.Logic.Infix
import Reckoner.Proofs.Logic.Letters
import Reckoner.Proofs.Text.Replace

namespace Reckoner.Logic.Boolean

open Text

/-! ## Trees -/

/-- A connective of two operands. -/
inductive Binary where
  | or | nor | xor | xnor | and | nand
  deriving DecidableEq, Repr

namespace Binary

/-- The connective. -/
def toConnective : Binary → Connective
  | or => .or
  | nor => .nor
  | xor => .xor
  | xnor => .xnor
  | and => .and
  | nand => .nand

/-- How strongly a connective binds. -/
def level : Binary → Nat
  | or | nor => 0
  | xor | xnor => 1
  | and | nand => 2

/-- The truth between two operands. -/
def apply : Binary → Bool → Bool → Bool
  | or, a, b => a || b
  | nor, a, b => !(a || b)
  | xor, a, b => a ^^ b
  | xnor, a, b => !(a ^^ b)
  | and, a, b => a && b
  | nand, a, b => !(a && b)

end Binary

/-- A boolean expression. -/
inductive Expr where
  | literal (v : Bool)
  | not (operand : Expr)
  | binary (op : Binary) (left right : Expr)

/-- The truth of an expression. -/
def Expr.truth : Expr → Bool
  | literal v => v
  | not operand => !operand.truth
  | binary op left right => op.apply left.truth right.truth

/-! ## Spellings -/

/-- What a text is made of. -/
inductive Symbol where
  | literal (v : Bool)
  | connective (op : Connective)
  | opening
  | closing
  deriving DecidableEq

namespace Symbol

/-- The lower-case words and the signs that a symbol is written with. -/
def spellings : Symbol → List String
  | literal true => ["true", "1"]
  | literal false => ["false", "0"]
  | connective .or => ["or", "||"]
  | connective .nor => ["nor"]
  | connective .xor => ["xor"]
  | connective .xnor => ["xnor"]
  | connective .and => ["and", "&&"]
  | connective .nand => ["nand"]
  | connective .not => ["not", "!"]
  | opening => ["("]
  | closing => [")"]

/-- The sign or digit that a symbol is brought to. -/
def lexeme : Symbol → String
  | literal true => "1"
  | literal false => "0"
  | connective op => op.symbol
  | opening => "("
  | closing => ")"

end Symbol

/-- The symbols `ts` stand for an expression. `level` is that of its weakest connective outside
groups, 3 for a literal, a group and a negation. -/
inductive Spells : Nat → Expr → List Symbol → Prop
  | literal {v} : Spells 3 (.literal v) [.literal v]
  | group {level e ts} : Spells level e ts → Spells 3 e (.opening :: ts ++ [.closing])
  | not {e ts} : Spells 3 e ts → Spells 3 (.not e) (.connective .not :: ts)
  | binary (op : Binary) {level₁ level₂ a b ts₁ ts₂} :
      op.level ≤ level₁ → op.level < level₂ → Spells level₁ a ts₁ → Spells level₂ b ts₂ →
      Spells op.level (.binary op a b) (ts₁ ++ .connective op.toConnective :: ts₂)

/-- Symbols in a group, if they need one. -/
def enclose (needed : Bool) (ts : List Symbol) : List Symbol :=
  if needed then .opening :: ts ++ [.closing] else ts

namespace Expr

/-- The level of the weakest connective that stands in no group. -/
def level : Expr → Nat
  | literal _ | not _ => 3
  | binary op _ _ => op.level

/-- The symbols of an expression with only the groups that the levels ask for. -/
def symbols : Expr → List Symbol
  | literal v => [.literal v]
  | not operand => .connective .not :: enclose (operand.level < 3) operand.symbols
  | binary op left right =>
    enclose (left.level < op.level) left.symbols ++
      .connective op.toConnective :: enclose (right.level ≤ op.level) right.symbols

end Expr

theorem Spells.enclose {level : Nat} {e : Expr} {ts : List Symbol} (h : Spells level e ts)
    (needed : Bool) : Spells (if needed then 3 else level) e (enclose needed ts) := by
  cases needed with
  | true => exact .group h
  | false => exact h

theorem Binary.level_lt (op : Binary) : op.level < 3 := by
  cases op <;> decide

theorem Expr.level_le (e : Expr) : e.level ≤ 3 := by
  cases e with
  | literal => exact Nat.le_refl 3
  | not => exact Nat.le_refl 3
  | binary op => exact Nat.le_of_lt op.level_lt

/-- The row with the fewest groups spells the expression. -/
theorem Expr.spells_symbols (e : Expr) : Spells e.level e e.symbols := by
  induction e with
  | literal => exact .literal
  | not operand ih =>
    have hspells := ih.enclose (operand.level < 3)
    have hle := operand.level_le
    rw [show (if decide (operand.level < 3) then 3 else operand.level) = 3 by
      split <;> simp_all; omega] at hspells
    exact .not hspells
  | binary op left right ihleft ihright =>
    have hop := op.level_lt
    refine .binary op ?_ ?_ (ihleft.enclose _) (ihright.enclose _)
    · split <;> simp_all
      omega
    · split <;> simp_all

/-! ## Reading symbols -/

/-- Symbols are read as an expression of a truth value, wherever what waits lets it wait. -/
def Reads (level : Nat) (v : Bool) (ts : List Symbol) : Prop :=
  ∀ e : Infix Connective Bool, (level < 3 → Infix.Blocks rules level e.waiting) →
    ∃ r, Infix.Leaves rules e level (.ok v) r ∧
      (ts.map Symbol.lexeme).foldlM step ⟨e, true⟩ = do return ⟨← r, false⟩

theorem level_toConnective (op : Binary) : rules.level op.toConnective = op.level := by
  cases op <;> rfl

theorem apply_toConnective (op : Binary) (a b : Bool) (values : List Bool) :
    rules.apply op.toConnective (b :: a :: values) = .ok (op.apply a b :: values) := by
  cases op <;> cases a <;> cases b <;> rfl

theorem step_connective (op : Binary) (s : State) :
    step s op.toConnective.symbol = do return ⟨← s.expr.operator rules op.toConnective, true⟩ := by
  cases op <;> rfl

theorem Reads.literal (v : Bool) : Reads 3 v [.literal v] := by
  intro e _
  refine ⟨_, .operand e 3 (.ok v), ?_⟩
  cases v <;> rfl

theorem Reads.group {level : Nat} {v : Bool} {ts : List Symbol} (h : Reads level v ts) :
    Reads 3 v (.opening :: ts ++ [.closing]) := by
  intro e _
  obtain ⟨r, hr, hread⟩ := h e.open_ fun _ => trivial
  have hstep : step ⟨e, true⟩ Symbol.opening.lexeme = .ok ⟨e.open_, true⟩ := rfl
  have hclose : ∀ s, step s Symbol.closing.lexeme = do return ⟨← s.expr.close rules, false⟩ :=
    fun _ => rfl
  refine ⟨_, .operand e 3 (.ok v), ?_⟩
  simp only [List.cons_append, List.map_cons, List.map_append, List.map_nil, List.foldlM_cons,
    List.foldlM_append, List.foldlM_nil, hstep, bind_pure]
  show (ts.map Symbol.lexeme).foldlM step ⟨e.open_, true⟩ >>= _ = _
  rw [hread]
  simp only [bind_assoc, pure_bind, hclose]
  rw [← bind_assoc, hr.close]
  rfl

theorem Reads.not {v : Bool} {ts : List Symbol} (h : Reads 3 v ts) :
    Reads 3 (!v) (.connective .not :: ts) := by
  intro e _
  obtain ⟨r, hr, hread⟩ := h (e.prefixed .not) fun hlevel => absurd hlevel (Nat.lt_irrefl 3)
  refine ⟨r, ?_, hread⟩
  exact hr.waiting (g := fun v => .ok !v) (Nat.le_refl 3) (Nat.le_refl 3) fun _ => rfl

theorem Reads.binary {op : Binary} {level₁ level₂ : Nat} {a b : Bool} {ts₁ ts₂ : List Symbol}
    (h₁ : Reads level₁ a ts₁) (h₂ : Reads level₂ b ts₂) (hlevel₁ : op.level ≤ level₁)
    (hlevel₂ : op.level < level₂) :
    Reads op.level (op.apply a b) (ts₁ ++ .connective op.toConnective :: ts₂) := by
  intro e hblocks
  have hwaiting := hblocks op.level_lt
  obtain ⟨r, hr, hread⟩ := h₁ e fun _ => hwaiting.mono hlevel₁
  have hoperator := hr.operator op.toConnective (level_toConnective op ▸ hlevel₁)
    (level_toConnective op ▸ hwaiting)
  obtain ⟨r', hr', hread'⟩ := h₂ ⟨a :: e.values, some op.toConnective :: e.waiting⟩
    fun _ => show rules.level op.toConnective < level₂ from level_toConnective op ▸ hlevel₂
  refine ⟨r', ?_, ?_⟩
  · exact hr'.waiting (g := fun b => .ok (op.apply a b))
      (Nat.le_of_eq (level_toConnective op).symm) (Nat.le_of_lt hlevel₂)
      fun b => apply_toConnective op a b _
  · rw [List.map_append, List.foldlM_append, hread, bind_assoc]
    simp only [pure_bind, List.map_cons, List.foldlM_cons, Symbol.lexeme, step_connective,
      bind_assoc]
    rw [← bind_assoc, hoperator]
    exact hread'

theorem Spells.reads {level : Nat} {e : Expr} {ts : List Symbol} (h : Spells level e ts) :
    Reads level e.truth ts := by
  induction h with
  | literal => exact .literal _
  | group _ ih => exact ih.group
  | not _ ih => exact ih.not
  | binary _ hlevel₁ hlevel₂ _ _ ih₁ ih₂ => exact ih₁.binary ih₂ hlevel₁ hlevel₂

/-! ## Written symbols -/

/-- A symbol as it is written: one of its spellings, in letters of either case. -/
structure Written where
  symbol : Symbol
  text : List Char
  spelled : String.ofList (text.map Char.toLower) ∈ symbol.spellings

namespace Written

/-- The lower-case spelling. -/
def low (w : Written) : List Char := w.text.map Char.toLower

/-- What is true of all spellings. -/
theorem spelling_spec (s : Symbol) : ∀ t ∈ s.spellings, Uniform t.toList ∧
    (∀ c ∈ t.toList, c.toNat < 128 ∧ isBlank c = false ∧
      c ∉ ['<', '>', '~', '^', '=']) ∧
    ('&' ∉ t.toList ∨ t.toList = ['&', '&']) ∧ ('|' ∉ t.toList ∨ t.toList = ['|', '|']) ∧
    replaced words t.toList = s.lexeme.toList := by
  cases s with
  | literal v => cases v <;> decide
  | connective op => cases op <;> decide
  | opening => decide
  | closing => decide

theorem low_spelled (w : Written) : ∃ t ∈ w.symbol.spellings, t.toList = w.low :=
  ⟨_, w.spelled, String.toList_ofList⟩

theorem solid (w : Written) : Solid w.text := by
  obtain ⟨t, ht, hlow⟩ := w.low_spelled
  obtain ⟨⟨hne, -⟩, hchars, -⟩ := spelling_spec w.symbol t ht
  rw [hlow] at hne hchars
  refine ⟨fun h => hne (by rw [low, h]; rfl), fun c hc => ?_⟩
  have := (hchars c.toLower (List.mem_map_of_mem hc)).2.1
  rwa [isBlank_toLower] at this

theorem ascii (w : Written) : ∀ c ∈ w.text, c.toNat < 128 := by
  obtain ⟨t, ht, hlow⟩ := w.low_spelled
  obtain ⟨-, hchars, -⟩ := spelling_spec w.symbol t ht
  rw [hlow] at hchars
  intro c hc
  by_contra hge
  have := (hchars c.toLower (List.mem_map_of_mem hc)).1
  rw [toLower_of_not_ascii hge] at this
  exact hge this

theorem uniform (w : Written) : Uniform w.low := by
  obtain ⟨t, ht, hlow⟩ := w.low_spelled
  exact hlow ▸ (spelling_spec w.symbol t ht).1

end Written

variable {ws : List Written} {cs : List Char}

/-- The text holds the symbols, and no two words run into one. -/
def Holds (ws : List Written) (cs : List Char) : Prop :=
  Spaced Written.text (Apart Written.text) ws cs

theorem Holds.canonical (h : Holds ws cs) :
    Spaced Written.low (Apart Written.low) ws (canonical cs) :=
  Spaced.canonical (fun w _ => w.solid) (fun w _ => w.ascii) h

/-! ## The mode -/

theorem hasSingle_append {needle : Char} {p : List Char} (hp : needle ∉ p) (cs : List Char)
    (before : Option Char) : ∃ before', Bitwise.hasSingle needle before (p ++ cs) =
      Bitwise.hasSingle needle before' cs := by
  induction p generalizing before with
  | nil => exact ⟨before, rfl⟩
  | cons c p ih =>
    rw [List.mem_cons, not_or] at hp
    obtain ⟨before', h⟩ := ih hp.2 (some c)
    refine ⟨before', ?_⟩
    rw [List.cons_append, Bitwise.hasSingle, h, beq_eq_false_iff_ne.2 (Ne.symm hp.1)]
    rfl

theorem hasSingle_pair (needle : Char) (before : Option Char) :
    Bitwise.hasSingle needle before ([needle, needle] ++ cs) =
      Bitwise.hasSingle needle (some needle) cs := by
  simp [Bitwise.hasSingle]

/-- A sign that is always doubled never stands by itself. -/
theorem hasSingle_eq_false {needle : Char} (hneedle : isBlank needle = false)
    (hws : ∀ w ∈ ws, needle ∉ w.low ∨ w.low = [needle, needle])
    (h : Spaced Written.low (Apart Written.low) ws cs) (before : Option Char) :
    Bitwise.hasSingle needle before cs = false := by
  have hblanks : ∀ bs : List Char, (∀ b ∈ bs, isBlank b = true) → needle ∉ bs :=
    fun bs hbs hmem => Bool.false_ne_true (hneedle.symm.trans (hbs needle hmem))
  induction h generalizing before with
  | @nil bs hbs =>
    obtain ⟨before', heq⟩ := hasSingle_append (hblanks bs hbs) [] before
    rw [List.append_nil] at heq
    exact heq
  | @cons bs w ws cs hbs _ _ ih =>
    obtain ⟨hw, hws⟩ := List.forall_mem_cons.1 hws
    obtain ⟨before', heq⟩ := hasSingle_append (hblanks bs hbs) (w.low ++ cs) before
    rw [List.append_assoc, heq]
    rcases hw with hw | hw
    · obtain ⟨before'', heq'⟩ := hasSingle_append hw cs before'
      rw [heq', ih hws]
    · rw [hw, hasSingle_pair, ih hws]

/-- Neither bitwise signs nor signs of comparison are in the text. -/
theorem Holds.detect (h : Holds ws cs) : Mode.detect (Text.canonical cs) = .boolean := by
  have hcanonical := h.canonical
  have hspec : ∀ w ∈ ws, ('&' ∉ w.low ∨ w.low = ['&', '&']) ∧
      ('|' ∉ w.low ∨ w.low = ['|', '|']) ∧ ∀ c ∈ w.low, c ∉ ['<', '>', '~', '^', '='] := by
    intro w _
    obtain ⟨t, ht, hlow⟩ := w.low_spelled
    obtain ⟨-, hchars, hand, hor, -⟩ := Written.spelling_spec w.symbol t ht
    rw [hlow] at hchars hand hor
    exact ⟨hand, hor, fun c hc => (hchars c hc).2.2⟩
  have hchars : ∀ c ∈ Text.canonical cs, c ∉ ['<', '>', '~', '^', '='] := by
    refine hcanonical.forall_mem (fun b hb hmem => ?_) fun w hw => (hspec w hw).2.2
    have hsigns : ∀ c ∈ ['<', '>', '~', '^', '='], isBlank c = false := by decide
    exact Bool.false_ne_true ((hsigns b hmem).symm.trans hb)
  have hnot : ∀ c ∈ ['<', '>', '~', '^', '='], c ∉ Text.canonical cs :=
    fun c hc hmem => hchars c hmem hc
  have hbitwise : Bitwise.isBitwise (Text.canonical cs) = false := by
    rw [Bitwise.isBitwise,
      Bool.eq_false_iff.2 (mt Bitwise.mem_of_hasDouble (hnot '<' (by decide))),
      Bool.eq_false_iff.2 (mt Bitwise.mem_of_hasDouble (hnot '>' (by decide))),
      hasSingle_eq_false rfl (fun w hw => (hspec w hw).1) hcanonical,
      hasSingle_eq_false rfl (fun w hw => (hspec w hw).2.1) hcanonical,
      List.contains_eq_mem, List.contains_eq_mem, decide_eq_false (hnot '~' (by decide)),
      decide_eq_false (hnot '^' (by decide))]
    rfl
  have hcomparison : Comparison.isComparison (Text.canonical cs) = false := by
    rw [Bool.eq_false_iff]
    intro hsome
    obtain ⟨c, hc, hsign⟩ := Comparison.exists_sign hsome
    have hsub : ∀ c ∈ ['<', '>', '='], c ∈ ['<', '>', '~', '^', '='] := by decide
    exact hchars c hc (hsub c hsign)
  rw [Mode.detect, hbitwise, hcomparison]
  rfl

/-! ## Lexemes -/

/-- What may come right after a symbol: no numeral goes on after a literal, and after a negation
there is no sign that it would join. -/
def Touches (s : Symbol) (rest : List Char) : Prop :=
  (EndsApart s.lexeme.toList ∨ StartsApart rest) ∧ rest.head? ≠ some '.' ∧
    (s = .connective .not → ∀ c ∈ rest.head?, c ∉ ['&', '|', '^'])

theorem numeralRun_apart {rest : List Char} (hrest : StartsApart rest)
    (hpoint : rest.head? ≠ some '.') : numeralRun rest = 0 := by
  have hdigits : ([] ++ rest).takeWhile isDigit = [] :=
    takeWhile_apart (fun _ => isWordChar_of_digit) nofun hrest
  rw [List.nil_append] at hdigits
  simp only [numeralRun, hdigits, List.length_nil, List.drop_zero]
  split
  · next heq => exact absurd rfl hpoint
  · rfl

theorem takes_digit {c : Char} (hc : c = '0' ∨ c = '1') {rest : List Char}
    (hrest : StartsApart rest) (hpoint : rest.head? ≠ some '.') :
    Takes lexeme [c] () rest := by
  refine ⟨c, [], rfl, by rcases hc with rfl | rfl <;> rfl, ?_⟩
  have hrun := numeralRun_apart hrest hpoint
  rcases hc with rfl | rfl
  · exact congrArg (Prod.mk ()) hrun
  · exact congrArg (Prod.mk ()) hrun

theorem takes_not {rest : List Char} (hnot : ∀ c ∈ rest.head?, c ∉ ['&', '|', '^']) :
    Takes lexeme ['!'] () rest := by
  refine ⟨'!', [], rfl, rfl, ?_⟩
  have hhead : (rest.head?.any fun d => d == '&' || d == '|' || d == '^') = false := by
    cases rest with
    | nil => rfl
    | cons d rest => simpa [not_or, and_assoc] using hnot d rfl
  show ((), if rest.head?.any (fun d => d == '&' || d == '|' || d == '^') then 1 else 0) = _
  rw [hhead]
  rfl

theorem Symbol.takes (s : Symbol) {rest : List Char} (h : Touches s rest) :
    Takes Boolean.lexeme s.lexeme.toList () rest := by
  obtain ⟨hapart, hpoint, hnot⟩ := h
  cases s with
  | literal v =>
    cases v with
    | true => exact takes_digit (.inr rfl) (hapart.resolve_left Bool.noConfusion) hpoint
    | false => exact takes_digit (.inl rfl) (hapart.resolve_left Bool.noConfusion) hpoint
  | connective op =>
    cases op with
    | not => exact takes_not (hnot rfl)
    | _ => exact ⟨_, _, rfl, rfl, rfl⟩
  | opening => exact ⟨_, _, rfl, rfl, rfl⟩
  | closing => exact ⟨_, _, rfl, rfl, rfl⟩

/-- What a lexeme may be, first character by first character. -/
theorem lexeme_spec (s : Symbol) : ∃ c cs, s.lexeme.toList = c :: cs ∧ c ≠ '.' ∧
    ((∀ op, s = .connective op → op = .not) → c ∉ ['&', '|', '^']) := by
  cases s with
  | literal v => cases v <;> exact ⟨_, _, rfl, by decide, fun _ => by decide⟩
  | connective op =>
    cases op with
    | not => exact ⟨_, _, rfl, by decide, fun _ => by decide⟩
    | _ => exact ⟨_, _, rfl, by decide, fun h => absurd (h _ rfl) (by decide)⟩
  | opening => exact ⟨_, _, rfl, by decide, fun _ => by decide⟩
  | closing => exact ⟨_, _, rfl, by decide, fun _ => by decide⟩

/-- After a negation no connective of two operands stands. -/
def Follows (s s' : Symbol) : Prop :=
  s = .connective .not → ∀ op, s' = .connective op → op = .not

theorem Spells.follows {level : Nat} {e : Expr} {ts : List Symbol} (h : Spells level e ts) :
    ts.IsChain Follows ∧ (level = 3 → ∀ s ∈ ts.head?, ∀ op, s = .connective op → op = .not) ∧
      ∃ s, ts.getLast? = some s ∧ s ≠ .connective .not := by
  have hcons : ∀ {s : Symbol} {us}, s ≠ .connective .not → us.IsChain Follows →
      (s :: us).IsChain Follows := fun hs hus => hus.cons fun _ _ heq => absurd heq hs
  induction h with
  | @literal v =>
    refine ⟨.singleton _, fun _ s hs op hop => ?_, _, rfl, nofun⟩
    obtain rfl := Option.some.inj hs
    exact Symbol.noConfusion hop
  | group _ ih =>
    obtain ⟨hchain, -, s, hlast, hs⟩ := ih
    refine ⟨hcons nofun (hchain.append (.singleton _) fun s' hs' _ _ heq => ?_),
      fun _ s hs op hop => ?_, _, List.getLast?_concat, nofun⟩
    · obtain rfl := Option.some.inj (hlast.symm.trans hs')
      exact absurd heq hs
    · obtain rfl := Option.some.inj hs
      exact Symbol.noConfusion hop
  | not _ ih =>
    obtain ⟨hchain, hhead, s, hlast, hs⟩ := ih
    refine ⟨hchain.cons fun s' hs' _ => hhead rfl s' hs', fun _ s hs op hop => ?_, s, ?_, hs⟩
    · obtain rfl := Option.some.inj hs
      exact (Symbol.connective.inj hop).symm
    · rw [List.getLast?_cons, hlast]
      rfl
  | binary op _ _ _ _ ih₁ ih₂ =>
    obtain ⟨hchain₁, -, s₁, hlast₁, hs₁⟩ := ih₁
    obtain ⟨hchain₂, -, s₂, hlast₂, hs₂⟩ := ih₂
    have hop : Symbol.connective op.toConnective ≠ .connective .not := by
      cases op <;> decide
    refine ⟨hchain₁.append (hcons hop hchain₂) fun s hs _ _ heq => ?_,
      fun hlevel => absurd hlevel (Nat.ne_of_lt op.level_lt), s₂, ?_, hs₂⟩
    · obtain rfl := Option.some.inj (hlast₁.symm.trans hs)
      exact absurd heq hs₁
    · rw [List.getLast?_append, List.getLast?_cons, hlast₂]
      rfl

/-- Words and signs brought to signs and digits. -/
theorem Holds.substitute (h : Holds ws cs) :
    Spaced (fun w : Written => w.symbol.lexeme.toList)
      (Apart fun w : Written => w.symbol.lexeme.toList) ws
      (substituteWords (Text.canonical cs)) := by
  have htable : ∀ w ∈ words, w.1.toList ≠ [] ∧ (∀ c ∈ w.1.toList, isAsciiLower c = true) ∧
      Uniform w.2.toList := by
    decide
  have hreplaced : (fun w : Written => replaced words w.low) =
      fun w => w.symbol.lexeme.toList := by
    funext w
    obtain ⟨t, ht, hlow⟩ := w.low_spelled
    rw [← hlow]
    exact (Written.spelling_spec w.symbol t ht).2.2.2.2
  have hspaced := h.canonical.replaceWords
    (fun w hw => (htable w hw).imp_right fun h => h.imp_right Uniform.replaceable)
    fun w _ => w.uniform.replaceable
  exact hreplaced ▸ hspaced

theorem Holds.lexemes (h : Holds ws cs) (hfollows : (ws.map Written.symbol).IsChain Follows) :
    lexemes (substituteWords (Text.canonical cs)) = (ws.map Written.symbol).map Symbol.lexeme := by
  have htouches : Spaced (fun w : Written => w.symbol.lexeme.toList)
      (fun w rest => Touches w.symbol rest) ws (substituteWords (Text.canonical cs)) := by
    refine h.substitute.of_chain (fun w rest hapart hblank => ?_)
      (fun w w' rest hfollows hapart => ?_) ((List.isChain_map _).1 hfollows)
    · have hsigns : ∀ c ∈ rest.head?, c ∉ ['.', '&', '|', '^'] := by
        intro c hc hmem
        have hnot : ∀ c ∈ ['.', '&', '|', '^'], isBlank c = false := by decide
        rw [hc] at hblank
        exact Bool.false_ne_true ((hnot c hmem).symm.trans hblank)
      refine ⟨hapart, fun hpoint => hsigns '.' hpoint (by decide), fun _ c hc hmem => ?_⟩
      exact hsigns c hc (List.mem_cons_of_mem _ hmem)
    · obtain ⟨c, p, hp, hpoint, hsign⟩ := lexeme_spec w'.symbol
      refine ⟨hapart, ?_, fun hnot d hd => ?_⟩
      · rw [hp]
        exact fun heq => hpoint (Option.some.inj heq)
      · rw [hp] at hd
        obtain rfl := Option.some.inj hd
        exact hsign (hfollows hnot)
  have hcut := htouches.cut (fun w rest hw => w.symbol.takes hw) 0
  have htexts := congrArg (List.map fun p => String.ofList p.2) hcut
  simpa [Boolean.lexemes, Function.comp_def] using htexts

/-- **A text is a boolean expression with the truth of its tree.** A tree has a spelling; and every
query that holds the symbols of a spelling, with any groups, any blanks and letters of either
case, is a boolean expression that is answered with the truth of the tree. -/
theorem evaluate_written (e : Expr) :
    Spells e.level e e.symbols ∧
      ∀ level ts ws, ∀ q : String, Spells level e ts → ws.map Written.symbol = ts →
        Holds ws q.toList →
          Mode.detect (canonical q.toList) = .boolean ∧
            Logic.evaluate q = .success (trimmed q) (if e.truth then "True" else "False")
              .logicEvaluation ("Result: " ++ if e.truth then "True" else "False")
              (some (if e.truth then 1.0 else 0.0)) := by
  refine ⟨e.spells_symbols, fun level ts ws q hspells hws hq => ⟨hq.detect, ?_⟩⟩
  obtain ⟨hfollows, -, s, hlast, -⟩ := hspells.follows
  have hlexemes := hq.lexemes (hws ▸ hfollows)
  obtain ⟨r, hr, hread⟩ := hspells.reads {} fun _ => trivial
  have htruth : evaluate (canonical q.toList) = .ok e.truth := by
    rw [evaluate, hlexemes, hws]
    show (ts.map Symbol.lexeme).foldlM step ⟨{}, true⟩ >>= _ = _
    rw [hread]
    simpa only [bind_assoc, pure_bind] using hr.finish
  have hempty : (trimmed q).isEmpty = false := by
    have hmem : s ∈ ws.map Written.symbol := hws ▸ List.mem_of_getLast? hlast
    obtain ⟨w, hw, -⟩ := List.mem_map.1 hmem
    rw [trimmed_isEmpty]
    exact Spaced.not_all_blank hq hw w.solid
  have hanswer : answer? (trimmed q) = .ok (truthAnswer (trimmed q) e.truth) := by
    simp only [answer?, hempty, canonical_trimmed, hq.detect, htruth]
    rfl
  rw [Logic.evaluate, hanswer]
  rfl

/-- `Not TRUE xor(0||1)` is true, as `(not true) xor (false or true)` is. -/
theorem evaluate_written_negation :
    Logic.evaluate "Not TRUE xor(0||1)" = .success "Not TRUE xor(0||1)" "True" .logicEvaluation
      "Result: True" (some 1.0) := by
  have hspells := Spells.binary .xor (by decide) (by decide) (.not (.literal (v := true)))
    (.group (.binary .or (by decide) (by decide) (.literal (v := false)) (.literal (v := true))))
  have hq : Holds [⟨.connective .not, "Not".toList, by decide⟩,
      ⟨.literal true, "TRUE".toList, by decide⟩, ⟨.connective .xor, "xor".toList, by decide⟩, ⟨.opening, ['('], by decide⟩,
      ⟨.literal false, ['0'], by decide⟩, ⟨.connective .or, ['|', '|'], by decide⟩,
      ⟨.literal true, ['1'], by decide⟩, ⟨.closing, [')'], by decide⟩]
      "Not TRUE xor(0||1)".toList :=
    .piece (.inr rfl) (.blank rfl (.piece (.inr rfl) (.blank rfl (.piece (.inr rfl)
      (.piece (.inl rfl) (.piece (.inr rfl) (.piece (.inl rfl) (.piece (.inr rfl)
        (.piece (.inl rfl) (.nil nofun))))))))))
  exact ((evaluate_written _).2 1 _ _ _ hspells rfl hq).2

end Reckoner.Logic.Boolean
