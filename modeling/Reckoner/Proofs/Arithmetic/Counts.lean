/-
  Calls with too few or too many arguments.

  * `Draft`: an expression whose calls take any number of arguments, `Draft.IsExact` if each takes
    as many as its function; `Draft.Spells`: the token lists that stand for one;
  * `Draft.height`: how high a stack is once the code of a draft has worked on it, if no number
    is missing; `Draft.surplus`: how many arguments there are too many;
  * `Draft.Spells.reads`: the yard reads every spelling as code that carries the stack there;
  * `runPostfix_draft`: **counts are not compared: an expression is refused if, in all, the numbers
    do not come out even, and otherwise only values can make it fail**.

  A call takes its arguments from a stack that all calls share. In `sqrt(1, pow(2))` the argument
  that `sqrt` has too many is the one that `pow` misses.
-/
import Mathlib.Data.Fin.VecNotation
import Reckoner.Proofs.Arithmetic.Code

namespace Reckoner.Arithmetic

open Text

/-! ## Drafts -/

/-- An expression whose calls take any number of arguments. -/
inductive Draft where
  | literal (numeral : String)
  | binary (operator : Operator) (left right : Draft)
  | minus (operand : Draft)
  | plus (operand : Draft)
  | call {n : Nat} (f : Function) (args : Fin n → Draft)

/-- The height of a stack that the effects have worked on in turn. -/
def heightThrough (effects : List (Nat → Option Nat)) (height : Nat) : Option Nat :=
  effects.foldlM (fun height effect => effect height) height

namespace Draft

/-- Every call takes as many arguments as its function. -/
def IsExact : Draft → Prop
  | literal _ => True
  | binary _ left right => left.IsExact ∧ right.IsExact
  | minus operand | plus operand => operand.IsExact
  | @call n f args => n = f.arity ∧ ∀ i, (args i).IsExact

/-- How high a stack is once the code of a draft has worked on it, if no number is missing. -/
def height : Draft → Nat → Option Nat
  | literal _, before => heightAfter 0 before
  | binary _ left right, before =>
    ((left.height before).bind right.height).bind (heightAfter 2)
  | minus operand, before => (operand.height before).bind (heightAfter 1)
  | plus operand, before => operand.height before
  | call f args, before =>
    (heightThrough (List.ofFn fun i => (args i).height) before).bind (heightAfter f.arity)

/-- How many arguments there are too many in all, less those that are missing. -/
def surplus : Draft → Int
  | literal _ => 0
  | binary _ left right => left.surplus + right.surplus
  | minus operand | plus operand => operand.surplus
  | @call n f args => (List.ofFn fun i => (args i).surplus).sum + (n - f.arity)

/-- In all, each function and each operator finds the numbers that it takes, and one is left. -/
def IsEven (d : Draft) : Prop := d.height 0 = some 1

/-- The tokens `ts` stand for a draft. `level` is that of its weakest operator outside groups, 4
    if there is none; it is open if it ends in the operand of a minus. -/
inductive Spells : Nat → Bool → Draft → List Token → Prop
  | literal {numeral p} : (Decimal.readFloat? numeral.toList).isSome →
      Spells 4 false (.literal numeral) [⟨.number, numeral, p⟩]
  | group {level isOpen d ts p q} : Spells level isOpen d ts →
      Spells 4 false d (⟨.parenthesis, "(", p⟩ :: ts ++ [⟨.parenthesis, ")", q⟩])
  | bare {f p q r} {args : Fin 0 → Draft} : Spells 4 false (.call f args)
      [⟨.function, f.name, p⟩, ⟨.parenthesis, "(", q⟩, ⟨.parenthesis, ")", r⟩]
  | call {n f} {args : Fin n → Draft} {levels : Fin n → Nat} {opens : Fin n → Bool}
      {spellings : Fin n → List Token} {ts p q r} :
      (∀ i, Spells (levels i) (opens i) (args i) (spellings i)) →
      Joined (List.ofFn spellings) ts →
      Spells 4 false (.call f args)
        (⟨.function, f.name, p⟩ :: ⟨.parenthesis, "(", q⟩ :: ts ++ [⟨.parenthesis, ")", r⟩])
  | minus {level isOpen d ts p} : 3 ≤ level → Spells level isOpen d ts →
      Spells 4 true (.minus d) (⟨.operator, "-", p⟩ :: ts)
  | plus {level isOpen d ts p} : Spells level isOpen d ts →
      Spells level isOpen (.plus d) (⟨.operator, "+", p⟩ :: ts)
  | binary (operator : Operator) {level₁ level₂ isOpen₁ isOpen₂ a b ts₁ ts₂ p} :
      operator.level ≤ level₁ → (operator.level = 3 → isOpen₁ = false) →
      operator.level < level₂ → Spells level₁ isOpen₁ a ts₁ → Spells level₂ isOpen₂ b ts₂ →
      Spells operator.level isOpen₂ (.binary operator a b)
        (ts₁ ++ ⟨.operator, operator.symbol, p⟩ :: ts₂)

/-! ## Heights -/

theorem eq_of_heightAfter {count before after : Nat} (h : heightAfter count before = some after) :
    (after : Int) = before + 1 - count := by
  unfold heightAfter at h
  split_ifs at h with hle
  · obtain rfl := Option.some.inj h
    omega

theorem heightThrough_cons (effect : Nat → Option Nat) (effects : List (Nat → Option Nat))
    (before : Nat) :
    heightThrough (effect :: effects) before = (effect before).bind (heightThrough effects) := rfl

theorem eq_of_heightThrough {n : Nat} {effects : Fin n → Nat → Option Nat} {gains : Fin n → Int}
    (heffects : ∀ i before after, effects i before = some after →
      (after : Int) = before + 1 + gains i) :
    ∀ {before after : Nat}, heightThrough (List.ofFn effects) before = some after →
      (after : Int) = before + n + (List.ofFn gains).sum := by
  induction n with
  | zero =>
    intro before after h
    obtain rfl : before = after := Option.some.inj h
    simp
  | succ n ih =>
    intro before after h
    rw [List.ofFn_succ, heightThrough_cons, Option.bind_eq_some_iff] at h
    obtain ⟨mid, hfirst, hrest⟩ := h
    have hmid := heffects 0 before mid hfirst
    have hafter := ih (fun i => heffects i.succ) hrest
    rw [List.ofFn_succ, List.sum_cons]
    push_cast
    omega

/-- The height tells how many arguments there are too many. -/
theorem surplus_of_height {d : Draft} : ∀ {before after : Nat}, d.height before = some after →
    (after : Int) = before + 1 + d.surplus := by
  induction d with
  | literal numeral =>
    intro before after h
    have hafter := eq_of_heightAfter h
    rw [surplus]
    omega
  | binary operator left right ihleft ihright =>
    intro before after h
    rw [height, Option.bind_eq_some_iff] at h
    obtain ⟨mid, hoperands, h⟩ := h
    obtain ⟨first, hleft, hright⟩ := Option.bind_eq_some_iff.1 hoperands
    have hfirst := ihleft hleft
    have hmid := ihright hright
    have hafter := eq_of_heightAfter h
    rw [surplus]
    omega
  | minus operand ih =>
    intro before after h
    rw [height, Option.bind_eq_some_iff] at h
    obtain ⟨mid, hoperand, h⟩ := h
    have hmid := ih hoperand
    have hafter := eq_of_heightAfter h
    rw [surplus]
    omega
  | plus operand ih => exact ih
  | @call n f args ih =>
    intro before after h
    rw [height, Option.bind_eq_some_iff] at h
    obtain ⟨mid, hargs, h⟩ := h
    have hmid := eq_of_heightThrough (fun i before after => @ih i before after) hargs
    have hafter := eq_of_heightAfter h
    rw [surplus]
    omega

theorem heightThrough_of_exact {n : Nat} {effects : Fin n → Nat → Option Nat}
    (heffects : ∀ i before, effects i before = some (before + 1)) (before : Nat) :
    heightThrough (List.ofFn effects) before = some (before + n) := by
  induction n generalizing before with
  | zero => rfl
  | succ n ih =>
    rw [List.ofFn_succ, heightThrough_cons, heffects, Option.bind_some,
      ih fun i => heffects i.succ]
    congr 1
    omega

/-- With the right counts throughout, one number is put on the stack. -/
theorem height_of_exact {d : Draft} (h : d.IsExact) :
    ∀ before, d.height before = some (before + 1) := by
  induction d with
  | literal numeral => exact fun _ => rfl
  | binary operator left right ihleft ihright =>
    intro before
    simp [height, ihleft h.1, ihright h.2, heightAfter]
  | minus operand ih =>
    intro before
    simp [height, ih h, heightAfter]
  | plus operand ih => exact ih h
  | call f args ih =>
    intro before
    obtain ⟨rfl, hargs⟩ := h
    simp [height, heightThrough_of_exact fun i => ih i (hargs i), heightAfter]

end Draft

/-! ## Code -/

/-- Code carries a stack from each height to the one that `effect` gives. -/
def Carries (angles : AngleUnit) (effect : Nat → Option Nat) (code : List Token) : Prop :=
  ∀ stack, Meets (effect stack.length) (code.foldlM (runStep angles) stack)

namespace Carries

variable {angles : AngleUnit} {effect effect₁ effect₂ : Nat → Option Nat}
  {code code₁ code₂ : List Token} {t : Token}

theorem append (h₁ : Carries angles effect₁ code₁) (h₂ : Carries angles effect₂ code₂) :
    Carries angles (fun before => (effect₁ before).bind effect₂) (code₁ ++ code₂) := by
  intro stack
  rw [List.foldlM_append]
  exact (h₁ stack).bind h₂

theorem concat (h : Carries angles effect₁ code)
    (ht : ∀ stack, Meets (effect₂ stack.length) (runStep angles stack t)) :
    Carries angles (fun before => (effect₁ before).bind effect₂) (code ++ [t]) := by
  refine h.append fun stack => ?_
  rw [List.foldlM_cons]
  simpa only [List.foldlM_nil, bind_pure] using ht stack

theorem flatten {effects : List (Nat → Option Nat)} {codes : List (List Token)}
    (h : List.Forall₂ (Carries angles) effects codes) :
    Carries angles (heightThrough effects) codes.flatten := by
  induction h with
  | nil => exact fun _ => rfl
  | cons hcode _ ih => exact hcode.append ih

end Carries

namespace Draft

/-- The yard reads every spelling of a draft as code that carries the stack as the draft says. -/
theorem Spells.reads (angles : AngleUnit) {level : Nat} {isOpen : Bool} {d : Draft}
    {ts : List Token} (h : Spells level isOpen d ts) :
    ReadsAs (Carries angles d.height) level isOpen ts := by
  have hminus : ∀ effect code p, Carries angles effect code →
      Carries angles (fun before => (effect before).bind (heightAfter 1))
        (code ++ [⟨.operator, negation, p⟩]) :=
    fun _ _ _ hcode => hcode.concat fun _ => meets_negation
  induction h with
  | literal hnumeral =>
    refine .literal fun stack => ?_
    simp only [List.foldlM_cons, List.foldlM_nil, bind_pure]
    exact meets_number hnumeral
  | group _ ih => exact ih.group
  | @bare f p q r args =>
    have hcode : Carries angles (Draft.call f args).height ([] ++ [⟨.function, f.name, p⟩]) :=
      (Carries.flatten .nil).concat fun _ => meets_function f
    exact ⟨[_], [], nofun, hcode, fun _ _ _ => rfl⟩
  | @call n f args _ _ spellings _ _ _ _ _ hjoined ih =>
    have hargs : List.Forall₂
        (fun effect ts => ∃ level isOpen, ReadsAs (Carries angles effect) level isOpen ts)
        (List.ofFn fun i => (args i).height) (List.ofFn spellings) := by
      refine List.forall₂_iff_get.2 ⟨by simp, fun i _ _ => ?_⟩
      simp only [List.get_ofFn]
      exact ⟨_, _, ih _⟩
    refine ReadsAs.call (fun code hcode => ?_) (ReadsAllAs.of_joined hjoined hargs)
    obtain ⟨codes, hcodes, rfl⟩ := hcode
    exact (Carries.flatten hcodes).concat fun _ => meets_function f
  | minus hlevel _ ih => exact ih.minus (hminus _ · _) hlevel
  | plus _ ih => exact ih.plus
  | binary operator hlevel₁ hopen hlevel₂ _ _ ih₁ ih₂ =>
    refine ReadsAs.binary (fun code₁ code₂ h₁ h₂ => ?_) hlevel₁ hopen hlevel₂ ih₁ ih₂
    exact (h₁.append h₂).concat fun _ => meets_symbol operator

theorem Spells.ne_nil {level : Nat} {isOpen : Bool} {d : Draft} {ts : List Token}
    (h : Spells level isOpen d ts) : ts ≠ [] := by
  cases h <;> simp

end Draft

/-! ## Runs -/

section
variable {angles : AngleUnit}

/-- Code that leaves one number fails on values only. -/
theorem Carries.runPostfix_even {effect : Nat → Option Nat} {code : List Token} {f : Failure}
    (h : Carries angles effect code) (heven : effect 0 = some 1)
    (hf : runPostfix angles code = .error f) : f.family = .domain := by
  have hmeets := h []
  rw [List.length_nil, heven] at hmeets
  rw [runPostfix] at hf
  generalize code.foldlM (runStep angles) [] = x at hmeets hf
  cases x with
  | error e =>
    obtain rfl : e = f := Except.error.inj hf
    exact hmeets
  | ok stack =>
    obtain ⟨y, rfl⟩ := List.length_eq_one_iff.1 hmeets
    cases hf

/-- Code that does not leave one number fails. -/
theorem Carries.runPostfix_uneven {effect : Nat → Option Nat} {code : List Token}
    (h : Carries angles effect code) (huneven : effect 0 ≠ some 1) :
    ∃ f, runPostfix angles code = .error f := by
  have hmeets := h []
  rw [List.length_nil] at hmeets
  rw [runPostfix]
  generalize code.foldlM (runStep angles) [] = x at hmeets ⊢
  cases x with
  | error e => exact ⟨e, rfl⟩
  | ok stack =>
    cases hheight : effect 0 with
    | none =>
      rw [hheight] at hmeets
      exact hmeets.elim
    | some height =>
      rw [hheight] at hmeets huneven
      rcases stack with _ | ⟨y, _ | ⟨z, stack⟩⟩
      · exact ⟨_, rfl⟩
      · exact absurd (congrArg some hmeets.symm) huneven
      · exact ⟨_, rfl⟩

/-- A text that has tokens is not blank. -/
theorem compute_of_tokenize {cs : List Char} {ts : List Token} (hne : ts ≠ [])
    (h : tokenize (spell cs) = .ok ts) (angles : AngleUnit) :
    compute angles cs = toPostfix ts >>= runPostfix angles := by
  have hblank : ¬ cs.all isBlank = true := by
    intro hall
    have hstrip : strip (lower cs) = [] := by
      refine strip_of_blanks ?_
      rwa [← List.all_eq_true, lower_all_blank]
    have hspell : spell cs = [] := by
      rw [spell, hstrip]
      rfl
    have hnil : tokenize [] = .ok [] := by
      rw [tokenize, Slice.cut_nil]
      rfl
    rw [hspell] at h
    exact hne (Except.ok.inj (h.symm.trans hnil))
  rw [compute, if_neg hblank, h]
  rfl

end

/-- **The arguments of a call are not counted.** Every spelling of a draft is converted. If, in
all, the numbers do not come out even, running the result fails, as it does whenever the draft
has more arguments than its functions take or fewer. If they come out even, be the counts right
or wrong, only values can make it fail. A text that is cut to the tokens has the same value. -/
theorem runPostfix_draft (angles : AngleUnit) {d : Draft} {level : Nat} {isOpen : Bool}
    {ts : List Token} (h : Draft.Spells level isOpen d ts) :
    (d.IsExact → d.IsEven) ∧ (d.surplus ≠ 0 → ¬ d.IsEven) ∧
      ∃ code, toPostfix ts = .ok code ∧
        (¬ d.IsEven → ∃ f, runPostfix angles code = .error f) ∧
        (d.IsEven → ∀ f, runPostfix angles code = .error f → f.family = .domain) ∧
        ∀ cs, tokenize (spell cs) = .ok ts → compute angles cs = runPostfix angles code := by
  refine ⟨fun hexact => Draft.height_of_exact hexact 0, fun hsurplus heven => ?_, ?_⟩
  · have hheight := Draft.surplus_of_height heven
    omega
  · obtain ⟨code, hpostfix, hcode⟩ := (h.reads angles).toPostfix
    refine ⟨code, hpostfix, hcode.runPostfix_uneven, fun heven f => hcode.runPostfix_even heven,
      fun cs hcs => ?_⟩
    rw [compute_of_tokenize h.ne_nil hcs, hpostfix]
    rfl

/-- `sqrt(1, pow(2))`, where `sqrt` has too many arguments and `pow` too few. -/
def sharedArgument : Draft :=
  @Draft.call 2 .sqrt ![.literal "1", @Draft.call 1 .pow ![.literal "2"]]

/-- What `sqrt` has too many is what `pow` misses, so the counts pass unnoticed. -/
theorem runPostfix_draft_shared :
    ¬ sharedArgument.IsExact ∧ sharedArgument.IsEven ∧ ∃ code,
      toPostfix [⟨.function, "sqrt", 0⟩, ⟨.parenthesis, "(", 4⟩, ⟨.number, "1", 5⟩,
        ⟨.comma, ",", 6⟩, ⟨.function, "pow", 7⟩, ⟨.parenthesis, "(", 10⟩, ⟨.number, "2", 11⟩,
        ⟨.parenthesis, ")", 12⟩, ⟨.parenthesis, ")", 13⟩] = .ok code ∧
      ∀ f, runPostfix .radians code = .error f → f.family = .domain := by
  have power : Draft.Spells 4 false (@Draft.call 1 .pow ![.literal "2"]) _ :=
    @Draft.Spells.call 1 .pow _ ![4] ![false] ![[⟨.number, "2", 11⟩]] _ 7 10 12
      (fun | 0 => .literal (by decide)) .last
  have shared : Draft.Spells 4 false sharedArgument _ :=
    @Draft.Spells.call 2 .sqrt _ ![4, 4] ![false, false] ![[⟨.number, "1", 5⟩], _] _ 0 4 13
      (fun | 0 => .literal (by decide) | 1 => power) (.more (p := 6) .last)
  obtain ⟨-, -, code, hpostfix, -, heven, -⟩ := runPostfix_draft .radians shared
  exact ⟨fun h => absurd h.1 (by decide), rfl, code, hpostfix, heven rfl⟩

/-- A call without its argument takes one of the call around it, and there is a value. -/
theorem missing_argument_accepted :
    ∃ (d : Draft) (level : Nat) (isOpen : Bool) (ts : List Token),
      Draft.Spells level isOpen d ts ∧ ¬ d.IsExact ∧
        tokenize (spell "sqrt(1, abs())".toList) = .ok ts ∧
        ∃ x, compute .radians "sqrt(1, abs())".toList = .ok x := by
  have missing : Draft.Spells 4 false (@Draft.call 0 .abs ![]) _ :=
    .bare (p := 7) (q := 10) (r := 11)
  have around : Draft.Spells 4 false
      (@Draft.call 2 .sqrt ![.literal "1", @Draft.call 0 .abs ![]]) _ :=
    @Draft.Spells.call 2 .sqrt _ ![4, 4] ![false, false] ![[⟨.number, "1", 5⟩], _] _ 0 4 12
      (fun | 0 => .literal (by decide) | 1 => missing) (.more (p := 6) .last)
  have hvalue : (compute .radians "sqrt(1, abs())".toList).isOk = true := by decide +kernel
  refine ⟨_, _, _, _, around, fun h => absurd h.1 (by decide), by decide +kernel, ?_⟩
  cases hx : compute .radians "sqrt(1, abs())".toList with
  | ok x => exact ⟨x, rfl⟩
  | error f =>
    rw [hx] at hvalue
    cases hvalue

end Reckoner.Arithmetic
