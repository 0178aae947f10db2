/-
  Postfix order keeps the value of an expression.

  * `Computes`: what tokens in postfix order leave on the stack;
  * `ReadsAs`: what the yard makes of tokens where an operand has to come: it writes some, lets
    some operators wait, and the two together are code of a kind; `Reads`: code that computes a
    value;
  * `Spells.reads`: the yard reads every spelling of an expression so;
  * `runPostfix_toPostfix`: **every spelling is converted, and the result runs to the value
    of the expression or to the failure that comes first in it**.
-/
import Mathlib.Data.List.Forall2
import Mathlib.Data.List.OfFn
import Reckoner.Proofs.Arithmetic.Grammar

namespace Reckoner.Arithmetic

/-! ## Operators -/

theorem Operator.applyBinary_symbol (operator : Operator) (a b : Float) :
    applyBinary operator.symbol a b = operator.apply a b := by
  cases operator <;> rfl

@[simp] theorem Operator.precedence_symbol (operator : Operator) :
    precedence operator.symbol = operator.level := by
  cases operator <;> decide

theorem Operator.symbol_ne_negation (operator : Operator) : operator.symbol ≠ negation := by
  cases operator <;> decide

theorem Function.ofName?_name (f : Function) : Function.ofName? f.name = some f := by
  cases f <;> decide

/-! ## Postfix code -/

section
variable {angles : AngleUnit}

theorem runStep_negation (x : Float) (stack : List Float) (p : Nat) :
    runStep angles (x :: stack) ⟨.operator, negation, p⟩ = return -x :: stack := rfl

theorem runStep_symbol (operator : Operator) (a b : Float) (stack : List Float) (p : Nat) :
    runStep angles (b :: a :: stack) ⟨.operator, operator.symbol, p⟩ = do
      return (← operator.apply a b) :: stack := by
  simp only [runStep, beq_eq_false_iff_ne.2 operator.symbol_ne_negation, Bool.false_eq_true,
    if_false, operator.applyBinary_symbol]

theorem runStep_function {f : Function} {xs : List Float} (hxs : xs.length = f.arity)
    (stack : List Float) (p : Nat) :
    runStep angles (xs.reverse ++ stack) ⟨.function, f.name, p⟩ = do
      return (← f.apply angles xs) :: stack := by
  have hlen : xs.reverse.length = f.arity := by simpa using hxs
  simp only [runStep, f.ofName?_name, List.take_left' hlen, List.drop_left' hlen,
    List.reverse_reverse]
  exact if_neg (by simp [hlen])

/-- The tokens put a value on the stack, or fail as it does. -/
def Computes (angles : AngleUnit) (code : List Token) (value : Except Failure Float) : Prop :=
  ∀ stack, code.foldlM (runStep angles) stack = do return (← value) :: stack

/-- The tokens put values on the stack one after another, or fail as the first that fails. -/
def ComputesAll (angles : AngleUnit) (code : List Token)
    (values : List (Except Failure Float)) : Prop :=
  ∀ stack, code.foldlM (runStep angles) stack = do return (← values.mapM id).reverse ++ stack

theorem Computes.literal (numeral : String) (p : Nat) :
    Computes angles [⟨.number, numeral, p⟩] ((Expr.literal numeral).eval angles) := by
  intro stack
  simp only [List.foldlM_cons, List.foldlM_nil, runStep, Expr.eval, bind_pure]
  cases Decimal.readFloat? numeral.toList <;> rfl

theorem Computes.minus {code : List Token} {e : Expr} {p : Nat}
    (h : Computes angles code (e.eval angles)) :
    Computes angles (code ++ [⟨.operator, negation, p⟩]) ((Expr.minus e).eval angles) := by
  intro stack
  simp only [Expr.eval, List.foldlM_append, List.foldlM_cons, List.foldlM_nil, h stack,
    bind_assoc, pure_bind, runStep_negation]

theorem Computes.binary (operator : Operator) {a b : Expr} {code₁ code₂ : List Token} {p : Nat}
    (h₁ : Computes angles code₁ (a.eval angles)) (h₂ : Computes angles code₂ (b.eval angles)) :
    Computes angles (code₁ ++ code₂ ++ [⟨.operator, operator.symbol, p⟩])
      ((Expr.binary operator a b).eval angles) := by
  intro stack
  simp only [Expr.eval, List.foldlM_append, List.foldlM_cons, List.foldlM_nil, h₁ _, h₂ _,
    bind_assoc, pure_bind, bind_pure, runStep_symbol]

theorem ComputesAll.nil : ComputesAll angles [] [] := fun _ => rfl

theorem Computes.cons {code codes : List Token} {value : Except Failure Float}
    {values : List (Except Failure Float)} (h : Computes angles code value)
    (hs : ComputesAll angles codes values) :
    ComputesAll angles (code ++ codes) (value :: values) := by
  intro stack
  simp only [List.foldlM_append, h _, hs _, bind_assoc, pure_bind, List.mapM_cons, id_eq,
    List.reverse_cons, List.append_assoc, List.singleton_append]

theorem length_of_mapM_ok : ∀ {values : List (Except Failure Float)} {xs : List Float},
    values.mapM id = .ok xs → xs.length = values.length
  | [], xs, h => by
    obtain rfl : [] = xs := by simpa [pure, Except.pure] using h
    rfl
  | .error e :: values, xs, h => by
    simp [List.mapM_cons, bind, Except.bind] at h
  | .ok x :: values, xs, h => by
    cases hvs : values.mapM id with
    | error e => simp [List.mapM_cons, hvs, bind, Except.bind] at h
    | ok ys =>
      obtain rfl : x :: ys = xs := by
        simpa [List.mapM_cons, hvs, bind, Except.bind, pure, Except.pure] using h
      simp [length_of_mapM_ok hvs]

theorem ComputesAll.call {f : Function} {args : Fin f.arity → Expr} {code : List Token} {p : Nat}
    (h : ComputesAll angles code (List.ofFn fun i => (args i).eval angles)) :
    Computes angles (code ++ [⟨.function, f.name, p⟩]) ((Expr.call f args).eval angles) := by
  intro stack
  simp only [Expr.eval, List.foldlM_append, List.foldlM_cons, List.foldlM_nil, h _, bind_assoc,
    pure_bind, bind_pure]
  cases hvs : (List.ofFn fun i => (args i).eval angles).mapM id with
  | error e => rfl
  | ok xs => exact runStep_function (by simpa using length_of_mapM_ok hvs) stack p

end

/-! ## What waits -/

/-- Operators that bind at least as strongly as `level`. -/
def Binds (level : Nat) (pending : List Token) : Prop :=
  ∀ t ∈ pending, t.kind = .operator ∧ level ≤ precedence t.value

/-- What waits keeps back operators that bind as strongly as `level`, and is not in want of a
group. -/
def Blocks (level : Nat) : List Token → Prop
  | [] => True
  | top :: _ => top.kind ≠ .function ∧ (top.kind = .operator → precedence top.value < level)

theorem Binds.mono {level level' : Nat} {pending : List Token} (h : Binds level pending)
    (hle : level' ≤ level) : Binds level' pending :=
  fun t ht => ⟨(h t ht).1, hle.trans (h t ht).2⟩

theorem Binds.append {level : Nat} {ts us : List Token} (hts : Binds level ts)
    (hus : Binds level us) : Binds level (ts ++ us) :=
  fun t ht => (List.mem_append.1 ht).elim (hts t) (hus t)

theorem Binds.singleton {level p : Nat} {value : String} (h : level ≤ precedence value) :
    Binds level [⟨.operator, value, p⟩] := by
  rintro t ht
  obtain rfl := List.mem_singleton.1 ht
  exact ⟨rfl, h⟩

theorem Blocks.mono {level level' : Nat} {waiting : List Token} (h : Blocks level waiting)
    (hle : level ≤ level') : Blocks level' waiting := by
  cases waiting with
  | nil => trivial
  | cons top waiting => exact ⟨h.1, fun hop => (h.2 hop).trans_le hle⟩

theorem Blocks.operator {level p : Nat} {value : String} {waiting : List Token}
    (h : precedence value < level) : Blocks level (⟨.operator, value, p⟩ :: waiting) :=
  ⟨nofun, fun _ => h⟩

theorem Blocks.group {level p : Nat} {waiting : List Token} :
    Blocks level (⟨.parenthesis, "(", p⟩ :: waiting) :=
  ⟨nofun, nofun⟩

namespace Yard

/-- An operator releases what binds at least as strongly, and no more. -/
theorem release_append {level : Nat} {waiting : List Token} (hw : Blocks level waiting) :
    ∀ {pending : List Token}, Binds level pending → ∀ output,
      release level output (pending ++ waiting) = (pending.reverse ++ output, waiting)
  | [], _, output => by
    cases waiting with
    | nil => rfl
    | cons top waiting =>
      refine if_neg fun h => ?_
      simp only [Bool.and_eq_true, beq_iff_eq, decide_eq_true_eq] at h
      exact absurd (hw.2 h.1) (Nat.not_lt.2 h.2)
  | t :: pending, hp, output => by
    have ht : (t.kind == .operator && precedence t.value ≥ level) = true := by
      simpa using hp t List.mem_cons_self
    have hps : Binds level pending := fun u hu => hp u (List.mem_cons_of_mem t hu)
    simp only [List.cons_append, release, ht, if_true, release_append hw hps, List.reverse_cons,
      List.append_assoc, List.nil_append]

/-- The end of a part releases the operators in it, down to the parenthesis before it. -/
theorem flush_append {level : Nat} {top : Token} (htop : top.isOpen = true)
    {waiting : List Token} : ∀ {pending : List Token}, Binds level pending → ∀ output,
      flush output (pending ++ top :: waiting) =
        .ok (pending.reverse ++ output, top :: waiting)
  | [], _, output => if_pos htop
  | t :: pending, hp, output => by
    have ht : t.isOpen = false := by simp [Token.isOpen, (hp t List.mem_cons_self).1]
    have hps : Binds level pending := fun u hu => hp u (List.mem_cons_of_mem t hu)
    simp only [List.cons_append, flush, ht, Bool.false_eq_true, if_false, flush_append htop hps,
      List.reverse_cons, List.append_assoc, List.nil_append]

/-- The end of the text releases all operators. -/
theorem drain_of_binds {level : Nat} : ∀ {pending : List Token}, Binds level pending →
    ∀ output, drain output pending = .ok (output.reverse ++ pending)
  | [], _, output => by simp [drain]
  | t :: pending, hp, output => by
    have ht : (t.kind == .parenthesis) = false := by simp [(hp t List.mem_cons_self).1]
    have hps : Binds level pending := fun u hu => hp u (List.mem_cons_of_mem t hu)
    simp only [drain, ht, Bool.false_eq_true, if_false, drain_of_binds hps, List.reverse_cons,
      List.append_assoc, List.singleton_append]

theorem step_comma {level : Nat} {pending : List Token} (hp : Binds level pending)
    (output waiting : List Token) (f : Function) (p q r : Nat) :
    step ⟨output, pending ++ ⟨.parenthesis, "(", q⟩ :: ⟨.function, f.name, p⟩ :: waiting, false⟩
        ⟨.comma, ",", r⟩ =
      .ok ⟨pending.reverse ++ output,
        ⟨.parenthesis, "(", q⟩ :: ⟨.function, f.name, p⟩ :: waiting, true⟩ := by
  have hopen : Token.isOpen ⟨.parenthesis, "(", q⟩ = true := rfl
  simp only [step, flush_append hopen hp]
  rfl

theorem step_close_call {level : Nat} {pending : List Token} (hp : Binds level pending)
    (output waiting : List Token) (f : Function) (p q r : Nat) :
    step ⟨output, pending ++ ⟨.parenthesis, "(", q⟩ :: ⟨.function, f.name, p⟩ :: waiting, false⟩
        ⟨.parenthesis, ")", r⟩ =
      .ok ⟨⟨.function, f.name, p⟩ :: (pending.reverse ++ output), waiting, false⟩ := by
  have hopen : Token.isOpen ⟨.parenthesis, "(", q⟩ = true := rfl
  simp only [step, flush_append hopen hp]
  rfl

theorem step_close_group {level level' : Nat} {pending waiting : List Token}
    (hp : Binds level pending) (hw : Blocks level' waiting) (output : List Token) (q r : Nat) :
    step ⟨output, pending ++ ⟨.parenthesis, "(", q⟩ :: waiting, false⟩ ⟨.parenthesis, ")", r⟩ =
      .ok ⟨pending.reverse ++ output, waiting, false⟩ := by
  have hopen : Token.isOpen ⟨.parenthesis, "(", q⟩ = true := rfl
  simp only [step, flush_append hopen hp]
  cases waiting with
  | nil => rfl
  | cons top waiting =>
    have htop : (top.kind == .function) = false := by simpa using hw.1
    have hclose : (")" == "(") = false := by decide
    simp only [hclose, bind, Except.bind, List.drop_succ_cons, List.drop_zero, htop,
      Bool.false_eq_true, if_false]

end Yard

/-! ## Reading a spelling -/

/-- How strongly at least the operators bind that wait after an expression: a prefix minus may
be among them if it is open. -/
def pendingLevel (level : Nat) (isOpen : Bool) : Nat := if isOpen then min level 2 else level

/-- Where an operand has to come and nothing that waits binds as strongly as `level`, the
tokens are read: some are written, some operators wait, and what was there before stays. Those
written and those that wait are code of which `P` holds. -/
def ReadsAs (P : List Token → Prop) (level : Nat) (isOpen : Bool) (ts : List Token) : Prop :=
  ∃ written pending, Binds (pendingLevel level isOpen) pending ∧
    P (written.reverse ++ pending) ∧
    ∀ output waiting, Blocks level waiting →
      ts.foldlM Yard.step ⟨output, waiting, true⟩ =
        .ok ⟨written ++ output, pending ++ waiting, false⟩

/-- Reading arguments: between the parenthesis of a call and its end, they are all written but
for the operators of the last. -/
def ReadsAllAs (P : List Token → Prop) (ts : List Token) : Prop :=
  ∃ written pending, Binds 0 pending ∧ P (written.reverse ++ pending) ∧
    ∀ output waiting p q, ∀ f : Function,
      ts.foldlM Yard.step
          ⟨output, ⟨.parenthesis, "(", q⟩ :: ⟨.function, f.name, p⟩ :: waiting, true⟩ =
        .ok ⟨written ++ output,
          pending ++ ⟨.parenthesis, "(", q⟩ :: ⟨.function, f.name, p⟩ :: waiting, false⟩

section
variable {P Q R : List Token → Prop}

theorem ReadsAs.literal {numeral : String} {p : Nat} (hcode : P [⟨.number, numeral, p⟩]) :
    ReadsAs P 4 false [⟨.number, numeral, p⟩] :=
  ⟨[⟨.number, numeral, p⟩], [], nofun, hcode, fun _ _ _ => rfl⟩

theorem ReadsAs.plus {level : Nat} {isOpen : Bool} {ts : List Token} {p : Nat}
    (h : ReadsAs P level isOpen ts) : ReadsAs P level isOpen (⟨.operator, "+", p⟩ :: ts) := by
  obtain ⟨written, pending, hbinds, hcode, hread⟩ := h
  refine ⟨written, pending, hbinds, hcode, fun output waiting hw => ?_⟩
  exact hread output waiting hw

theorem ReadsAs.minus {level : Nat} {isOpen : Bool} {ts : List Token} {p : Nat}
    (hstep : ∀ code, P code → Q (code ++ [⟨.operator, negation, p⟩])) (hlevel : 3 ≤ level)
    (h : ReadsAs P level isOpen ts) : ReadsAs Q 4 true (⟨.operator, "-", p⟩ :: ts) := by
  obtain ⟨written, pending, hbinds, hcode, hread⟩ := h
  refine ⟨written, pending ++ [⟨.operator, negation, p⟩], ?_, ?_, fun output waiting _ => ?_⟩
  · have hle : 2 ≤ pendingLevel level isOpen := by
      cases isOpen <;> simp [pendingLevel] <;> omega
    exact (hbinds.mono hle).append (.singleton (by decide))
  · rw [← List.append_assoc]
    exact hstep _ hcode
  · -- the sign waits and releases nothing
    have hw : Blocks level (⟨.operator, negation, p⟩ :: waiting) :=
      .operator (Nat.lt_of_lt_of_le (by decide) hlevel)
    rw [List.append_assoc]
    exact hread output _ hw

theorem ReadsAs.binary {operator : Operator} {level₁ level₂ : Nat} {isOpen₁ isOpen₂ : Bool}
    {ts₁ ts₂ : List Token} {p : Nat}
    (hstep : ∀ code₁ code₂, P code₁ → Q code₂ →
      R (code₁ ++ code₂ ++ [⟨.operator, operator.symbol, p⟩]))
    (hlevel₁ : operator.level ≤ level₁) (hopen : operator.level = 3 → isOpen₁ = false)
    (hlevel₂ : operator.level < level₂) (h₁ : ReadsAs P level₁ isOpen₁ ts₁)
    (h₂ : ReadsAs Q level₂ isOpen₂ ts₂) :
    ReadsAs R operator.level isOpen₂ (ts₁ ++ ⟨.operator, operator.symbol, p⟩ :: ts₂) := by
  obtain ⟨written₁, pending₁, hbinds₁, hcode₁, hread₁⟩ := h₁
  obtain ⟨written₂, pending₂, hbinds₂, hcode₂, hread₂⟩ := h₂
  have hpending : Binds operator.level pending₁ := by
    refine hbinds₁.mono ?_
    have := operator.level_le
    cases isOpen₁ <;> simp_all [pendingLevel]
    omega
  refine ⟨written₂ ++ (pending₁.reverse ++ written₁),
    pending₂ ++ [⟨.operator, operator.symbol, p⟩], ?_, ?_, fun output waiting hw => ?_⟩
  · refine (hbinds₂.mono ?_).append (.singleton ?_)
    · cases isOpen₂ <;> simp [pendingLevel] <;> omega
    · cases isOpen₂ <;> simp [pendingLevel]
  · have hcode := hstep _ _ hcode₁ hcode₂
    simpa only [List.reverse_append, List.reverse_reverse, List.append_assoc] using hcode
  · have hstep : Yard.step ⟨written₁ ++ output, pending₁ ++ waiting, false⟩
        ⟨.operator, operator.symbol, p⟩ = .ok ⟨pending₁.reverse ++ (written₁ ++ output),
          ⟨.operator, operator.symbol, p⟩ :: waiting, true⟩ := by
      simp only [Yard.step, Bool.false_and, Bool.false_eq_true, if_false,
        operator.precedence_symbol, Yard.release_append hw hpending]
    have hw₂ : Blocks level₂ (⟨.operator, operator.symbol, p⟩ :: waiting) :=
      .operator (by simpa using hlevel₂)
    rw [List.foldlM_append, hread₁ output waiting (hw.mono hlevel₁)]
    simp only [bind, Except.bind, List.foldlM_cons, hstep, hread₂ _ _ hw₂, List.append_assoc,
      List.singleton_append]

theorem ReadsAs.group {level : Nat} {isOpen : Bool} {ts : List Token} {p q : Nat}
    (h : ReadsAs P level isOpen ts) :
    ReadsAs P 4 false (⟨.parenthesis, "(", p⟩ :: ts ++ [⟨.parenthesis, ")", q⟩]) := by
  obtain ⟨written, pending, hbinds, hcode, hread⟩ := h
  refine ⟨pending.reverse ++ written, [], nofun, by simpa using hcode,
    fun output waiting hw => ?_⟩
  have hopen : Yard.step ⟨output, waiting, true⟩ ⟨.parenthesis, "(", p⟩ =
      .ok ⟨output, ⟨.parenthesis, "(", p⟩ :: waiting, true⟩ := rfl
  simp only [List.cons_append, List.foldlM_cons, List.foldlM_append, hopen, bind, Except.bind,
    hread output _ .group, List.foldlM_nil, Yard.step_close_group hbinds hw, List.append_assoc,
    List.nil_append, pure, Except.pure]

/-- The code of arguments is that of one after another. -/
theorem ReadsAllAs.of_joined {α : Type} {C : α → List Token → Prop} {tss : List (List Token)}
    {ts : List Token} (h : Joined tss ts) : ∀ {values : List α},
      List.Forall₂ (fun value ts => ∃ level isOpen, ReadsAs (C value) level isOpen ts) values tss →
      ReadsAllAs (fun code => ∃ codes, List.Forall₂ C values codes ∧ code = codes.flatten) ts := by
  induction h with
  | last =>
    rintro _ (_ | ⟨⟨level, isOpen, written, pending, hbinds, hcode, hread⟩, ⟨⟩⟩)
    refine ⟨written, pending, hbinds.mono (Nat.zero_le _), ?_, fun output waiting p q f => ?_⟩
    · exact ⟨[_], .cons hcode .nil, by simp⟩
    · exact hread output _ .group
  | @more ts tss rest r _ ih =>
    rintro _ (_ | ⟨⟨level, isOpen, written, pending, hbinds, hcode, hread⟩, hrest⟩)
    obtain ⟨writtens, pendings, hbinds', ⟨codes, hcodes, hflatten⟩, hreads⟩ := ih hrest
    refine ⟨writtens ++ (pending.reverse ++ written), pendings, hbinds', ?_,
      fun output waiting p q f => ?_⟩
    · refine ⟨_ :: codes, .cons hcode hcodes, ?_⟩
      rw [List.flatten_cons, ← hflatten]
      simp
    · simp only [List.foldlM_cons, List.foldlM_append, bind, Except.bind, hread output _ .group,
        Yard.step_comma hbinds, hreads, List.append_assoc]

theorem ReadsAs.call {f : Function} {ts : List Token} {p q r : Nat}
    (hstep : ∀ code, P code → Q (code ++ [⟨.function, f.name, p⟩])) (h : ReadsAllAs P ts) :
    ReadsAs Q 4 false
      (⟨.function, f.name, p⟩ :: ⟨.parenthesis, "(", q⟩ :: ts ++ [⟨.parenthesis, ")", r⟩]) := by
  obtain ⟨written, pending, hbinds, hcode, hread⟩ := h
  refine ⟨⟨.function, f.name, p⟩ :: (pending.reverse ++ written), [], nofun, ?_,
    fun output waiting _ => ?_⟩
  · simpa using hstep _ hcode
  · have hopen : Yard.step ⟨output, ⟨.function, f.name, p⟩ :: waiting, true⟩
        ⟨.parenthesis, "(", q⟩ =
          .ok ⟨output, ⟨.parenthesis, "(", q⟩ :: ⟨.function, f.name, p⟩ :: waiting, true⟩ := rfl
    have hname : Yard.step ⟨output, waiting, true⟩ ⟨.function, f.name, p⟩ =
        .ok ⟨output, ⟨.function, f.name, p⟩ :: waiting, true⟩ := rfl
    simp only [List.cons_append, List.foldlM_cons, List.foldlM_append, hname, hopen, bind,
      Except.bind, hread, List.foldlM_nil, Yard.step_close_call hbinds, List.append_assoc,
      List.nil_append, pure, Except.pure]

/-- What is read is converted. -/
theorem ReadsAs.toPostfix {level : Nat} {isOpen : Bool} {ts : List Token}
    (h : ReadsAs P level isOpen ts) : ∃ code, toPostfix ts = .ok code ∧ P code := by
  obtain ⟨written, pending, hbinds, hcode, hread⟩ := h
  refine ⟨written.reverse ++ pending, ?_, hcode⟩
  have hend := hread [] [] trivial
  simp only [List.append_nil] at hend
  simp only [Arithmetic.toPostfix, hend, bind, Except.bind, Yard.finish,
    Yard.drain_of_binds hbinds]

end

/-- The tokens are read as code that computes the value. -/
def Reads (angles : AngleUnit) (level : Nat) (isOpen : Bool) (value : Except Failure Float)
    (ts : List Token) : Prop :=
  ReadsAs (Computes angles · value) level isOpen ts

section
variable {angles : AngleUnit}

theorem ComputesAll.flatten {values : List (Except Failure Float)} {codes : List (List Token)}
    (h : List.Forall₂ (fun value code => Computes angles code value) values codes) :
    ComputesAll angles codes.flatten values := by
  induction h with
  | nil => exact .nil
  | cons hcode _ ih => exact hcode.cons ih

/-- The yard reads every spelling of an expression as its value. -/
theorem Spells.reads (angles : AngleUnit) {level : Nat} {isOpen : Bool} {e : Expr}
    {ts : List Token} (h : Spells level isOpen e ts) :
    Reads angles level isOpen (e.eval angles) ts := by
  induction h with
  | @literal numeral p => exact ReadsAs.literal (.literal numeral p)
  | group _ ih => exact ReadsAs.group ih
  | minus hlevel _ ih => exact ReadsAs.minus (fun _ => Computes.minus) hlevel ih
  | plus _ ih => exact ReadsAs.plus ih
  | binary operator hlevel₁ hopen hlevel₂ _ _ ih₁ ih₂ =>
    exact ReadsAs.binary (fun _ _ => Computes.binary operator) hlevel₁ hopen hlevel₂ ih₁ ih₂
  | @call f args _ _ spellings _ _ _ _ _ hjoined ih =>
    have hargs : List.Forall₂ (fun value ts => ∃ level isOpen, Reads angles level isOpen value ts)
        (List.ofFn fun i => (args i).eval angles) (List.ofFn spellings) := by
      refine List.forall₂_iff_get.2 ⟨by simp, fun i _ _ => ?_⟩
      simp only [List.get_ofFn]
      exact ⟨_, _, ih _⟩
    refine ReadsAs.call (fun code hcode => ?_) (ReadsAllAs.of_joined hjoined hargs)
    obtain ⟨codes, hcodes, rfl⟩ := hcode
    exact (ComputesAll.flatten hcodes).call

/-- **The conversion to postfix order is right.** The tokens of an expression are a spelling of
it; every spelling, with these groups or with more, is converted, and the result runs to the
value of the expression, or to the failure that comes first in it. -/
theorem runPostfix_toPostfix (angles : AngleUnit) (e : Expr) :
    (∃ level isOpen, Spells level isOpen e e.tokens) ∧
      ∀ level isOpen ts, Spells level isOpen e ts →
        ∃ code, toPostfix ts = .ok code ∧ runPostfix angles code = e.eval angles := by
  refine ⟨⟨_, _, e.spells_tokens⟩, fun level isOpen ts h => ?_⟩
  obtain ⟨code, hpostfix, hcode⟩ := (h.reads angles).toPostfix
  refine ⟨code, hpostfix, ?_⟩
  simp only [runPostfix, hcode []]
  cases e.eval angles <;> rfl

/-- `(2)^-3*4` runs to the value of `(2^(-3))*4`. -/
theorem runPostfix_toPostfix_minus_power :
    ∃ code,
      toPostfix [⟨.parenthesis, "(", 0⟩, ⟨.number, "2", 1⟩, ⟨.parenthesis, ")", 2⟩,
        ⟨.operator, "^", 3⟩, ⟨.operator, "-", 4⟩, ⟨.number, "3", 5⟩, ⟨.operator, "*", 6⟩,
        ⟨.number, "4", 7⟩] = .ok code ∧
      runPostfix .radians code =
        (Expr.binary .mul (.binary .pow (.literal "2") (.minus (.literal "3")))
          (.literal "4")).eval .radians :=
  have base : Spells 4 false (.literal "2") _ := .group (p := 0) (q := 2) (.literal (p := 1))
  have power : Spells 3 true (.binary .pow (.literal "2") (.minus (.literal "3"))) _ :=
    .binary .pow (p := 3) (by decide) (by decide) (by decide) base
      (.minus (p := 4) (by decide) (.literal (p := 5)))
  (runPostfix_toPostfix .radians _).2 2 false _
    (.binary .mul (p := 6) (by decide) (by decide) (by decide) power
      (.literal (p := 7)))

example : (toPostfix (Expr.binary .mul (.binary .pow (.literal "2") (.minus (.literal "3")))
    (.literal "4")).tokens).map (·.map Token.value) = .ok ["2", "3", "neg", "^", "4", "*"] := by
  rfl

end

end Reckoner.Arithmetic
