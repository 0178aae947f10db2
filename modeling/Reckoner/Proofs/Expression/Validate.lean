/-
  The validators of arithmetic and of logic decide their grammars.

  * `Step`: what one token may do, by the rules of a grammar; `arithmeticStep_iff`,
    `logicStep_iff`: the steps of the validators are these;
  * `Derives.steps`: a row that is an expression is read to its end;
  * `Viable`: the stages that a row can be at; `Viable.step`, `Viable.steps`: reading keeps
    to them; `Viable.complete`: a row at such a stage goes on to an expression;
  * `Decides`: a validator accepts the expressions, and refuses anything else at the first
    token that no expression has there;
  * `validators_decide`: **both validators decide their grammars**.
-/
import Reckoner.Proofs.Expression.Grammar

namespace Reckoner.Expression

/-- A parenthesis opens or closes. -/
def Token.IsProper (t : Token) : Prop := t.kind = .parenthesis → t.value = "(" ∨ t.value = ")"

instance (t : Token) : Decidable (Token.IsProper t) :=
  inferInstanceAs (Decidable (_ → _))

/-! ## Steps -/

section
variable (G : Rules)

/-- A function stands before, and its group has to come next. -/
def Progress.Calls (p : Progress) : Prop := ∃ f ∈ p.previous, G.IsFunction f

/-- An operand that starts with the token may come next. -/
def Progress.MayStart (p : Progress) (t : Token) : Prop :=
  p.expectOperand = true ∨ ∃ s ∈ p.previous, G.Joins s t

/-- What one token does to the progress. -/
inductive Step : Progress → Token → Progress → Prop
  | operand {p t} : ¬ p.Calls G → G.IsOperand t → p.MayStart G t →
      Step p t ⟨p.depth, false, some t⟩
  | function {p t} : ¬ p.Calls G → G.IsFunction t → p.MayStart G t →
      Step p t ⟨p.depth, true, some t⟩
  | sign {p t} : ¬ p.Calls G → G.IsSign t → p.expectOperand = true →
      Step p t ⟨p.depth, true, some t⟩
  | operator {p t} : ¬ p.Calls G → G.IsOperator t → p.expectOperand = false →
      Step p t ⟨p.depth, true, some t⟩
  | opening {p t} : t.isOpen = true → p.MayStart G t → Step p t ⟨p.depth + 1, true, some t⟩
  | closing {p t n} : ¬ p.Calls G → t.isClose = true → p.expectOperand = false →
      p.depth = n + 1 → Step p t ⟨n, false, some t⟩
  | comma {p t n} : ¬ p.Calls G → G.IsComma t → p.expectOperand = false → p.depth = n + 1 →
      Step p t ⟨p.depth, true, some t⟩

/-- What a row of tokens does to the progress. -/
inductive Steps : Progress → List Token → Progress → Prop
  | nil {p} : Steps p [] p
  | cons {p t q ts r} : Step G p t q → Steps q ts r → Steps p (t :: ts) r

/-- The step function does to the progress what the rules say. -/
def Obeys (step : Progress → Token → Option Progress) : Prop :=
  ∀ p t q, Token.IsProper t → (step p t = some q ↔ Step G p t q)

end

theorem not_calls_iff {G : Rules} {p : Progress} :
    ¬ p.Calls G ↔ ∀ f ∈ p.previous, ¬ G.IsFunction f := by
  simp [Progress.Calls]

theorem joins_iff {s t : Token} (h : Token.IsProper t) (hc : t.isClose = false) :
    joins s t = true ↔ arithmeticRules.Joins s t := by
  have hopen : t.kind = .parenthesis ↔ t.isOpen = true := by
    simp only [Token.isOpen, Token.isClose, Token.IsProper] at *
    by_cases hk : t.kind = .parenthesis <;> simp_all
  simp [joins, arithmeticRules, ← hopen, or_assoc]

theorem isOpen_kind {t : Token} (h : t.isOpen = true) :
    t.kind = .parenthesis ∧ t.isClose = false := by
  simp_all [Token.isOpen, Token.isClose]

theorem isClose_kind {t : Token} (h : t.isClose = true) :
    t.kind = .parenthesis ∧ t.isOpen = false := by
  simp_all [Token.isOpen, Token.isClose]

theorem isClose_of_not_isOpen {t : Token} (ht : Token.IsProper t) (hk : t.kind = .parenthesis)
    (ho : ¬ t.isOpen = true) : t.isClose = true := by
  rcases ht hk with hv | hv <;> simp_all [Token.isOpen, Token.isClose]

theorem calls_arithmetic_iff {p : Progress} : p.Calls arithmeticRules ↔
    p.previous.any (fun before => before.kind == .function) = true := by
  unfold Progress.Calls
  cases p.previous <;> simp [arithmeticRules]

theorem mayStart_arithmetic_iff {p : Progress} {t : Token} (ht : Token.IsProper t)
    (hc : t.isClose = false) : p.MayStart arithmeticRules t ↔
      (p.expectOperand || p.previous.any fun before => joins before t) = true := by
  unfold Progress.MayStart
  cases p.previous <;> simp [joins_iff ht hc]

theorem arithmeticStep_obeys : Obeys arithmeticRules arithmeticStep := by
  intro p t q ht
  constructor
  · intro h
    rw [arithmeticStep] at h
    split at h
    · cases h
    rename_i hguard
    have hcalls (ho : t.isOpen = false) : ¬ p.Calls arithmeticRules := by
      simpa [calls_arithmetic_iff, ho] using hguard
    have hcalls' (hk : t.kind ≠ .parenthesis) := hcalls (Token.not_paren_of_kind hk).1
    have hstart (hk : t.kind ≠ .parenthesis) :=
      (mayStart_arithmetic_iff (p := p) ht (Token.not_paren_of_kind hk).2).2
    split at h
    case h_1 hk | h_2 hk =>
      obtain ⟨hs, h⟩ := Option.ite_none_right_eq_some.1 h
      cases h
      exact .operand (hcalls' (by simp [hk])) (by simp [arithmeticRules, hk])
        (hstart (by simp [hk]) hs)
    case h_3 hk =>
      obtain ⟨hs, h⟩ := Option.ite_none_right_eq_some.1 h
      cases h
      exact .function (hcalls' (by simp [hk])) hk (hstart (by simp [hk]) hs)
    case h_4 hk =>
      split at h
      · rename_i he
        obtain ⟨hs, h⟩ := Option.ite_none_right_eq_some.1 h
        cases h
        refine .sign (hcalls' (by simp [hk])) ⟨hk, ?_⟩ he
        simpa [isSign, or_comm] using hs
      · rename_i he
        obtain ⟨hs, h⟩ := Option.ite_none_right_eq_some.1 h
        cases h
        exact .operator (hcalls' (by simp [hk])) ⟨hk, List.contains_iff_mem.1 hs⟩
          (Bool.eq_false_iff.2 he)
    case h_5 hk =>
      split at h
      · rename_i ho
        obtain ⟨hs, h⟩ := Option.ite_none_right_eq_some.1 h
        cases h
        exact .opening ho ((mayStart_arithmetic_iff ht (isOpen_kind ho).2).2 hs)
      · rename_i ho
        obtain ⟨hs, h⟩ := Option.ite_none_left_eq_some.1 h
        cases h
        obtain ⟨he, hd⟩ : p.expectOperand = false ∧ p.depth ≠ 0 := by simpa using hs
        exact .closing (hcalls (by simpa using ho)) (isClose_of_not_isOpen ht hk ho) he
          (by omega)
    case h_6 hk =>
      obtain ⟨hs, h⟩ := Option.ite_none_left_eq_some.1 h
      cases h
      obtain ⟨he, hd⟩ : p.expectOperand = false ∧ p.depth ≠ 0 := by simpa using hs
      exact .comma (hcalls' (by simp [hk])) hk he (Nat.succ_pred_eq_of_ne_zero hd).symm
    case h_7 => cases h
  · intro h
    cases h with
    | operand hc hop hs =>
      have hk := Token.not_paren_of_kind (t := t) (by rcases hop with hk | hk <;> simp [hk])
      rw [mayStart_arithmetic_iff ht hk.2] at hs
      rw [calls_arithmetic_iff] at hc
      rcases hop with hop | hop <;> simp [arithmeticStep, hop, hs, hc]
    | function hc hf hs =>
      replace hf : t.kind = .function := hf
      rw [mayStart_arithmetic_iff ht (Token.not_paren_of_kind (by simp [hf])).2] at hs
      rw [calls_arithmetic_iff] at hc
      simp [arithmeticStep, hf, hs, hc]
    | sign hc hsign he =>
      have hs : isSign t = true := by simpa [isSign, or_comm] using hsign.2
      rw [calls_arithmetic_iff] at hc
      simp [arithmeticStep, hsign.1, hs, hc, he]
    | operator hc hop he =>
      have hs : isArithmeticOperator t = true := List.contains_iff_mem.2 hop.2
      rw [calls_arithmetic_iff] at hc
      simp [arithmeticStep, hop.1, hs, hc, he]
    | opening ho hs =>
      rw [mayStart_arithmetic_iff ht (isOpen_kind ho).2] at hs
      simp [arithmeticStep, (isOpen_kind ho).1, ho, hs]
    | closing hc hclose he hd =>
      rw [calls_arithmetic_iff] at hc
      simp [arithmeticStep, (isClose_kind hclose).1, (isClose_kind hclose).2, hc, he, hd]
    | comma hc hcomma he hd =>
      replace hcomma : t.kind = .comma := hcomma
      rw [calls_arithmetic_iff] at hc
      simp [arithmeticStep, hcomma, hc, he, hd]

theorem logicStep_obeys : Obeys logicRules logicStep := by
  intro p t q ht
  have hcalls : ¬ p.Calls logicRules := by simp [Progress.Calls, logicRules]
  have hstart : p.MayStart logicRules t ↔ p.expectOperand = true := by
    simp [Progress.MayStart, logicRules]
  constructor
  · intro h
    rw [logicStep] at h
    split at h
    case h_1 hk | h_2 hk =>
      obtain ⟨he, h⟩ := Option.ite_none_right_eq_some.1 h
      cases h
      exact .operand hcalls (by simp [logicRules, hk]) (hstart.2 he)
    case h_3 hk =>
      split at h
      · rename_i hprefix
        obtain ⟨he, h⟩ := Option.ite_none_right_eq_some.1 h
        cases h
        exact .sign hcalls ⟨hk, List.contains_iff_mem.1 hprefix⟩ he
      · rename_i hprefix
        obtain ⟨he, h⟩ := Option.ite_none_left_eq_some.1 h
        cases h
        exact .operator hcalls ⟨hk, fun hmem => hprefix (List.contains_iff_mem.2 hmem)⟩
          (Bool.eq_false_iff.2 he)
    case h_4 hk =>
      split at h
      · rename_i ho
        obtain ⟨he, h⟩ := Option.ite_none_right_eq_some.1 h
        cases h
        exact .opening ho (hstart.2 he)
      · rename_i ho
        obtain ⟨hs, h⟩ := Option.ite_none_left_eq_some.1 h
        cases h
        obtain ⟨he, hd⟩ : p.expectOperand = false ∧ p.depth ≠ 0 := by simpa using hs
        exact .closing hcalls (isClose_of_not_isOpen ht hk ho) he (by omega)
    case h_5 => cases h
  · intro h
    cases h with
    | operand _ hop hs =>
      rw [hstart] at hs
      rcases hop with hk | hk <;> simp [logicStep, hk, hs]
    | function _ hf => exact hf.elim
    | sign _ hs he =>
      have hprefix : isLogicPrefix t = true := List.contains_iff_mem.2 hs.2
      simp [logicStep, hs.1, hprefix, he]
    | operator _ hs he =>
      have hprefix : isLogicPrefix t = false := by simpa [isLogicPrefix] using hs.2
      simp [logicStep, hs.1, hprefix, he]
    | opening ho hs =>
      rw [hstart] at hs
      simp [logicStep, (isOpen_kind ho).1, ho, hs]
    | closing _ hc he hd =>
      simp [logicStep, (isClose_kind hc).1, (isClose_kind hc).2, he, hd]
    | comma _ hc => exact hc.elim

variable {G : Rules}

theorem Steps.append {p q r : Progress} {xs ys : List Token} (h : Steps G p xs q)
    (h' : Steps G q ys r) : Steps G p (xs ++ ys) r := by
  induction h with
  | nil => exact h'
  | cons hs _ ih => exact .cons hs (ih h')

theorem Steps.single {p q : Progress} {t : Token} (h : Step G p t q) : Steps G p [t] q :=
  .cons h .nil

/-! ## Every expression is read -/

namespace Rules

theorem not_function_of_operand {t : Token} (h : G.IsOperand t) : ¬ G.IsFunction t :=
  fun hf => (G.function_alone t hf).1 h

theorem not_function_of_sign {t : Token} (h : G.IsSign t) : ¬ G.IsFunction t :=
  fun hf => (G.function_alone t hf).2.1 h

theorem not_function_of_operator {t : Token} (h : G.IsOperator t) : ¬ G.IsFunction t :=
  fun hf => (G.function_alone t hf).2.2.1 h

theorem not_function_of_comma {t : Token} (h : G.IsComma t) : ¬ G.IsFunction t :=
  fun hf => (G.function_alone t hf).2.2.2.1 h

theorem not_function_of_open {t : Token} (h : t.isOpen = true) : ¬ G.IsFunction t :=
  fun hf => by simp [(G.function_alone t hf).2.2.2.2.1] at h

theorem not_function_of_close {t : Token} (h : t.isClose = true) : ¬ G.IsFunction t :=
  fun hf => by simp [(G.function_alone t hf).2.2.2.2.2] at h

end Rules

/-- The row may come next, as a part of the kind. -/
def Progress.Awaits (G : Rules) (p : Progress) (ts : List Token) : Part → Prop
  | .operand => ∀ t ∈ ts.head?, p.MayStart G t
  | .signed | .expression => p.expectOperand = true
  | .list => p.expectOperand = true ∧ ∃ n, p.depth = n + 1

/-- The list in a group is read with the parenthesis that closes it. -/
theorem Steps.group {p : Progress} {o c : Token} {ts : List Token} (ho : o.isOpen = true)
    (hc : c.isClose = true) (hstart : p.MayStart G o)
    (hts : ∃ last, ts.getLast? = some last ∧ ¬ G.IsFunction last ∧
      Steps G ⟨p.depth + 1, true, some o⟩ ts ⟨p.depth + 1, false, some last⟩) :
    Steps G p (o :: ts ++ [c]) ⟨p.depth, false, some c⟩ := by
  obtain ⟨last, -, hlast, hsteps⟩ := hts
  have hclose : Step G ⟨p.depth + 1, false, some last⟩ c ⟨p.depth, false, some c⟩ :=
    .closing (not_calls_iff.2 (by simpa using hlast)) hc rfl rfl
  exact .cons (.opening ho hstart) (hsteps.append (.single hclose))

/-- A part of an expression is read from every stage at which it may come next. -/
theorem Derives.steps {part : Part} {ts : List Token} (h : Derives G part ts) {p : Progress}
    (hcalls : ¬ p.Calls G) (hawaits : p.Awaits G ts part) :
    ∃ last, ts.getLast? = some last ∧ ¬ G.IsFunction last ∧
      Steps G p ts ⟨p.depth, false, some last⟩ := by
  induction h generalizing p with
  | @token t ht =>
    exact ⟨t, rfl, G.not_function_of_operand ht,
      .single (.operand hcalls ht (hawaits t rfl))⟩
  | @group o ts c ho hts hc ih =>
    have hin := ih (p := ⟨p.depth + 1, true, some o⟩)
      (not_calls_iff.2 (by simpa using G.not_function_of_open ho)) ⟨rfl, _, rfl⟩
    exact ⟨c, by simp [List.getLast?_cons], G.not_function_of_close hc,
      .group ho hc (hawaits o rfl) hin⟩
  | @call f o ts c hf ho hts hc ih =>
    have hin := ih (p := ⟨p.depth + 1, true, some o⟩)
      (not_calls_iff.2 (by simpa using G.not_function_of_open ho)) ⟨rfl, _, rfl⟩
    exact ⟨c, by simp [List.getLast?_cons], G.not_function_of_close hc,
      .cons (.function hcalls hf (hawaits f rfl)) (.group ho hc (.inl rfl) hin)⟩
  | operand hts ih => exact ih hcalls fun _ _ => .inl hawaits
  | @sign s ts hs hts ih =>
    obtain ⟨last, hlast, hnot, hsteps⟩ := ih (p := ⟨p.depth, true, some s⟩)
      (not_calls_iff.2 (by simpa using G.not_function_of_sign hs)) rfl
    exact ⟨last, by simp [List.getLast?_cons, hlast], hnot,
      .cons (.sign hcalls hs hawaits) hsteps⟩
  | signed hts ih => exact ih hcalls hawaits
  | @binary xs b ys hxs hb hys ihx ihy =>
    obtain ⟨last, -, hnot, hsteps⟩ := ihx hcalls hawaits
    obtain ⟨last', hlast', hnot', hsteps'⟩ := ihy (p := ⟨p.depth, true, some b⟩)
      (not_calls_iff.2 (by simpa using G.not_function_of_operator hb)) rfl
    have hop : Step G ⟨p.depth, false, some last⟩ b ⟨p.depth, true, some b⟩ :=
      .operator (not_calls_iff.2 (by simpa using hnot)) hb rfl
    exact ⟨last', by simp [List.getLast?_cons, hlast'], hnot',
      hsteps.append (.cons hop hsteps')⟩
  | @factor xs s t ys hxs hlast hjoins hhead hys ihx ihy =>
    obtain ⟨last, hlast', hnot, hsteps⟩ := ihx hcalls hawaits
    obtain rfl : s = last := Option.some.inj (hlast.symm.trans hlast')
    obtain ⟨last, hlasty, hnoty, hstepsy⟩ := ihy (p := ⟨p.depth, false, some s⟩)
      (not_calls_iff.2 (by simpa using hnot)) fun t' ht' => by
        obtain rfl : t = t' := Option.some.inj (hhead.symm.trans ht')
        exact .inr ⟨s, rfl, hjoins⟩
    exact ⟨last, by simp [hlasty], hnoty, hsteps.append hstepsy⟩
  | expression hts ih => exact ih hcalls hawaits.1
  | @comma xs c ys hxs hc hys ihx ihy =>
    obtain ⟨last, -, hnot, hsteps⟩ := ihx hcalls hawaits
    obtain ⟨last', hlast', hnot', hsteps'⟩ := ihy (p := ⟨p.depth, true, some c⟩)
      (not_calls_iff.2 (by simpa using G.not_function_of_comma hc)) rfl
    obtain ⟨n, hn⟩ := hawaits.2
    have hcomma : Step G ⟨p.depth, false, some last⟩ c ⟨p.depth, true, some c⟩ :=
      .comma (not_calls_iff.2 (by simpa using hnot)) hc rfl hn
    exact ⟨last', by simp [List.getLast?_cons, hlast'], hnot',
      hsteps.append (.cons hcomma hsteps')⟩

/-! ## Every row read goes on to an expression -/

/-- The stages of a row. -/
inductive Viable (G : Rules) : List Token → Progress → Prop
  /-- an operand has to come next, or a sign -/
  | before {n ts} : Context G .signed n ts → Viable G ts ⟨n, true, ts.getLast?⟩
  /-- the group of a function has to come next -/
  | called {n pre f} : Context G (.operand f) n pre → G.IsFunction f →
      Viable G (pre ++ [f]) ⟨n, true, some f⟩
  /-- an expression stands, and may go on -/
  | after {n ts} : Stands G n ts → Viable G ts ⟨n, false, ts.getLast?⟩

namespace Viable

variable {ts : List Token} {p q : Progress} {t : Token}

theorem start : Viable G [] {} := .before (.left .start)

theorem context_operand (h : Viable G ts p) (hcalls : ¬ p.Calls G) (hstart : p.MayStart G t) :
    Context G (.operand t) p.depth ts := by
  cases h with
  | before hctx => exact .operand hctx
  | called _ hf => exact absurd ⟨_, rfl, hf⟩ hcalls
  | after hstands =>
    obtain ⟨pre, xs, rfl, hpre, hxs, hlast⟩ := hstands
    obtain ⟨s, hs, hjoins⟩ := hstart.resolve_left (by simp)
    exact .factor hpre hxs (hlast.trans hs) hjoins

theorem context_signed (h : Viable G ts p) (hcalls : ¬ p.Calls G)
    (hexpect : p.expectOperand = true) : Context G .signed p.depth ts := by
  cases h with
  | before hctx => exact hctx
  | called _ hf => exact absurd ⟨_, rfl, hf⟩ hcalls
  | after => simp at hexpect

theorem stands (h : Viable G ts p) (hexpect : p.expectOperand = false) :
    Stands G p.depth ts := by
  cases h with
  | after hstands => exact hstands
  | _ => simp at hexpect

theorem of_stands {n : Nat} (h : Stands G n (ts ++ [t])) :
    Viable G (ts ++ [t]) ⟨n, false, some t⟩ := by
  simpa using Viable.after h

theorem of_context {n : Nat} (h : Context G .signed n (ts ++ [t])) :
    Viable G (ts ++ [t]) ⟨n, true, some t⟩ := by
  simpa using Viable.before h

theorem opening (h : Viable G ts p) (ho : t.isOpen = true) (hstart : p.MayStart G t) :
    Context G .list (p.depth + 1) (ts ++ [t]) := by
  cases h with
  | before hctx => exact .group (.operand hctx) ho
  | called hctx hf => simpa using Context.call hctx hf ho
  | after hstands =>
    obtain ⟨pre, xs, rfl, hpre, hxs, hlast⟩ := hstands
    obtain ⟨s, hs, hjoins⟩ := hstart.resolve_left (by simp)
    exact .group (.factor hpre hxs (hlast.trans hs) hjoins) ho

/-- A step leads from stage to stage. -/
theorem step (h : Viable G ts p) (hs : Step G p t q) : Viable G (ts ++ [t]) q := by
  cases hs with
  | operand hcalls ht hstart =>
    exact .of_stands ((h.context_operand hcalls hstart).fill (.token ht) rfl)
  | function hcalls hf hstart => exact .called (h.context_operand hcalls hstart) hf
  | sign hcalls ht hexpect => exact .of_context (.sign (h.context_signed hcalls hexpect) ht)
  | operator hcalls hb hexpect =>
    obtain ⟨pre, xs, rfl, hpre, hxs, -⟩ := h.stands hexpect
    refine .of_context ?_
    rw [List.append_assoc]
    exact .right hpre hxs hb
  | opening ho hstart => exact .of_context (.left (.first (h.opening ho hstart)))
  | closing hcalls hc hexpect hdepth =>
    have hstands := h.stands hexpect
    rw [hdepth] at hstands
    exact .of_stands (hstands.close hc)
  | comma hcalls hc hexpect hdepth =>
    obtain ⟨pre, xs, rfl, hpre, hxs, -⟩ := h.stands hexpect
    rw [hdepth] at hpre ⊢
    obtain ⟨pre', ys, heq, hpre', hys⟩ := hpre.exists_list hxs
    refine .of_context ?_
    rw [heq, List.append_assoc]
    exact .left (.comma hpre' hys hc)

theorem steps {us : List Token} (h : Viable G ts p) (hs : Steps G p us q) :
    Viable G (ts ++ us) q := by
  induction hs generalizing ts with
  | nil => simpa using h
  | cons hstep _ ih => simpa using ih (h.step hstep)

/-- A complete row is an expression. -/
theorem derives (h : Viable G ts p) (hp : p.isComplete = true) : Derives G .expression ts := by
  obtain ⟨hdepth, hexpect⟩ : p.depth = 0 ∧ p.expectOperand = false := by
    simpa [Progress.isComplete] using hp
  have hstands := h.stands hexpect
  rw [hdepth] at hstands
  exact hstands.derives

/-- Proper tokens take a row at any stage to the end of an expression. -/
theorem complete (h : Viable G ts p) :
    ∃ more, (∀ t ∈ more, Token.IsProper t) ∧ Derives G .expression (ts ++ more) := by
  have hopen : Token.isOpen ⟨.parenthesis, "(", 0⟩ = true := by decide
  have hclose : Token.isClose ⟨.parenthesis, ")", 0⟩ = true := by decide
  have hlist : Derives G .list [⟨.number, "1", 0⟩] :=
    .expression (.signed (.operand (.token G.operand_one)))
  -- an operand if one is missing, then the closing parentheses
  obtain ⟨n, more, hmore, hstands⟩ :
      ∃ n more, (∀ t ∈ more, Token.IsProper t) ∧ Stands G n (ts ++ more) := by
    cases h with
    | before hctx =>
      exact ⟨_, [⟨.number, "1", 0⟩], by decide,
        hctx.fill_signed (.operand (.token G.operand_one))⟩
    | @called n _ _ hctx hf =>
      refine ⟨n, [⟨.parenthesis, "(", 0⟩, ⟨.number, "1", 0⟩, ⟨.parenthesis, ")", 0⟩],
        by decide, ?_⟩
      simpa using hctx.fill (.call hf hopen hlist hclose) rfl
    | after hstands => exact ⟨_, [], by simp, by simpa using hstands⟩
  refine ⟨more ++ List.replicate n ⟨.parenthesis, ")", 0⟩, ?_, ?_⟩
  · intro t ht
    rcases List.mem_append.1 ht with ht | ht
    · exact hmore t ht
    · rw [List.eq_of_mem_replicate ht]
      decide
  · rw [← List.append_assoc]
    exact hstands.complete hclose

end Viable

/-! ## Runs -/

section

variable {step : Progress → Token → Option Progress} {p : Progress} {ts : List Token} {i k : Nat}

theorem run_eq_ok (hstep : Obeys G step) (hts : ∀ t ∈ ts, Token.IsProper t) :
    run step p i ts = .ok () ↔ ∃ q, Steps G p ts q ∧ q.isComplete = true := by
  induction ts generalizing p i with
  | nil =>
    constructor
    · intro h
      by_cases hp : p.isComplete = true
      · exact ⟨p, .nil, hp⟩
      · simp [run, hp] at h
    · rintro ⟨q, hs, hq⟩
      cases hs
      simp [run, hq]
  | cons t ts ih =>
    simp only [List.forall_mem_cons] at hts
    rw [run]
    constructor
    · intro h
      cases hq : step p t with
      | none => simp [hq] at h
      | some q =>
        rw [hq] at h
        obtain ⟨r, hs, hr⟩ := (ih hts.2).1 h
        exact ⟨r, .cons ((hstep p t q hts.1).1 hq) hs, hr⟩
    · rintro ⟨r, hs, hr⟩
      cases hs with
      | cons hs hss =>
        rw [(hstep p t _ hts.1).2 hs]
        exact (ih hts.2).2 ⟨r, hss, hr⟩

/-- A refused row has been read up to the index. -/
theorem run_error (hstep : Obeys G step) (hts : ∀ t ∈ ts, Token.IsProper t)
    (h : run step p i ts = .error k) :
    ∃ j q, k = i + j ∧ j ≤ ts.length ∧ Steps G p (ts.take j) q := by
  induction ts generalizing p i with
  | nil =>
    rw [run] at h
    split at h <;> cases h
    exact ⟨0, p, rfl, Nat.le_refl _, .nil⟩
  | cons t ts ih =>
    simp only [List.forall_mem_cons] at hts
    rw [run] at h
    cases hq : step p t with
    | none =>
      rw [hq] at h
      cases h
      exact ⟨0, p, rfl, Nat.zero_le _, .nil⟩
    | some q =>
      rw [hq] at h
      obtain ⟨j, r, rfl, hj, hs⟩ := ih hts.2 h
      exact ⟨j + 1, r, by omega, by simpa using hj, .cons ((hstep p t q hts.1).1 hq) hs⟩

theorem le_of_run_error (h : run step p i ts = .error k) : i ≤ k := by
  induction ts generalizing p i with
  | nil =>
    rw [run] at h
    split at h <;> cases h
    exact Nat.le_refl _
  | cons t ts ih =>
    rw [run] at h
    split at h
    · exact Nat.le_of_succ_le (ih h)
    · cases h
      exact Nat.le_refl _

/-- What follows the token at which a row is refused makes no difference. -/
theorem run_error_append {j : Nat} (h : run step p i ts = .error (i + j)) (hj : j < ts.length)
    (more : List Token) : run step p i (ts.take (j + 1) ++ more) = .error (i + j) := by
  induction ts generalizing p i j with
  | nil => simp at hj
  | cons t ts ih =>
    rw [run] at h
    rw [List.take_succ_cons, List.cons_append, run]
    cases hq : step p t with
    | none => simpa [hq] using h
    | some q =>
      rw [hq] at h
      cases j with
      | zero => exact absurd (le_of_run_error h) (by omega)
      | succ j =>
        rw [show i + (j + 1) = i + 1 + j by omega] at h ⊢
        exact ih h (by simpa using hj)

end

/-- The validator accepts the expressions of the grammar, and its index is that of the first
token that cannot stand where it does, or the end of the row if more has to come. -/
structure Decides (G : Rules) (check : List Token → Verdict) (ts : List Token) : Prop where
  accepts : check ts = .ok () ↔ Derives G .expression ts
  within : ∀ i, check ts = .error i → i ≤ ts.length
  /-- the row before the index goes on to an accepted one -/
  viable : ∀ i, check ts = .error i →
    ∃ more, (∀ t ∈ more, Token.IsProper t) ∧ check (ts.take i ++ more) = .ok ()
  /-- with the token at the index it does not -/
  offends : ∀ i, check ts = .error i → i < ts.length →
    ∀ more, check (ts.take (i + 1) ++ more) ≠ .ok ()

theorem run_decides {step : Progress → Token → Option Progress} {ts : List Token}
    (hstep : Obeys G step) (hts : ∀ t ∈ ts, Token.IsProper t) : Decides G (run step {} 0) ts := by
  have accepts {us : List Token} (hus : ∀ t ∈ us, Token.IsProper t) :
      run step {} 0 us = .ok () ↔ Derives G .expression us := by
    rw [run_eq_ok hstep hus]
    constructor
    · rintro ⟨q, hs, hq⟩
      exact (Viable.start.steps hs).derives hq
    · intro h
      obtain ⟨last, -, -, hs⟩ := h.steps (p := {}) (by simp [Progress.Calls]) rfl
      exact ⟨_, hs, rfl⟩
  refine ⟨accepts hts, fun i h => ?_, fun i h => ?_, fun i h hi more => ?_⟩
  · obtain ⟨j, -, rfl, hj, -⟩ := run_error hstep hts h
    omega
  · obtain ⟨j, q, rfl, hj, hs⟩ := run_error hstep hts h
    obtain ⟨more, hmore, hder⟩ := (Viable.start.steps hs).complete
    rw [Nat.zero_add]
    refine ⟨more, hmore, (accepts fun t ht => ?_).2 hder⟩
    rcases List.mem_append.1 ht with ht | ht
    · exact hts t (List.mem_of_mem_take ht)
    · exact hmore t ht
  · rw [← Nat.zero_add i] at h
    rw [run_error_append h hi more]
    simp

/-- **Both validators decide their grammars, and their index is that of the first token that no
expression has there.** -/
theorem validators_decide (ts : List Token) (hts : ∀ t ∈ ts, Token.IsProper t) :
    Decides arithmeticRules validateArithmetic ts ∧ Decides logicRules validateLogic ts :=
  ⟨run_decides arithmeticStep_obeys hts, run_decides logicStep_obeys hts⟩

/-- In `sqrt 2` the number is refused, whatever comes after it. -/
theorem sqrt_two_refused :
    validateArithmetic [⟨.function, "sqrt", 0⟩, ⟨.number, "2", 5⟩] = .error 1 ∧
      ∀ more,
        validateArithmetic ([⟨.function, "sqrt", 0⟩, ⟨.number, "2", 5⟩] ++ more) ≠ .ok () := by
  have hdecides := validators_decide [⟨.function, "sqrt", 0⟩, ⟨.number, "2", 5⟩] (by decide)
  exact ⟨by decide, hdecides.1.offends 1 (by decide) (by decide)⟩

end Reckoner.Expression
