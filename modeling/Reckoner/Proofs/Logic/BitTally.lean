/-
  What the evaluator of bitwise expressions accepts.

  * `counts`: the operators that wait take one value away each;
  * `IsCut`, `isCut_of_tokenize`: what tokens a text is cut into;
  * `turn_of_step`, `step_error`: what reading a token does, and how it fails where operands and
    operators alternate;
  * `turns_of_start`, `start_error`: the same for the complement, which is read apart;
  * `evaluate_judged`: **expressions with a value are well-formed exactly if no operand stands
    directly after another**.
-/
import Reckoner.Proofs.Logic.Bitwise
import Reckoner.Proofs.Logic.Letters
import Reckoner.Proofs.Logic.Tally

namespace Reckoner.Logic.Bitwise

open Expression (logicRules Derives Progress Step Steps)

/-- The number of values that an operator takes away. -/
def drop : Operator → Nat
  | .complement => 0
  | _ => 1

/-- The failures of a literal or a shift that does not fit. -/
def IsRangeFailure (f : Failure) : Prop :=
  (∃ literal, f = .invalidNumber literal) ∨ ∃ amount, f = .shiftOutOfRange amount

theorem shiftAmount_error {b : Int64} {f : Failure} (h : shiftAmount b = .error f) :
    IsRangeFailure f := by
  unfold shiftAmount at h
  split at h
  · cases h
  · cases h
    exact .inr ⟨_, rfl⟩

theorem readLiteral_error {literal : String} {f : Failure} (h : readLiteral literal = .error f) :
    IsRangeFailure f := by
  unfold readLiteral at h
  dsimp only at h
  split at h
  · cases h
  · cases h
    exact .inl ⟨literal, rfl⟩

/-- Apart from the complement, which never waits, operators fail for want of values and for shifts
out of range. -/
theorem counts : Infix.Counts rules (· ≠ .complement) drop IsRangeFailure where
  ok := by
    intro op values values' hop h
    rcases values with _ | ⟨b, _ | ⟨a, values⟩⟩
    · cases h
    · cases h
    · cases op with
      | shiftLeft | shiftRight =>
        obtain ⟨n, -, h⟩ := ok_of_bind h
        cases h
        rfl
      | complement => exact absurd rfl hop
      | _ =>
        cases h
        rfl
  error := by
    intro op values f hop h henough
    rcases values with _ | ⟨b, _ | ⟨a, values⟩⟩
    · exact absurd henough (Nat.not_lt_zero _)
    · cases op with
      | complement => exact absurd rfl hop
      | _ => exact absurd henough (Nat.lt_irrefl 1)
    · cases op with
      | shiftLeft | shiftRight =>
        obtain hshift | ⟨_, _, h⟩ := error_of_bind h
        · exact shiftAmount_error hshift
        · cases h
      | _ => cases h

/-! ## Tokens -/

/-- What tokens an expression is cut into. -/
inductive IsCut (t : Token) : Prop
  | number : t.kind = .number → t.value ≠ "~" → IsCut t
  | operator (op : Operator) : t.kind = .operator → t.value = op.symbol → IsCut t
  | opening : t.isOpen = true → IsCut t
  | closing : t.isClose = true → IsCut t

theorem isCut_lexeme {c : Char} {cs : List Char} (h : (lexeme c cs).1 ≠ .unknown)
    (position : Nat) :
    IsCut ⟨(lexeme c cs).1, String.ofList (c :: cs.take (lexeme c cs).2), position⟩ := by
  by_cases hdigit : Text.isDigit c = true
  · have hkind : (lexeme c cs).1 = .number := by
      rw [lexeme, if_pos hdigit] at h ⊢
      dsimp only at h ⊢
      split at h
      · rename_i hascii
        exact if_pos hascii
      · exact absurd rfl h
    refine .number hkind fun hvalue => ?_
    have hlist : c :: cs.take (lexeme c cs).2 = ['~'] := String.ofList_injective hvalue
    obtain ⟨rfl, -⟩ := List.cons.inj hlist
    exact absurd hdigit (by decide)
  · rw [lexeme, if_neg hdigit] at h ⊢
    split_ifs at h ⊢ with hshift hsign hparen hname
    · obtain ⟨hfirst, hsecond⟩ := Bool.and_eq_true_iff.1 hshift
      obtain ⟨rest, rfl⟩ := List.head?_eq_some_iff.1 (beq_iff_eq.1 hsecond)
      obtain hc | hc := Bool.or_eq_true_iff.1 hfirst <;> obtain rfl := beq_iff_eq.1 hc
      · exact .operator .shiftLeft rfl rfl
      · exact .operator .shiftRight rfl rfl
    · have hmem := List.contains_iff_mem.1 hsign
      simp only [List.mem_cons, List.not_mem_nil, or_false] at hmem
      obtain rfl | rfl | rfl | rfl := hmem
      · exact .operator .and rfl rfl
      · exact .operator .or rfl rfl
      · exact .operator .xor rfl rfl
      · exact .operator .complement rfl rfl
    · obtain hc | hc := Bool.or_eq_true_iff.1 hparen <;> obtain rfl := beq_iff_eq.1 hc
      · exact .opening rfl
      · exact .closing rfl
    · exact absurd rfl h
    · exact absurd rfl h

theorem isCut_of_tokenize {cs : List Char} {ts : List Token} (h : tokenize cs = .ok ts) :
    ∀ t ∈ ts, IsCut t := by
  intro t ht
  obtain ⟨s, hs, htoken⟩ := exists_of_mem_mapM h t ht
  obtain ⟨c, rest, -, htag, htext⟩ := Slice.eq_of_mem_cut hs
  have hknown := tag_of_toToken htoken
  have hvalue : t = ⟨s.tag, String.ofList s.text, s.position⟩ := by
    unfold toToken at htoken
    split at htoken
    · cases htoken
    · exact (Except.ok.inj htoken).symm
  rw [hvalue, htag, htext]
  exact isCut_lexeme (htag ▸ hknown) _

section
variable {t : Token} {op : Operator}

theorem IsCut.value_ne (h : IsCut t) (hkind : t.kind ≠ .operator) : t.value ≠ "~" := by
  cases h with
  | number _ hvalue => exact hvalue
  | operator _ hoperator => exact absurd hoperator hkind
  | opening hopen =>
    rw [Token.isOpen, Bool.and_eq_true, beq_iff_eq, beq_iff_eq] at hopen
    rw [hopen.2]
    decide
  | closing hclose =>
    rw [Token.isClose, Bool.and_eq_true, beq_iff_eq, beq_iff_eq] at hclose
    rw [hclose.2]
    decide

theorem IsCut.isClose (h : IsCut t) (hkind : t.kind = .parenthesis)
    (hopen : ¬ (t.value == "(") = true) : t.isClose = true := by
  cases h with
  | number hnumber => simp [hkind] at hnumber
  | operator _ hoperator => simp [hkind] at hoperator
  | opening h =>
    rw [Token.isOpen, Bool.and_eq_true] at h
    exact absurd h.2 hopen
  | closing h => exact h

theorem ofSymbol?_symbol (op : Operator) : Operator.ofSymbol? op.symbol = some op := by
  cases op <;> decide

theorem symbol_of_ofSymbol? {s : String} (h : Operator.ofSymbol? s = some op) :
    s = op.symbol := by
  unfold Operator.ofSymbol? at h
  have hsymbol := List.find?_some h
  exact (beq_iff_eq.1 hsymbol).symm

theorem isBinary_of_symbol (hkind : t.kind = .operator) (hvalue : t.value = op.symbol)
    (hop : op ≠ .complement) : isBinary t = true ∧ t.value ≠ "~" ∧ drop op = 1 := by
  rw [isBinary, hkind, hvalue]
  cases op with
  | complement => exact absurd rfl hop
  | _ => decide

theorem ne_complement (hsymbol : t.value = op.symbol) (hvalue : t.value ≠ "~") :
    op ≠ .complement := by
  rintro rfl
  exact hvalue hsymbol

theorem IsCut.isPrefix (h : IsCut t) (hvalue : t.value = "~") : isPrefix t = true := by
  have hkind : t.kind = .operator := by
    by_contra hkind
    exact h.value_ne hkind hvalue
  rw [Logic.isPrefix, hkind, hvalue]
  decide

theorem step_of_symbol (hkind : t.kind = .operator) (hsymbol : t.value = op.symbol)
    (hop : op ≠ .complement) (s : State) :
    step s t = do return { s with expr := ← s.expr.operator rules op } := by
  simp only [step, hkind, hsymbol, ofSymbol?_symbol]

end

/-! ## Reading -/

section
variable {s s' : State} {t : Token} {ts : List Token}

/-- Reading a token does what the token asks for; it is no complement. -/
theorem turn_of_step (ht : IsCut t) (h : step s t = .ok s') :
    t.value ≠ "~" ∧ Infix.Turn rules (· ≠ .complement) drop s.expr t s'.expr := by
  have hstep := h
  unfold step at h
  split at h
  · rename_i hkind
    obtain ⟨v, -, h⟩ := ok_of_bind h
    cases h
    refine ⟨ht.value_ne (by rw [hkind]; decide), .value ?_⟩
    rw [isValue, hkind]
    rfl
  · rename_i hkind
    have hvalue : t.value ≠ "~" := ht.value_ne (by rw [hkind]; decide)
    split at h
    · rename_i hopen
      cases h
      exact ⟨hvalue, .open_ (by rw [Token.isOpen, hkind, hopen]; rfl)⟩
    · rename_i hopen
      have hclose := ht.isClose hkind hopen
      obtain ⟨e, hresult, h⟩ := ok_of_bind h
      split at h
      · obtain ⟨values, htop, h⟩ := ok_of_bind h
        cases h
        refine ⟨hvalue, .close hclose hresult ?_⟩
        unfold complementTop at htop
        split at htop
        · rename_i hvalues
          cases htop
          rw [hvalues]
          rfl
        · cases htop
      · cases h
        exact ⟨hvalue, .close hclose hresult rfl⟩
  · rename_i hkind
    cases hop : Operator.ofSymbol? t.value with
    | none =>
      rw [hop] at h
      cases h
    | some op =>
      rw [hop] at h
      by_cases hcomplement : op = .complement
      · rw [hcomplement] at h
        cases h
      · have hsymbol := symbol_of_ofSymbol? hop
        obtain ⟨hbinary, hvalue, hdrop⟩ := isBinary_of_symbol hkind hsymbol hcomplement
        rw [step_of_symbol hkind hsymbol hcomplement] at hstep
        obtain ⟨e, hresult, h⟩ := ok_of_bind hstep
        cases h
        exact ⟨hvalue, .operator hbinary hcomplement hdrop hresult⟩
  · cases h

theorem turns_of_run (hts : ∀ t ∈ ts, IsCut t) (h : ts.foldlM step s = .ok s') :
    (∀ t ∈ ts, t.value ≠ "~") ∧ Infix.Turns rules (· ≠ .complement) drop s.expr ts s'.expr := by
  induction ts generalizing s with
  | nil =>
    obtain rfl := Except.ok.inj h
    exact ⟨nofun, .nil⟩
  | cons t ts ih =>
    obtain ⟨ht, hts⟩ := List.forall_mem_cons.1 hts
    rw [List.foldlM_cons] at h
    obtain ⟨s'', hstep, hrun⟩ := ok_of_bind h
    obtain ⟨hvalue, hturn⟩ := turn_of_step ht hstep
    obtain ⟨hvalues, hturns⟩ := ih hts hrun
    exact ⟨List.forall_mem_cons.2 ⟨hvalue, hvalues⟩, .cons hturn hturns⟩

variable {p q : Progress} {f : Failure}

/-- Where operands and operators alternate, a token fails for what the values are alone. -/
theorem step_error (hkeeps : Infix.Keeps (· ≠ .complement) drop p s.expr) (ht : IsCut t)
    (hvalue : t.value ≠ "~") (hstep : Step logicRules p t q) (h : step s t = .error f) :
    IsRangeFailure f := by
  have halt := step_iff.1 hstep
  cases ht with
  | number hkind =>
    simp only [step, hkind] at h
    obtain hliteral | ⟨_, _, h⟩ := error_of_bind h
    · exact readLiteral_error hliteral
    · cases h
  | operator op hkind hsymbol =>
    have hop := ne_complement hsymbol hvalue
    obtain ⟨hbinary, -, -⟩ := isBinary_of_symbol hkind hsymbol hop
    have hexpect : p.expectOperand = false := halt.due.trans (role_of_binary hbinary).starts
    rw [step_of_symbol hkind hsymbol hop] at h
    obtain hresult | ⟨_, _, h⟩ := error_of_bind h
    · exact hkeeps.operator_error counts hexpect hresult
    · cases h
  | opening hopen =>
    rw [Token.isOpen, Bool.and_eq_true, beq_iff_eq] at hopen
    simp only [step, hopen.1, hopen.2] at h
    cases h
  | closing hclose =>
    have hkind := (Expression.isClose_kind hclose).1
    have hopen : (t.value == "(") = false := by
      have hopen := (Expression.isClose_kind hclose).2
      rwa [Token.isOpen, hkind, beq_self_eq_true, Bool.true_and] at hopen
    have hexpect : p.expectOperand = false := halt.due.trans (role_of_close hclose).starts
    simp only [step, hkind, hopen] at h
    obtain hresult | ⟨e, hresult, h⟩ := error_of_bind h
    · exact hkeeps.close_error counts hexpect (halt.depth_pos hclose) hresult
    · split at h
      · -- the group has left a value
        obtain htop | ⟨_, _, h⟩ := error_of_bind h
        · have hkeeps' := hkeeps.turn counts hstep (.close hclose hresult rfl)
          have hlength := hkeeps'.values
          rw [halt.next, (role_of_close hclose).ends] at hlength
          unfold complementTop at htop
          split at htop
          · cases htop
          · rename_i hvalues
            simp [hvalues] at hlength
        · cases h
      · cases h

/-- Where operands and operators alternate, what follows the start is read or fails for what its
values are. -/
theorem run_error (hkeeps : Infix.Keeps (· ≠ .complement) drop p s.expr)
    (hts : ∀ t ∈ ts, IsCut t) (hvalues : ∀ t ∈ ts, t.value ≠ "~")
    (hsteps : Steps logicRules p ts q) (h : ts.foldlM step s = .error f) : IsRangeFailure f := by
  induction ts generalizing p s with
  | nil => cases h
  | cons t ts ih =>
    obtain ⟨ht, hts⟩ := List.forall_mem_cons.1 hts
    obtain ⟨hvalue, hvalues⟩ := List.forall_mem_cons.1 hvalues
    cases hsteps with
    | cons hstep hsteps =>
      rw [List.foldlM_cons] at h
      obtain hfirst | ⟨s', hfirst, h⟩ := error_of_bind h
      · exact step_error hkeeps ht hvalue hstep hfirst
      · have hturn := (turn_of_step ht hfirst).2
        exact ih (hkeeps.turn counts hstep hturn) hts hvalues hsteps h

end

/-! ## The start -/

section
variable {s : State} {ts rest : List Token}

theorem start_of_ne {first : Token} (h : first.value ≠ "~") (tail : List Token) :
    start (first :: tail) = .ok ({}, first :: tail) :=
  if_pos (bne_iff_ne.2 h)

theorem start_of_eq {first : Token} (h : first.value = "~") (operand : Token)
    (after : List Token) : start (first :: operand :: after) =
      if operand.kind == .number then do
        return ({ expr := { values := [~~~(← readLiteral operand.value)] } }, after)
      else if operand.isOpen then .ok ({ complemented := some 0 }, operand :: after)
      else .error (.insufficientOperands "~") :=
  if_neg (by rw [h]; decide)

/-- A complement at the start is a prefix, which does not wait. -/
theorem turns_of_start (hts : ∀ t ∈ ts, IsCut t) (h : start ts = .ok (s, rest)) :
    ∃ read, ts = read ++ rest ∧ (∀ t ∈ read.tail, t.value ≠ "~") ∧
      ((∀ t ∈ ts.tail, t.value ≠ "~") → ∀ t ∈ rest, t.value ≠ "~") ∧
      Infix.Turns rules (· ≠ .complement) drop {} read s.expr := by
  cases ts with
  | nil =>
    cases h
    exact ⟨[], rfl, List.forall_mem_nil _, id, .nil⟩
  | cons first tail =>
    obtain ⟨hfirst, htail⟩ := List.forall_mem_cons.1 hts
    by_cases hvalue : first.value = "~"
    · have hsign := hfirst.isPrefix hvalue
      cases tail with
      | nil =>
        have hnone : start [first] = .error (.insufficientOperands "~") :=
          if_neg (by rw [hvalue]; decide)
        rw [hnone] at h
        cases h
      | cons operand after =>
        rw [start_of_eq hvalue] at h
        split at h
        · rename_i hnumber
          obtain ⟨v, -, h⟩ := ok_of_bind h
          cases h
          have hoperand : isValue operand = true := by rw [isValue, hnumber, Bool.true_or]
          have hcut := htail operand List.mem_cons_self
          refine ⟨[first, operand], rfl, List.forall_mem_singleton.2 ?_,
            fun hother => (List.forall_mem_cons.1 hother).2,
            .cons (.sign hsign) (.cons (.value hoperand) .nil)⟩
          exact hcut.value_ne (by rw [eq_of_beq hnumber]; decide)
        · split at h
          · cases h
            exact ⟨[first], rfl, List.forall_mem_nil _, id, .cons (.sign hsign) .nil⟩
          · cases h
    · rw [start_of_ne hvalue] at h
      cases h
      exact ⟨[], rfl, List.forall_mem_nil _, fun hother => List.forall_mem_cons.2 ⟨hvalue, hother⟩,
        .nil⟩

variable {q : Progress} {f : Failure}

/-- Where operands and operators alternate, the start is read or its literal does not fit. -/
theorem start_error (hts : ∀ t ∈ ts, IsCut t) (hvalues : ∀ t ∈ ts.tail, t.value ≠ "~")
    (hsteps : Steps logicRules {} ts q) (hcomplete : q.isComplete = true)
    (h : start ts = .error f) : IsRangeFailure f := by
  cases ts with
  | nil => cases h
  | cons first tail =>
    by_cases hvalue : first.value = "~"
    · obtain ⟨hfirst, htail⟩ := List.forall_mem_cons.1 hts
      have hrole := role_of_sign (hfirst.isPrefix hvalue)
      cases hsteps with
      | @cons _ _ p _ _ hstep hsteps =>
        have hexpect : p.expectOperand = true := by
          rw [(step_iff.1 hstep).next, hrole.ends]
          rfl
        cases hsteps with
        | nil =>
          rw [Progress.isComplete, hexpect, Bool.not_true, Bool.and_false] at hcomplete
          cases hcomplete
        | @cons _ operand _ after _ hstep' _ =>
          have hstarts : startsOperand operand = true := (step_iff.1 hstep').due ▸ hexpect
          have hother := hvalues operand List.mem_cons_self
          rw [start_of_eq hvalue] at h
          split at h
          · obtain hliteral | ⟨_, _, h⟩ := error_of_bind h
            · exact readLiteral_error hliteral
            · cases h
          · rename_i hnumber
            split at h
            · cases h
            · rename_i hopen
              -- nothing else starts an operand
              refine absurd hstarts ?_
              cases htail operand List.mem_cons_self with
              | number hoperand => exact absurd (beq_iff_eq.2 hoperand) hnumber
              | operator op hoperator hsymbol =>
                have hop := ne_complement hsymbol hother
                have hbinary := (isBinary_of_symbol hoperator hsymbol hop).1
                rw [(role_of_binary hbinary).starts]
                decide
              | opening hoperand => exact absurd hoperand hopen
              | closing hoperand =>
                rw [(role_of_close hoperand).starts]
                decide
    · rw [start_of_ne hvalue] at h
      cases h

/-- Reading a row does what its tokens ask for; no complement stands after its start. -/
theorem turns_of_read (hts : ∀ t ∈ ts, IsCut t) (h : read ts = .ok s) :
    (∀ t ∈ ts.tail, t.value ≠ "~") ∧ Infix.Turns rules (· ≠ .complement) drop {} ts s.expr := by
  obtain ⟨⟨s', rest⟩, hstart, hrun⟩ := ok_of_bind h
  obtain ⟨before, rfl, htail, -, hbefore⟩ := turns_of_start hts hstart
  obtain ⟨hvalues, hrest⟩ :=
    turns_of_run (fun t ht => hts t (List.mem_append_right before ht)) hrun
  refine ⟨fun t ht => ?_, hbefore.append hrest⟩
  cases before with
  | nil => exact hvalues t (List.mem_of_mem_tail ht)
  | cons first before =>
    obtain ht | ht := List.mem_append.1 ht
    · exact htail t ht
    · exact hvalues t ht

/-- Where operands and operators alternate, a row is read or fails for what its values are. -/
theorem read_error (hts : ∀ t ∈ ts, IsCut t) (hvalues : ∀ t ∈ ts.tail, t.value ≠ "~")
    (hsteps : Steps logicRules {} ts q) (hcomplete : q.isComplete = true)
    (h : read ts = .error f) : IsRangeFailure f := by
  obtain hstart | ⟨⟨s, rest⟩, hstart, hrun⟩ := error_of_bind h
  · exact start_error hts hvalues hsteps hcomplete hstart
  · obtain ⟨before, rfl, -, hrest, hbefore⟩ := turns_of_start hts hstart
    obtain ⟨p, hsteps, hsteps'⟩ := split_steps hsteps
    exact run_error (Infix.Keeps.start.turns counts hsteps hbefore)
      (fun t ht => hts t (List.mem_append_right before ht)) (hrest hvalues) hsteps' hrun

end

/-- A row is an expression, and a complement stands at its start only. -/
def WellFormed (ts : List Token) : Prop :=
  Derives logicRules .expression ts ∧ ∀ t ∈ ts.tail, t.value ≠ "~"

/-- **Bitwise expressions with a value are well-formed exactly if no operand stands directly after
another**, and those that are well-formed fail for literals and shifts out of range alone. -/
theorem evaluate_judged {cs : List Char} {ts : List Token} (h : tokenize cs = .ok ts) :
    Judges (evaluate cs) ts (WellFormed ts) IsRangeFailure := by
  have hcut := isCut_of_tokenize h
  have hevaluate : evaluate cs = (do (← read ts).expr.finish rules) := by
    simp only [evaluate, h, read, bind_assoc]
    rfl
  rw [hevaluate]
  refine counts.judges And.left (fun s hread => ?_) fun hwell f hread => ?_
  · obtain ⟨htail, hturns⟩ := turns_of_read hcut hread
    exact ⟨hturns, fun hderives => ⟨hderives, htail⟩⟩
  · obtain ⟨q, hsteps, hcomplete⟩ := derives_iff_steps.1 hwell.1
    exact read_error hcut hwell.2 hsteps hcomplete hread

end Reckoner.Logic.Bitwise
