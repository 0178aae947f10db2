/-
  What the evaluators of logic accept.

  * `Boolean.tokens`: the lexemes of a boolean expression as tokens;
  * `Boolean.turn_of_step`, `Boolean.exists_step`: what reading a lexeme does, and that it succeeds
    where operands and operators alternate;
  * `Boolean.evaluate_judged`: **boolean expressions with a value are well-formed exactly if no
    operand stands directly after another**;
  * `evaluators_judge`: **both evaluators accept, of the texts without neighbouring operands, the
    well-formed ones**; `operator_last_accepted`: with neighbouring operands they accept others.
-/
import Reckoner.Logic.Boolean
import Reckoner.Proofs.Logic.BitTally

namespace Reckoner.Logic

open Expression (logicRules Derives Progress Step Steps)

/-! ## Boolean expressions -/

namespace Boolean

/-- The number of values that a connective takes away. -/
def drop : Connective → Nat
  | .not => 0
  | _ => 1

/-- Connectives fail for want of values alone. -/
theorem counts : Infix.Counts rules (fun _ => True) drop fun _ => False where
  ok := by
    intro op values values' _ h
    rcases values with _ | ⟨b, _ | ⟨a, values⟩⟩ <;> cases op <;> cases h <;> rfl
  error := by
    intro op values f _ h henough
    rcases values with _ | ⟨b, _ | ⟨a, values⟩⟩
    · exact Nat.not_lt_zero _ henough
    · cases op with
      | not => cases h
      | _ => exact Nat.lt_irrefl 1 henough
    · cases op <;> cases h

/-- A lexeme as a token. -/
def token (lexeme : String) : Token :=
  let kind : TokenKind :=
    if lexeme == "1" || lexeme == "0" then .number
    else if lexeme == "(" || lexeme == ")" then .parenthesis
    else if (Connective.ofSymbol? lexeme).isSome then .operator
    else .unknown
  ⟨kind, lexeme, 0⟩

/-- The tokens of a text. -/
def tokens (cs : List Char) : List Token := (lexemes (substituteWords cs)).map token

theorem symbol_of_ofSymbol? {s : String} {op : Connective} (h : Connective.ofSymbol? s = some op) :
    s = op.symbol := by
  unfold Connective.ofSymbol? at h
  have hsymbol := List.find?_some h
  exact (beq_iff_eq.1 hsymbol).symm

/-- Reading a lexeme does what its token asks for. -/
theorem turn_of_step {s s' : State} {l : String} (h : step s l = .ok s') :
    Infix.Turn rules (fun _ => True) drop s.expr (token l) s'.expr := by
  unfold step at h
  split at h
  case isTrue hl =>
    obtain rfl := eq_of_beq hl
    cases h
    exact .value rfl
  split at h
  case isTrue hl =>
    obtain rfl := eq_of_beq hl
    cases h
    exact .value rfl
  split at h
  case isTrue hl =>
    obtain rfl := eq_of_beq hl
    cases h
    exact .open_ rfl
  split at h
  case isTrue hl =>
    obtain rfl := eq_of_beq hl
    obtain ⟨e, hclose, h⟩ := ok_of_bind h
    cases h
    exact .close rfl hclose rfl
  cases hop : Connective.ofSymbol? l with
  | none =>
    rw [hop] at h
    cases h
  | some op =>
    obtain rfl := symbol_of_ofSymbol? hop
    rw [hop] at h
    cases op with
    | not =>
      dsimp only at h
      split at h
      · cases h
        exact .prefixed rfl trivial rfl
      · cases h
    | _ =>
      obtain ⟨e, hoperator, h⟩ := ok_of_bind h
      cases h
      exact .operator rfl trivial rfl hoperator

theorem turns_of_run {s s' : State} {ls : List String} (h : ls.foldlM step s = .ok s') :
    Infix.Turns rules (fun _ => True) drop s.expr (ls.map token) s'.expr := by
  induction ls generalizing s with
  | nil =>
    obtain rfl := Except.ok.inj h
    exact .nil
  | cons l ls ih =>
    rw [List.foldlM_cons] at h
    obtain ⟨s'', hstep, hrun⟩ := ok_of_bind h
    exact .cons (turn_of_step hstep) (ih hrun)

/-- Where operands and operators alternate every lexeme is read. -/
theorem exists_step {p q : Progress} {s : State} {l : String}
    (hkeeps : Infix.Keeps (fun _ => True) drop p s.expr)
    (hexpect : s.expectOperand = p.expectOperand) (h : Step logicRules p (token l) q) :
    ∃ s', step s l = .ok s' ∧ s'.expectOperand = q.expectOperand := by
  have halt := step_iff.1 h
  rw [halt.next]
  unfold step
  split
  case isTrue hl =>
    obtain rfl := eq_of_beq hl
    exact ⟨_, rfl, rfl⟩
  rename_i hone
  split
  case isTrue hl =>
    obtain rfl := eq_of_beq hl
    exact ⟨_, rfl, rfl⟩
  rename_i hzero
  split
  case isTrue hl =>
    obtain rfl := eq_of_beq hl
    exact ⟨_, rfl, rfl⟩
  rename_i hopen
  split
  case isTrue hl =>
    obtain rfl := eq_of_beq hl
    cases hresult : s.expr.close rules with
    | ok e => exact ⟨_, rfl, rfl⟩
    | error f => exact (hkeeps.close_error counts halt.due (halt.depth_pos rfl) hresult).elim
  rename_i hclose
  cases hop : Connective.ofSymbol? l with
  | none =>
    refine absurd ?_ halt.part.kind_ne
    simp only [token, hone, hzero, hopen, hclose, hop]
    rfl
  | some op =>
    obtain rfl := symbol_of_ofSymbol? hop
    cases op with
    | not =>
      rw [hexpect, halt.due]
      exact ⟨_, rfl, rfl⟩
    | _ =>
      dsimp only
      cases hresult : s.expr.operator rules _ with
      | ok e => exact ⟨_, rfl, rfl⟩
      | error f => exact (hkeeps.operator_error counts halt.due hresult).elim

/-- Where operands and operators alternate all lexemes are read. -/
theorem exists_run {p q : Progress} {s : State} {ls : List String}
    (hkeeps : Infix.Keeps (fun _ => True) drop p s.expr)
    (hexpect : s.expectOperand = p.expectOperand) (h : Steps logicRules p (ls.map token) q) :
    ∃ s', ls.foldlM step s = .ok s' ∧ Infix.Keeps (fun _ => True) drop q s'.expr := by
  induction ls generalizing p s with
  | nil =>
    cases h
    exact ⟨s, rfl, hkeeps⟩
  | cons l ls ih =>
    cases h with
    | cons hstep hsteps =>
      obtain ⟨s', hs', hexpect'⟩ := exists_step hkeeps hexpect hstep
      obtain ⟨s'', hrun, hkeeps''⟩ :=
        ih (hkeeps.turn counts hstep (turn_of_step hs')) hexpect' hsteps
      refine ⟨s'', ?_, hkeeps''⟩
      rw [List.foldlM_cons, hs']
      exact hrun

/-- **Boolean expressions with a value are well-formed exactly if no operand stands directly after
another**, and all that are well-formed have one. -/
theorem evaluate_judged (cs : List Char) : Judges (evaluate cs) (tokens cs)
    (Derives logicRules .expression (tokens cs)) fun _ => False := by
  refine counts.judges id (fun s hrun => ⟨turns_of_run hrun, id⟩) fun hderives f hrun => ?_
  obtain ⟨q, hsteps, -⟩ := derives_iff_steps.1 hderives
  obtain ⟨s, hrun', -⟩ := exists_run (s := {}) .start rfl hsteps
  rw [hrun'] at hrun
  cases hrun

end Boolean

/-! ## Both evaluators -/

/-- **What has a value is well-formed exactly if no operand stands directly after another**, for
boolean and for bitwise expressions; its groups match, and it has one operand more than operators.
What is well-formed has a value, but for literals and shifts that are out of range. -/
theorem evaluators_judge (cs : List Char) :
    Judges (Boolean.evaluate cs) (Boolean.tokens cs)
      (Derives logicRules .expression (Boolean.tokens cs)) (fun _ => False) ∧
    (∀ f, Bitwise.tokenize cs = .error f → Bitwise.evaluate cs = .error f) ∧
    ∀ ts, Bitwise.tokenize cs = .ok ts →
      Judges (Bitwise.evaluate cs) ts (Bitwise.WellFormed ts) Bitwise.IsRangeFailure := by
  refine ⟨Boolean.evaluate_judged cs, fun f h => ?_, fun ts h => Bitwise.evaluate_judged h⟩
  unfold Bitwise.evaluate
  rw [h]
  rfl

/-- `1 & 2` has a value and no neighbouring operands, so it is well-formed. -/
theorem evaluators_judge_conjunction :
    ∃ ts, Bitwise.tokenize "1 & 2".toList = .ok ts ∧ Bitwise.WellFormed ts := by
  have htokens : Bitwise.tokenize "1 & 2".toList =
      .ok [⟨.number, "1", 0⟩, ⟨.operator, "&", 2⟩, ⟨.number, "2", 4⟩] := by
    decide +kernel
  have hjudges := (evaluators_judge "1 & 2".toList).2.2 _ htokens
  exact ⟨_, htokens, (hjudges.separated 0 (by decide +kernel)).2 (by decide)⟩

/-- `1 0 ^` has a value in both languages, though its operator comes after both operands. -/
theorem operator_last_accepted :
    (Boolean.evaluate "1 0 ^".toList = .ok true ∧
      ¬ Derives logicRules .expression (Boolean.tokens "1 0 ^".toList)) ∧
    (Bitwise.evaluate "1 0 ^".toList = .ok 1 ∧
      ∃ ts, Bitwise.tokenize "1 0 ^".toList = .ok ts ∧ ¬ Bitwise.WellFormed ts) := by
  refine ⟨⟨by decide +kernel, fun h => ?_⟩, by decide +kernel,
    [⟨.number, "1", 0⟩, ⟨.number, "0", 2⟩, ⟨.operator, "^", 4⟩], by decide +kernel, fun h => ?_⟩
  · exact absurd (separated_of_derives h) (by decide +kernel)
  · exact absurd (separated_of_derives h.1) (by decide)

end Reckoner.Logic
