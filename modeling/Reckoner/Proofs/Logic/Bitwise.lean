/-
  Bitwise expressions are evaluated to the values of their trees.

  * `Reads`: symbols are read as an expression of a value, wherever what waits lets it wait;
  * `Begins`: and at the start, where there may be a complement;
  * `Spells.reads`, `Spells.begins`: every spelling of a tree is read as its value;
  * `evaluate_text`: **a text is evaluated to the value of its tree**, or to the failure that
    comes first in it.
-/
import Reckoner.Proofs.Logic.BitGrammar
import Reckoner.Proofs.Logic.Infix
import Reckoner.Proofs.Text.Spaced

namespace Reckoner.Logic.Bitwise

open Text

/-! ## Reading symbols -/

/-- Reads tokens from the start on. -/
def read (ts : List Token) : Except Failure State := do
  let (s, rest) ← start ts
  rest.foldlM step s

/-- The group to complement, if there is one, is open. -/
def State.IsOpen (s : State) : Prop := ∀ depth, s.complemented = some depth →
  depth < s.expr.waiting.length

/-- Symbols are read as an expression of a value, wherever what waits lets it wait. -/
def Reads (level : Nat) (value : Except Failure Int64) (ts : List Symbol) : Prop :=
  ∀ s : State, s.IsOpen → Infix.Blocks rules level s.expr.waiting →
    ∃ r, Infix.Leaves rules s.expr level value r ∧
      (ts.map Symbol.token).foldlM step s = do return ⟨← r, s.complemented⟩

theorem step_literal (s : State) (l : Literal) :
    step s (Symbol.literal l).token = do return { s with expr := s.expr.value (← l.eval) } := by
  rw [← readLiteral_text]
  rfl

theorem step_operator (s : State) (op : Binary) :
    step s (Symbol.operator op).token =
      do return { s with expr := ← s.expr.operator rules op.toOperator } := by
  have hsymbol : Operator.ofSymbol? (Symbol.operator op).token.value = some op.toOperator := by
    cases op <;> rfl
  simp only [step, hsymbol]
  cases op <;> rfl

theorem level_toOperator (op : Binary) : rules.level op.toOperator = op.level := by
  cases op <;> rfl

theorem Reads.literal (l : Literal) : Reads 4 l.eval [.literal l] := by
  intro s _ _
  refine ⟨_, .operand s.expr 4 l.eval, ?_⟩
  simp only [List.map_cons, List.map_nil, List.foldlM_cons, List.foldlM_nil, step_literal,
    bind_pure, bind_assoc, pure_bind]

/-- What the end of a group makes of the expression without it. -/
def closed (complemented : Option Nat) (e : Infix Operator Int64) : Except Failure State :=
  if complemented == some e.waiting.length then do
    return ⟨{ e with values := ← complementTop e.values }, none⟩
  else return ⟨e, complemented⟩

theorem step_closing (s : State) :
    step s Symbol.closing.token = s.expr.close rules >>= closed s.complemented := rfl

/-- A group comes down to its value, and the end of it may complement that. -/
theorem Reads.enclosed {level : Nat} {value : Except Failure Int64} {ts : List Symbol}
    (h : Reads level value ts) {s : State}
    (hopen : ∀ depth, s.complemented = some depth → depth ≤ s.expr.waiting.length) :
    ((Symbol.opening :: ts ++ [Symbol.closing]).map Symbol.token).foldlM step s =
      value >>= fun v => closed s.complemented (s.expr.value v) := by
  have hstep : step s Symbol.opening.token = .ok ⟨s.expr.open_, s.complemented⟩ := rfl
  obtain ⟨r, hr, hread⟩ := h ⟨s.expr.open_, s.complemented⟩
    (fun depth hdepth => Nat.lt_succ_of_le (hopen depth hdepth)) trivial
  have hclose := hr.close
  simp only [List.cons_append, List.map_cons, List.map_append, List.map_nil, List.foldlM_cons,
    List.foldlM_append, List.foldlM_nil, hstep, bind_pure]
  show (ts.map Symbol.token).foldlM step ⟨s.expr.open_, s.complemented⟩ >>= _ = _
  rw [hread]
  simp only [bind_assoc, pure_bind, step_closing]
  rw [← bind_assoc, hclose]
  simp only [bind_assoc, pure_bind]

theorem Reads.group {level : Nat} {value : Except Failure Int64} {ts : List Symbol}
    (h : Reads level value ts) : Reads 4 value (.opening :: ts ++ [.closing]) := by
  intro s hopen _
  refine ⟨_, .operand s.expr 4 value, ?_⟩
  rw [h.enclosed fun depth hdepth => Nat.le_of_lt (hopen depth hdepth)]
  simp only [bind_assoc, pure_bind]
  refine bind_congr fun v => if_neg fun heq => ?_
  exact Nat.lt_irrefl _ (hopen _ (beq_iff_eq.1 heq))

/-- After an operator its right operand is read, and what waits then comes to the value of
both. -/
theorem Reads.after_operator {op : Binary} {level₁ level₂ : Nat}
    {value₁ value₂ : Except Failure Int64} {ts : List Symbol} {s : State}
    {r : Except Failure (Infix Operator Int64)} (h : Reads level₂ value₂ ts)
    (hlevel₁ : op.level ≤ level₁) (hlevel₂ : op.level < level₂) (hopen : s.IsOpen)
    (hblocks : Infix.Blocks rules op.level s.expr.waiting)
    (hr : Infix.Leaves rules s.expr level₁ value₁ r) :
    ∃ r', Infix.Leaves rules s.expr op.level
        (do let a ← value₁; let b ← value₂; op.apply a b) r' ∧
      (r >>= fun e =>
        ((Symbol.operator op :: ts).map Symbol.token).foldlM step ⟨e, s.complemented⟩) =
        do return ⟨← r', s.complemented⟩ := by
  have hoperator := hr.operator op.toOperator (level_toOperator op ▸ hlevel₁)
    (level_toOperator op ▸ hblocks)
  simp only [List.map_cons, List.foldlM_cons, step_operator, bind_assoc, pure_bind]
  rw [← bind_assoc, hoperator]
  simp only [bind_assoc, pure_bind]
  cases value₁ with
  | error f => exact ⟨.error f, .error _ _ f, rfl⟩
  | ok a =>
    obtain ⟨r', hr', hread⟩ := h
      ⟨⟨a :: s.expr.values, some op.toOperator :: s.expr.waiting⟩, s.complemented⟩
      (fun depth hdepth => Nat.lt_succ_of_lt (hopen depth hdepth))
      (show rules.level op.toOperator < level₂ from level_toOperator op ▸ hlevel₂)
    refine ⟨r', ?_, hread⟩
    refine hr'.waiting (g := fun b => op.apply a b) (Nat.le_of_eq (level_toOperator op).symm)
      (Nat.le_of_lt hlevel₂) fun b => apply_toOperator op a b _

theorem Reads.binary {op : Binary} {level₁ level₂ : Nat} {value₁ value₂ : Except Failure Int64}
    {ts₁ ts₂ : List Symbol} (h₁ : Reads level₁ value₁ ts₁) (h₂ : Reads level₂ value₂ ts₂)
    (hlevel₁ : op.level ≤ level₁) (hlevel₂ : op.level < level₂) :
    Reads op.level (do let a ← value₁; let b ← value₂; op.apply a b)
      (ts₁ ++ .operator op :: ts₂) := by
  intro s hopen hblocks
  obtain ⟨r, hr, hread⟩ := h₁ s hopen (hblocks.mono hlevel₁)
  obtain ⟨r', hr', hread'⟩ := h₂.after_operator hlevel₁ hlevel₂ hopen hblocks hr
  refine ⟨r', hr', ?_⟩
  rw [List.map_append, List.foldlM_append, hread, bind_assoc]
  simpa only [pure_bind] using hread'

theorem Spells.reads {leads : Bool} {level : Nat} {e : Expr} {ts : List Symbol}
    (h : Spells leads level e ts) (hleads : leads = false) : Reads level e.eval ts := by
  induction h with
  | literal => exact .literal _
  | group _ ih => exact (ih rfl).group
  | complement => exact Bool.noConfusion hleads
  | binary _ hlevel₁ hlevel₂ _ _ ih₁ ih₂ => exact (ih₁ hleads).binary (ih₂ rfl) hlevel₁ hlevel₂

/-! ## Reading from the start -/

/-- Symbols at the start are read as an expression of a value. -/
def Begins (level : Nat) (value : Except Failure Int64) (ts : List Symbol) : Prop :=
  ∃ r, Infix.Leaves rules {} level value r ∧ ∀ rest : List Symbol,
    read ((ts ++ rest).map Symbol.token) =
      r >>= fun e => (rest.map Symbol.token).foldlM step ⟨e, none⟩

theorem Reads.begins {level : Nat} {value : Except Failure Int64} {t : Symbol} {ts : List Symbol}
    (h : Reads level value (t :: ts)) (ht : t.token.value ≠ "~") :
    Begins level value (t :: ts) := by
  obtain ⟨r, hr, hread⟩ := h {} nofun trivial
  refine ⟨r, hr, fun rest => ?_⟩
  have hstart : start (((t :: ts) ++ rest).map Symbol.token) =
      .ok ({}, ((t :: ts) ++ rest).map Symbol.token) := by
    exact if_pos (bne_iff_ne.2 ht)
  rw [read, hstart]
  show List.foldlM step {} _ = _
  rw [List.map_append, List.foldlM_append, hread]
  simp only [bind_assoc, pure_bind]

theorem Begins.complement_literal (l : Literal) :
    Begins 4 (do return ~~~(← l.eval)) [.complement, .literal l] := by
  refine ⟨_, .operand {} 4 _, fun rest => ?_⟩
  have hstart : start (([Symbol.complement, .literal l] ++ rest).map Symbol.token) = do
      return ({ expr := { values := [~~~(← l.eval)] } }, rest.map Symbol.token) := by
    rw [← readLiteral_text]
    rfl
  rw [read, hstart]
  simp only [bind_assoc, pure_bind]
  rfl

theorem Begins.complement_group {level : Nat} {value : Except Failure Int64} {ts : List Symbol}
    (h : Reads level value ts) :
    Begins 4 (do return ~~~(← value)) (.complement :: (Symbol.opening :: ts ++ [.closing])) := by
  refine ⟨_, .operand {} 4 _, fun rest => ?_⟩
  have hread := h.enclosed (s := { complemented := some 0 }) (fun depth hdepth => by
    obtain rfl := Option.some.inj hdepth
    exact Nat.le_refl _)
  show List.foldlM step { complemented := some 0 }
    (((Symbol.opening :: ts ++ [Symbol.closing]) ++ rest).map Symbol.token) = _
  rw [List.map_append, List.foldlM_append, hread]
  simp only [bind_assoc, pure_bind]
  rfl

theorem Begins.complement {e : Expr} {ts : List Symbol} (h : Spells false 4 e ts) :
    Begins 4 (Expr.complement e).eval (.complement :: ts) := by
  generalize hlevel : 4 = level at h
  cases h with
  | literal => exact complement_literal _
  | group h => exact complement_group (h.reads rfl)
  | binary op => exact absurd hlevel (Nat.ne_of_gt op.level_lt)

theorem Begins.binary {op : Binary} {level₁ level₂ : Nat} {value₁ value₂ : Except Failure Int64}
    {ts₁ ts₂ : List Symbol} (h₁ : Begins level₁ value₁ ts₁) (h₂ : Reads level₂ value₂ ts₂)
    (hlevel₁ : op.level ≤ level₁) (hlevel₂ : op.level < level₂) :
    Begins op.level (do let a ← value₁; let b ← value₂; op.apply a b)
      (ts₁ ++ .operator op :: ts₂) := by
  obtain ⟨r, hr, hread⟩ := h₁
  obtain ⟨r', hr', hread'⟩ := h₂.after_operator (s := {}) hlevel₁ hlevel₂ nofun trivial hr
  refine ⟨r', hr', fun rest => ?_⟩
  rw [List.append_assoc, hread]
  simp only [List.map_append, List.foldlM_append]
  rw [← bind_assoc, hread', bind_assoc]
  simp only [pure_bind]

theorem Spells.begins {leads : Bool} {level : Nat} {e : Expr} {ts : List Symbol}
    (h : Spells leads level e ts) : Begins level e.eval ts := by
  induction h with
  | @literal l =>
    refine (Reads.literal l).begins fun heq => ?_
    have hmem : '~' ∈ l.text := by
      rw [show l.text = ['~'] from String.ofList_injective heq]
      exact List.mem_cons_self
    exact absurd (isWordChar_of_mem_text hmem) (by decide)
  | group h => exact (h.reads rfl).group.begins (by decide)
  | complement h => exact .complement h
  | binary _ hlevel₁ hlevel₂ _ h₂ ih₁ => exact ih₁.binary (h₂.reads rfl) hlevel₁ hlevel₂

/-! ## Texts -/

theorem isWordChar_of_baseDigit {base : Nat} {c : Char} (h : isBaseDigit base c = true) :
    isWordChar c = true := by
  unfold isBaseDigit at h
  split at h
  · next hdigit => exact isWordChar_of_digit (isDigit_of_ascii hdigit)
  · simp only [Bool.and_eq_true, decide_eq_true_eq] at h
    refine isWordChar_of_lower (isAsciiLower_iff.2 ?_)
    have hfirst : 97 ≤ c.toNat := UInt32.le_iff_toNat_le.1 h.1.2
    have hlast : c.toNat ≤ 102 := UInt32.le_iff_toNat_le.1 h.2
    omega

theorem takes_based (base : Base) {mark : Char} {digits : List (Fin base.radix)}
    (hmark : baseOf? mark = some base.radix) (hne : digits ≠ []) {rest : List Char}
    (hrest : StartsApart rest) :
    Takes lexeme ('0' :: mark :: digits.map fun d => Nat.digitChar d.val) .number rest := by
  have htake : ((digits.map fun d => Nat.digitChar d.val) ++ rest).takeWhile
      (isBaseDigit base.radix) = digits.map fun d => Nat.digitChar d.val := by
    refine takeWhile_apart (fun _ => isWordChar_of_baseDigit) (fun c hc => ?_) hrest
    obtain ⟨d, -, rfl⟩ := List.mem_map.1 hc
    exact (digitChar_spec base d).2.1
  have hlength : digits.length ≠ 0 := mt List.length_eq_zero_iff.1 hne
  refine ⟨'0', _, rfl, rfl, ?_⟩
  show (TokenKind.number, _) = _
  simp [basedRun, hmark, htake, hlength]

theorem takes_decimal {digits : List (Fin Base.decimal.radix)} (hne : digits ≠ [])
    {rest : List Char} (hrest : StartsApart rest) :
    Takes lexeme (digits.map fun d => Nat.digitChar d.val) .number rest := by
  obtain ⟨d, digits, rfl⟩ := List.exists_cons_of_ne_nil hne
  have htake : ((digits.map fun d => Nat.digitChar d.val) ++ rest).takeWhile isDigit =
      digits.map fun d => Nat.digitChar d.val := by
    refine takeWhile_apart (fun _ => isWordChar_of_digit) (fun c hc => ?_) hrest
    obtain ⟨d, -, rfl⟩ := List.mem_map.1 hc
    exact (digitChar_decimal d).1
  -- what comes after the first digit is no mark of a base
  have hbased : basedRun ((digits.map fun d => Nat.digitChar d.val) ++ rest) = 0 := by
    have hmark : ∀ c, isWordChar c = false → baseOf? c = none := by
      intro c hc
      have hne : ∀ d, isWordChar d = true → ¬ (c == d) = true := by
        rintro d hd heq
        rw [beq_iff_eq.1 heq, hd] at hc
        exact Bool.noConfusion hc
      rw [baseOf?, if_neg (hne 'b' rfl), if_neg (hne 'o' rfl), if_neg (hne 'x' rfl)]
    cases digits with
    | nil =>
      cases rest with
      | nil => rfl
      | cons c rest => simp [basedRun, hmark c hrest]
    | cons d' digits => simp [basedRun, (digitChar_decimal d').2.2]
  obtain ⟨hdigit, hascii, -⟩ := digitChar_decimal d
  refine ⟨_, _, rfl, (digitChar_spec .decimal d).2.2.2.1, ?_⟩
  simp only [lexeme, if_pos hdigit, if_pos hascii, hbased, ite_self, if_true, htake]

theorem Literal.takes (l : Literal) {rest : List Char} (hrest : StartsApart rest) :
    Takes lexeme l.text .number rest := by
  obtain ⟨base, digits, hne⟩ := l
  cases base with
  | binary => exact takes_based .binary rfl hne hrest
  | octal => exact takes_based .octal rfl hne hrest
  | hexadecimal => exact takes_based .hexadecimal rfl hne hrest
  | decimal => exact takes_decimal hne hrest

/-- No word comes right after a literal. -/
def Touches (s : Symbol) (rest : List Char) : Prop := s.kind = .number → StartsApart rest

theorem Symbol.takes (s : Symbol) {rest : List Char} (h : Touches s rest) :
    Takes lexeme s.text s.kind rest := by
  cases s with
  | literal l => exact l.takes (h rfl)
  | operator op => cases op <;> exact ⟨_, _, rfl, rfl, rfl⟩
  | complement => exact ⟨_, _, rfl, rfl, rfl⟩
  | opening => exact ⟨_, _, rfl, rfl, rfl⟩
  | closing => exact ⟨_, _, rfl, rfl, rfl⟩

theorem Symbol.toToken (s : Symbol) (position : Nat) :
    Bitwise.toToken ⟨s.kind, s.text, position⟩ =
      .ok ⟨s.kind, String.ofList s.text, position⟩ := by
  cases s <;> rfl

/-- No two literals stand side by side. -/
def Parted (s s' : Symbol) : Prop := s.kind = .number → s'.kind ≠ .number

theorem Spells.parted {leads : Bool} {level : Nat} {e : Expr} {ts : List Symbol}
    (h : Spells leads level e ts) : ts.IsChain Parted := by
  have hleft : ∀ {t : Symbol} {us}, t.kind ≠ .number → us.IsChain Parted →
      (t :: us).IsChain Parted :=
    fun ht hus => hus.cons fun _ _ hnumber => absurd hnumber ht
  induction h with
  | literal => exact .singleton _
  | group _ ih =>
    refine hleft (by decide) (ih.append (.singleton _) fun s _ s' hs' _ => ?_)
    obtain rfl := Option.some.inj hs'
    decide
  | complement _ ih => exact hleft (by decide) ih
  | binary op _ _ _ _ ih₁ ih₂ =>
    have hop : (Symbol.operator op).kind ≠ .number := by simp [Symbol.kind]
    refine ih₁.append (hleft hop ih₂) fun s _ s' hs' _ => ?_
    obtain rfl := Option.some.inj hs'
    exact hop

theorem Spaced.touches {ts : List Symbol} {cs : List Char}
    (h : Spaced Symbol.text (fun _ _ => True) ts cs) (hparted : ts.IsChain Parted) :
    Spaced Symbol.text Touches ts cs := by
  refine h.of_chain (fun s cs _ hblank _ => ?_) (fun s s' cs hparted _ hs => ?_) hparted
  · cases cs with
    | nil => exact .nil
    | cons c cs => exact isWordChar_of_blank hblank
  · have hs' := hparted hs
    cases s' with
    | literal => exact absurd rfl hs'
    | operator op => cases op <;> rfl
    | complement => rfl
    | opening => rfl
    | closing => rfl

/-- A token at the start of the text. -/
def unplaced (t : Token) : Token := ⟨t.kind, t.value, 0⟩

theorem start_unplaced (ts : List Token) :
    start (ts.map unplaced) = (do
      let (s, rest) ← start ts
      return (s, rest.map unplaced)) := by
  match ts with
  | [] => rfl
  | [t] =>
    simp only [List.map_cons, List.map_nil, start, unplaced]
    split_ifs <;> rfl
  | t :: u :: tail =>
    have hopen : (Token.mk u.kind u.value 0).isOpen = u.isOpen := rfl
    simp only [List.map_cons, start, unplaced, hopen]
    split_ifs
    · rfl
    · simp only [bind_assoc, pure_bind]
    · rfl
    · rfl

/-- Where tokens stand does not matter to what is read. -/
theorem read_congr {ts ts' : List Token}
    (h : ts.map (fun t => (t.kind, t.value)) = ts'.map (fun t => (t.kind, t.value))) :
    read ts = read ts' := by
  have hread : ∀ us : List Token, read (us.map unplaced) = read us := by
    intro us
    simp only [read, start_unplaced, bind_assoc, pure_bind, List.foldlM_map]
    rfl
  have hmap : ts.map unplaced = ts'.map unplaced := by
    have hcomp := congrArg (List.map fun p : TokenKind × String => Token.mk p.1 p.2 0) h
    rw [List.map_map, List.map_map] at hcomp
    exact hcomp
  rw [← hread ts, hmap, hread ts']

/-- **A text is evaluated to the value of its tree.** A tree with its complements in place has a
spelling; and every text that holds the symbols of a spelling, with any groups and any blanks,
has the value of the tree, or the failure that comes first in it. -/
theorem evaluate_text (leads : Bool) (e : Expr) :
    (e.Placed leads → Spells leads e.level e e.symbols) ∧
      ∀ level ts cs, Spells leads level e ts →
        Spaced Symbol.text (fun _ _ => True) ts cs → evaluate cs = e.eval := by
  refine ⟨Expr.spells_symbols, fun level ts cs hspells hspaced => ?_⟩
  obtain ⟨tokens, htokens, hmap⟩ := (Spaced.touches hspaced hspells.parted).tokens
    (fun s _ => s.takes) Symbol.toToken 0
  obtain ⟨r, hr, hread⟩ := hspells.begins
  have hbegin : read tokens = do return ⟨← r, none⟩ := by
    have hcongr : read tokens = read (ts.map Symbol.token) :=
      read_congr (by rw [hmap, List.map_map]; rfl)
    simpa [hcongr] using hread []
  have hevaluate : evaluate cs = (do (← read tokens).expr.finish rules) := by
    have htokenize : tokenize cs = .ok tokens := htokens
    simp only [evaluate, htokenize, read, bind_assoc]
    rfl
  rw [hevaluate, hbegin, bind_assoc]
  simpa only [pure_bind] using hr.finish

/-- `~(1<<2) | 0x0f` has the value of `(~(1<<2)) | 15`. -/
theorem evaluate_text_complement :
    evaluate "~(1<<2) | 0x0f".toList =
      (Expr.binary .or
        (.complement (.binary .shiftLeft (.literal ⟨.decimal, [⟨1, by decide⟩], nofun⟩)
          (.literal ⟨.decimal, [⟨2, by decide⟩], nofun⟩)))
        (.literal ⟨.hexadecimal, [⟨0, by decide⟩, ⟨15, by decide⟩], nofun⟩)).eval := by
  have hspells := Spells.binary .or (Nat.zero_le _) (by decide)
    (.complement (.group (.binary .shiftLeft (by decide) (by decide)
      (.literal (l := ⟨.decimal, [⟨1, by decide⟩], nofun⟩))
      (.literal (l := ⟨.decimal, [⟨2, by decide⟩], nofun⟩)))))
    (.literal (l := ⟨.hexadecimal, [⟨0, by decide⟩, ⟨15, by decide⟩], nofun⟩))
  refine (evaluate_text true _).2 0 _ _ hspells ?_
  exact .piece trivial (.piece trivial (.piece trivial (.piece trivial (.piece trivial
    (.piece trivial (.blank rfl (.piece trivial (.blank rfl (.piece trivial (.nil nofun))))))))))

end Reckoner.Logic.Bitwise
