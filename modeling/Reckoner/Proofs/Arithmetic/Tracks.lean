/-
  The yard converts every row in which operands and operators take turns.

  * `Waits`: operators wait, and parentheses with the functions of their calls;
  * `Tracks`: what the yard holds in the middle of a row;
  * `Tracks.step`, `Tracks.step_stop`: one symbol is read, or is a comma where there may be none;
  * `toPostfix_row`: **a row is converted to code if its commas stand in calls, and else it is
    invalid**.
-/
import Reckoner.Proofs.Arithmetic.Code
import Reckoner.Proofs.Arithmetic.Rows

namespace Reckoner.Arithmetic

/-! ## What waits in the yard -/

/-- Operators wait, and in each open group one parenthesis, for a call with its function. -/
inductive Waits : List Bool → List Token → Prop
  | nil : Waits [] []
  | operator {groups t ws} : IsCode t → t.kind = .operator → Waits groups ws →
      Waits groups (t :: ws)
  | group {groups t ws} : t.isOpen = true → Waits groups ws → Waits (false :: groups) (t :: ws)
  | call {groups t f ws} : t.isOpen = true → IsCode f → f.kind = .function → Waits groups ws →
      Waits (true :: groups) (t :: f :: ws)

/-- The weight of tokens. -/
def weightOf (ts : List Token) : Int := (ts.map weight).sum

@[simp] theorem weightOf_nil : weightOf [] = 0 := rfl

@[simp] theorem weightOf_cons (t : Token) (ts : List Token) :
    weightOf (t :: ts) = weight t + weightOf ts := List.sum_cons

@[simp] theorem weightOf_append (ts us : List Token) :
    weightOf (ts ++ us) = weightOf ts + weightOf us := by
  simp [weightOf]

@[simp] theorem weightOf_reverse (ts : List Token) : weightOf ts.reverse = weightOf ts := by
  induction ts with
  | nil => rfl
  | cons t ts ih =>
    rw [List.reverse_cons, weightOf_append, ih, weightOf_cons, weightOf_cons, weightOf_nil]
    omega

theorem kind_of_open {t : Token} (h : t.isOpen = true) : t.kind = .parenthesis := by
  rw [Token.isOpen, Bool.and_eq_true, beq_iff_eq] at h
  exact h.1

theorem weight_of_open {t : Token} (h : t.isOpen = true) : weight t = 0 := by
  simp [weight, kind_of_open h]

theorem release_open {t : Token} (h : t.isOpen = true) (level : Nat) (output ws : List Token) :
    Yard.release level output (t :: ws) = (output, t :: ws) := by
  simp [Yard.release, kind_of_open h]

namespace Waits

variable {groups : List Bool} {ws : List Token}

theorem head_not_function (h : Waits groups ws) : ∀ t ∈ ws.head?, t.kind ≠ .function := by
  intro t ht
  cases h with
  | nil => cases ht
  | operator _ hkind _ =>
    obtain rfl := Option.some.inj ht
    simp [hkind]
  | group hopen _ | call hopen _ _ _ =>
    obtain rfl := Option.some.inj ht
    simp [kind_of_open hopen]

/-- An operator releases operators. -/
theorem release (h : Waits groups ws) (level : Nat) (output : List Token) :
    ∃ pending rest, ws = pending ++ rest ∧
      Yard.release level output ws = (pending.reverse ++ output, rest) ∧
        (∀ t ∈ pending, IsCode t) ∧ Waits groups rest := by
  induction h generalizing output with
  | nil => exact ⟨[], [], rfl, rfl, nofun, .nil⟩
  | @operator groups t ws hcode hkind hws ih =>
    rw [Yard.release]
    split
    · obtain ⟨pending, rest, rfl, hrelease, hpending, hrest⟩ := ih (t :: output)
      refine ⟨t :: pending, rest, rfl, ?_, List.forall_mem_cons.2 ⟨hcode, hpending⟩, hrest⟩
      rw [hrelease, List.reverse_cons, List.append_assoc, List.singleton_append]
    · exact ⟨[], t :: ws, rfl, rfl, nofun, .operator hcode hkind hws⟩
  | group hopen hws => exact ⟨[], _, rfl, release_open hopen .., nofun, .group hopen hws⟩
  | call hopen hcode hfunction hws =>
    exact ⟨[], _, rfl, release_open hopen .., nofun, .call hopen hcode hfunction hws⟩

/-- The end of a part releases the operators in it. -/
theorem flush {called : Bool} (h : Waits (called :: groups) ws) (output : List Token) :
    ∃ pending top rest, ws = pending ++ top :: rest ∧
      Yard.flush output ws = .ok (pending.reverse ++ output, top :: rest) ∧
        (∀ t ∈ pending, IsCode t) ∧ top.isOpen = true ∧ Waits (called :: groups) (top :: rest) := by
  generalize hgroups : called :: groups = all at h
  induction h generalizing output with
  | nil => cases hgroups
  | @operator _ t ws hcode hkind hws ih =>
    obtain ⟨pending, top, rest, rfl, hflush, hpending, htop, hrest⟩ := ih (t :: output) hgroups
    have hopen : t.isOpen = false := by simp [Token.isOpen, hkind]
    refine ⟨t :: pending, top, rest, rfl, ?_, List.forall_mem_cons.2 ⟨hcode, hpending⟩, htop,
      hrest⟩
    rw [Yard.flush, hopen, if_neg Bool.false_ne_true, hflush, List.reverse_cons, List.append_assoc,
      List.singleton_append]
  | @group _ t ws hopen hws =>
    exact ⟨[], t, ws, rfl, if_pos hopen, List.forall_mem_nil _, hopen, .group hopen hws⟩
  | @call _ t f ws hopen hcode hfunction hws =>
    exact ⟨[], t, f :: ws, rfl, if_pos hopen, List.forall_mem_nil _, hopen,
      .call hopen hcode hfunction hws⟩

/-- Below a parenthesis there is the function of its call, if it is one. -/
theorem of_open {called : Bool} {top : Token} {rest : List Token} (htop : top.isOpen = true)
    (h : Waits (called :: groups) (top :: rest)) :
    called = false ∧ Waits groups rest ∨
      called = true ∧ ∃ f rest', rest = f :: rest' ∧ IsCode f ∧ f.kind = .function ∧
        Waits groups rest' := by
  cases h with
  | operator _ hkind _ => exact absurd (hkind.symm.trans (kind_of_open htop)) (by decide)
  | group _ hrest => exact .inl ⟨rfl, hrest⟩
  | call _ hcode hkind hrest => exact .inr ⟨rfl, _, _, rfl, hcode, hkind, hrest⟩

/-- At the end all that waits is written. -/
theorem drain (h : Waits [] ws) (output : List Token) :
    Yard.drain output ws = .ok (output.reverse ++ ws) ∧ ∀ t ∈ ws, IsCode t := by
  have hbinds : Binds 0 ws ∧ ∀ t ∈ ws, IsCode t := by
    generalize hgroups : ([] : List Bool) = all at h
    induction h with
    | nil => exact ⟨nofun, nofun⟩
    | operator hcode hkind _ ih =>
      obtain ⟨hbinds, hall⟩ := ih hgroups
      exact ⟨List.forall_mem_cons.2 ⟨⟨hkind, Nat.zero_le _⟩, hbinds⟩,
        List.forall_mem_cons.2 ⟨hcode, hall⟩⟩
    | group | call => cases hgroups
  exact ⟨Yard.drain_of_binds hbinds.1 output, hbinds.2⟩

end Waits

/-! ## The yard in the middle of a row -/

/-- The token is written for the symbol. -/
def Writes (t : Token) (s : Symbol) : Prop := t.kind = s.kind ∧ t.value = String.ofList s.put

/-- After the symbol `before`, a function waits for its group, and below it what waits has the open
groups. -/
def Holds (groups : List Bool) (before : Symbol) (ws : List Token) : Prop :=
  if before.isFunction then ∃ f rest, ws = f :: rest ∧ IsCode f ∧ f.kind = .function ∧
    Waits groups rest
  else Waits groups ws

/-- What the yard holds after the symbol `before`, with the charges `n` so far. -/
structure Tracks (y : Yard) (groups : List Bool) (before : Symbol) (n : Int) : Prop where
  expects : y.expectOperand = !before.isEnd
  output : ∀ t ∈ y.output, IsCode t
  written : before.isEnd = true → y.output ≠ []
  waiting : Holds groups before y.waiting
  total : weightOf y.output + weightOf y.waiting = n + if before.isEnd then 1 else 0

theorem Holds.waits {groups : List Bool} {before : Symbol} {ws : List Token}
    (h : Holds groups before ws) (hbefore : before.isFunction = false) : Waits groups ws := by
  rwa [Holds, hbefore, if_neg Bool.false_ne_true] at h

theorem Waits.holds {groups : List Bool} {before : Symbol} {ws : List Token}
    (h : Waits groups ws) (hbefore : before.isFunction = false) : Holds groups before ws := by
  rwa [Holds, hbefore, if_neg Bool.false_ne_true]

theorem Tracks.start : Tracks {} [] .opening 0 where
  expects := rfl
  output := nofun
  written := nofun
  waiting := .nil
  total := rfl

/-- What follows a symbol, by what it is. -/
theorem Admits.before {groups : List Bool} {before s : Symbol}
    (h : Admits Follows groups before s) (hlink : s.isLink = false) : before.isEnd = false := by
  rw [Bool.eq_false_iff]
  exact fun hend => Bool.false_ne_true (hlink.symm.trans (h.beside.1 hend))

theorem Admits.not_function {groups : List Bool} {before s : Symbol}
    (h : Admits Follows groups before s) (hopening : s.isOpening = false) :
    before.isFunction = false := by
  rw [Bool.eq_false_iff]
  exact fun hfunction => Bool.false_ne_true (hopening.symm.trans (h.beside.2 hfunction))

/-- The yard reads a token and holds what it should after the symbol. -/
def Moves (y : Yard) (t : Token) (groups : List Bool) (s : Symbol) (n : Int) : Prop :=
  ∃ y', y.step t = .ok y' ∧ Tracks y' groups s n

namespace Tracks

variable {output waiting : List Token} {expect : Bool} {groups : List Bool} {before : Symbol}
  {n : Int} {position : Nat}

section
variable (h : Tracks ⟨output, waiting, expect⟩ groups before n)
include h

theorem total_start (hbefore : before.isEnd = false) : weightOf output + weightOf waiting = n := by
  simpa [hbefore] using h.total

theorem total_end (hbefore : before.isEnd = true) :
    weightOf output + weightOf waiting = n + 1 := by
  simpa [hbefore] using h.total

/-- A number is written. -/
theorem number {s : Symbol} {p : List Char} (hp : IsNumeral p) (hend : s.isEnd = true)
    (hfunction : s.isFunction = false) (hbefore : before.isEnd = false)
    (hnot : before.isFunction = false) :
    Moves ⟨output, waiting, expect⟩ ⟨.number, String.ofList p, position⟩ groups s n := by
  refine ⟨⟨⟨.number, String.ofList p, position⟩ :: output, waiting, false⟩, rfl, ?_⟩
  have htotal := h.total_start hbefore
  have hone : weight ⟨.number, String.ofList p, position⟩ = 1 := rfl
  exact {
    expects := by simp [hend]
    output := List.forall_mem_cons.2 ⟨.number hp, h.output⟩
    written := fun _ => List.cons_ne_nil _ _
    waiting := (h.waiting.waits hnot).holds hfunction
    total := by
      simp only [weightOf_cons, hone, hend, if_true]
      omega }

/-- A function waits. -/
theorem function (f : Function) (hbefore : before.isEnd = false)
    (hnot : before.isFunction = false) :
    Moves ⟨output, waiting, expect⟩ ⟨.function, f.name, position⟩ groups (.function f)
      (n + (1 - f.arity)) := by
  refine ⟨⟨output, ⟨.function, f.name, position⟩ :: waiting, true⟩, rfl, ?_⟩
  have htotal := h.total_start hbefore
  exact {
    expects := rfl
    output := h.output
    written := nofun
    waiting := ⟨_, waiting, rfl, .function f, rfl, h.waiting.waits hnot⟩
    total := by
      simp only [weightOf_cons, weight_function, Symbol.isEnd, Bool.false_eq_true, if_false]
      omega }

/-- A sign before an operand waits or is dropped. -/
theorem sign {op : Operator} (hsign : (Symbol.operator op).isSign = true)
    (hbefore : before.isEnd = false) (hnot : before.isFunction = false) :
    Moves ⟨output, waiting, expect⟩ ⟨.operator, op.symbol, position⟩ groups (.operator op) n := by
  obtain rfl : expect = true := by simpa [hbefore] using h.expects
  have htotal := h.total_start hbefore
  have hwaits := h.waiting.waits hnot
  have hzero : weight ⟨.operator, negation, position⟩ = 0 := rfl
  cases op with
  | add =>
    exact ⟨⟨output, waiting, true⟩, rfl, rfl, h.output, nofun, hwaits,
      htotal.trans (Int.add_zero n).symm⟩
  | sub =>
    refine ⟨⟨output, ⟨.operator, negation, position⟩ :: waiting, true⟩, rfl, rfl, h.output, nofun,
      Waits.operator .negation rfl hwaits, ?_⟩
    simp only [weightOf_cons, hzero, Symbol.isEnd, Bool.false_eq_true, if_false]
    omega
  | _ => cases hsign

/-- An operator releases those that bind as strongly, and waits. -/
theorem operator (op : Operator) (hbefore : before.isEnd = true)
    (hnot : before.isFunction = false) :
    Moves ⟨output, waiting, expect⟩ ⟨.operator, op.symbol, position⟩ groups (.operator op) n := by
  obtain rfl : expect = false := by simpa [hbefore] using h.expects
  obtain ⟨pending, rest, rfl, hrelease, hpending, hrest⟩ :=
    (h.waiting.waits hnot).release (precedence op.symbol) output
  have htotal := h.total_end hbefore
  refine ⟨⟨pending.reverse ++ output, ⟨.operator, op.symbol, position⟩ :: rest, true⟩, ?_, ?_⟩
  · simp only [Yard.step, hrelease]
    rfl
  · exact {
      expects := rfl
      output := List.forall_mem_append.2 ⟨by simpa using hpending, h.output⟩
      written := fun h => absurd h Bool.false_ne_true
      waiting := Waits.operator (.operator op) rfl hrest
      total := by
        simp only [weightOf_cons, weightOf_append, weightOf_reverse, weight_operator, Symbol.isEnd,
          Bool.false_eq_true, if_false] at htotal ⊢
        omega }

/-- An opening parenthesis waits. -/
theorem opening (hbefore : before.isEnd = false) :
    Moves ⟨output, waiting, expect⟩ ⟨.parenthesis, "(", position⟩ (before.isFunction :: groups)
      .opening n := by
  refine ⟨⟨output, ⟨.parenthesis, "(", position⟩ :: waiting, true⟩, rfl, ?_⟩
  have hwaiting := h.waiting
  have htotal := h.total_start hbefore
  have hzero : weight ⟨.parenthesis, "(", position⟩ = 0 := rfl
  exact {
    expects := rfl
    output := h.output
    written := nofun
    waiting := by
      cases hfunction : before.isFunction with
      | true =>
        rw [Holds, hfunction, if_pos rfl] at hwaiting
        obtain ⟨f, rest, rfl, hcode, hkind, hwaits⟩ := hwaiting
        exact Waits.call rfl hcode hkind hwaits
      | false => exact Waits.group rfl (hwaiting.waits hfunction)
    total := by
      simp only [weightOf_cons, hzero, Symbol.isEnd, Bool.false_eq_true, if_false]
      omega }

end

section
variable {called : Bool} (h : Tracks ⟨output, waiting, expect⟩ (called :: groups) before n)
  (hbefore : before.isEnd = true) (hnot : before.isFunction = false)
include h hbefore hnot

/-- A closing parenthesis writes all that waits in its group, and the function before it. -/
theorem closing :
    Moves ⟨output, waiting, expect⟩ ⟨.parenthesis, ")", position⟩ groups .closing n := by
  obtain ⟨pending, top, rest, rfl, hflush, hpending, htop, hrest⟩ :=
    (h.waiting.waits hnot).flush output
  have htotal := h.total_end hbefore
  have hwritten := h.written hbefore
  have houtput : ∀ t ∈ pending.reverse ++ output, IsCode t :=
    List.forall_mem_append.2 ⟨by simpa using hpending, h.output⟩
  have hclose : (")" == "(") = false := by decide
  simp only [weightOf_append, weightOf_cons, weight_of_open htop] at htotal
  rcases hrest.of_open htop with ⟨-, hrest⟩ | ⟨-, f, rest, rfl, hcode, hkind, hrest⟩
  · refine ⟨⟨pending.reverse ++ output, rest, false⟩, ?_, ?_⟩
    · have hhead := hrest.head_not_function
      simp only [Yard.step, hclose, hflush, bind, Except.bind]
      cases rest with
      | nil => rfl
      | cons top rest => simp [hhead top rfl]
    · refine ⟨rfl, houtput, by simp [hwritten], hrest, ?_⟩
      simp only [weightOf_append, weightOf_reverse, Symbol.isEnd, if_true]
      omega
  · refine ⟨⟨f :: (pending.reverse ++ output), rest, false⟩, ?_, ?_⟩
    · simp [Yard.step, hclose, hflush, bind, Except.bind, hkind]
    · refine ⟨rfl, List.forall_mem_cons.2 ⟨hcode, houtput⟩, by simp, hrest, ?_⟩
      simp only [weightOf_cons, weightOf_append, weightOf_reverse, Symbol.isEnd, if_true]
        at htotal ⊢
      omega

/-- A comma in a call writes all that waits in the group. -/
theorem comma (hcalled : called = true) :
    Moves ⟨output, waiting, expect⟩ ⟨.comma, ",", position⟩ (called :: groups) .comma (n + 1) := by
  obtain ⟨pending, top, rest, rfl, hflush, hpending, htop, hrest⟩ :=
    (h.waiting.waits hnot).flush output
  have htotal := h.total_end hbefore
  refine ⟨⟨pending.reverse ++ output, top :: rest, true⟩, ?_, ?_⟩
  · have hcall : Yard.isCall (top :: rest) = true := by
      rcases hrest.of_open htop with ⟨hgroup, -⟩ | ⟨-, f, rest, rfl, -, hkind, -⟩
      · exact absurd (hgroup.symm.trans hcalled) Bool.false_ne_true
      · simp [Yard.isCall, hkind]
    simp [Yard.step, hflush, bind, Except.bind, hcall]
  · refine ⟨rfl, List.forall_mem_append.2 ⟨by simpa using hpending, h.output⟩,
      fun h => absurd h Bool.false_ne_true, hrest, ?_⟩
    simp only [weightOf_append, weightOf_cons, weightOf_reverse, Symbol.isEnd, Bool.false_eq_true,
      if_false] at htotal ⊢
    omega

omit hbefore in
/-- A comma elsewhere is invalid. -/
theorem stop (hcalled : called = false) :
    Yard.step ⟨output, waiting, expect⟩ ⟨.comma, ",", position⟩ = .error .invalidExpression := by
  obtain ⟨pending, top, rest, rfl, hflush, -, htop, hrest⟩ :=
    (h.waiting.waits hnot).flush output
  have hcall : Yard.isCall (top :: rest) = false := by
    rcases hrest.of_open htop with ⟨-, hrest⟩ | ⟨hcall, -⟩
    · have hhead := hrest.head_not_function
      cases rest with
      | nil => rfl
      | cons top rest => simpa [Yard.isCall] using hhead top rfl
    · exact absurd (hcalled.symm.trans hcall) Bool.false_ne_true
  simp [Yard.step, hflush, bind, Except.bind, hcall]

end

/-! ## Steps and runs -/

/-- **One symbol of a row is read**, if it is no comma outside of calls. -/
theorem step {y : Yard} {s : Symbol} {t : Token} (h : Tracks y groups before n)
    (hs : Admits Follows groups before s) (ht : Writes t s)
    (hcomma : s.isComma = true → groups.head? = some true) :
    Moves y t (groupsAfter groups before s) s (n + charge s) := by
  obtain ⟨output, waiting, expect⟩ := y
  obtain ⟨kind, value, position⟩ := t
  obtain ⟨rfl, rfl⟩ : kind = s.kind ∧ value = String.ofList s.put := ht
  -- after an operand only what goes on after one is left, before it only what starts one
  have hlinked (hlink : s.isLink = true) (hsign : s.isSign = false) : before.isEnd = true := by
    by_contra hend
    exact Bool.false_ne_true (hsign.symm.trans (hs.starts (Bool.eq_false_iff.2 hend) hlink))
  have hgrouped (hgroup : s.needsGroup = true) : ∃ called groups', groups = called :: groups' :=
    List.exists_cons_of_ne_nil (hs.grouped hgroup)
  have hcharge : n + 0 = n := Int.add_zero n
  cases s with
  | number p hp => exact hcharge.symm ▸ h.number hp rfl rfl (hs.before rfl) (hs.not_function rfl)
  | constant c hc =>
    exact hcharge.symm ▸ h.number (isNumeral_constant hc) rfl rfl (hs.before rfl)
      (hs.not_function rfl)
  | function f =>
    have hname : String.ofList (Symbol.function f).put = f.name := String.ofList_toList
    rw [hname]
    exact h.function f (hs.before rfl) (hs.not_function rfl)
  | operator op =>
    have hname : String.ofList (Symbol.operator op).put = op.symbol := String.ofList_toList
    rw [hname]
    refine hcharge.symm ▸ ?_
    cases hend : before.isEnd with
    | true => exact h.operator op hend (hs.not_function rfl)
    | false => exact h.sign (hs.starts hend rfl) hend (hs.not_function rfl)
  | opening => exact hcharge.symm ▸ h.opening (hs.before rfl)
  | closing =>
    obtain ⟨called, groups, rfl⟩ := hgrouped rfl
    exact hcharge.symm ▸ h.closing (hlinked rfl rfl) (hs.not_function rfl)
  | comma =>
    obtain ⟨called, groups, rfl⟩ := hgrouped rfl
    exact h.comma (hlinked rfl rfl) (hs.not_function rfl) (Option.some.inj (hcomma rfl))

/-- A comma outside of calls is invalid. -/
theorem step_stop {y : Yard} {s : Symbol} {t : Token} (h : Tracks y groups before n)
    (hs : Admits Follows groups before s) (ht : Writes t s) (hcomma : s.isComma = true)
    (hgroup : groups.head? ≠ some true) : y.step t = .error .invalidExpression := by
  obtain ⟨output, waiting, expect⟩ := y
  obtain ⟨kind, value, position⟩ := t
  obtain ⟨rfl, rfl⟩ : kind = s.kind ∧ value = String.ofList s.put := ht
  cases s with
  | comma =>
    obtain ⟨called, groups, rfl⟩ := List.exists_cons_of_ne_nil (hs.grouped rfl)
    exact h.stop (hs.not_function rfl) (by simpa using hgroup)
  | _ => cases hcomma

/-- A row is read to its end if its commas stand in calls, and else it is invalid. -/
theorem run {y : Yard} {ss : List Symbol} {ts : List Token} (hrow : Row Follows groups before ss)
    (hts : List.Forall₂ Writes ts ss) (h : Tracks y groups before n) :
    (commasInCalls groups before ss = true ∧ ∃ y' last, ts.foldlM Yard.step y = .ok y' ∧
        last.isEnd = true ∧ last.isFunction = false ∧
          Tracks y' [] last (n + (ss.map charge).sum)) ∨
      commasInCalls groups before ss = false ∧
        ts.foldlM Yard.step y = .error .invalidExpression := by
  induction hrow generalizing y ts n with
  | @nil before hend =>
    cases hts
    have hnot : before.isFunction = false := by cases before <;> first | rfl | cases hend
    exact .inl ⟨rfl, y, before, rfl, hend, hnot, by simpa using h⟩
  | @cons groups before s ss hs _ ih =>
    obtain ⟨t, ts, ht, hrest, rfl⟩ := List.forall₂_cons_right_iff.1 hts
    rw [List.foldlM_cons, commasInCalls]
    by_cases hcomma : s.isComma = true ∧ groups.head? ≠ some true
    · refine .inr ⟨by simp [hcomma.1, hcomma.2], ?_⟩
      rw [h.step_stop hs ht hcomma.1 hcomma.2]
      rfl
    · have hcalled : (!s.isComma || groups.head? == some true) = true := by
        simpa [or_iff_not_imp_left] using hcomma
      obtain ⟨y', hstep, htracks⟩ := h.step hs ht fun hs => by simpa [hs] using hcomma
      rw [hcalled, Bool.true_and, hstep, List.map_cons, List.sum_cons, ← Int.add_assoc]
      exact ih hrest htracks

end Tracks

theorem writes_of_keys {ss : List Symbol} {ts : List Token}
    (h : ts.map (fun t => (t.kind, t.value)) = ss.map fun s => (s.kind, String.ofList s.put)) :
    List.Forall₂ Writes ts ss := by
  rw [← List.forall₂_eq_eq_eq, List.forall₂_map_left_iff, List.forall₂_map_right_iff] at h
  exact h.imp fun _ _ => Prod.mk.inj

/-- **A row whose commas stand in calls is converted to code**, of a weight that tells the commas
from those that the functions ask for; any other row is invalid. -/
theorem toPostfix_row {ss : List Symbol} {ts : List Token} (hrow : Row Follows [] .opening ss)
    (hts : List.Forall₂ Writes ts ss) :
    (commasInCalls [] .opening ss = true ∧ ∃ code, toPostfix ts = .ok code ∧ code ≠ [] ∧
        (∀ t ∈ code, IsCode t) ∧ (code.map weight).sum = 1 + (ss.map charge).sum) ∨
      commasInCalls [] .opening ss = false ∧ toPostfix ts = .error .invalidExpression := by
  rw [toPostfix]
  rcases Tracks.run hrow hts .start with
    ⟨hcommas, y, last, hrun, hend, hnot, htracks⟩ | ⟨hcommas, hrun⟩
  · obtain ⟨hdrain, hwaiting⟩ := (htracks.waiting.waits hnot).drain y.output
    refine .inl ⟨hcommas, y.output.reverse ++ y.waiting, ?_, ?_, ?_, ?_⟩
    · rw [hrun]
      exact hdrain
    · simp [htracks.written hend]
    · exact List.forall_mem_append.2 ⟨by simpa using htracks.output, hwaiting⟩
    · have htotal := htracks.total
      rw [hend, if_pos rfl] at htotal
      change weightOf (y.output.reverse ++ y.waiting) = _
      rw [weightOf_append, weightOf_reverse]
      omega
  · exact .inr ⟨hcommas, by rw [hrun]; rfl⟩

end Reckoner.Arithmetic
