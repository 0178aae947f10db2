/-
  What is left to fail in arithmetic that the validator accepts.

  * `isPlain`: the numbers are in base 10, and commas stand in calls;
  * `commas`, `neededCommas`: the commas there are, and those that functions ask for;
  * `strip_lower_tokens`: the tokens of what is accepted hold its whole text;
  * `compute_plain`, `compute_not_plain`: it is computed by code of a known weight, or refused;
  * `validated_ends`: **only operands and values can be wrong in what is accepted, as long as it is
    plain and has no commas too many**; else it always fails.
-/
import Mathlib.Algebra.GroupWithZero.Nat
import Mathlib.Data.List.Forall2
import Reckoner.Proofs.Arithmetic.Names
import Reckoner.Proofs.Arithmetic.Tracks
import Reckoner.Proofs.Expression.Symbols

namespace Reckoner.Expression

open Text Arithmetic

/-! ## Rows of tokens -/

/-- The number is written in base 10. -/
def isDecimal (t : Token) : Bool := t.value.toList.all fun c => isAsciiDigit c || c == '.'

/-- Every comma stands in the group of a call. `groups` tells which of the open groups are calls,
innermost first, and `called` whether a function stands before. -/
def commasInCalls (groups : List Bool) (called : Bool) : List Token → Bool
  | [] => true
  | t :: ts =>
    if t.isOpen then commasInCalls (called :: groups) false ts
    else if t.isClose then commasInCalls groups.tail false ts
    else (t.kind != .comma || groups.head? == some true) &&
      commasInCalls groups (t.kind == .function) ts

/-- The numbers are in base 10, and commas stand in calls. -/
def isPlain (ts : List Token) : Bool :=
  ts.all (fun t => t.kind != .number || isDecimal t) && commasInCalls [] false ts

/-- The number of commas. -/
def commas (ts : List Token) : Nat := ts.countP (·.kind == .comma)

/-- The commas between as many arguments as the function takes. -/
def commasOf (t : Token) : Nat :=
  match t.kind, Function.ofName? t.value with
  | .function, some f => f.arity - 1
  | _, _ => 0

/-- The commas that the functions of a row ask for. -/
def neededCommas (ts : List Token) : Nat := (ts.map commasOf).sum

/-- How the evaluation of an accepted row can end. -/
structure Ends (ts : List Token) (x : Except Failure Float) : Prop where
  /-- only operands and values can be wrong -/
  fits : isPlain ts = true → commas ts ≤ neededCommas ts → ∀ f, x = .error f → f.IsLate
  /-- numbers are left over, if no operand or value is wrong before -/
  surplus : isPlain ts = true → neededCommas ts < commas ts →
    ∃ f, x = .error f ∧ (f = .invalidExpression ∨ f.IsLate)
  /-- the evaluator does not admit how the row is written -/
  refused : isPlain ts = false → ∃ f, x = .error f ∧ f.family = .syntactic

/-! ## Symbols of a row -/

section
variable {ts : List Token} {us : List Symbol} (h : List.Forall₂ Denotes ts us)
include h

theorem commasInCalls_eq (groups : List Bool) (before : Symbol) :
    commasInCalls groups before.isFunction ts = Arithmetic.commasInCalls groups before us := by
  induction h generalizing groups before with
  | nil => rfl
  | @cons t s ts us ht _ ih =>
    rw [commasInCalls, Arithmetic.commasInCalls, ← ih]
    obtain ⟨kind, value, position⟩ := t
    obtain ⟨rfl, rfl⟩ : kind = lexedKind s ∧ value = String.ofList s.text := ht
    cases s <;> rfl

theorem flatMap_text : (ts.flatMap fun t => t.value.toList) = us.flatMap Symbol.text := by
  induction h with
  | nil => rfl
  | cons ht _ ih => rw [List.flatMap_cons, List.flatMap_cons, ih, ht.2, String.toList_ofList]

theorem sum_charge_eq : (us.map charge).sum = (commas ts : Int) - neededCommas ts := by
  induction h with
  | nil => rfl
  | @cons t s ts us ht _ ih =>
    have hcharge : charge s = (if t.kind == .comma then 1 else 0) - (commasOf t : Int) := by
      obtain ⟨kind, value, position⟩ := t
      obtain ⟨rfl, rfl⟩ : kind = lexedKind s ∧ value = String.ofList s.text := ht
      cases s with
      | function f => cases f <;> rfl
      | _ => rfl
    rw [List.map_cons, List.sum_cons, ih, hcharge, commas, commas, List.countP_cons, neededCommas,
      neededCommas, List.map_cons, List.sum_cons]
    push_cast
    split <;> omega

theorem isDecimal_of_denotes : ∀ t ∈ ts, (t.kind != .number || isDecimal t) = true := by
  induction h with
  | nil => exact nofun
  | @cons t s ts us ht _ ih =>
    refine List.forall_mem_cons.2 ⟨?_, ih⟩
    obtain ⟨kind, value, position⟩ := t
    obtain ⟨rfl, rfl⟩ : kind = lexedKind s ∧ value = String.ofList s.text := ht
    cases s with
    | number p hp =>
      have hchars : ∀ c ∈ p, (isAsciiDigit c || c == '.') = true :=
        @IsNumeral.forall_mem (fun c => (isAsciiDigit c || c == '.') = true)
          (fun c hc => by rw [hc, Bool.true_or]) rfl p hp
      have hdecimal : isDecimal ⟨lexedKind (.number p hp), String.ofList p, position⟩ = true := by
        simpa [isDecimal] using hchars
      exact Bool.or_eq_true_iff.2 (.inr hdecimal)
    | _ => rfl

end

theorem not_isDecimal {t : Token} (h : IsBased t.value.toList) : isDecimal t = false := by
  obtain ⟨letter, digits, hp, hletter, -⟩ := h
  have hnot : ∀ c ∈ ['x', 'b', 'o'], (isAsciiDigit c || c == '.') = false := by decide
  simp [isDecimal, hp, hnot letter hletter]

/-! ## Queries -/

/-- No name starts with the letter of a base, or has a zero before its end. -/
theorem nameWords_not_based : ∀ v ∈ nameWords,
    (v.head?.all fun c => !(['x', 'b', 'o'].contains c)) = true ∧ '0' ∉ v.dropLast := by
  decide

/-- No names cover a literal in another base. -/
theorem not_covered_of_based {pre rest p : List Char} (h : IsBased p) :
    ¬ Covered nameWords (pre ++ p ++ rest) := by
  obtain ⟨letter, digits, rfl, hletter, -⟩ := h
  intro hcovered
  have hlower : ∀ c ∈ ['x', 'b', 'o'], isAsciiLower c = true := by decide
  -- a name that holds the letter starts there, or takes the zero before it
  obtain ⟨x, y, hx, -, hword⟩ := hcovered (pre ++ ['0']) [letter] (digits ++ rest) (by simp)
    (List.cons_ne_nil _ _) (by simpa using hlower letter hletter)
  obtain ⟨hhead, hzero⟩ := nameWords_not_based _ hword
  rcases List.suffix_concat_iff.1 hx with rfl | ⟨x, rfl, -⟩
  · have hnot : letter ∉ ['x', 'b', 'o'] := by simpa using hhead
    exact hnot hletter
  · exact hzero (by simp [List.dropLast_append_of_ne_nil])

section
variable {q : String} (hkind : (parse q).kind = .arithmetic)
include hkind

theorem not_blank_of_arithmetic : isBlankText q = false := by
  by_contra hblank
  rw [parse, if_pos (by simpa using hblank)] at hkind
  cases hkind

theorem arithmetic_tokens : (parse q).tokens = tokenize .arithmetic (canonical q.toList) := by
  have hblank := not_blank_of_arithmetic hkind
  rw [parse_tokens hblank, ← parse_kind hblank, hkind]

theorem mem_tokenize : ∀ t ∈ (parse q).tokens, t ∈ tokenize .arithmetic (canonical q.toList) := by
  rw [arithmetic_tokens hkind]
  exact fun _ ht => ht

theorem compute_eq (angles : AngleUnit) : compute angles q.toList =
    Arithmetic.tokenize (spell q.toList) >>= fun ts => toPostfix ts >>= runPostfix angles := by
  rw [compute]
  exact if_neg (Bool.eq_false_iff.1 (not_blank_of_arithmetic hkind))

variable (hvalid : (parse q).isValid = true)
include hvalid

/-- The validator reads what it accepts to its end. -/
theorem steps_of_valid :
    ∃ p, Steps arithmeticRules {} (parse q).tokens p ∧ p.isComplete = true := by
  have hblank := not_blank_of_arithmetic hkind
  have hvalidate := (parse_error_iff hblank).1 (Option.isNone_iff_eq_none.1 hvalid)
  rw [← parse_kind hblank, hkind, ← arithmetic_tokens hkind, validate] at hvalidate
  split at hvalidate
  · cases hvalidate
  · refine (run_eq_ok arithmeticStep_obeys fun t ht => ?_).1 hvalidate
    rw [arithmetic_tokens hkind] at ht
    exact isProper_of_mem ht

theorem tokens_isPart : ∀ t ∈ (parse q).tokens, IsPart t := by
  obtain ⟨p, hsteps, -⟩ := steps_of_valid hkind hvalid
  exact hsteps.isPart

/-- The tokens hold the whole text. -/
theorem strip_lower_tokens :
    strip (lower q.toList) = (parse q).tokens.flatMap fun t => t.value.toList := by
  have hsolid := not_blank_of_mem (mem_tokenize hkind) (tokens_isPart hkind hvalid)
  rw [arithmetic_tokens hkind, tokenize, cut_canonical] at hsolid ⊢
  rw [← strip_lower_trim, ← strip_canonical, Slice.strip_eq_flatMap, List.flatMap_map]
  · exact List.flatMap_congr fun s _ => String.toList_ofList.symm
  · intro s hs
    have htext := hsolid _ (List.mem_map_of_mem hs)
    rwa [Slice.token, String.toList_ofList] at htext

/-- A literal in another base is no token of arithmetic. -/
theorem compute_based (angles : AngleUnit)
    (h : ∃ t ∈ (parse q).tokens, t.kind = .number ∧ IsBased t.value.toList) :
    ∃ f, compute angles q.toList = .error f ∧ f.family = .syntactic := by
  obtain ⟨t, ht, -, hbased⟩ := h
  cases htokens : Arithmetic.tokenize (spell q.toList) with
  | error f => exact ⟨f, by rw [compute_eq hkind, htokens]; rfl, tokenize_error htokens⟩
  | ok ts =>
    have hcovered := names_of_tokenize htokens
    obtain ⟨before, after, hsplit⟩ := List.append_of_mem ht
    rw [strip_lower_tokens hkind hvalid, hsplit, List.flatMap_append, List.flatMap_cons,
      ← List.append_assoc] at hcovered
    exact absurd hcovered (not_covered_of_based hbased)

/-- Without such literals, what is computed is code of a weight that tells the commas from those
that the functions ask for, unless a comma is outside all calls. -/
theorem compute_symbols (angles : AngleUnit) {us : List Symbol}
    (hus : List.Forall₂ Denotes (parse q).tokens us) :
    (commasInCalls [] false (parse q).tokens = true ∧ ∃ code,
        compute angles q.toList = runPostfix angles code ∧ code ≠ [] ∧ (∀ t ∈ code, IsCode t) ∧
          (code.map weight).sum =
            1 + ((commas (parse q).tokens : Int) - neededCommas (parse q).tokens)) ∨
      commasInCalls [] false (parse q).tokens = false ∧
        compute angles q.toList = .error .invalidExpression := by
  obtain ⟨p, hsteps, hcomplete⟩ := steps_of_valid hkind hvalid
  -- spelling puts back the product signs that the validator lets be left out
  have hrow := (row_of_steps hsteps hcomplete hus reaches_start).explicit
  have htext : strip (lower q.toList) = us.flatMap Symbol.text := by
    rw [strip_lower_tokens hkind hvalid]
    exact flatMap_text hus
  have hchain : (explicit .opening us).IsChain Follows := hrow.chain.tail
  have hspell : spell q.toList = (explicit .opening us).flatMap Symbol.put := by
    rw [explicit_opening] at hchain ⊢
    exact spell_symbols (loosens_insertProducts us) hchain htext
  obtain ⟨ts, hts, hkeys⟩ := tokenize_symbols hchain
  have hpostfix := toPostfix_row hrow (writes_of_keys hkeys)
  rw [commasInCalls_explicit, charge_explicit, sum_charge_eq hus,
    ← commasInCalls_eq hus] at hpostfix
  rw [compute_eq hkind, hspell, hts]
  rcases hpostfix with ⟨hcommas, code, hcode, hne, hall, hweight⟩ | ⟨hcommas, herror⟩
  · refine .inl ⟨hcommas, code, ?_, hne, hall, hweight⟩
    change toPostfix ts >>= runPostfix angles = _
    rw [hcode]
    rfl
  · refine .inr ⟨hcommas, ?_⟩
    change toPostfix ts >>= runPostfix angles = _
    rw [herror]
    rfl

theorem compute_plain (angles : AngleUnit) (hplain : isPlain (parse q).tokens = true) :
    ∃ code, compute angles q.toList = runPostfix angles code ∧ code ≠ [] ∧
      (∀ t ∈ code, IsCode t) ∧ (code.map weight).sum =
        1 + ((commas (parse q).tokens : Int) - neededCommas (parse q).tokens) := by
  rw [isPlain, Bool.and_eq_true, List.all_eq_true] at hplain
  rcases based_or_symbols (mem_tokenize hkind) (tokens_isPart hkind hvalid) with
    ⟨t, ht, hnumber, hbased⟩ | ⟨us, hus⟩
  · have hdecimal := hplain.1 t ht
    rw [hnumber, not_isDecimal hbased] at hdecimal
    cases hdecimal
  · rcases compute_symbols hkind hvalid angles hus with ⟨-, h⟩ | ⟨hcommas, -⟩
    · exact h
    · exact absurd (hcommas.symm.trans hplain.2) Bool.false_ne_true

theorem compute_not_plain (angles : AngleUnit) (hplain : isPlain (parse q).tokens = false) :
    ∃ f, compute angles q.toList = .error f ∧ f.family = .syntactic := by
  rcases based_or_symbols (mem_tokenize hkind) (tokens_isPart hkind hvalid) with
    ⟨t, ht, hbased⟩ | ⟨us, hus⟩
  · exact compute_based hkind hvalid angles ⟨t, ht, hbased⟩
  · rcases compute_symbols hkind hvalid angles hus with ⟨hcommas, -⟩ | ⟨-, herror⟩
    · have hdecimal := List.all_eq_true.2 (isDecimal_of_denotes hus)
      rw [isPlain, hdecimal, hcommas] at hplain
      cases hplain
    · exact ⟨_, herror, rfl⟩

/-- **In arithmetic that is accepted only operands and values can be wrong, as long as its numbers
are in base 10, its commas stand in calls and are no more than the functions ask for.** With more
commas numbers are left over; any other row is refused for how it is written. -/
theorem validated_ends (angles : AngleUnit) :
    Ends (parse q).tokens (compute angles q.toList) where
  fits hplain hcommas f hf := by
    obtain ⟨code, hcode, hne, hall, hweight⟩ := compute_plain hkind hvalid angles hplain
    exact runPostfix_fits hall hne (by omega) (hcode ▸ hf)
  surplus hplain hcommas := by
    obtain ⟨code, hcode, -, hall, hweight⟩ := compute_plain hkind hvalid angles hplain
    rw [hcode]
    exact runPostfix_surplus hall (by omega)
  refused := compute_not_plain hkind hvalid angles

end

/-- `2 pow(1, -pi)` has the comma that its function asks for. -/
theorem two_powers_fit :
    (parse "2 pow(1, -pi)").kind = .arithmetic ∧ (parse "2 pow(1, -pi)").isValid = true ∧
      ∀ angles f, compute angles "2 pow(1, -pi)".toList = .error f → f.IsLate := by
  have hkind : (parse "2 pow(1, -pi)").kind = .arithmetic := by decide +kernel
  have hvalid : (parse "2 pow(1, -pi)").isValid = true := by decide +kernel
  have hends (angles : AngleUnit) := validated_ends hkind hvalid angles
  exact ⟨hkind, hvalid, fun angles => (hends angles).fits (by decide +kernel) (by decide +kernel)⟩

/-- `(1, 2) + 3` is accepted, and is no expression to the evaluator. -/
theorem comma_in_group_refused :
    (parse "(1, 2) + 3").kind = .arithmetic ∧ (parse "(1, 2) + 3").isValid = true ∧
      ∃ f, compute .radians "(1, 2) + 3".toList = .error f ∧ f.family = .syntactic := by
  have hkind : (parse "(1, 2) + 3").kind = .arithmetic := by decide +kernel
  have hvalid : (parse "(1, 2) + 3").isValid = true := by decide +kernel
  exact ⟨hkind, hvalid, compute_not_plain hkind hvalid .radians (by decide +kernel)⟩

end Reckoner.Expression
