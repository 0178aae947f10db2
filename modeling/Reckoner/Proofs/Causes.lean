/-
  What evaluations fail by.

  * `Failure.isOwn`: a cause that lies in the expression; the others say that no evaluator takes
    the query;
  * `Gives`: a computation gives a value with a property or fails by a cause of its own, and so
    does one that is made of such steps;
  * `Answer.IsMade`: a success in some domain, or the report of a cause of its own;
  * `isMade_evaluateAs`: **every answer of an evaluator is of this form**.
-/
import Mathlib.Tactic.SplitIfs
import Reckoner.Evaluators

namespace Reckoner

/-- The cause lies in the expression, and not in the lack of an evaluator for it. -/
@[simp] def Failure.isOwn : Failure → Bool
  | unrecognizedExpression _ | naturalLanguage => false
  | _ => true

/-! ## Computations made of steps -/

section
variable {α β : Type} {P : α → Prop} {Q : β → Prop}

/-- A computation that gives a value with a property or fails by a cause of its own. -/
inductive Gives (P : α → Prop) : Except Failure α → Prop
  | ok {a} : P a → Gives P (.ok a)
  | error {f} : f.isOwn = true → Gives P (.error f)

/-- A computation that can only fail by a cause of its own. -/
abbrev FailsOwn (x : Except Failure α) : Prop := Gives (fun _ => True) x

@[simp] theorem gives_ok {a : α} : Gives P (.ok a) ↔ P a :=
  ⟨fun | .ok h => h, .ok⟩

@[simp] theorem gives_error {f : Failure} : Gives P (.error f) ↔ f.isOwn = true :=
  ⟨fun | .error h => h, .error⟩

theorem Gives.bind {x : Except Failure α} {k : α → Except Failure β} (h : Gives P x)
    (hk : ∀ a, P a → Gives Q (k a)) : Gives Q (x >>= k) := by
  cases h with
  | ok ha => exact hk _ ha
  | error hf => exact .error hf

theorem FailsOwn.mapM {k : α → Except Failure β} (h : ∀ a, FailsOwn (k a)) (as : List α) :
    FailsOwn (as.mapM k) := by
  induction as with
  | nil => exact .ok trivial
  | cons a as ih =>
    rw [List.mapM_cons]
    exact (h a).bind fun b _ => ih.bind fun bs _ => .ok trivial

theorem FailsOwn.foldlM {k : β → α → Except Failure β} (h : ∀ b a, FailsOwn (k b a)) (b : β)
    (as : List α) : FailsOwn (as.foldlM k b) := by
  induction as generalizing b with
  | nil => exact .ok trivial
  | cons a as ih =>
    rw [List.foldlM_cons]
    exact (h b a).bind fun c _ => ih c

end

/-! ## Arithmetic -/

namespace Arithmetic

theorem failsOwn_checkFinite (operation : String) (operands : List Float) (value : Float) :
    FailsOwn (checkFinite operation operands value) := by
  unfold checkFinite
  split_ifs <;> simp

theorem failsOwn_factorial (x : Float) : FailsOwn (factorial x) := by
  unfold factorial
  split_ifs <;> simp

theorem failsOwn_apply (f : Function) (angles : AngleUnit) (arguments : List Float) :
    FailsOwn (f.apply angles arguments) := by
  unfold Function.apply
  split
  · exact .error rfl
  · next x more =>
    cases f with
    | exp => exact failsOwn_checkFinite ..
    | factorial => exact failsOwn_factorial x
    | pow =>
      cases more with
      | nil => exact .error rfl
      | cons y more => exact failsOwn_checkFinite ..
    | _ => exact .ok trivial

theorem failsOwn_applyBinary (operator : String) (a b : Float) :
    FailsOwn (applyBinary operator a b) := by
  unfold applyBinary
  dsimp only
  split_ifs
  all_goals first
    | exact failsOwn_checkFinite ..
    | exact .error rfl

theorem failsOwn_runStep (angles : AngleUnit) (stack : List Float) (t : Token) :
    FailsOwn (runStep angles stack t) := by
  unfold runStep
  split
  · split <;> simp
  · split_ifs
    · split <;> simp
    · split
      · exact (failsOwn_applyBinary ..).bind fun _ _ => .ok trivial
      · exact .error rfl
  · split
    · exact .error rfl
    · split_ifs
      · exact .error rfl
      · exact (failsOwn_apply ..).bind fun _ _ => .ok trivial
  · exact .error rfl

theorem failsOwn_runPostfix (angles : AngleUnit) (tokens : List Token) :
    FailsOwn (runPostfix angles tokens) := by
  refine (FailsOwn.foldlM (failsOwn_runStep angles) _ _).bind fun stack _ => ?_
  split <;> simp

theorem Yard.failsOwn_flush (output waiting : List Token) : FailsOwn (flush output waiting) := by
  induction waiting generalizing output with
  | nil => simp [flush]
  | cons top waiting ih =>
    unfold flush
    split_ifs
    · exact .ok trivial
    · exact ih _

theorem Yard.failsOwn_step (y : Yard) (t : Token) : FailsOwn (y.step t) := by
  unfold step
  split
  · exact .ok trivial
  · exact .ok trivial
  · split_ifs <;> exact .ok trivial
  · refine (failsOwn_flush ..).bind fun _ _ => ?_
    dsimp only
    split_ifs <;> simp
  · split_ifs
    · exact .ok trivial
    · refine (failsOwn_flush ..).bind fun _ _ => ?_
      dsimp only
      split
      · split_ifs <;> exact .ok trivial
      · exact .ok trivial
  · exact .error rfl

theorem Yard.failsOwn_drain (output waiting : List Token) : FailsOwn (drain output waiting) := by
  induction waiting generalizing output with
  | nil => exact .ok trivial
  | cons top waiting ih =>
    unfold drain
    split_ifs
    · exact .error rfl
    · exact ih _

theorem failsOwn_toPostfix (tokens : List Token) : FailsOwn (toPostfix tokens) :=
  (FailsOwn.foldlM Yard.failsOwn_step _ _).bind fun y _ => Yard.failsOwn_drain y.output y.waiting

theorem failsOwn_toToken (s : Slice TokenKind) : FailsOwn (toToken s) := by
  unfold toToken
  dsimp only
  split
  · exact .error rfl
  · split_ifs <;> simp
  · exact .ok trivial

theorem failsOwn_compute (angles : AngleUnit) (cs : List Char) : FailsOwn (compute angles cs) := by
  unfold compute
  split_ifs
  · exact .error rfl
  · exact (FailsOwn.mapM failsOwn_toToken _).bind fun tokens _ =>
      (failsOwn_toPostfix tokens).bind fun row _ => failsOwn_runPostfix angles row

end Arithmetic

/-! ## Logic -/

namespace Logic

namespace Infix

variable {ω ν : Type} {rules : Rules ω ν} (hrules : ∀ op values, FailsOwn (rules.apply op values))
include hrules

theorem failsOwn_release (level : Nat) (values : List ν) (waiting : List (Option ω)) :
    FailsOwn (release rules level values waiting) := by
  induction waiting generalizing values with
  | nil => exact .ok trivial
  | cons top waiting ih =>
    cases top with
    | none => exact .ok trivial
    | some op =>
      unfold release
      split_ifs
      · exact (hrules op values).bind fun values _ => ih values
      · exact .ok trivial

theorem failsOwn_operator (e : Infix ω ν) (op : ω) : FailsOwn (operator rules e op) :=
  (failsOwn_release hrules ..).bind fun _ _ => .ok trivial

theorem failsOwn_closeFrom (values : List ν) (waiting : List (Option ω)) :
    FailsOwn (closeFrom rules values waiting) := by
  induction waiting generalizing values with
  | nil => simp [closeFrom]
  | cons top waiting ih =>
    cases top with
    | none => exact .ok trivial
    | some op => exact (hrules op values).bind fun values _ => ih values

theorem failsOwn_finishFrom (values : List ν) (waiting : List (Option ω)) :
    FailsOwn (finishFrom rules values waiting) := by
  induction waiting generalizing values with
  | nil =>
    unfold finishFrom
    split <;> simp
  | cons top waiting ih =>
    cases top with
    | none => simp [finishFrom]
    | some op => exact (hrules op values).bind fun values _ => ih values

end Infix

namespace Boolean

theorem failsOwn_apply (op : Connective) (values : List Bool) : FailsOwn (apply op values) := by
  unfold apply
  split <;> simp

theorem failsOwn_step (s : State) (lexeme : String) : FailsOwn (step s lexeme) := by
  unfold step
  split
  · exact .ok trivial
  split
  · exact .ok trivial
  split
  · exact .ok trivial
  split
  · exact (Infix.failsOwn_closeFrom failsOwn_apply ..).bind fun _ _ => .ok trivial
  · split
    · split_ifs <;> simp
    · exact (Infix.failsOwn_operator failsOwn_apply ..).bind fun _ _ => .ok trivial
    · exact .error rfl

theorem failsOwn_evaluate (cs : List Char) : FailsOwn (evaluate cs) :=
  (FailsOwn.foldlM failsOwn_step _ _).bind fun _ _ => Infix.failsOwn_finishFrom failsOwn_apply ..

end Boolean

namespace Bitwise

theorem failsOwn_shiftAmount (b : Int64) : FailsOwn (shiftAmount b) := by
  unfold shiftAmount
  split_ifs <;> simp

theorem failsOwn_apply (op : Operator) (values : List Int64) : FailsOwn (apply op values) := by
  unfold apply
  split
  · cases op with
    | shiftLeft | shiftRight => exact (failsOwn_shiftAmount _).bind fun _ _ => .ok trivial
    | _ => exact .ok trivial
  · exact .error rfl

theorem failsOwn_toToken (s : Slice TokenKind) : FailsOwn (toToken s) := by
  unfold toToken
  split <;> simp

theorem failsOwn_readLiteral (literal : String) : FailsOwn (readLiteral literal) := by
  unfold readLiteral
  dsimp only
  split <;> simp

theorem failsOwn_complementTop (values : List Int64) : FailsOwn (complementTop values) := by
  cases values <;> simp [complementTop]

theorem failsOwn_step (s : State) (t : Token) : FailsOwn (step s t) := by
  unfold step
  split
  · exact (failsOwn_readLiteral _).bind fun _ _ => .ok trivial
  · split_ifs
    · exact .ok trivial
    · refine (Infix.failsOwn_closeFrom failsOwn_apply ..).bind fun expr _ => ?_
      split_ifs
      · exact (failsOwn_complementTop _).bind fun _ _ => .ok trivial
      · exact .ok trivial
  · split
    · exact .error rfl
    · exact (Infix.failsOwn_operator failsOwn_apply ..).bind fun _ _ => .ok trivial
    · exact .error rfl
  · exact .error rfl

theorem failsOwn_start (tokens : List Token) : FailsOwn (start tokens) := by
  unfold start
  split
  · exact .ok trivial
  · split_ifs
    · exact .ok trivial
    · split
      · exact .error rfl
      · split_ifs
        · exact (failsOwn_readLiteral _).bind fun _ _ => .ok trivial
        · exact .ok trivial
        · exact .error rfl

theorem failsOwn_evaluate (cs : List Char) : FailsOwn (evaluate cs) := by
  refine (FailsOwn.mapM failsOwn_toToken _).bind fun tokens _ => ?_
  refine (failsOwn_start tokens).bind fun _ _ => ?_
  exact (FailsOwn.foldlM failsOwn_step _ _).bind fun _ _ =>
    Infix.failsOwn_finishFrom failsOwn_apply ..

end Bitwise

namespace Comparison

theorem failsOwn_readOperand (cs : List Char) : FailsOwn (readOperand cs) := by
  unfold readOperand
  split <;> simp

theorem failsOwn_evaluate (cs : List Char) : FailsOwn (evaluate cs) := by
  unfold evaluate
  split
  · refine (failsOwn_readOperand _).bind fun x _ => ?_
    refine (failsOwn_readOperand _).bind fun y _ => ?_
    split
    · exact .ok trivial
    · exact .error rfl
  · exact .error rfl

end Comparison

end Logic

/-! ## Conversions -/

namespace Units

theorem failsOwn_read (text : String) : FailsOwn (Request.read text) := by
  unfold Request.read
  split
  · split <;> simp
  · exact .error rfl

theorem failsOwn_toCelsius (value : Float) (symbol : String) :
    FailsOwn (toCelsius value symbol) := by
  unfold toCelsius
  split_ifs <;> simp

theorem failsOwn_fromCelsius (celsius : Float) (symbol : String) :
    FailsOwn (fromCelsius celsius symbol) := by
  unfold fromCelsius
  split_ifs <;> simp

theorem failsOwn_convert (value : Float) (source target : String) :
    FailsOwn (convert value source target) := by
  unfold convert
  split
  · refine Gives.bind (P := fun _ => True) ?_ fun _ _ => .ok trivial
    unfold scale
    split_ifs
    · exact (failsOwn_toCelsius ..).bind fun _ _ => failsOwn_fromCelsius ..
    · exact .ok trivial
  · split
    · split_ifs <;> simp
    · exact .error rfl

end Units

/-! ## Dates -/

namespace Dates

open Calendar

theorem failsOwn_readAmount (text : String) : FailsOwn (readAmount text) := by
  unfold readAmount
  split <;> simp

theorem failsOwn_readUnit (text : String) : FailsOwn (readUnit text) := by
  unfold readUnit
  split <;> simp

theorem failsOwn_shift (i : Instant) (unit : DateUnit) (amount : Int) :
    FailsOwn (shift i unit amount) := by
  unfold shift
  dsimp only
  split
  · exact .ok trivial
  · exact .error rfl
  · next f hfailed =>
    split at hfailed
    all_goals
      cases hfailed
    exact .error rfl

theorem failsOwn_ageInYears (birth today : Date) : FailsOwn (ageInYears birth today) := by
  unfold ageInYears
  split_ifs <;> simp

theorem failsOwn_readDate (now : Instant) (text : String) : FailsOwn (readDate now text) := by
  unfold readDate
  dsimp only
  split_ifs
  · exact .ok trivial
  · exact .ok trivial
  · exact failsOwn_shift ..
  · exact failsOwn_shift ..
  · split <;> simp

end Dates

/-! ## Answers -/

/-- A success in some domain, or the report of a cause of its own. -/
inductive Answer.IsMade (input : String) : Answer → Prop
  | success {result domain subtitle number unit} : domain ≠ .error →
      IsMade input (.success input result domain subtitle number unit)
  | failure {f : Failure} : f.isOwn = true → IsMade input (.failure input f.message)

theorem Gives.isMade {input : String} {x : Except Failure Answer}
    (h : Gives (Answer.IsMade input) x) : (Answer.ofExcept input x).IsMade input := by
  cases h with
  | ok ha => exact ha
  | error hf => exact .failure hf

theorem Arithmetic.isMade_evaluate (settings : Settings) (q : String) :
    (evaluate settings q).IsMade (Text.trimmed q) := by
  unfold evaluate
  refine Gives.isMade ((failsOwn_compute ..).bind fun x _ => ?_)
  exact .ok (.success nofun)

theorem Units.isMade_evaluate (settings : Settings) (q : String) :
    (evaluate settings q).IsMade (Text.trimmed q) := by
  unfold evaluate
  refine Gives.isMade ?_
  unfold answer?
  split_ifs
  · exact .error rfl
  · refine (failsOwn_read _).bind fun request _ => ?_
    refine (failsOwn_convert ..).bind fun converted _ => ?_
    exact .ok (.success nofun)

theorem Logic.isMade_evaluate (q : String) : (evaluate q).IsMade (Text.trimmed q) := by
  unfold evaluate
  refine Gives.isMade ?_
  unfold answer?
  split_ifs
  · exact .error rfl
  · dsimp only
    split
    · exact (Bitwise.failsOwn_evaluate _).bind fun _ _ => .ok (.success nofun)
    · exact (Comparison.failsOwn_evaluate _).bind fun _ _ => .ok (.success nofun)
    · exact (Boolean.failsOwn_evaluate _).bind fun _ _ => .ok (.success nofun)

namespace Dates

open Calendar

theorem gives_answerShape (now : Instant) (input : String) (asked : Shape × List String) :
    Gives (Answer.IsMade input) (answerShape now input asked) := by
  unfold answerShape
  split
  · exact (failsOwn_readDate ..).bind fun base _ => (failsOwn_readUnit _).bind fun unit _ =>
      (failsOwn_readAmount _).bind fun amount _ => (failsOwn_shift ..).bind fun moved _ =>
        .ok (.success nofun)
  · exact (failsOwn_readUnit _).bind fun unit _ => (failsOwn_readDate ..).bind fun first _ =>
      (failsOwn_readDate ..).bind fun second _ => .ok (.success nofun)
  · unfold relativeWeekday
    split
    · exact .error rfl
    · exact (failsOwn_shift ..).bind fun moved _ => .ok (.success nofun)
  · exact (failsOwn_readAmount _).bind fun amount _ => (failsOwn_readUnit _).bind fun unit _ =>
      (failsOwn_shift ..).bind fun moved _ => .ok (.success nofun)
  · exact (failsOwn_readDate ..).bind fun birth _ => (failsOwn_ageInYears ..).bind fun years _ =>
      .ok (.success nofun)
  · exact (failsOwn_readDate ..).bind fun day _ => .ok (.success nofun)
  · exact .error rfl

theorem isMade_evaluate (now : Instant) (q : String) :
    (evaluate now q).IsMade (Text.trimmed q) := by
  unfold evaluate
  refine Gives.isMade ?_
  unfold answer?
  split_ifs
  · exact .error rfl
  · dsimp only
    split
    · exact gives_answerShape ..
    · unfold dateAnswer
      split
      · exact .ok (.success nofun)
      · exact .error rfl

end Dates

/-- **Every answer of an evaluator is a success in some domain or reports a cause of its own.** -/
theorem isMade_evaluateAs {settings : Settings} {now : Calendar.Instant} {d : Domain} {q : String}
    {a : Answer} (h : evaluateAs settings now d q = some a) : a.IsMade (Text.trimmed q) := by
  unfold evaluateAs at h
  split at h
  · obtain rfl := Option.some.inj h
    exact Units.isMade_evaluate settings q
  · obtain rfl := Option.some.inj h
    exact Dates.isMade_evaluate now q
  · obtain rfl := Option.some.inj h
    exact Logic.isMade_evaluate q
  · split_ifs at h
    obtain rfl := Option.some.inj h
    exact Arithmetic.isMade_evaluate settings q

end Reckoner
