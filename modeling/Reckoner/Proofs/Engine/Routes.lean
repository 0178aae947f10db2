/-
  Expressions answered by their kind, and queries answered by their domain.

  * `answerQuery_of_precedes`: an evaluator's answer is that to the query if all other answers fail or
    come later;
  * `Engine.RoutesAgree`: where an expression has an answer, the query has the same one;
  * `Engine.Misrouted`: an expression of arithmetic that the query takes for logic, or a date
    that it does not take for a date;
  * `Engine.routesAgree_iff`: **the routes agree on a text if and only if it is not misrouted**.
-/
import Reckoner.Proofs.Engine.Agreement
import Reckoner.Proofs.Engine.Overlap
import Reckoner.Proofs.Query.Priority

namespace Reckoner

open Text

/-! ## Kinds of expressions -/

namespace Expression

open Pattern

theorem needs_baseLiteral : baseLiteral.Needs [['x'], ['b'], ['o']] := by
  have hmark : ∀ (c : Char) (p : Pattern), [c] ∈ [['x'], ['b'], ['o']] →
      (Pattern.seq (char c) p).Needs [['x'], ['b'], ['o']] := by
    intro c p hc
    exact .seq (.one fun d hd => beq_iff_eq.1 hd ▸ hc)
  refine .word (.seq_right (.choice fun p hp => ?_))
  simp only [List.mem_cons, List.not_mem_nil, or_false] at hp
  rcases hp with rfl | rfl | rfl
  · exact hmark 'x' _ (by decide)
  · exact hmark 'b' _ (by decide)
  · exact hmark 'o' _ (by decide)

theorem needs_logicHint : logicHint.Needs
    (logicWords.map String.toList ++ "&|~!<>=".toList.map fun c => [c]) := by
  refine .alt (.word (.anyText fun s hs => ?_)) (.one fun c hc => ?_)
  · exact ⟨s.toList, List.mem_append_left _ (List.mem_map_of_mem hs), List.infix_refl _⟩
  · exact List.mem_append_right _ (List.mem_map_of_mem (List.contains_iff_mem.1 hc))

/-- A text without letters is logic by one of its signs only. -/
theorem sign_of_isLogic {cs : List Char} (hletters : ∀ c ∈ cs, isAsciiLower c = false)
    (h : isLogic cs = true) : ∃ c ∈ cs, c ∈ "&|~!<>=".toList := by
  have hno : ∀ w : List Char, w.head?.any isAsciiLower = true → ¬ w <:+: cs := by
    intro w hw hin
    cases w with
    | nil => exact Bool.false_ne_true hw
    | cons c w =>
      have hc := hletters c (hin.subset List.mem_cons_self)
      exact Bool.false_ne_true (hc.symm.trans hw)
  rw [isLogic, Bool.or_eq_true, Bool.and_eq_true] at h
  rcases h with h | ⟨-, h⟩
  · obtain ⟨w, hw, hin⟩ := needs_logicHint.exists_word h
    rcases List.mem_append.1 hw with hw | hw
    · have hwords : ∀ w ∈ logicWords.map String.toList, w.head?.any isAsciiLower = true := by
        decide
      exact absurd hin (hno w (hwords w hw))
    · obtain ⟨c, hc, rfl⟩ := List.mem_map.1 hw
      exact ⟨c, hin.subset List.mem_cons_self, hc⟩
  · obtain ⟨w, hw, hin⟩ := needs_baseLiteral.exists_word h
    have hwords : ∀ w ∈ [['x'], ['b'], ['o']], w.head?.any isAsciiLower = true := by decide
    exact absurd hin (hno w (hwords w hw))

/-- A date with the year first makes an expression a date. -/
theorem dateHint_of_isDay {w cs : List Char} (hday : Query.IsDay w) (hw : w <:+: cs) :
    dateHint.occursIn cs = true := by
  obtain ⟨pre, rest, rfl⟩ := hw
  obtain ⟨y, m, d, sign, rfl, hsign, hy, hm, hd, hdigits⟩ := hday
  simp only [List.forall_mem_append] at hdigits
  have hsigns : ∀ c ∈ ['-', '/'], "-/".toList.contains c = true := by decide
  have hsign := hsigns sign hsign
  refine occursIn_iff.2 ⟨pre, _, rest, [], rfl, .inr ?_⟩
  exact ⟨y, _, [], [], rfl, rfl, fits_times.2 ⟨hy, hdigits.1.1, rfl⟩,
    [sign], _, [], [], rfl, rfl, ⟨⟨sign, rfl, hsign⟩, rfl⟩,
    m, _, [], [], rfl, rfl, Query.fits_oneOrTwo.2 ⟨hm, hdigits.1.2, rfl⟩,
    [sign], d, [], [], rfl, rfl, ⟨⟨sign, rfl, hsign⟩, rfl⟩,
    Query.fits_oneOrTwo.2 ⟨hd, hdigits.2, rfl⟩⟩

theorem not_dateHint_of_detect {cs : List Char} (h : Kind.detect cs = .arithmetic) :
    dateHint.occursIn cs = false := by
  unfold Kind.detect at h
  split_ifs at h with hdate
  rwa [Bool.not_eq_true] at hdate

theorem isLogic_of_detect {cs : List Char} (h : Kind.detect cs = .logic) : isLogic cs = true := by
  unfold Kind.detect at h
  split_ifs at h with _ _ hlogic
  exact hlogic

/-- An expression with an answer has that of the evaluator of its kind. -/
theorem evaluate_eq {settings : Settings} {now : Calendar.Instant} {q : String}
    (h : (evaluate settings now q).isError = false) :
    ∃ d, (Kind.detect (canonical q.toList)).domain? = some d ∧
      evaluateAs settings now d (trimmed q) = some (evaluate settings now q) := by
  unfold evaluate at h ⊢
  dsimp only at h ⊢
  split at h
  · cases h
  · next herror =>
    have hkind : (parse q).kind = Kind.detect (canonical q.toList) := by
      unfold parse at herror ⊢
      by_cases hblank : isBlankText q = true
      · rw [if_pos hblank] at herror
        cases herror
      · rw [if_neg hblank]
    rw [← hkind]
    split at h
    · cases h
    · next d hd =>
      split at h
      · next a ha => exact ⟨d, hd, by simp only [ha]⟩
      · cases h

end Expression

/-! ## Answers of the evaluators -/

section
variable {settings : Settings} {now : Calendar.Instant} {q : String}

theorem evaluateAs_trimmed (d : Domain) :
    evaluateAs settings now d (trimmed q) = evaluateAs settings now d q := by
  simp only [evaluateAs, Units.evaluate, Dates.evaluate, Logic.evaluate, Arithmetic.evaluate,
    trimmed_trimmed]

/-- Every success is that of one of the four evaluators. -/
theorem success_cases {d : Domain} {a : Answer} (h : evaluateAs settings now d q = some a)
    (hok : a.isError = false) :
    (d = .unitConversion ∧ a = Units.evaluate settings q ∧
      (Units.evaluate settings q).isError = false) ∨
    (d = .dateCalculation ∧ a = Dates.evaluate now q ∧ (Dates.evaluate now q).isError = false) ∨
    (d = .logicEvaluation ∧ a = Logic.evaluate q ∧ (Logic.evaluate q).isError = false) ∨
    (a = Arithmetic.evaluate settings q ∧ (Arithmetic.evaluate settings q).isError = false) := by
  unfold evaluateAs at h
  split at h
  · have heq := Option.some.inj h
    exact .inl ⟨rfl, heq.symm, heq ▸ hok⟩
  · have heq := Option.some.inj h
    exact .inr (.inl ⟨rfl, heq.symm, heq ▸ hok⟩)
  · have heq := Option.some.inj h
    exact .inr (.inr (.inl ⟨rfl, heq.symm, heq ▸ hok⟩))
  · split_ifs at h
    have heq := Option.some.inj h
    exact .inr (.inr (.inr ⟨heq.symm, heq ▸ hok⟩))

theorem Arithmetic.domain_of_evaluate (h : (Arithmetic.evaluate settings q).isError = false) :
    (Arithmetic.evaluate settings q).domain = .arithmetic := by
  simp only [Arithmetic.evaluate] at h ⊢
  obtain ⟨a, h, heq⟩ := ok_of_not_isError h
  rw [heq]
  obtain ⟨x, -, h⟩ := ok_of_bind h
  obtain rfl := Except.ok.inj h
  rfl

theorem Logic.domain_of_evaluate (h : (Logic.evaluate q).isError = false) :
    (Logic.evaluate q).domain = .logicEvaluation := by
  simp only [Logic.evaluate] at h ⊢
  obtain ⟨a, h, heq⟩ := ok_of_not_isError h
  rw [heq]
  unfold answer? at h
  split_ifs at h
  dsimp only at h
  split at h
  · obtain ⟨v, -, h⟩ := ok_of_bind h
    obtain rfl := Except.ok.inj h
    rfl
  · obtain ⟨v, -, h⟩ := ok_of_bind h
    obtain rfl := Except.ok.inj h
    rfl
  · obtain ⟨v, -, h⟩ := ok_of_bind h
    obtain rfl := Except.ok.inj h
    rfl

namespace Dates

theorem domain_of_answerShape {asked : Shape × List String} {a : Answer}
    (h : answerShape now q asked = .ok a) : a.domain = .dateCalculation := by
  unfold answerShape at h
  split at h
  · simp only [arithmetic] at h
    obtain ⟨base, -, h⟩ := ok_of_bind h
    obtain ⟨unit, -, h⟩ := ok_of_bind h
    obtain ⟨amount, -, h⟩ := ok_of_bind h
    obtain ⟨moved, -, h⟩ := ok_of_bind h
    obtain rfl := Except.ok.inj h
    rfl
  · simp only [between] at h
    obtain ⟨unit, -, h⟩ := ok_of_bind h
    obtain ⟨first, -, h⟩ := ok_of_bind h
    obtain ⟨second, -, h⟩ := ok_of_bind h
    obtain rfl := Except.ok.inj h
    rfl
  · simp only [relativeWeekday] at h
    split at h
    · cases h
    · obtain ⟨moved, -, h⟩ := ok_of_bind h
      obtain rfl := Except.ok.inj h
      rfl
  · simp only [relativeOffset] at h
    obtain ⟨amount, -, h⟩ := ok_of_bind h
    obtain ⟨unit, -, h⟩ := ok_of_bind h
    obtain ⟨moved, -, h⟩ := ok_of_bind h
    obtain rfl := Except.ok.inj h
    rfl
  · simp only [ageOf] at h
    obtain ⟨birth, -, h⟩ := ok_of_bind h
    obtain ⟨years, -, h⟩ := ok_of_bind h
    obtain rfl := Except.ok.inj h
    rfl
  · simp only [weekdayOf] at h
    obtain ⟨day, -, h⟩ := ok_of_bind h
    obtain rfl := Except.ok.inj h
    rfl
  · cases h

theorem domain_of_evaluate (h : (Dates.evaluate now q).isError = false) :
    (Dates.evaluate now q).domain = .dateCalculation := by
  simp only [Dates.evaluate] at h ⊢
  obtain ⟨a, h, heq⟩ := ok_of_not_isError h
  rw [heq]
  unfold answer? at h
  split_ifs at h
  dsimp only at h
  split at h
  · exact domain_of_answerShape h
  · unfold dateAnswer at h
    split at h
    · obtain rfl := Except.ok.inj h
      rfl
    · cases h

end Dates

/-! ## The first answer -/

theorem find?_success {a : Answer} {as : List Answer} (hok : a.isError = false)
    (has : ∀ b ∈ as, b.isError = false → b = a) (bs : List Answer) :
    (as ++ a :: bs).find? (fun b => !b.isError) = some a := by
  induction as with
  | nil =>
    rw [List.nil_append, List.find?_cons, hok]
    rfl
  | cons b as ih =>
    obtain ⟨hb, has⟩ := List.forall_mem_cons.1 has
    rw [List.cons_append, List.find?_cons]
    cases herror : b.isError with
    | true => exact ih has
    | false =>
      obtain rfl := hb herror
      rfl

/-- **An evaluator's answer is that to the query** if all other answers fail or come later. -/
theorem answerQuery_of_precedes {d : Domain} {a : Answer} (hd : d ∈ Query.defaultOrder)
    (ha : evaluateAs settings now d q = some a) (hok : a.isError = false)
    (hothers : ∀ x b, evaluateAs settings now x q = some b → b.isError = false →
      b = a ∨ Query.Precedes d x (Query.priority q)) : answerQuery settings now q = a := by
  have hmem : d ∈ Query.priority q := mem_addNew (.inr hd)
  obtain ⟨xs, ys, hsplit, hnot⟩ := List.eq_append_cons_of_mem hmem
  have hanswers : answersTo settings now q =
      xs.filterMap (fun x => evaluateAs settings now x q) ++ a ::
        ys.filterMap fun x => evaluateAs settings now x q := by
    unfold answersTo
    simp only [evaluateAs_trimmed, priority_congr (keyOf_trimmed q)]
    rw [hsplit, List.filterMap_append, List.filterMap_cons, ha]
  -- what is tried before fails, or gives the same answer
  have hbefore : ∀ b ∈ xs.filterMap (fun x => evaluateAs settings now x q),
      b.isError = false → b = a := by
    intro b hb hbok
    obtain ⟨x, hx, hxb⟩ := List.mem_filterMap.1 hb
    refine (hothers x b hxb hbok).resolve_right fun hprecedes => ?_
    obtain ⟨us, vs, rfl⟩ := List.append_of_mem hx
    rw [List.append_assoc, List.cons_append] at hsplit
    exact hnot (List.mem_append_left _ (hprecedes us _ hsplit))
  have hfirst := firstSuccess_answersTo settings now q
  rw [hanswers, firstSuccess, find?_success hok hbefore] at hfirst
  exact (Option.some.inj hfirst).symm

/-! ## Arithmetic and other domains -/

section
variable (harithmetic : (Arithmetic.evaluate settings q).isError = false)
include harithmetic

/-- A text with a value in arithmetic has no word of dates. -/
theorem no_dateStem {w : List Char} (hw : w ∈ Query.dateStems) : ¬ w <:+: Query.normalize q := by
  intro hin
  have hstems : ∀ w ∈ Query.dateStems, w ≠ [] ∧ (∀ c ∈ w, isAsciiLower c = true) ∧
      ∀ v ∈ Arithmetic.nameWords, ¬ w <:+: v := by
    decide +kernel
  obtain ⟨hne, hlower, hout⟩ := hstems w hw
  have hstrip := infix_strip hin fun c hc => isBlank_of_lower (hlower c hc)
  obtain ⟨v, hv, hwv⟩ := (Arithmetic.names_of_evaluate harithmetic).exists_word hstrip hne hlower
  exact hout v hv hwv

/-- What is taken for a date has a date with the year first. -/
theorem dateHint_of_classify (h : (Query.classify q).domain = .dateCalculation) :
    Expression.dateHint.occursIn (canonical q.toList) = true := by
  rcases Query.of_dateCalculation h with ⟨w, hday, hw⟩ | ⟨w, hw, hin⟩
  · refine Expression.dateHint_of_isDay hday ?_
    rw [canonical_eq]
    exact infix_collapse hw hday.ne_nil hday.not_blank
  · exact absurd hin (no_dateStem harithmetic hw)

theorem arithmetic_precedes_dates (h : (Query.classify q).domain ≠ .dateCalculation) :
    Query.Precedes .arithmetic .dateCalculation (Query.priority q) := by
  refine Query.arithmetic_precedes (by decide) h fun htriggered => ?_
  rcases Query.of_dateTrigger htriggered with hdigit | ⟨w, hw, hin⟩
  · exact hdigit
  · exact absurd hin (no_dateStem harithmetic hw)

theorem arithmetic_precedes_logic (hlogic : (Logic.evaluate q).isError = false)
    (h : (Query.classify q).domain ≠ .logicEvaluation) :
    Query.Precedes .arithmetic .logicEvaluation (Query.priority q) := by
  refine Query.arithmetic_precedes (by decide) h fun htriggered => ?_
  obtain ⟨w, hw, hin⟩ := Query.of_logicTrigger htriggered
  have hwords : ∀ w ∈ Query.logicWords, (∀ c ∈ w, isAsciiLower c = true) ∧ w ≠ [] := by decide
  obtain ⟨hlower, hne⟩ := hwords w hw
  have hstrip := infix_strip hin fun c hc => isBlank_of_lower (hlower c hc)
  rw [Query.normalize, ← strip_canonical] at hstrip
  obtain ⟨c, hc⟩ := List.exists_mem_of_ne_nil w hne
  have hno := Logic.no_letters hlogic harithmetic c (mem_strip.1 (hstrip.subset hc)).1
  exact absurd (hno.symm.trans (hlower c hc)) Bool.false_ne_true

/-- What has also an answer of logic is not taken for logic. -/
theorem not_logic_of_evaluate (hlogic : (Logic.evaluate q).isError = false) :
    Expression.isLogic (canonical q.toList) = false := by
  rw [Bool.eq_false_iff]
  intro h
  obtain ⟨c, hc, hsign⟩ := Expression.sign_of_isLogic (Logic.no_letters hlogic harithmetic) h
  have hsigns : ∀ c ∈ "&|~!<>=".toList, isBlank c = false ∧
      ¬ (isWordChar c = true ∨ c ∈ Arithmetic.signs) := by
    decide
  obtain ⟨hblank, hout⟩ := hsigns c hsign
  have hstrip := Arithmetic.signs_of_evaluate harithmetic
  rw [← strip_canonical] at hstrip
  exact hout (hstrip c (mem_strip.2 ⟨hc, hblank⟩))

end

/-! ## Which answer a query has -/

/-- What is converted is answered as a conversion. -/
theorem answerQuery_of_units (h : (Units.evaluate settings q).isError = false) :
    answerQuery settings now q = Units.evaluate settings q := by
  have hdefault : Domain.unitConversion ∈ Query.defaultOrder := by decide
  refine answerQuery_of_precedes hdefault rfl h fun x b hb hok => .inl ?_
  rcases success_cases hb hok with ⟨-, heq, -⟩ | ⟨-, -, hdates⟩ | ⟨-, -, hlogic⟩ | ⟨-, harithmetic⟩
  · exact heq
  · exact absurd (hdates.symm.trans (Units.refused_by_dates h now)) Bool.false_ne_true
  · exact absurd (hlogic.symm.trans (Units.refused_by_logic h)) Bool.false_ne_true
  · exact absurd (harithmetic.symm.trans (Units.refused_by_arithmetic h)) Bool.false_ne_true

/-- What has an answer of logic has it as a query, unless arithmetic comes first. -/
theorem answerQuery_of_logic (h : (Logic.evaluate q).isError = false)
    (hfirst : (Arithmetic.evaluate settings q).isError = true ∨
      (Query.classify q).domain = .logicEvaluation) :
    answerQuery settings now q = Logic.evaluate q := by
  have hdefault : Domain.logicEvaluation ∈ Query.defaultOrder := by decide
  refine answerQuery_of_precedes hdefault rfl h fun x b hb hok => ?_
  by_cases hx : x = .logicEvaluation
  · subst hx
    exact .inl (Option.some.inj hb).symm
  · rcases hfirst with harithmetic | hclass
    · left
      rcases success_cases hb hok with ⟨-, -, hunits⟩ | ⟨-, -, hdates⟩ | ⟨hlogic, -⟩ | ⟨-, hvalue⟩
      · exact absurd (h.symm.trans (Units.refused_by_logic hunits)) Bool.false_ne_true
      · exact absurd (hdates.symm.trans (Logic.refused_by_dates h now)) Bool.false_ne_true
      · exact absurd hlogic hx
      · exact absurd (hvalue.symm.trans harithmetic) Bool.false_ne_true
    · right
      obtain ⟨ds, hds⟩ := Query.priority_of_classify (by decide) hclass
      rw [hds]
      exact Query.precedes_cons (Ne.symm hx)

/-- What has an answer about dates has it as a query, unless arithmetic comes first. -/
theorem answerQuery_of_dates (h : (Dates.evaluate now q).isError = false)
    (hfirst : (Arithmetic.evaluate settings q).isError = true ∨
      (Query.classify q).domain = .dateCalculation) :
    answerQuery settings now q = Dates.evaluate now q := by
  have hdefault : Domain.dateCalculation ∈ Query.defaultOrder := by decide
  refine answerQuery_of_precedes hdefault rfl h fun x b hb hok => ?_
  by_cases hx : x = .dateCalculation
  · subst hx
    exact .inl (Option.some.inj hb).symm
  · rcases hfirst with harithmetic | hclass
    · left
      rcases success_cases hb hok with ⟨-, -, hunits⟩ | ⟨hdate, -⟩ | ⟨-, -, hlogic⟩ | ⟨-, hvalue⟩
      · exact absurd (h.symm.trans (Units.refused_by_dates hunits now)) Bool.false_ne_true
      · exact absurd hdate hx
      · exact absurd (h.symm.trans (Logic.refused_by_dates hlogic now)) Bool.false_ne_true
      · exact absurd (hvalue.symm.trans harithmetic) Bool.false_ne_true
    · right
      obtain ⟨ds, hds⟩ := Query.priority_of_classify (by decide) hclass
      rw [hds]
      exact Query.precedes_cons (Ne.symm hx)

/-- What has a value in arithmetic has it as a query, unless the query is taken for logic or a
date. -/
theorem answerQuery_of_arithmetic (h : (Arithmetic.evaluate settings q).isError = false)
    (hlogic : (Logic.evaluate q).isError = true ∨ (Query.classify q).domain ≠ .logicEvaluation)
    (hdate : (Query.classify q).domain ≠ .dateCalculation) :
    answerQuery settings now q = Arithmetic.evaluate settings q := by
  have hdefault : Domain.arithmetic ∈ Query.defaultOrder := by decide
  refine answerQuery_of_precedes hdefault rfl h fun x b hb hok => ?_
  rcases success_cases hb hok with ⟨-, -, hunits⟩ | ⟨hx, -⟩ | ⟨hx, -, hvalue⟩ | ⟨heq, -⟩
  · exact absurd (h.symm.trans (Units.refused_by_arithmetic hunits)) Bool.false_ne_true
  · right
    rw [hx]
    exact arithmetic_precedes_dates h hdate
  · rcases hlogic with hrefused | hclass
    · exact absurd (hvalue.symm.trans hrefused) Bool.false_ne_true
    · right
      rw [hx]
      exact arithmetic_precedes_logic h hvalue hclass
  · exact .inl heq

end

/-! ## Routes -/

namespace Engine

/-- Where an expression has an answer, the query has one with the same result, domain, number and
unit. -/
def RoutesAgree (e : Engine) (q : String) : Prop :=
  (e.evaluateExpression q).isError = false →
    (e.evaluate q).isError = false ∧ (e.evaluate q).result = (e.evaluateExpression q).result ∧
    (e.evaluate q).domain = (e.evaluateExpression q).domain ∧
    (e.evaluate q).number = (e.evaluateExpression q).number ∧
    (e.evaluate q).unit = (e.evaluateExpression q).unit

/-- An expression of arithmetic that the query takes for logic, or a date that it does not take
for a date, each with an answer of either sort. -/
def Misrouted (e : Engine) (q : String) : Prop :=
  (e.evaluateExpression q).isError = false ∧
    ((Expression.Kind.detect (canonical q.toList) = .arithmetic ∧
        (Query.classify q).domain = .logicEvaluation ∧ (Logic.evaluate q).isError = false) ∨
      (Expression.Kind.detect (canonical q.toList) = .dateCalculation ∧
        (Query.classify q).domain ≠ .dateCalculation ∧
        (Arithmetic.evaluate e.settings q).isError = false))

variable {e : Engine} {q : String}

/-- What is not misrouted has the same answer as a query. -/
theorem evaluate_eq_of_not_misrouted (hok : (e.evaluateExpression q).isError = false)
    (hrouted : ¬ e.Misrouted q) : e.evaluate q = e.evaluateExpression q := by
  obtain ⟨d, hkind, hanswer⟩ := Expression.evaluate_eq hok
  rw [evaluateAs_trimmed] at hanswer
  cases hdetect : Expression.Kind.detect (canonical q.toList) with
  | unknown =>
    rw [hdetect] at hkind
    cases hkind
  | arithmetic =>
    rw [hdetect] at hkind
    cases hkind
    have heq : Arithmetic.evaluate e.settings q = e.evaluateExpression q := Option.some.inj hanswer
    rw [← heq] at hok ⊢
    refine answerQuery_of_arithmetic hok ?_ fun hclass => ?_
    · cases hlogic : (Logic.evaluate q).isError with
      | true => exact .inl rfl
      | false => exact .inr fun hclass => hrouted ⟨heq ▸ hok, .inl ⟨hdetect, hclass, hlogic⟩⟩
    · have hhint := dateHint_of_classify hok hclass
      rw [Expression.not_dateHint_of_detect hdetect] at hhint
      exact Bool.false_ne_true hhint
  | logic =>
    rw [hdetect] at hkind
    cases hkind
    have heq : Logic.evaluate q = e.evaluateExpression q := Option.some.inj hanswer
    rw [← heq] at hok ⊢
    refine answerQuery_of_logic hok (.inl ?_)
    by_contra harithmetic
    rw [Bool.not_eq_true] at harithmetic
    have hno := not_logic_of_evaluate harithmetic hok
    rw [Expression.isLogic_of_detect hdetect] at hno
    cases hno
  | unitConversion =>
    rw [hdetect] at hkind
    cases hkind
    have heq : Units.evaluate e.settings q = e.evaluateExpression q := Option.some.inj hanswer
    rw [← heq] at hok ⊢
    exact answerQuery_of_units hok
  | dateCalculation =>
    rw [hdetect] at hkind
    cases hkind
    have heq : Dates.evaluate e.now q = e.evaluateExpression q := Option.some.inj hanswer
    rw [← heq] at hok ⊢
    refine answerQuery_of_dates hok ?_
    cases harithmetic : (Arithmetic.evaluate e.settings q).isError with
    | true => exact .inl rfl
    | false =>
      right
      by_contra hclass
      exact hrouted ⟨heq ▸ hok, .inr ⟨hdetect, hclass, harithmetic⟩⟩
  | naturalLanguage =>
    rw [hdetect] at hkind
    cases hkind
    cases hanswer

/-- What is misrouted is answered in another domain as a query. -/
theorem domain_ne_of_misrouted (h : e.Misrouted q) :
    (e.evaluate q).domain ≠ (e.evaluateExpression q).domain := by
  obtain ⟨hok, hcases⟩ := h
  obtain ⟨d, hkind, hanswer⟩ := Expression.evaluate_eq hok
  rw [evaluateAs_trimmed] at hanswer
  rcases hcases with ⟨hdetect, hclass, hlogic⟩ | ⟨hdetect, hclass, harithmetic⟩
  · rw [hdetect] at hkind
    cases hkind
    have heq : Arithmetic.evaluate e.settings q = e.evaluateExpression q := Option.some.inj hanswer
    rw [← heq] at hok ⊢
    have hquery : e.evaluate q = Logic.evaluate q := answerQuery_of_logic hlogic (.inr hclass)
    rw [hquery, Logic.domain_of_evaluate hlogic, Arithmetic.domain_of_evaluate hok]
    decide
  · rw [hdetect] at hkind
    cases hkind
    have heq : Dates.evaluate e.now q = e.evaluateExpression q := Option.some.inj hanswer
    rw [← heq] at hok ⊢
    have hrefused : (Logic.evaluate q).isError = true := by
      by_contra hlogic
      rw [Bool.not_eq_true] at hlogic
      have hno := Logic.refused_by_dates hlogic e.now
      exact Bool.false_ne_true (hok.symm.trans hno)
    have hquery : e.evaluate q = Arithmetic.evaluate e.settings q :=
      answerQuery_of_arithmetic harithmetic (.inl hrefused) hclass
    rw [hquery, Arithmetic.domain_of_evaluate harithmetic, Dates.domain_of_evaluate hok]
    decide

/-- **The routes agree on a text if and only if it is not misrouted.** -/
theorem routesAgree_iff (e : Engine) (q : String) : e.RoutesAgree q ↔ ¬ e.Misrouted q := by
  constructor
  · intro hagree hmisrouted
    obtain ⟨-, -, hdomain, -⟩ := hagree hmisrouted.1
    exact domain_ne_of_misrouted hmisrouted hdomain
  · intro hrouted hok
    rw [evaluate_eq_of_not_misrouted hok hrouted]
    exact ⟨hok, rfl, rfl, rfl, rfl⟩

-- In an expression `^` is a power, but a query with digits around it is taken for logic.
example : Expression.Kind.detect "2 ^ 3 ^ 2".toList = .arithmetic ∧
    (Query.classify "2 ^ 3 ^ 2").domain = .logicEvaluation ∧
    (Logic.evaluate "2 ^ 3 ^ 2").result = "3" := by
  decide +kernel

end Engine

end Reckoner
