/-
  What an answer owes to the clock.

  * `timeless_of_not_dynamic`: in a query that is not dynamic no word counts from the present;
  * `evaluateAs_of_age`: only the calendar answers a question for an age;
  * `Engine.IgnoresClock`: the answer to a query is the same whatever the clock shows;
  * `isDynamic_of_age_of`: `age of` is seen if one space lies between the words;
  * `ignoresClock_iff`: **a query that is not dynamic has the same answer at all times unless
    it asks for an age**, as it may where the words are spaced otherwise.
-/
import Reckoner.Proofs.Dates.Age
import Reckoner.Proofs.Engine.Agreement
import Reckoner.Proofs.Engine.Refusal

namespace Reckoner

open Text Calendar Dates

/-! ## Queries that are not dynamic -/

theorem dynamicWords_edges : ∀ word ∈ dynamicWords,
    word.toList.head?.any isWordChar = true ∧ word.toList.getLast?.any isWordChar = true := by
  decide

/-- A word that depends on the present makes a query dynamic where it stands alone. -/
theorem isDynamic_of_standing {q word : String} (hword : word ∈ dynamicWords)
    (h : Standing word.toList (Query.normalize q)) : isDynamic q = true := by
  obtain ⟨hfirst, hlast⟩ := dynamicWords_edges word hword
  obtain ⟨pre, stretch, rest, groups, hcs, hfits⟩ :=
    Pattern.occursIn_iff.1 (occursIn_word hword hfirst hlast h)
  exact Pattern.occursIn_iff.2 ⟨pre, stretch, rest, groups, hcs, .inr hfits⟩

theorem clockWords_dynamic : ∀ word ∈ clockWords, word ∈ dynamicWords ∧ word.toList ≠ [] ∧
    word.toList.all (fun c => !isBlank c) = true := by
  decide

/-- In a query that is not dynamic no word counts from the present, however it is spaced. -/
theorem timeless_of_not_dynamic {q : String} (h : isDynamic q = false) :
    Timeless (canonical q.toList) := by
  intro word hword hstands
  obtain ⟨hmem, hne, hblanks⟩ := clockWords_dynamic word hword
  rw [canonical_eq] at hstands
  have hblank : ∀ c ∈ word.toList, isBlank c = false := by
    intro c hc
    simpa using List.all_eq_true.1 hblanks c hc
  have hraw : Standing word.toList (Query.normalize q) := standing_collapse hne hblank hstands
  exact Bool.false_ne_true (h.symm.trans (isDynamic_of_standing hmem hraw))

/-- With one space between its words, and with a blank after them, `age of` is not missed. -/
theorem isDynamic_of_age_of {q : String} {b : Char} {rest : List Char} (hb : isBlank b = true)
    (h : Query.normalize q = "age of".toList ++ b :: rest) : isDynamic q = true := by
  refine @isDynamic_of_standing q "age of" (by decide) ?_
  exact ⟨[], b :: rest, h, .nil, isWordChar_of_blank hb⟩

theorem noCapitals_canonical (cs : List Char) : NoCapitals (canonical cs) :=
  fun _ hc => not_capital_of_mem_lowerFrom hc

/-! ## Questions for an age -/

section
variable {q : String} {date : String}

/-- Without blanks the text starts with `ageof`, however the words were spaced. -/
theorem strip_of_age {parts : List String}
    (h : Shape.recognize? (canonical q.toList) = some (.age, parts)) :
    ∃ rest, strip (lower (trim q.toList)) = "ageof".toList ++ rest := by
  obtain ⟨bs, bs', date, -, hcs, ⟨-, hbs⟩, -, hbs'⟩ := Shape.age_parts h
  refine ⟨strip date.toList, ?_⟩
  rw [← strip_canonical, hcs]
  simp only [strip_append, strip_of_blanks hbs, strip_of_blanks hbs', List.append_nil]
  rfl

theorem age_letters : "age".toList.all isAsciiLower = true := rfl

theorem ageof_letters : "ageof".toList.all isAsciiLower = true := rfl

/-- Only the calendar answers a question for an age. -/
theorem evaluateAs_of_age {parts : List String}
    (h : Shape.recognize? (canonical q.toList) = some (.age, parts)) {settings : Settings}
    {now : Instant} {d : Domain} {a : Answer} (ha : evaluateAs settings now d q = some a) :
    a = Dates.evaluate now q ∨ a.isError = true := by
  obtain ⟨bs, bs', date, -, hcs, -⟩ := Shape.age_parts h
  simp only [List.append_assoc] at hcs
  obtain ⟨rest, hstrip⟩ := strip_of_age h
  unfold evaluateAs at ha
  split at ha
  · obtain rfl := Option.some.inj ha
    exact .inr (Units.evaluate_refuses settings rfl hcs)
  · exact .inl (Option.some.inj ha).symm
  · obtain rfl := Option.some.inj ha
    exact .inr (Logic.evaluate_refuses (List.cons_ne_nil _ _) (List.all_eq_true.1 age_letters)
      (by decide) hcs)
  · split_ifs at ha
    obtain rfl := Option.some.inj ha
    exact .inr (Arithmetic.evaluate_refuses (List.cons_ne_nil _ _)
      (List.all_eq_true.1 ageof_letters) settings (by decide) hstrip)

end

/-! ## The first success -/

/-- If one answer alone may be a success, it decides. -/
theorem firstSuccess_of_only {as : List Answer} {a b : Answer} (ha : a ∈ as)
    (honly : ∀ b ∈ as, b = a ∨ b.isError = true) (hb : firstSuccess as = some b) :
    (a.isError = false → b = a) ∧ (a.isError = true → b.isError = true) := by
  unfold firstSuccess at hb
  split at hb
  · next c hfind =>
    obtain rfl := Option.some.inj hb
    have hsuccess : c.isError = false := by simpa using List.find?_some hfind
    have hc : c = a := by
      rcases honly c (List.mem_of_find?_eq_some hfind) with hc | hc
      · exact hc
      · exact absurd (hsuccess.symm.trans hc) Bool.false_ne_true
    exact ⟨fun _ => hc, fun herror => hc ▸ herror⟩
  · next hfind =>
    have hall := List.find?_eq_none.1 hfind
    have herror : ∀ c ∈ as, c.isError = true := fun c hc => by simpa using hall c hc
    refine ⟨fun hsuccess => ?_, fun _ => herror b (List.mem_of_mem_head? hb)⟩
    exact absurd (hsuccess.symm.trans (herror a ha)) Bool.false_ne_true

/-- The answer to a question for an age is what the calendar gives, failures apart. -/
theorem answerQuery_of_age {q : String} {parts : List String}
    (h : Shape.recognize? (canonical q.toList) = some (.age, parts)) (settings : Settings)
    {now : Instant} {a : Answer} (ha : Dates.evaluate now (trimmed q) = a) :
    (a.isError = false → answerQuery settings now q = a) ∧
      (a.isError = true → (answerQuery settings now q).isError = true) := by
  have hmem : a ∈ answersTo settings now q :=
    mem_answersTo (d := .dateCalculation) (by decide) (congrArg some ha)
  have honly : ∀ b ∈ answersTo settings now q, b = a ∨ b.isError = true := by
    intro b hb
    obtain ⟨d, -, hd⟩ := List.mem_filterMap.1 hb
    rw [← canonical_trimmed] at h
    rw [← ha]
    exact evaluateAs_of_age h hd
  exact firstSuccess_of_only hmem honly (firstSuccess_answersTo settings now q)

/-! ## The clock of an engine -/

/-- A time that a clock can show: a day of the calendar, and a second and nanoseconds in it. -/
structure IsTime (now : Instant) : Prop where
  date : now.date.isValid = true
  second : now.second < dayLength
  nano : now.nano < 2 * nanos

theorem isTime_midnight {d : Date} (h : d.isValid = true) : IsTime (.midnight d) :=
  ⟨h, Nat.zero_lt_succ 86399, Nat.zero_lt_succ 1999999999⟩

namespace Engine

variable {e : Engine} {q : String}

/-- The answer to the query is the same whatever the clock shows. -/
def IgnoresClock (e : Engine) (q : String) : Prop := ∀ now now' : Instant,
  IsTime now → IsTime now' → { e with now := now }.evaluate q = { e with now := now' }.evaluate q

/-- The query asks for the age of someone born on a date that can be read. -/
def AsksForAge (q : String) : Prop := ∃ birth, AsksAge (canonical q.toList) birth

theorem canonical_trimmed_trimmed (q : String) :
    canonical (trimmed (trimmed q)).toList = canonical q.toList := by
  rw [canonical_trimmed, canonical_trimmed]

/-- What is not dynamic and asks for no age has one answer for all time. -/
theorem ignoresClock_of_not_asksForAge (h : isDynamic q = false) (hage : ¬ AsksForAge q) :
    e.IgnoresClock q := by
  intro now now' _ _
  have hdates : Dates.evaluate now (trimmed q) = Dates.evaluate now' (trimmed q) := by
    simp only [Dates.evaluate]
    rw [answer?_timeless (noCapitals_canonical q.toList) (timeless_of_not_dynamic h)
      (canonical_trimmed_trimmed q) (fun birth hbirth => hage ⟨birth, hbirth⟩) now now']
  have hanswers : ∀ d, evaluateAs e.settings now d (trimmed q) =
      evaluateAs e.settings now' d (trimmed q) := by
    intro d
    unfold evaluateAs
    rw [hdates]
  simp only [evaluate, answerQuery_eq, answersTo, hanswers]

section
variable {birth now : Instant} (h : isDynamic q = false)
  (hage : AsksAge (canonical q.toList) birth)
include h hage

/-- The answer to a question for an age is the age at the time. -/
theorem evaluate_of_age {years : Int} (hyears : ageInYears birth.date now.date = .ok years) :
    ({ e with now := now }.evaluate q).isError = false ∧
      ({ e with now := now }.evaluate q).result = Decimal.integerText years ++ " years" := by
  have hcalendar := answer?_of_age (noCapitals_canonical q.toList) (timeless_of_not_dynamic h)
    (canonical_trimmed_trimmed q) hage hyears
  obtain ⟨date, hshape, -⟩ := hage
  have hdates := Dates.evaluate_of_answer? hcalendar
  have hanswer := (answerQuery_of_age hshape e.settings hdates).1 rfl
  simp only [evaluate, hanswer]
  exact ⟨rfl, rfl⟩

/-- Before the birth it is a failure. -/
theorem evaluate_of_no_age {f : Failure} (hyears : ageInYears birth.date now.date = .error f) :
    ({ e with now := now }.evaluate q).isError = true := by
  have hcalendar := answer?_of_no_age (noCapitals_canonical q.toList) (timeless_of_not_dynamic h)
    (canonical_trimmed_trimmed q) hage hyears
  obtain ⟨date, hshape, -⟩ := hage
  have hdates := Dates.evaluate_of_answer? hcalendar
  exact (answerQuery_of_age hshape e.settings hdates).2 rfl

end

/-- A question for an age has different answers at different times. -/
theorem not_ignoresClock_of_asksForAge (h : isDynamic q = false) (hage : AsksForAge q) :
    ¬ e.IgnoresClock q := by
  intro hignores
  obtain ⟨birth, hbirth⟩ := hage
  have hvalid : birth.date.isValid = true := by
    obtain ⟨_, -, hread⟩ := hbirth
    exact isValid_of_readWritten hread
  obtain ⟨today, htoday, hother⟩ := exists_other_age hvalid
  have hsame := hignores _ _ (isTime_midnight hvalid) (isTime_midnight htoday)
  have hborn := @evaluate_of_age e q birth (.midnight birth.date) h hbirth 0 (ageInYears_self _)
  rcases hother with ⟨f, hf⟩ | hyears
  · have hnow := @evaluate_of_no_age e q birth (.midnight today) h hbirth f hf
    rw [← hsame] at hnow
    exact Bool.false_ne_true (hborn.1.symm.trans hnow)
  · have hnow := @evaluate_of_age e q birth (.midnight today) h hbirth 524285 hyears
    rw [← hsame] at hnow
    have htext := hborn.2.symm.trans hnow.2
    exact absurd htext (by decide)

/-- **A query that is not dynamic has the same answer at all times unless it asks for an
age.** -/
theorem ignoresClock_iff (e : Engine) (q : String) :
    (isDynamic q = false → e.IgnoresClock q) ↔ ¬ (isDynamic q = false ∧ AsksForAge q) := by
  constructor
  · rintro hignores ⟨h, hage⟩
    exact not_ignoresClock_of_asksForAge h hage (hignores h)
  · intro hage h
    exact ignoresClock_of_not_asksForAge h fun hasks => hage ⟨h, hasks⟩

/-- With two blanks in `age  of`, a query is not dynamic and still has another answer after a
birthday. -/
theorem age_changes_with_clock :
    ∃ e, Engine.ofSetup {} (.midnight ⟨2024, 1, 15⟩) = .ok e ∧
      isDynamic "age  of 1990-05-20" = false ∧ ¬ e.IgnoresClock "age  of 1990-05-20" ∧
      ({ e with now := .midnight ⟨2024, 1, 15⟩ }.evaluate "age  of 1990-05-20").result =
        "33 years" ∧
      ({ e with now := .midnight ⟨2024, 6, 1⟩ }.evaluate "age  of 1990-05-20").result =
        "34 years" := by
  have hdynamic : isDynamic "age  of 1990-05-20" = false := by rfl
  have hage : AsksAge (canonical "age  of 1990-05-20".toList) (.midnight ⟨1990, 5, 20⟩) :=
    ⟨"1990-05-20", by decide, rfl⟩
  have hjanuary : ageInYears ⟨1990, 5, 20⟩ ⟨2024, 1, 15⟩ = .ok 33 := by rfl
  have hjune : ageInYears ⟨1990, 5, 20⟩ ⟨2024, 6, 1⟩ = .ok 34 := by rfl
  refine ⟨_, rfl, hdynamic, not_ignoresClock_of_asksForAge hdynamic ⟨_, hage⟩, ?_, ?_⟩
  · exact (@evaluate_of_age _ _ _ (.midnight ⟨2024, 1, 15⟩) hdynamic hage _ hjanuary).2
  · exact (@evaluate_of_age _ _ _ (.midnight ⟨2024, 6, 1⟩) hdynamic hage _ hjune).2

end Engine

end Reckoner
