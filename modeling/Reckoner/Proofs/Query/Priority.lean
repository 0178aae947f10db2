/-
  In which order the domains of a query are tried.

  * `Precedes`: a domain comes before another one;
  * `priority_of_classify`: the domain of a query is tried first;
  * `arithmetic_precedes`: **arithmetic is tried before every other domain that is neither the
    query's own nor drawn forward without a digit**;
  * `dateStems`, `of_dateCalculation`: a query about dates has a word of dates, or a date that
    starts with the year.
-/
import Mathlib.Data.List.Forall2
import Reckoner.Expression.Kind
import Reckoner.Proofs.Text.Covered
import Reckoner.Query.Classifier

namespace Reckoner.Query

open Text Pattern

/-! ## Orders -/

/-- Wherever the second domain stands, the first stands before it. -/
def Precedes (a b : Domain) (ds : List Domain) : Prop := ∀ xs ys, ds = xs ++ b :: ys → a ∈ xs

section
variable {a b d : Domain} {ds more : List Domain}

theorem Precedes.of_notMem (h : b ∉ ds) : Precedes a b ds := by
  rintro xs ys rfl
  exact absurd (List.mem_append_right xs List.mem_cons_self) h

theorem precedes_cons (hne : a ≠ b) : Precedes a b (a :: ds) := by
  intro xs ys hds
  cases xs with
  | nil => exact absurd (List.cons.inj hds).1 hne
  | cons x xs =>
    obtain ⟨rfl, -⟩ := List.cons.inj hds
    exact List.mem_cons_self

theorem Precedes.concat (h : Precedes a b ds) (hd : d = b → a ∈ ds) : Precedes a b (ds ++ [d]) := by
  intro xs ys hds
  rcases List.eq_nil_or_concat ys with rfl | ⟨zs, e, rfl⟩
  · obtain ⟨rfl, hd'⟩ := List.append_inj' hds rfl
    exact hd (List.cons.inj hd').1
  · rw [List.concat_eq_append, ← List.cons_append, ← List.append_assoc] at hds
    exact h xs zs (List.append_inj' hds rfl).1

/-- What is appended comes later, and in its own order. -/
theorem Precedes.addNew (h : Precedes a b ds) (hmore : a ∈ ds ∨ Precedes a b more) :
    Precedes a b (addNew ds more) := by
  induction more generalizing ds with
  | nil => exact h
  | cons d more ih =>
    -- `b` can only be next where `a` has come already
    have hnext : d = b → a ∈ ds := by
      rintro rfl
      exact hmore.resolve_right fun hprecedes => List.not_mem_nil (hprecedes [] more rfl)
    have hlater : a ∈ ds ∨ d = a ∨ Precedes a b more := by
      rcases hmore with hmem | hprecedes
      · exact .inl hmem
      · right
        by_cases hd : d = a
        · exact .inl hd
        · refine .inr fun xs ys hxs => ?_
          have hmem := hprecedes (d :: xs) ys (congrArg (List.cons d) hxs)
          exact List.mem_of_ne_of_mem (Ne.symm hd) hmem
    unfold Query.addNew at ih ⊢
    rw [List.foldl_cons]
    split_ifs with hcontains
    · refine ih h ?_
      rcases hlater with hmem | rfl | hprecedes
      · exact .inl hmem
      · exact .inl (List.contains_iff_mem.1 hcontains)
      · exact .inr hprecedes
    · refine ih (h.concat hnext) ?_
      rcases hlater with hmem | rfl | hprecedes
      · exact .inl (List.mem_append_left _ hmem)
      · exact .inl (List.mem_append_right ds List.mem_cons_self)
      · exact .inr hprecedes

theorem prefix_addNew (ds more : List Domain) : ds <+: addNew ds more := by
  unfold addNew
  induction more generalizing ds with
  | nil => exact List.prefix_refl ds
  | cons d more ih =>
    rw [List.foldl_cons]
    split_ifs
    · exact ih ds
    · exact (List.prefix_append ds [d]).trans (ih _)

end

/-! ## The domain of a query -/

theorem mem_of_firstBest {entries : List (Domain × Nat)} {best : Classification}
    (h : firstBest entries = some best) : (best.domain, best.confidence) ∈ entries := by
  induction entries generalizing best with
  | nil => cases h
  | cons entry entries ih =>
    rw [firstBest] at h
    split at h
    · next later hlater =>
      split_ifs at h
      · obtain rfl := Option.some.inj h
        exact List.mem_cons_of_mem _ (ih hlater)
      · obtain rfl := Option.some.inj h
        exact List.mem_cons_self
    · obtain rfl := Option.some.inj h
      exact List.mem_cons_self

/-- A score is the weight of a pattern that occurs. -/
theorem pattern_of_scores {q : String} {d : Domain} {w : Nat} (h : (d, w) ∈ scores q) :
    ∃ ps, (d, ps) ∈ patterns ∧ ∃ p, (p, w) ∈ ps ∧ p.occursIn (normalize q) = true := by
  obtain ⟨⟨d', ps⟩, hps, hbest⟩ := List.mem_filterMap.1 h
  obtain ⟨w', hw, heq⟩ := Option.map_eq_some_iff.1 hbest
  obtain ⟨rfl, rfl⟩ := Prod.mk.inj heq
  obtain ⟨⟨p, w⟩, hp, rfl⟩ := List.mem_map.1 (List.max?_mem hw)
  obtain ⟨hmem, hoccurs⟩ := List.mem_filter.1 hp
  exact ⟨ps, hps, p, hmem, hoccurs⟩

theorem weights_of_patterns : ∀ entry ∈ patterns, ∀ p ∈ entry.2, 50 ≤ p.2 := by
  decide

variable {q : String} {d : Domain}

/-- A query that is not unclear has the first best score, or else looks numeric. -/
theorem classify_cases (q : String) : classify q = .unclear ∨ classify q = ⟨.arithmetic, 50⟩ ∨
    firstBest (scores q) = some (classify q) := by
  unfold classify
  by_cases hblank : isBlankText q = true
  · rw [if_pos hblank]
    exact .inl rfl
  · rw [if_neg hblank]
    split
    · next best hbest => exact .inr (.inr hbest)
    · split_ifs
      · exact .inr (.inl rfl)
      · exact .inl rfl

/-- Whenever a domain is found, it is sure enough to be tried first. -/
theorem confidence_of_classify (hd : (classify q).domain ≠ .error) :
    50 ≤ (classify q).confidence := by
  rcases classify_cases q with hunclear | hnumeric | hbest
  · rw [hunclear] at hd
    exact absurd rfl hd
  · rw [hnumeric]
  · obtain ⟨ps, hps, p, hp, -⟩ := pattern_of_scores (mem_of_firstBest hbest)
    exact weights_of_patterns _ hps _ hp

/-- The domain of a query is tried first. -/
theorem priority_of_classify (hd : d ≠ .error) (h : (classify q).domain = d) :
    ∃ ds, priority q = d :: ds := by
  subst h
  unfold priority
  dsimp only
  rw [if_pos (confidence_of_classify hd)]
  obtain ⟨ds, hds⟩ := (prefix_addNew [(classify q).domain] (triggered q)).trans
    (prefix_addNew _ defaultOrder)
  exact ⟨ds, hds.symm⟩

/-- **Arithmetic is tried before a domain that is not the query's own**, unless the query draws
that domain forward and has no digit. -/
theorem arithmetic_precedes (hd : d ≠ .arithmetic) (hbest : (classify q).domain ≠ d)
    (htriggered : d ∈ triggered q → digit.occursIn (normalize q) = true) :
    Precedes .arithmetic d (priority q) := by
  have hfirst : Precedes .arithmetic d
      (if (classify q).confidence ≥ 50 then [(classify q).domain] else []) := by
    refine .of_notMem ?_
    split_ifs
    · exact fun hmem => hbest (List.mem_singleton.1 hmem).symm
    · exact List.not_mem_nil
  have hforward : Precedes .arithmetic d (triggered q) := by
    by_cases hmem : d ∈ triggered q
    · unfold triggered triggers
      rw [List.filter_cons, if_pos (htriggered hmem)]
      exact precedes_cons hd.symm
    · exact .of_notMem hmem
  exact (hfirst.addNew (.inr hforward)).addNew (.inr (precedes_cons hd.symm))

/-! ## What draws a domain forward -/

theorem trigger_of_mem (h : d ∈ triggered q) :
    ∃ p, (d, p) ∈ triggers ∧ p.occursIn (normalize q) = true := by
  obtain ⟨⟨d', p⟩, hmem, rfl⟩ := List.mem_map.1 h
  obtain ⟨hp, hoccurs⟩ := List.mem_filter.1 hmem
  exact ⟨p, hp, hoccurs⟩

/-- The words that draw logic forward. -/
def logicWords : List (List Char) :=
  ["and", "or", "not", "xor", "true", "false"].map String.toList

theorem of_logicTrigger (h : .logicEvaluation ∈ triggered q) :
    ∃ w ∈ logicWords, w <:+: normalize q := by
  obtain ⟨p, hp, hoccurs⟩ := trigger_of_mem h
  obtain rfl : p = word (anyText ["and", "or", "not", "xor", "true", "false"]) := by
    simpa [triggers] using hp
  refine Needs.exists_word (.word (.anyText fun s hs => ?_)) hoccurs
  exact ⟨s.toList, List.mem_map_of_mem hs, List.infix_refl _⟩

theorem occursIn_digit {cs : List Char} {c : Char} (hc : c ∈ cs) (hdigit : isDigit c = true) :
    digit.occursIn cs = true := by
  obtain ⟨pre, rest, rfl⟩ := List.append_of_mem hc
  exact occursIn_iff.2 ⟨pre, [c], rest, [], List.append_cons .., ⟨c, rfl, hdigit⟩, rfl⟩

/-! ## Patterns of dates -/

/-- A character that reads as a letter. -/
def Reads (d c : Char) : Prop := d = c ∨ (c = 's' ∧ d = 'ſ') ∨ (c = 'k' ∧ d = 'K')

theorem reads_of_fits {cs : List Char} {before : Option Char} {stretch rest : List Char}
    {groups : List (List Char)} (h : (chain (cs.map folded)).Fits before stretch rest groups) :
    List.Forall₂ Reads stretch cs := by
  induction cs generalizing before stretch groups with
  | nil =>
    obtain ⟨rfl, -⟩ := h
    exact .nil
  | cons c cs ih =>
    obtain ⟨_, s₂, _, _, _, rfl, ⟨⟨d, rfl, hd⟩, -⟩, h₂⟩ := fits_chain_split h
    refine .cons ?_ (ih h₂)
    simpa [Reads, or_assoc] using hd

/-- Letters that nothing else reads as stand in the text as they are. -/
theorem eq_of_reads {x w : List Char} (h : List.Forall₂ Reads x w)
    (hplain : ∀ c ∈ w, c ≠ 's' ∧ c ≠ 'k') : x = w := by
  induction h with
  | nil => rfl
  | cons hread _ ih =>
    obtain ⟨⟨hs, hk⟩, hplain⟩ := List.forall_mem_cons.1 hplain
    rw [ih hplain, hread.resolve_right (by simp [hs, hk])]

theorem needs_said {words : List (List Char)} {s : String} {w : List Char} (hw : w ∈ words)
    (hin : w <:+: s.toList) (hplain : ∀ c ∈ w, c ≠ 's' ∧ c ≠ 'k') : (said s).Needs words := by
  intro before stretch rest groups hfits
  have hreads := reads_of_fits hfits
  obtain ⟨a, b, hs⟩ := hin
  rw [← hs] at hreads
  have hmiddle := List.forall₂_drop_append _ _ _ (List.forall₂_take_append _ _ _ hreads)
  refine ⟨w, hw, ?_⟩
  rw [← eq_of_reads hmiddle hplain]
  exact (List.drop_suffix ..).isInfix.trans (List.take_prefix ..).isInfix

/-- What every text about dates has that has no date with the year first. -/
def dateStems : List (List Char) :=
  ["day", "wee", "month", "year", "tomorrow", "now"].map String.toList

theorem needs_dateStem {s : String} (h : ∃ w ∈ dateStems, w <:+: s.toList) :
    (said s).Needs dateStems := by
  have hstems : ∀ w ∈ dateStems, ∀ c ∈ w, c ≠ 's' ∧ c ≠ 'k' := by decide
  obtain ⟨w, hw, hin⟩ := h
  exact needs_said hw hin (hstems w hw)

theorem needs_anySaid {ss : List String} (h : ∀ s ∈ ss, ∃ w ∈ dateStems, w <:+: s.toList) :
    (anySaid ss).Needs dateStems := by
  refine .choice fun p hp => ?_
  obtain ⟨s, hs, rfl⟩ := List.mem_map.1 hp
  exact needs_dateStem (h s hs)

theorem needs_spans : spans.Needs dateStems := by
  have hspans : ∀ s ∈ ["day", "week", "month", "year"], ∃ w ∈ dateStems, w <:+: s.toList := by
    decide
  refine .choice fun p hp => ?_
  obtain ⟨s, hs, rfl⟩ := List.mem_map.1 hp
  exact .seq (needs_dateStem (hspans s hs))

/-- A date with the year first, in digits. -/
def IsDay (w : List Char) : Prop := ∃ y m d sign, w = y ++ ([sign] ++ (m ++ ([sign] ++ d))) ∧
  sign ∈ ['-', '/'] ∧ y.length = 4 ∧ (m.length = 1 ∨ m.length = 2) ∧
  (d.length = 1 ∨ d.length = 2) ∧ ∀ c ∈ y ++ m ++ d, isDigit c = true

theorem IsDay.ne_nil {w : List Char} (h : IsDay w) : w ≠ [] := by
  obtain ⟨y, m, d, sign, rfl, -⟩ := h
  simp

theorem IsDay.not_blank {w : List Char} (h : IsDay w) : ∀ c ∈ w, isBlank c = false := by
  obtain ⟨y, m, d, sign, rfl, hsign, -, -, -, hdigits⟩ := h
  have hsigns : ∀ c ∈ ['-', '/'], isBlank c = false := by decide
  have hblank := hsigns sign hsign
  simp only [List.forall_mem_append, List.forall_mem_singleton] at hdigits ⊢
  exact ⟨fun c hc => isBlank_of_digit (hdigits.1.1 c hc), hblank,
    fun c hc => isBlank_of_digit (hdigits.1.2 c hc), hblank,
    fun c hc => isBlank_of_digit (hdigits.2 c hc)⟩

theorem fits_oneOrTwo {before : Option Char} {stretch rest : List Char}
    {groups : List (List Char)} : oneOrTwo.Fits before stretch rest groups ↔
      (stretch.length = 1 ∨ stretch.length = 2) ∧ (∀ c ∈ stretch, isDigit c = true) ∧
        groups = [] := by
  constructor
  · rintro ⟨_, _, _, _, rfl, rfl, ⟨⟨c, rfl, hc⟩, rfl⟩, ⟨⟨d, rfl, hd⟩, rfl⟩ | ⟨rfl, rfl⟩⟩
    · exact ⟨.inr rfl, List.forall_mem_cons.2 ⟨hc, List.forall_mem_singleton.2 hd⟩, rfl⟩
    · exact ⟨.inl rfl, List.forall_mem_singleton.2 hc, rfl⟩
  · rintro ⟨hlength | hlength, hall, rfl⟩
    · obtain ⟨c, rfl⟩ := List.length_eq_one_iff.1 hlength
      have hc := List.forall_mem_singleton.1 hall
      exact ⟨[c], [], [], [], rfl, rfl, ⟨⟨c, rfl, hc⟩, rfl⟩, .inr ⟨rfl, rfl⟩⟩
    · obtain ⟨c, d, rfl⟩ := List.length_eq_two.1 hlength
      obtain ⟨hc, hd⟩ := List.forall_mem_cons.1 hall
      refine ⟨[c], [d], [], [], rfl, rfl, ⟨⟨c, rfl, hc⟩, rfl⟩, .inl ⟨⟨d, rfl, ?_⟩, rfl⟩⟩
      exact hd d List.mem_cons_self

theorem isDay_of_isoDate {before : Option Char} {stretch rest : List Char}
    {groups : List (List Char)} (h : isoDate.Fits before stretch rest groups) : IsDay stretch := by
  obtain ⟨y, _, _, _, rfl, -, hyear, _, _, _, _, rfl, -, hsign, m, _, _, _, rfl, -, hmonth, _, d, _, _,
    rfl, -, hsign', hday⟩ := h
  obtain ⟨rfl, -⟩ := fits_char.1 hsign
  obtain ⟨rfl, -⟩ := fits_char.1 hsign'
  obtain ⟨hy, hys, -⟩ := fits_times.1 hyear
  obtain ⟨hm, hms, -⟩ := fits_times.1 hmonth
  obtain ⟨hd, hds, -⟩ := fits_times.1 hday
  refine ⟨y, m, d, '-', rfl, by decide, hy, .inr hm, .inr hd, ?_⟩
  simp only [List.forall_mem_append]
  exact ⟨⟨hys, hms⟩, hds⟩

/-- A query about dates has a date with the year first or a word of dates. -/
theorem of_dateCalculation (h : (classify q).domain = .dateCalculation) :
    (∃ w, IsDay w ∧ w <:+: normalize q) ∨ ∃ w ∈ dateStems, w <:+: normalize q := by
  rcases classify_cases q with hunclear | hnumeric | hbest
  · rw [hunclear] at h
    cases h
  · rw [hnumeric] at h
    cases h
  have hscore := mem_of_firstBest hbest
  rw [h] at hscore
  obtain ⟨ps, hps, p, hp, hoccurs⟩ := pattern_of_scores hscore
  obtain rfl : ps = datePatterns := by simpa [patterns] using hps
  have hneeds : p.Needs dateStems → (∃ w, IsDay w ∧ w <:+: normalize q) ∨
      ∃ w ∈ dateStems, w <:+: normalize q := fun hneeds => .inr (hneeds.exists_word hoccurs)
  simp only [datePatterns, List.mem_cons, Prod.mk.injEq, List.not_mem_nil, or_false] at hp
  rcases hp with ⟨rfl, -⟩ | ⟨rfl, -⟩ | ⟨rfl, -⟩ | ⟨rfl, -⟩ | ⟨rfl, -⟩ | ⟨rfl, -⟩ | ⟨rfl, -⟩ | ⟨rfl, -⟩
  · obtain ⟨pre, stretch, rest, _, hcs, hfits⟩ := occursIn_iff.1 hoccurs
    exact .inl ⟨stretch, isDay_of_isoDate hfits, pre, rest, hcs.symm⟩
  · obtain ⟨pre, _, rest, _, hcs, hfits⟩ := occursIn_iff.1 hoccurs
    obtain ⟨rfl, y, _, _, _, rfl, -, hyear, _, _, _, _, rfl, -, hsign, m, _, _, _, rfl, -, hmonth, _, _,
      _, _, rfl, -, hsign', ⟨d, rfl, hday⟩, -⟩ := fits_start_then hfits
    obtain ⟨rfl, -⟩ := fits_char.1 hsign
    obtain ⟨rfl, -⟩ := fits_char.1 hsign'
    obtain ⟨hy, hys, -⟩ := fits_times.1 hyear
    obtain ⟨hm, hms, -⟩ := fits_oneOrTwo.1 hmonth
    refine .inl ⟨_, ⟨y, m, [d], '/', rfl, by decide, hy, hm, .inl rfl, ?_⟩, [], rest, hcs.symm⟩
    simp only [List.forall_mem_append]
    exact ⟨⟨hys, hms⟩, List.forall_mem_singleton.2 hday⟩
  · exact hneeds (.chain (by simp) needs_spans)
  · exact hneeds (.chain (by simp) needs_spans)
  · exact hneeds (.chain (by simp) needs_spans)
  · exact hneeds (.chain (by simp) needs_spans)
  · exact hneeds (.word (needs_anySaid (by decide +kernel)))
  · have hwords : (anySaid ["week", "month", "year"]).Needs dateStems := needs_anySaid (by decide)
    exact hneeds (.chain (by simp) hwords)

/-- What draws dates forward is a digit or a word of dates. -/
theorem of_dateTrigger (h : .dateCalculation ∈ triggered q) :
    digit.occursIn (normalize q) = true ∨ ∃ w ∈ dateStems, w <:+: normalize q := by
  obtain ⟨p, hp, hoccurs⟩ := trigger_of_mem h
  obtain rfl : p = alt isoDate (anyText ["today", "tomorrow", "yesterday", "day", "week", "month",
      "year"]) := by
    simpa [triggers] using hp
  obtain ⟨pre, stretch, rest, groups, hcs, hfits | hfits⟩ := occursIn_iff.1 hoccurs
  · obtain ⟨y, m, d, sign, rfl, -, hy, -, -, hdigits⟩ := isDay_of_isoDate hfits
    obtain ⟨c, y, rfl⟩ := List.exists_cons_of_length_eq_add_one hy
    left
    refine occursIn_digit ?_ (hdigits c (by simp))
    rw [hcs]
    simp
  · right
    have hwords : ∀ s ∈ ["today", "tomorrow", "yesterday", "day", "week", "month", "year"],
        ∃ w ∈ dateStems, w <:+: s.toList := by
      decide +kernel
    obtain ⟨w, hw, hin⟩ := Needs.anyText hwords _ _ _ _ hfits
    exact ⟨w, hw, hin.trans ⟨pre, rest, hcs.symm⟩⟩

end Reckoner.Query
