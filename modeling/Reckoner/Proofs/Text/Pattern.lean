/-
  What patterns mean.

  * `Pattern.Fits`: a stretch of text fits a pattern, given what stands before and after it;
  * `mem_readings`: the readings of a pattern are the stretches that fit it;
  * `occursIn_iff`, `groups?_eq_some`: **a pattern occurs in a text where some stretch fits
    it**, and the parts remembered are those of such a stretch;
  * `fits_text`, `fits_anyText`, `fits_some`: what fits the common shapes;
  * `fits_text_then`, `fits_blanks_then`, `fits_group_then`: a chain taken apart link by link;
  * `Fits.forall_mem`, `Needs`: the characters that a pattern takes, and the words that it does
    not do without.
-/
import Mathlib.Tactic.Common
import Reckoner.Text.Pattern

namespace Reckoner.Text

/-- The character before the place where a stretch ends. -/
def lastOf (before : Option Char) (stretch : List Char) : Option Char :=
  stretch.getLast?.or before

@[simp] theorem lastOf_none (stretch : List Char) : lastOf none stretch = stretch.getLast? :=
  Option.or_none

theorem lastOf_cons (before : Option Char) (c : Char) (cs : List Char) :
    lastOf before (c :: cs) = lastOf (some c) cs := by
  rw [lastOf, lastOf, List.getLast?_cons]
  cases cs.getLast? <;> rfl

theorem lastOf_append (before : Option Char) (xs ys : List Char) :
    lastOf before (xs ++ ys) = lastOf (lastOf before xs) ys := by
  rw [lastOf, lastOf, lastOf, List.getLast?_append, Option.or_assoc]

namespace Pattern

/-! ## Stretches that fit -/

/-- The stretch fits the pattern between `before` and `rest`, with the parts to remember. -/
def Fits : Pattern → Option Char → List Char → List Char → List (List Char) → Prop
  | nothing, _, stretch, _, groups => stretch = [] ∧ groups = []
  | one has, _, stretch, _, groups => (∃ c, stretch = [c] ∧ has c = true) ∧ groups = []
  | many has, _, stretch, _, groups => (∀ c ∈ stretch, has c = true) ∧ groups = []
  | few has, _, stretch, _, groups => (∀ c ∈ stretch, has c = true) ∧ groups = []
  | seq p q, before, stretch, rest, groups => ∃ s₁ s₂ g₁ g₂,
      stretch = s₁ ++ s₂ ∧ groups = g₁ ++ g₂ ∧ p.Fits before s₁ (s₂ ++ rest) g₁ ∧
        q.Fits (lastOf before s₁) s₂ rest g₂
  | alt p q, before, stretch, rest, groups =>
    p.Fits before stretch rest groups ∨ q.Fits before stretch rest groups
  | group p, before, stretch, rest, groups =>
    ∃ g, groups = stretch :: g ∧ p.Fits before stretch rest g
  | start, before, stretch, _, groups => stretch = [] ∧ before = none ∧ groups = []
  | finish, _, stretch, rest, groups => stretch = [] ∧ rest = [] ∧ groups = []
  | boundary, before, stretch, rest, groups =>
    stretch = [] ∧ (Place.mk before rest).isBoundary = true ∧ groups = []

theorem mem_reach {has : Char → Bool} {r : Reading} {before : Option Char} {cs : List Char} :
    r ∈ reach has before cs ↔ ∃ stretch, cs = stretch ++ r.place.rest ∧
      r.place.before = lastOf before stretch ∧ (∀ c ∈ stretch, has c = true) ∧
      r.groups = [] := by
  obtain ⟨⟨before', rest⟩, groups⟩ := r
  induction cs generalizing before with
  | nil =>
    simp only [reach, List.mem_singleton, Reading.mk.injEq, Place.mk.injEq]
    constructor
    · rintro ⟨⟨rfl, rfl⟩, rfl⟩
      exact ⟨[], rfl, rfl, nofun, rfl⟩
    · rintro ⟨stretch, hcs, hbefore, -, hgroups⟩
      obtain ⟨rfl, rfl⟩ := List.append_eq_nil_iff.1 hcs.symm
      exact ⟨⟨hbefore, rfl⟩, hgroups⟩
  | cons c cs ih =>
    simp only [reach, List.mem_cons, Reading.mk.injEq, Place.mk.injEq]
    constructor
    · rintro (⟨⟨rfl, rfl⟩, rfl⟩ | h)
      · exact ⟨[], rfl, rfl, nofun, rfl⟩
      · split_ifs at h with hc
        · obtain ⟨stretch, rfl, hbefore, hall, hgroups⟩ := ih.1 h
          refine ⟨c :: stretch, rfl, ?_, List.forall_mem_cons.2 ⟨hc, hall⟩, hgroups⟩
          rw [lastOf_cons]
          exact hbefore
        · exact absurd h List.not_mem_nil
    · rintro ⟨stretch, hcs, hbefore, hall, hgroups⟩
      cases stretch with
      | nil => exact .inl ⟨⟨hbefore, hcs.symm⟩, hgroups⟩
      | cons d stretch =>
        obtain ⟨rfl, rfl⟩ := List.cons.inj hcs
        obtain ⟨hc, hall⟩ := List.forall_mem_cons.1 hall
        rw [lastOf_cons] at hbefore
        rw [if_pos hc]
        exact .inr (ih.2 ⟨stretch, rfl, hbefore, hall, hgroups⟩)

theorem mem_here {P : Prop} [Decidable P] {r : Reading} {at_ : Place} :
    r ∈ (if P then [⟨at_, []⟩] else [] : List Reading) ↔ P ∧ r.place = at_ ∧ r.groups = [] := by
  obtain ⟨place, groups⟩ := r
  by_cases hP : P <;> simp [hP]

/-- A condition on the place is read where it holds, on a stretch without characters. -/
theorem mem_readings_condition (holds : Place → Bool) {r : Reading} {before : Option Char}
    {cs : List Char} :
    r ∈ (if holds ⟨before, cs⟩ then [⟨⟨before, cs⟩, []⟩] else [] : List Reading) ↔
      ∃ stretch, cs = stretch ++ r.place.rest ∧ r.place.before = lastOf before stretch ∧
        stretch = [] ∧ holds ⟨before, r.place.rest⟩ = true ∧ r.groups = [] := by
  obtain ⟨⟨before', rest⟩, groups⟩ := r
  rw [mem_here, Place.mk.injEq]
  constructor
  · rintro ⟨hholds, ⟨rfl, rfl⟩, hgroups⟩
    exact ⟨[], rfl, rfl, rfl, hholds, hgroups⟩
  · rintro ⟨_, hcs, hbefore, rfl, hholds, hgroups⟩
    obtain rfl : cs = rest := hcs
    exact ⟨hholds, ⟨hbefore, rfl⟩, hgroups⟩

/-- **The readings of a pattern are the stretches that fit it.** -/
theorem mem_readings {p : Pattern} {r : Reading} {before : Option Char} {cs : List Char} :
    r ∈ p.readings ⟨before, cs⟩ ↔ ∃ stretch, cs = stretch ++ r.place.rest ∧
      r.place.before = lastOf before stretch ∧
      p.Fits before stretch r.place.rest r.groups := by
  induction p generalizing r before cs with
  | nothing =>
    obtain ⟨⟨before', rest⟩, groups⟩ := r
    simp only [readings, List.mem_singleton, Reading.mk.injEq, Place.mk.injEq, Fits]
    constructor
    · rintro ⟨⟨rfl, rfl⟩, rfl⟩
      exact ⟨[], rfl, rfl, rfl, rfl⟩
    · rintro ⟨_, hcs, hbefore, rfl, hgroups⟩
      exact ⟨⟨hbefore, hcs.symm⟩, hgroups⟩
  | one has =>
    obtain ⟨⟨before', rest⟩, groups⟩ := r
    cases cs with
    | nil =>
      simp only [readings, List.not_mem_nil, Fits, false_iff]
      rintro ⟨_, hcs, -, ⟨c, rfl, -⟩, -⟩
      exact absurd hcs.symm (List.cons_ne_nil c rest)
    | cons c cs =>
      simp only [readings, Fits, mem_here, Place.mk.injEq]
      constructor
      · rintro ⟨hc, ⟨rfl, rfl⟩, rfl⟩
        exact ⟨[c], rfl, rfl, ⟨c, rfl, hc⟩, rfl⟩
      · rintro ⟨_, hcs, hbefore, ⟨d, rfl, hd⟩, hgroups⟩
        obtain ⟨rfl, rfl⟩ := List.cons.inj hcs
        exact ⟨hd, ⟨hbefore, rfl⟩, hgroups⟩
  | many has =>
    simp only [readings, List.mem_reverse]
    exact mem_reach
  | few has => exact mem_reach
  | seq p q ihp ihq =>
    simp only [readings, List.mem_flatMap, List.mem_map]
    constructor
    · rintro ⟨r₁, h₁, r₂, h₂, rfl⟩
      obtain ⟨⟨before₁, rest₁⟩, groups₁⟩ := r₁
      obtain ⟨s₁, rfl, rfl, hfits₁⟩ := ihp.1 h₁
      obtain ⟨s₂, rfl, hbefore, hfits₂⟩ := ihq.1 h₂
      refine ⟨s₁ ++ s₂, (List.append_assoc ..).symm, ?_, s₁, s₂, _, _, rfl, rfl, hfits₁, hfits₂⟩
      rw [lastOf_append]
      exact hbefore
    · obtain ⟨⟨before', rest⟩, groups⟩ := r
      rintro ⟨_, rfl, hbefore, s₁, s₂, g₁, g₂, rfl, rfl, hfits₁, hfits₂⟩
      rw [lastOf_append] at hbefore
      refine ⟨⟨⟨lastOf before s₁, s₂ ++ rest⟩, g₁⟩, ihp.2 ⟨s₁, ?_, rfl, hfits₁⟩,
        ⟨⟨before', rest⟩, g₂⟩, ihq.2 ⟨s₂, rfl, hbefore, hfits₂⟩, rfl⟩
      exact List.append_assoc ..
  | alt p q ihp ihq =>
    simp only [readings, List.mem_append, ihp, ihq, Fits]
    constructor
    · rintro (⟨s, hcs, hbefore, h⟩ | ⟨s, hcs, hbefore, h⟩)
      · exact ⟨s, hcs, hbefore, .inl h⟩
      · exact ⟨s, hcs, hbefore, .inr h⟩
    · rintro ⟨s, hcs, hbefore, h | h⟩
      · exact .inl ⟨s, hcs, hbefore, h⟩
      · exact .inr ⟨s, hcs, hbefore, h⟩
  | group p ih =>
    simp only [readings, List.mem_map]
    constructor
    · rintro ⟨r', h, rfl⟩
      obtain ⟨s, rfl, hbefore, hfits⟩ := ih.1 h
      refine ⟨s, rfl, hbefore, _, ?_, hfits⟩
      simp [Place.upTo]
    · obtain ⟨place, groups⟩ := r
      rintro ⟨s, rfl, hbefore, g, rfl, hfits⟩
      refine ⟨⟨place, g⟩, ih.2 ⟨s, rfl, hbefore, hfits⟩, ?_⟩
      simp [Place.upTo]
  | start =>
    rw [readings, mem_readings_condition fun p => p.before.isNone]
    simp only [Fits, Option.isNone_iff_eq_none]
  | finish =>
    rw [readings, mem_readings_condition fun p => p.rest.isEmpty]
    simp only [Fits, List.isEmpty_iff]
  | boundary =>
    rw [readings, mem_readings_condition Place.isBoundary]
    simp only [Fits]

/-! ## Occurrences -/

theorem searchFrom_eq_some {p : Pattern} {before : Option Char} {cs : List Char} {r : Reading}
    (h : p.searchFrom before cs = some r) :
    ∃ pre stretch, cs = pre ++ stretch ++ r.place.rest ∧
      p.Fits (lastOf before pre) stretch r.place.rest r.groups := by
  induction cs generalizing before with
  | nil =>
    have hr : r ∈ p.readings ⟨before, []⟩ := List.mem_of_mem_head? h
    obtain ⟨stretch, hcs, -, hfits⟩ := mem_readings.1 hr
    exact ⟨[], stretch, hcs, hfits⟩
  | cons c cs ih =>
    unfold searchFrom at h
    split at h
    · next r' rs hreadings =>
      obtain rfl : r' = r := Option.some.inj h
      have hr : r' ∈ p.readings ⟨before, c :: cs⟩ := hreadings ▸ List.mem_cons_self
      obtain ⟨stretch, hcs, -, hfits⟩ := mem_readings.1 hr
      exact ⟨[], stretch, hcs, hfits⟩
    · obtain ⟨pre, stretch, rfl, hfits⟩ := ih h
      refine ⟨c :: pre, stretch, rfl, ?_⟩
      rwa [lastOf_cons]

theorem searchFrom_isSome {p : Pattern} {before : Option Char} {pre stretch rest : List Char}
    {groups : List (List Char)} (h : p.Fits (lastOf before pre) stretch rest groups) :
    (p.searchFrom before (pre ++ stretch ++ rest)).isSome = true := by
  induction pre generalizing before with
  | nil =>
    have hr : (⟨⟨lastOf before stretch, rest⟩, groups⟩ : Reading) ∈
        p.readings ⟨before, stretch ++ rest⟩ := mem_readings.2 ⟨stretch, rfl, rfl, h⟩
    obtain ⟨r, rs, hreadings⟩ := List.exists_cons_of_ne_nil (List.ne_nil_of_mem hr)
    rw [List.nil_append]
    cases hcs : stretch ++ rest with
    | nil => rw [hcs] at hreadings; simp [searchFrom, hreadings]
    | cons c cs => rw [hcs] at hreadings; simp [searchFrom, hreadings]
  | cons c pre ih =>
    rw [lastOf_cons] at h
    have hlater := ih h
    simp only [List.cons_append, searchFrom]
    split
    · rfl
    · exact hlater

/-- **A pattern occurs in a text where some stretch fits it.** -/
theorem occursIn_iff {p : Pattern} {cs : List Char} :
    p.occursIn cs = true ↔ ∃ pre stretch rest groups,
      cs = pre ++ stretch ++ rest ∧ p.Fits pre.getLast? stretch rest groups := by
  constructor
  · intro h
    obtain ⟨r, hr⟩ := Option.isSome_iff_exists.1 h
    obtain ⟨pre, stretch, hcs, hfits⟩ := searchFrom_eq_some hr
    rw [lastOf_none] at hfits
    exact ⟨pre, stretch, _, _, hcs, hfits⟩
  · rintro ⟨pre, stretch, rest, groups, rfl, hfits⟩
    rw [← lastOf_none] at hfits
    exact searchFrom_isSome hfits

/-- The parts remembered are those of a stretch that fits. -/
theorem groups?_eq_some {p : Pattern} {cs : List Char} {groups : List (List Char)}
    (h : p.groups? cs = some groups) : ∃ pre stretch rest,
      cs = pre ++ stretch ++ rest ∧ p.Fits pre.getLast? stretch rest groups := by
  obtain ⟨r, hr, rfl⟩ := Option.map_eq_some_iff.1 h
  obtain ⟨pre, stretch, hcs, hfits⟩ := searchFrom_eq_some hr
  rw [lastOf_none] at hfits
  exact ⟨pre, stretch, _, hcs, hfits⟩

/-- A text that fits as a whole has parts. -/
theorem groups?_of_fits {p : Pattern} {cs : List Char} {groups : List (List Char)}
    (h : p.Fits none cs [] groups) : ∃ groups', p.groups? cs = some groups' := by
  have hfound : (p.searchFrom none ([] ++ cs ++ [])).isSome = true := searchFrom_isSome h
  rw [List.nil_append, List.append_nil] at hfound
  obtain ⟨r, hr⟩ := Option.isSome_iff_exists.1 hfound
  exact ⟨r.groups, Option.map_eq_some_iff.2 ⟨r, hr, rfl⟩⟩

/-! ## Common shapes -/

section
variable {before : Option Char} {stretch rest : List Char} {groups : List (List Char)}

theorem fits_chain_cons {p q : Pattern} {ps : List Pattern} :
    (chain (p :: q :: ps)).Fits before stretch rest groups ↔
      (seq p (chain (q :: ps))).Fits before stretch rest groups := Iff.rfl

theorem fits_char {c : Char} :
    (char c).Fits before stretch rest groups ↔ stretch = [c] ∧ groups = [] := by
  simp [char, Fits]

theorem fits_chars {cs : List Char} :
    (chain (cs.map char)).Fits before stretch rest groups ↔ stretch = cs ∧ groups = [] := by
  induction cs generalizing before stretch groups with
  | nil => exact Iff.rfl
  | cons c cs ih =>
    cases cs with
    | nil => exact fits_char
    | cons d cs =>
      rw [List.map_cons, List.map_cons, fits_chain_cons, ← List.map_cons]
      constructor
      · rintro ⟨_, _, _, _, rfl, rfl, hc, hcs⟩
        obtain ⟨rfl, rfl⟩ := fits_char.1 hc
        obtain ⟨rfl, rfl⟩ := ih.1 hcs
        exact ⟨rfl, rfl⟩
      · rintro ⟨rfl, rfl⟩
        exact ⟨[c], d :: cs, [], [], rfl, rfl, fits_char.2 ⟨rfl, rfl⟩, ih.2 ⟨rfl, rfl⟩⟩

theorem fits_text {s : String} :
    (text s).Fits before stretch rest groups ↔ stretch = s.toList ∧ groups = [] := fits_chars

theorem fits_choice {p : Pattern} {ps : List Pattern} :
    (choice (p :: ps)).Fits before stretch rest groups ↔
      ∃ q ∈ p :: ps, q.Fits before stretch rest groups := by
  induction ps generalizing p with
  | nil => simp [choice]
  | cons q ps ih =>
    simp only [choice, Fits, ih]
    simp

theorem fits_anyText {s : String} {ss : List String} :
    (anyText (s :: ss)).Fits before stretch rest groups ↔
      (∃ t ∈ s :: ss, stretch = t.toList) ∧ groups = [] := by
  unfold anyText
  rw [List.map_cons, fits_choice, ← List.map_cons]
  constructor
  · rintro ⟨_, hp, hfits⟩
    obtain ⟨t, ht, rfl⟩ := List.mem_map.1 hp
    obtain ⟨hstretch, hgroups⟩ := fits_text.1 hfits
    exact ⟨⟨t, ht, hstretch⟩, hgroups⟩
  · rintro ⟨⟨t, ht, hstretch⟩, hgroups⟩
    exact ⟨_, List.mem_map_of_mem ht, fits_text.2 ⟨hstretch, hgroups⟩⟩

theorem fits_some {has : Char → Bool} :
    (some_ has).Fits before stretch rest groups ↔
      stretch ≠ [] ∧ (∀ c ∈ stretch, has c = true) ∧ groups = [] := by
  simp only [some_, Fits]
  constructor
  · rintro ⟨_, s₂, _, _, rfl, rfl, ⟨⟨c, rfl, hc⟩, rfl⟩, hall, rfl⟩
    exact ⟨List.cons_ne_nil _ _, List.forall_mem_cons.2 ⟨hc, hall⟩, rfl⟩
  · rintro ⟨hne, hall, rfl⟩
    obtain ⟨c, cs, rfl⟩ := List.exists_cons_of_ne_nil hne
    obtain ⟨hc, hall⟩ := List.forall_mem_cons.1 hall
    exact ⟨[c], cs, [], [], rfl, rfl, ⟨⟨c, rfl, hc⟩, rfl⟩, hall, rfl⟩

end

theorem fits_times {has : Char → Bool} {n : Nat} {before : Option Char}
    {stretch rest : List Char} {groups : List (List Char)} :
    (times has n).Fits before stretch rest groups ↔
      stretch.length = n ∧ (∀ c ∈ stretch, has c = true) ∧ groups = [] := by
  induction n generalizing before stretch groups with
  | zero =>
    rw [List.length_eq_zero_iff]
    constructor
    · rintro ⟨rfl, rfl⟩
      exact ⟨rfl, nofun, rfl⟩
    · rintro ⟨rfl, -, rfl⟩
      exact ⟨rfl, rfl⟩
  | succ n ih =>
    constructor
    · rintro ⟨_, s₂, _, _, rfl, rfl, ⟨⟨c, rfl, hc⟩, rfl⟩, h⟩
      obtain ⟨rfl, hall, rfl⟩ := ih.1 h
      exact ⟨rfl, List.forall_mem_cons.2 ⟨hc, hall⟩, rfl⟩
    · rintro ⟨hlength, hall, rfl⟩
      obtain ⟨c, cs, rfl⟩ := List.exists_cons_of_length_eq_add_one hlength
      obtain ⟨hc, hall⟩ := List.forall_mem_cons.1 hall
      exact ⟨[c], cs, [], [], rfl, rfl, ⟨⟨c, rfl, hc⟩, rfl⟩,
        ih.2 ⟨Nat.succ.inj hlength, hall, rfl⟩⟩

/-- The pattern remembers nothing. -/
def isPlain : Pattern → Bool
  | group _ => false
  | seq p q | alt p q => p.isPlain && q.isPlain
  | _ => true

theorem Fits.groups_of_plain {p : Pattern} (h : p.isPlain = true) {before : Option Char}
    {stretch rest : List Char} {groups : List (List Char)}
    (hfits : p.Fits before stretch rest groups) : groups = [] := by
  induction p generalizing before stretch rest groups with
  | nothing => exact hfits.2
  | one has => exact hfits.2
  | many has => exact hfits.2
  | few has => exact hfits.2
  | seq p q ihp ihq =>
    obtain ⟨hp, hq⟩ := Bool.and_eq_true_iff.1 h
    obtain ⟨_, _, _, _, -, rfl, hfits₁, hfits₂⟩ := hfits
    rw [ihp hp hfits₁, ihq hq hfits₂, List.append_nil]
  | alt p q ihp ihq =>
    obtain ⟨hp, hq⟩ := Bool.and_eq_true_iff.1 h
    rcases hfits with hfits | hfits
    · exact ihp hp hfits
    · exact ihq hq hfits
  | group p => exact Bool.noConfusion h
  | start => exact hfits.2.2
  | finish => exact hfits.2.2
  | boundary => exact hfits.2.2

/-! ## Chains, link by link -/

section
variable {before : Option Char} {stretch rest : List Char} {groups : List (List Char)}
  {p : Pattern} {ps : List Pattern}

theorem fits_start_then {pre : List Char}
    (h : (chain (start :: p :: ps)).Fits pre.getLast? stretch rest groups) :
    pre = [] ∧ (chain (p :: ps)).Fits none stretch rest groups := by
  obtain ⟨_, _, _, _, rfl, rfl, ⟨rfl, hpre, rfl⟩, hfits⟩ := h
  obtain rfl := List.getLast?_eq_none_iff.1 hpre
  exact ⟨rfl, hfits⟩

theorem fits_text_then {s : String}
    (h : (chain (text s :: p :: ps)).Fits before stretch rest groups) :
    ∃ tail, stretch = s.toList ++ tail ∧
      (chain (p :: ps)).Fits (lastOf before s.toList) tail rest groups := by
  obtain ⟨_, tail, _, _, rfl, rfl, htext, hfits⟩ := h
  obtain ⟨rfl, rfl⟩ := fits_text.1 htext
  exact ⟨tail, rfl, hfits⟩

theorem fits_blanks_then (h : (chain (blanks :: p :: ps)).Fits before stretch rest groups) :
    ∃ bs tail, stretch = bs ++ tail ∧ bs ≠ [] ∧ (∀ b ∈ bs, isBlank b = true) ∧
      (chain (p :: ps)).Fits (lastOf before bs) tail rest groups := by
  obtain ⟨bs, tail, _, _, rfl, rfl, hblanks, hfits⟩ := h
  obtain ⟨hne, hbs, rfl⟩ := fits_some.1 hblanks
  exact ⟨bs, tail, rfl, hne, hbs, hfits⟩

theorem fits_gap_then (h : (chain (gap :: p :: ps)).Fits before stretch rest groups) :
    ∃ bs tail, stretch = bs ++ tail ∧ (∀ b ∈ bs, isBlank b = true) ∧
      (chain (p :: ps)).Fits (lastOf before bs) tail rest groups := by
  obtain ⟨bs, tail, _, _, rfl, rfl, ⟨hbs, rfl⟩, hfits⟩ := h
  exact ⟨bs, tail, rfl, hbs, hfits⟩

theorem fits_group_then {q : Pattern} (hq : q.isPlain = true)
    (h : (chain (group q :: p :: ps)).Fits before stretch rest groups) :
    ∃ part tail more, stretch = part ++ tail ∧ groups = part :: more ∧
      q.Fits before part (tail ++ rest) [] ∧
      (chain (p :: ps)).Fits (lastOf before part) tail rest more := by
  obtain ⟨part, tail, _, more, rfl, rfl, ⟨g, rfl, hpart⟩, hfits⟩ := h
  obtain rfl := Fits.groups_of_plain hq hpart
  exact ⟨part, tail, more, rfl, rfl, hpart, hfits⟩

/-- A part up to the end of the text. -/
theorem fits_group_finish {q : Pattern} (hq : q.isPlain = true)
    (h : (chain [group q, finish]).Fits before stretch rest groups) :
    rest = [] ∧ groups = [stretch] ∧ q.Fits before stretch [] [] := by
  obtain ⟨part, _, _, rfl, rfl, hpart, rfl, rfl, rfl⟩ := fits_group_then hq h
  rw [List.append_nil]
  exact ⟨rfl, rfl, hpart⟩

end

/-- What ends with the end of the text has nothing after it. -/
theorem rest_of_finish (ps : List Pattern) {before : Option Char} {stretch rest : List Char}
    {groups : List (List Char)} (h : (chain (ps ++ [finish])).Fits before stretch rest groups) :
    rest = [] := by
  induction ps generalizing before stretch groups with
  | nil => exact h.2.1
  | cons p ps ih =>
    obtain ⟨q, qs, hqs⟩ := List.exists_cons_of_ne_nil (List.append_ne_nil_of_right_ne_nil ps
      (List.cons_ne_nil finish []))
    rw [List.cons_append, hqs] at h
    obtain ⟨_, _, _, _, -, -, -, hfits⟩ := h
    rw [← hqs] at hfits
    exact ih hfits

/-! ## Characters -/

/-- All classes of the pattern have characters of one kind only. -/
def Only (P : Char → Prop) : Pattern → Prop
  | one has | many has | few has => ∀ c, has c = true → P c
  | seq p q | alt p q => p.Only P ∧ q.Only P
  | group p => p.Only P
  | _ => True

theorem Fits.forall_mem {P : Char → Prop} {p : Pattern} (hp : p.Only P) {before : Option Char}
    {stretch rest : List Char} {groups : List (List Char)}
    (h : p.Fits before stretch rest groups) : ∀ c ∈ stretch, P c := by
  induction p generalizing before stretch rest groups with
  | one has =>
    obtain ⟨⟨c, rfl, hc⟩, -⟩ := h
    exact List.forall_mem_singleton.2 (hp c hc)
  | many has => exact fun c hc => hp c (h.1 c hc)
  | few has => exact fun c hc => hp c (h.1 c hc)
  | seq p q ihp ihq =>
    obtain ⟨_, _, _, _, rfl, -, h₁, h₂⟩ := h
    rw [List.forall_mem_append]
    exact ⟨ihp hp.1 h₁, ihq hp.2 h₂⟩
  | alt p q ihp ihq =>
    rcases h with h | h
    · exact ihp hp.1 h
    · exact ihq hp.2 h
  | group p ih =>
    obtain ⟨_, -, h⟩ := h
    exact ih hp h
  | nothing => exact h.1 ▸ nofun
  | start => exact h.1 ▸ nofun
  | finish => exact h.1 ▸ nofun
  | boundary => exact h.1 ▸ nofun

/-! ## Words that a pattern needs -/

/-- Whatever fits the pattern holds one of the words. -/
def Needs (words : List (List Char)) (p : Pattern) : Prop :=
  ∀ before stretch rest groups, p.Fits before stretch rest groups → ∃ w ∈ words, w <:+: stretch

/-- A chain is its first link and the others. -/
theorem fits_chain_split {p : Pattern} {ps : List Pattern} {before : Option Char}
    {stretch rest : List Char} {groups : List (List Char)}
    (h : (chain (p :: ps)).Fits before stretch rest groups) :
    ∃ s₁ s₂ g₁ g₂ before₂, stretch = s₁ ++ s₂ ∧ p.Fits before s₁ (s₂ ++ rest) g₁ ∧
      (chain ps).Fits before₂ s₂ rest g₂ := by
  cases ps with
  | nil => exact ⟨stretch, [], groups, [], none, (List.append_nil stretch).symm, h, rfl, rfl⟩
  | cons q ps =>
    obtain ⟨s₁, s₂, g₁, g₂, hstretch, -, h₁, h₂⟩ := h
    exact ⟨s₁, s₂, g₁, g₂, _, hstretch, h₁, h₂⟩

namespace Needs

variable {words : List (List Char)} {p q : Pattern}

theorem chain {ps : List Pattern} (hp : p ∈ ps) (h : p.Needs words) :
    (Pattern.chain ps).Needs words := by
  intro before stretch rest groups hfits
  induction ps generalizing before stretch rest groups with
  | nil => exact absurd hp List.not_mem_nil
  | cons q ps ih =>
    obtain ⟨s₁, s₂, _, _, _, rfl, h₁, h₂⟩ := fits_chain_split hfits
    rcases List.mem_cons.1 hp with rfl | hp
    · obtain ⟨w, hw, hinfix⟩ := h _ _ _ _ h₁
      exact ⟨w, hw, hinfix.trans (List.prefix_append s₁ s₂).isInfix⟩
    · obtain ⟨w, hw, hinfix⟩ := ih hp _ _ _ _ h₂
      exact ⟨w, hw, hinfix.trans (List.suffix_append s₁ s₂).isInfix⟩

theorem seq (h : p.Needs words) : (Pattern.seq p q).Needs words :=
  @chain words p [p, q] List.mem_cons_self h

theorem seq_right (h : q.Needs words) : (Pattern.seq p q).Needs words :=
  @chain words q [p, q] (by simp) h

theorem alt (hp : p.Needs words) (hq : q.Needs words) : (Pattern.alt p q).Needs words := by
  rintro before stretch rest groups (h | h)
  · exact hp _ _ _ _ h
  · exact hq _ _ _ _ h

theorem group (h : p.Needs words) : (Pattern.group p).Needs words := by
  rintro before stretch rest groups ⟨g, -, hfits⟩
  exact h _ _ _ _ hfits

theorem choice {ps : List Pattern} (h : ∀ p ∈ ps, p.Needs words) :
    (Pattern.choice ps).Needs words := by
  intro before stretch rest groups hfits
  cases ps with
  | nil =>
    obtain ⟨⟨c, -, hc⟩, -⟩ := hfits
    exact absurd hc Bool.false_ne_true
  | cons p ps =>
    obtain ⟨q, hq, hfits⟩ := fits_choice.1 hfits
    exact h q hq _ _ _ _ hfits

theorem one {has : Char → Bool} (h : ∀ c, has c = true → [c] ∈ words) :
    (Pattern.one has).Needs words := by
  rintro before stretch rest groups ⟨⟨c, rfl, hc⟩, -⟩
  exact ⟨[c], h c hc, List.infix_refl _⟩

theorem text {s : String} (h : ∃ w ∈ words, w <:+: s.toList) : (Pattern.text s).Needs words := by
  intro before stretch rest groups hfits
  obtain ⟨rfl, -⟩ := fits_text.1 hfits
  exact h

theorem anyText {ss : List String} (h : ∀ s ∈ ss, ∃ w ∈ words, w <:+: s.toList) :
    (Pattern.anyText ss).Needs words := by
  refine choice fun p hp => ?_
  obtain ⟨s, hs, rfl⟩ := List.mem_map.1 hp
  exact text (h s hs)

theorem word (h : p.Needs words) : (Pattern.word p).Needs words :=
  @chain words p [boundary, p, boundary] (by simp) h

/-- Where the pattern occurs, one of the words does. -/
theorem exists_word (h : p.Needs words) {cs : List Char} (hoccurs : p.occursIn cs = true) :
    ∃ w ∈ words, w <:+: cs := by
  obtain ⟨pre, stretch, rest, groups, rfl, hfits⟩ := occursIn_iff.1 hoccurs
  obtain ⟨w, hw, hinfix⟩ := h _ _ _ _ hfits
  exact ⟨w, hw, hinfix.trans ⟨pre, rest, rfl⟩⟩

end Needs

/-! ## Stretches without characters -/

/-- A stretch without characters may fit the pattern. -/
def isNullable : Pattern → Bool
  | one _ => false
  | seq p q => p.isNullable && q.isNullable
  | alt p q => p.isNullable || q.isNullable
  | group p => p.isNullable
  | _ => true

theorem Fits.isNullable {p : Pattern} {before : Option Char} {rest : List Char}
    {groups : List (List Char)} (h : p.Fits before [] rest groups) : p.isNullable = true := by
  induction p generalizing before rest groups with
  | nothing => rfl
  | one has =>
    obtain ⟨⟨c, hc, -⟩, -⟩ := h
    exact absurd hc.symm (List.cons_ne_nil c [])
  | many has => rfl
  | few has => rfl
  | seq p q ihp ihq =>
    obtain ⟨_, _, _, _, hstretch, -, hp, hq⟩ := h
    obtain ⟨rfl, rfl⟩ := List.append_eq_nil_iff.1 hstretch.symm
    exact Bool.and_eq_true_iff.2 ⟨ihp hp, ihq hq⟩
  | alt p q ihp ihq =>
    rcases h with h | h
    · exact Bool.or_eq_true_iff.2 (.inl (ihp h))
    · exact Bool.or_eq_true_iff.2 (.inr (ihq h))
  | group p ih =>
    obtain ⟨_, -, h⟩ := h
    exact ih h
  | start => rfl
  | finish => rfl
  | boundary => rfl

end Pattern

end Reckoner.Text
