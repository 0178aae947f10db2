/-
  The two forms of a request for a conversion.

  * `IsNumber`: digits with a point or without one, and a minus sign before them or none;
  * `IsExplicit`: a number, a name, `to` or `in`, and another name;
  * `IsCompact`: a number and two words;
  * `explicit_occursIn_iff`, `compact_occursIn_iff`: the patterns find the texts of these forms;
  * `groups?_cases`: **the parts that are remembered are those of the form**.
-/
import Reckoner.Proofs.Text.Pattern
import Reckoner.Units.Request

namespace Reckoner.Units

open Text Pattern Request

/-! ## Numbers -/

/-- Digits, with a point before, between or after them. -/
inductive IsMagnitude : List Char → Prop
  | whole {ds} : ds ≠ [] → (∀ d ∈ ds, isDigit d = true) → IsMagnitude ds
  | point {ds fs} : ds ≠ [] ∨ fs ≠ [] → (∀ d ∈ ds, isDigit d = true) →
      (∀ f ∈ fs, isDigit f = true) → IsMagnitude (ds ++ '.' :: fs)

/-- A magnitude, with a minus sign before it or none. -/
def IsNumber (p : List Char) : Prop :=
  ∃ sign digits, p = sign ++ digits ∧ (sign = [] ∨ sign = ['-']) ∧ IsMagnitude digits

theorem fits_maybe {c : Char} {before : Option Char} {stretch rest : List Char}
    {groups : List (List Char)} : (maybe c).Fits before stretch rest groups ↔
      (stretch = [] ∨ stretch = [c]) ∧ groups = [] := by
  constructor
  · rintro (h | ⟨rfl, rfl⟩)
    · obtain ⟨rfl, rfl⟩ := fits_char.1 h
      exact ⟨.inr rfl, rfl⟩
    · exact ⟨.inl rfl, rfl⟩
  · rintro ⟨rfl | rfl, rfl⟩
    · exact .inr ⟨rfl, rfl⟩
    · exact .inl (fits_char.2 ⟨rfl, rfl⟩)

/-- What the part of a numeral after its sign takes. -/
theorem fits_magnitude {before : Option Char} {stretch rest : List Char}
    {groups : List (List Char)} :
    (choice [chain [digits, optional (chain [char '.', many isDigit])],
      chain [char '.', digits]]).Fits before stretch rest groups ↔
        IsMagnitude stretch ∧ groups = [] := by
  constructor
  · rintro (⟨ds, _, _, _, rfl, rfl, hds, htail⟩ | ⟨_, fs, _, _, rfl, rfl, hpoint, hfs⟩)
    · obtain ⟨hne, hdigits, rfl⟩ := fits_some.1 hds
      rcases htail with ⟨_, fs, _, _, rfl, rfl, hpoint, hfs, rfl⟩ | ⟨rfl, rfl⟩
      · obtain ⟨rfl, rfl⟩ := fits_char.1 hpoint
        exact ⟨.point (.inl hne) hdigits hfs, rfl⟩
      · rw [List.append_nil]
        exact ⟨.whole hne hdigits, rfl⟩
    · obtain ⟨rfl, rfl⟩ := fits_char.1 hpoint
      obtain ⟨hne, hdigits, rfl⟩ := fits_some.1 hfs
      exact ⟨@IsMagnitude.point [] fs (.inr hne) nofun hdigits, rfl⟩
  · rintro ⟨hdigits, rfl⟩
    cases hdigits with
    | whole hne hds =>
      exact .inl ⟨stretch, [], [], [], (List.append_nil _).symm, rfl,
        fits_some.2 ⟨hne, hds, rfl⟩, .inr ⟨rfl, rfl⟩⟩
    | @point ds fs hne hds hfs =>
      by_cases hempty : ds = []
      · subst hempty
        exact .inr ⟨['.'], fs, [], [], rfl, rfl, fits_char.2 ⟨rfl, rfl⟩,
          fits_some.2 ⟨hne.resolve_left (not_not_intro rfl), hfs, rfl⟩⟩
      · exact .inl ⟨ds, '.' :: fs, [], [], rfl, rfl, fits_some.2 ⟨hempty, hds, rfl⟩,
          .inl ⟨['.'], fs, [], [], rfl, rfl, fits_char.2 ⟨rfl, rfl⟩, hfs, rfl⟩⟩

theorem fits_numeral {before : Option Char} {stretch rest : List Char}
    {groups : List (List Char)} : numeral.Fits before stretch rest groups ↔
      IsNumber stretch ∧ groups = [] := by
  constructor
  · rintro ⟨sign, digits, _, _, rfl, rfl, hsign, hrest⟩
    obtain ⟨hminus, rfl⟩ := fits_maybe.1 hsign
    obtain ⟨hdigits, rfl⟩ := fits_magnitude.1 hrest
    exact ⟨⟨sign, digits, rfl, hminus, hdigits⟩, rfl⟩
  · rintro ⟨⟨sign, digits, rfl, hsign, hdigits⟩, rfl⟩
    exact ⟨sign, digits, [], [], rfl, rfl, fits_maybe.2 ⟨hsign, rfl⟩,
      fits_magnitude.2 ⟨hdigits, rfl⟩⟩

/-! ## Names -/

/-- What starts with a character of units, and has only these and spaces. -/
def IsPhrase (p : List Char) : Prop :=
  ∃ c cs, p = c :: cs ∧ isUnitChar c = true ∧ ∀ d ∈ cs, isUnitPhraseChar d = true

/-- What has only characters of units. -/
def IsUnitWord (p : List Char) : Prop := p ≠ [] ∧ ∀ c ∈ p, isUnitChar c = true

theorem isUnitPhraseChar_of_unit {c : Char} (h : isUnitChar c = true) :
    isUnitPhraseChar c = true := by
  rw [isUnitPhraseChar, h, Bool.true_or]

theorem IsPhrase.forall_mem {p : List Char} (h : IsPhrase p) :
    ∀ c ∈ p, isUnitPhraseChar c = true := by
  obtain ⟨c, cs, rfl, hc, hcs⟩ := h
  exact List.forall_mem_cons.2 ⟨isUnitPhraseChar_of_unit hc, hcs⟩

theorem fits_phrase {run : Pattern}
    (hrun : run = few isUnitPhraseChar ∨ run = many isUnitPhraseChar)
    {before : Option Char} {stretch rest : List Char} {groups : List (List Char)} :
    (chain [one isUnitChar, run]).Fits before stretch rest groups ↔
      IsPhrase stretch ∧ groups = [] := by
  have hrun : ∀ before stretch groups, run.Fits before stretch rest groups ↔
      (∀ c ∈ stretch, isUnitPhraseChar c = true) ∧ groups = [] := by
    rcases hrun with rfl | rfl <;> exact fun _ _ _ => Iff.rfl
  constructor
  · rintro ⟨_, cs, _, _, rfl, rfl, ⟨⟨c, rfl, hc⟩, rfl⟩, hcs⟩
    obtain ⟨hphrase, rfl⟩ := (hrun _ _ _).1 hcs
    exact ⟨⟨c, cs, rfl, hc, hphrase⟩, rfl⟩
  · rintro ⟨⟨c, cs, rfl, hc, hcs⟩, rfl⟩
    exact ⟨[c], cs, [], [], rfl, rfl, ⟨⟨c, rfl, hc⟩, rfl⟩, (hrun _ _ _).2 ⟨hcs, rfl⟩⟩

/-! ## Forms -/

/-- The text is a number, a name, `to` or `in`, and another name. -/
def IsExplicit (cs amount source target : List Char) : Prop :=
  ∃ bs₁ bs₂ bs₃, ∃ link ∈ ["to", "in"],
    cs = amount ++ bs₁ ++ source ++ bs₂ ++ link.toList ++ bs₃ ++ target ∧
      (∀ b ∈ bs₁ ++ bs₂ ++ bs₃, isBlank b = true) ∧ bs₂ ≠ [] ∧ bs₃ ≠ [] ∧
      IsNumber amount ∧ IsPhrase source ∧ IsPhrase target

/-- The text is a number and two words. -/
def IsCompact (cs amount source target : List Char) : Prop :=
  ∃ bs₁ bs₂, cs = amount ++ bs₁ ++ source ++ bs₂ ++ target ∧
    (∀ b ∈ bs₁ ++ bs₂, isBlank b = true) ∧ bs₂ ≠ [] ∧
    IsNumber amount ∧ IsUnitWord source ∧ IsUnitWord target

section
variable {cs pre stretch rest : List Char} {groups : List (List Char)}

theorem isExplicit_of_fits (h : explicit.Fits pre.getLast? stretch rest groups) :
    pre = [] ∧ rest = [] ∧ ∃ amount source target, groups = [amount, source, target] ∧
      IsExplicit stretch amount source target := by
  obtain ⟨rfl, h₁⟩ := fits_start_then h
  obtain ⟨amount, _, _, rfl, rfl, hamount, h₂⟩ := fits_group_then rfl h₁
  obtain ⟨bs₁, _, rfl, hbs₁, h₃⟩ := fits_gap_then h₂
  obtain ⟨source, _, _, rfl, rfl, hsource, h₄⟩ := fits_group_then rfl h₃
  obtain ⟨bs₂, _, rfl, hne₂, hbs₂, h₅⟩ := fits_blanks_then h₄
  obtain ⟨_, _, _, _, rfl, rfl, hlink, h₆⟩ := h₅
  obtain ⟨⟨link, hmem, rfl⟩, rfl⟩ := fits_anyText.1 hlink
  obtain ⟨bs₃, target, rfl, hne₃, hbs₃, h₇⟩ := fits_blanks_then h₆
  obtain ⟨rfl, rfl, htarget⟩ := fits_group_finish rfl h₇
  refine ⟨rfl, rfl, amount, source, target, rfl, bs₁, bs₂, bs₃, link, hmem, by simp, ?_, hne₂,
    hne₃, (fits_numeral.1 hamount).1, ((fits_phrase (.inl rfl)).1 hsource).1,
    ((fits_phrase (.inr rfl)).1 htarget).1⟩
  simp only [List.forall_mem_append]
  exact ⟨⟨hbs₁, hbs₂⟩, hbs₃⟩

theorem isCompact_of_fits (h : compact.Fits pre.getLast? stretch rest groups) :
    pre = [] ∧ rest = [] ∧ ∃ amount source target, groups = [amount, source, target] ∧
      IsCompact stretch amount source target := by
  obtain ⟨rfl, h₁⟩ := fits_start_then h
  obtain ⟨amount, _, _, rfl, rfl, hamount, h₂⟩ := fits_group_then rfl h₁
  obtain ⟨bs₁, _, rfl, hbs₁, h₃⟩ := fits_gap_then h₂
  obtain ⟨source, _, _, rfl, rfl, hsource, h₄⟩ := fits_group_then rfl h₃
  obtain ⟨bs₂, target, rfl, hne₂, hbs₂, h₅⟩ := fits_blanks_then h₄
  obtain ⟨rfl, rfl, htarget⟩ := fits_group_finish rfl h₅
  obtain ⟨hne, hsourceChars, -⟩ := fits_some.1 hsource
  obtain ⟨hne', htargetChars, -⟩ := fits_some.1 htarget
  refine ⟨rfl, rfl, amount, source, target, rfl, bs₁, bs₂, by simp, ?_, hne₂,
    (fits_numeral.1 hamount).1, ⟨hne, hsourceChars⟩, ⟨hne', htargetChars⟩⟩
  simp only [List.forall_mem_append]
  exact ⟨hbs₁, hbs₂⟩

theorem IsExplicit.fits {amount source target : List Char}
    (h : IsExplicit cs amount source target) :
    explicit.Fits none cs [] [amount, source, target] := by
  obtain ⟨bs₁, bs₂, bs₃, link, hlink, rfl, hblank, hne₂, hne₃, hamount, hsource, htarget⟩ := h
  simp only [List.forall_mem_append] at hblank
  simp only [List.append_assoc]
  exact ⟨[], _, [], _, rfl, rfl, ⟨rfl, rfl, rfl⟩,
    amount, _, [amount], _, rfl, rfl, ⟨[], rfl, fits_numeral.2 ⟨hamount, rfl⟩⟩,
    bs₁, _, [], _, rfl, rfl, ⟨hblank.1.1, rfl⟩,
    source, _, [source], _, rfl, rfl, ⟨[], rfl, (fits_phrase (.inl rfl)).2 ⟨hsource, rfl⟩⟩,
    bs₂, _, [], _, rfl, rfl, fits_some.2 ⟨hne₂, hblank.1.2, rfl⟩,
    link.toList, _, [], _, rfl, rfl, fits_anyText.2 ⟨⟨link, hlink, rfl⟩, rfl⟩,
    bs₃, _, [], _, rfl, rfl, fits_some.2 ⟨hne₃, hblank.2, rfl⟩,
    target, [], [target], [], (List.append_nil _).symm, rfl,
    ⟨[], rfl, (fits_phrase (.inr rfl)).2 ⟨htarget, rfl⟩⟩, rfl, rfl, rfl⟩

theorem IsCompact.fits {amount source target : List Char}
    (h : IsCompact cs amount source target) :
    compact.Fits none cs [] [amount, source, target] := by
  obtain ⟨bs₁, bs₂, rfl, hblank, hne₂, hamount, hsource, htarget⟩ := h
  simp only [List.forall_mem_append] at hblank
  simp only [List.append_assoc]
  exact ⟨[], _, [], _, rfl, rfl, ⟨rfl, rfl, rfl⟩,
    amount, _, [amount], _, rfl, rfl, ⟨[], rfl, fits_numeral.2 ⟨hamount, rfl⟩⟩,
    bs₁, _, [], _, rfl, rfl, ⟨hblank.1, rfl⟩,
    source, _, [source], _, rfl, rfl, ⟨[], rfl, fits_some.2 ⟨hsource.1, hsource.2, rfl⟩⟩,
    bs₂, _, [], _, rfl, rfl, fits_some.2 ⟨hne₂, hblank.2, rfl⟩,
    target, [], [target], [], (List.append_nil _).symm, rfl,
    ⟨[], rfl, fits_some.2 ⟨htarget.1, htarget.2, rfl⟩⟩, rfl, rfl, rfl⟩

/-- The first pattern finds the texts of the first form. -/
theorem explicit_occursIn_iff : explicit.occursIn cs = true ↔
    ∃ amount source target, IsExplicit cs amount source target := by
  constructor
  · intro h
    obtain ⟨pre, stretch, rest, groups, rfl, hfits⟩ := occursIn_iff.1 h
    obtain ⟨rfl, rfl, amount, source, target, -, hform⟩ := isExplicit_of_fits hfits
    exact ⟨amount, source, target, by simpa using hform⟩
  · rintro ⟨amount, source, target, h⟩
    exact occursIn_iff.2 ⟨[], cs, [], _, by simp, h.fits⟩

/-- The second pattern finds the texts of the second form. -/
theorem compact_occursIn_iff : compact.occursIn cs = true ↔
    ∃ amount source target, IsCompact cs amount source target := by
  constructor
  · intro h
    obtain ⟨pre, stretch, rest, groups, rfl, hfits⟩ := occursIn_iff.1 h
    obtain ⟨rfl, rfl, amount, source, target, -, hform⟩ := isCompact_of_fits hfits
    exact ⟨amount, source, target, by simpa using hform⟩
  · rintro ⟨amount, source, target, h⟩
    exact occursIn_iff.2 ⟨[], cs, [], _, by simp, h.fits⟩

/-- **The parts that are remembered are those of the form**; the first form goes first. -/
theorem groups?_cases (h : Request.groups? cs = some groups) :
    ∃ amount source target, groups = [amount, source, target] ∧
      (explicit.occursIn cs = true ∧ IsExplicit cs amount source target ∨
        explicit.occursIn cs = false ∧ IsCompact cs amount source target) := by
  unfold Request.groups? at h
  split at h
  · next groups' hgroups =>
    obtain rfl := Option.some.inj h
    obtain ⟨pre, stretch, rest, hcs, hfits⟩ := groups?_eq_some hgroups
    obtain ⟨rfl, rfl, amount, source, target, rfl, hform⟩ := isExplicit_of_fits hfits
    obtain rfl : cs = stretch := by simpa using hcs
    exact ⟨amount, source, target, rfl,
      .inl ⟨explicit_occursIn_iff.2 ⟨amount, source, target, hform⟩, hform⟩⟩
  · next hnone =>
    obtain ⟨pre, stretch, rest, hcs, hfits⟩ := groups?_eq_some h
    obtain ⟨rfl, rfl, amount, source, target, rfl, hform⟩ := isCompact_of_fits hfits
    obtain rfl : cs = stretch := by simpa using hcs
    refine ⟨amount, source, target, rfl, .inr ⟨?_, hform⟩⟩
    rw [occursIn, Option.isSome_eq_false_iff, Option.isNone_iff_eq_none]
    exact Option.map_eq_none_iff.1 hnone

end

end Reckoner.Units
