/-
  What a request for a conversion is made of.

  * `unitWords`: the names of the units of a quantity;
  * `Asks`: a text is an amount, the name of a unit, `to` or `in` unless it is left out, and the
    name of another unit of the same quantity;
  * `asks_of_evaluate`: **a text that is converted is such a request**;
  * `Asks.chars`, `Asks.infix_of_letters`: what signs it has, and where its letters stand.
-/
import Reckoner.Proofs.Success
import Reckoner.Proofs.Text.Covered
import Reckoner.Proofs.Units.Forms
import Reckoner.Units

namespace Reckoner.Units

open Text Pattern Request

/-- The names of the units of a quantity. -/
def unitWords (d : Dimension) : List (List Char) :=
  (d.rows.flatMap (·.names)).map String.toList

/-- Digits and points, with a minus sign before them or none. -/
def IsAmount (p : List Char) : Prop :=
  ∃ sign digits, p = sign ++ digits ∧ (sign = [] ∨ sign = ['-']) ∧ digits ≠ [] ∧
    ∀ c ∈ digits, isDigit c = true ∨ c = '.'

/-- The words between the units, if there is one. -/
def links : List (List Char) := ["to".toList, "in".toList, []]

/-- The text is an amount, the name of a unit, a link, and the name of another unit. -/
def Asks (cs source link target : List Char) : Prop :=
  ∃ amount bs₁ bs₂ bs₃ bs₄,
    cs = amount ++ bs₁ ++ source ++ bs₂ ++ link ++ bs₃ ++ target ++ bs₄ ∧ IsAmount amount ∧
      (∀ b ∈ bs₁ ++ bs₂ ++ bs₃ ++ bs₄, isBlank b = true) ∧ bs₃ ≠ [] ∧ (link = [] ∨ bs₂ ≠ []) ∧
      ∀ c ∈ source ++ link ++ target, isUnitPhraseChar c = true

theorem Asks.unit_chars {cs source link target : List Char} (h : Asks cs source link target) :
    ∀ c ∈ source ++ link ++ target, isUnitPhraseChar c = true := by
  obtain ⟨_, _, _, _, _, -, -, -, -, -, hchars⟩ := h
  exact hchars

/-! ## The parts of a request -/

theorem IsNumber.isAmount {p : List Char} (h : IsNumber p) : IsAmount p := by
  obtain ⟨sign, digits, rfl, hsign, hdigits⟩ := h
  refine ⟨sign, digits, rfl, hsign, ?_⟩
  cases hdigits with
  | whole hne hds => exact ⟨hne, fun c hc => .inl (hds c hc)⟩
  | point hne hds hfs =>
    refine ⟨by simp, ?_⟩
    rw [List.forall_mem_append, List.forall_mem_cons]
    exact ⟨fun c hc => .inl (hds c hc), .inr rfl, fun c hc => .inl (hfs c hc)⟩

/-- An amount has no letters. -/
theorem IsAmount.no_letters {p : List Char} (h : IsAmount p) :
    ∀ c ∈ p, isAsciiLower c = false := by
  obtain ⟨sign, digits, rfl, hsign, -, hdigits⟩ := h
  rw [List.forall_mem_append]
  constructor
  · rcases hsign with rfl | rfl
    · exact nofun
    · exact List.forall_mem_singleton.2 rfl
  · intro c hc
    rcases hdigits c hc with hdigit | rfl
    · rw [Bool.eq_false_iff]
      exact fun hc => Bool.false_ne_true ((isDigit_of_lower hc).symm.trans hdigit)
    · rfl

theorem IsAmount.not_blank {p : List Char} (h : IsAmount p) : ∀ c ∈ p, isBlank c = false := by
  obtain ⟨sign, digits, rfl, hsign, -, hdigits⟩ := h
  rw [List.forall_mem_append]
  constructor
  · rcases hsign with rfl | rfl
    · exact nofun
    · exact List.forall_mem_singleton.2 rfl
  · intro c hc
    rcases hdigits c hc with hdigit | rfl
    · exact isBlank_of_digit hdigit
    · rfl

theorem isDigit_of_unitPhraseChar {c : Char} (h : isUnitPhraseChar c = true) :
    isDigit c = false := by
  simp only [isUnitPhraseChar, isUnitChar, Bool.or_eq_true, beq_iff_eq] at h
  rcases h with (((h | rfl) | rfl) | rfl) | rfl
  · exact isDigit_of_lower h
  · decide
  · decide
  · rfl
  · rfl

theorem Asks.trim {cs source link target : List Char} (h : Asks cs source link target) :
    Asks cs (trim source) link (trim target) := by
  obtain ⟨amount, bs₁, bs₂, bs₃, bs₄, rfl, hamount, hblank, hne, hlink, hchars⟩ := h
  obtain ⟨lead, trail, hsource, hlead, htrail⟩ := exists_trim source
  obtain ⟨lead', trail', htarget, hlead', htrail'⟩ := exists_trim target
  simp only [List.forall_mem_append] at hblank hchars
  obtain ⟨⟨⟨hbs₁, hbs₂⟩, hbs₃⟩, hbs₄⟩ := hblank
  obtain ⟨⟨hsourceChars, hlinkChars⟩, htargetChars⟩ := hchars
  rw [hsource] at hsourceChars
  rw [htarget] at htargetChars
  simp only [List.forall_mem_append] at hsourceChars htargetChars
  refine ⟨amount, bs₁ ++ lead, trail ++ bs₂, bs₃ ++ lead', trail' ++ bs₄, ?_, hamount, ?_, ?_, ?_,
    ?_⟩
  · nth_rewrite 1 [hsource, htarget]
    simp
  · simp only [List.forall_mem_append]
    exact ⟨⟨⟨⟨hbs₁, hlead⟩, htrail, hbs₂⟩, hbs₃, hlead'⟩, htrail', hbs₄⟩
  · simp [hne]
  · exact hlink.imp_right fun h => by simp [h]
  · simp only [List.forall_mem_append]
    exact ⟨⟨hsourceChars.1.2, hlinkChars⟩, htargetChars.1.2⟩

theorem IsExplicit.asks {cs amount source target : List Char}
    (h : IsExplicit cs amount source target) :
    ∃ link ∈ ["to", "in"], Asks cs source link.toList target := by
  obtain ⟨bs₁, bs₂, bs₃, link, hlink, rfl, hblank, hne₂, hne₃, hamount, hsource, htarget⟩ := h
  have hchars : ∀ t ∈ ["to", "in"], ∀ c ∈ t.toList, isUnitPhraseChar c = true := by decide
  refine ⟨link, hlink, amount, bs₁, bs₂, bs₃, [], by simp, hamount.isAmount, by simpa using hblank,
    hne₃, .inr hne₂, ?_⟩
  simp only [List.forall_mem_append]
  exact ⟨⟨hsource.forall_mem, hchars link hlink⟩, htarget.forall_mem⟩

theorem IsCompact.asks {cs amount source target : List Char}
    (h : IsCompact cs amount source target) : Asks cs source [] target := by
  obtain ⟨bs₁, bs₂, rfl, hblank, hne₂, hamount, hsource, htarget⟩ := h
  refine ⟨amount, bs₁, [], bs₂, [], by simp, hamount.isAmount, by simpa using hblank, hne₂,
    .inl rfl, ?_⟩
  simp only [List.append_nil, List.forall_mem_append]
  exact ⟨fun c hc => isUnitPhraseChar_of_unit (hsource.2 c hc),
    fun c hc => isUnitPhraseChar_of_unit (htarget.2 c hc)⟩

/-- The parts that are remembered are those of a request. -/
theorem asks_of_groups {cs amount source target : List Char}
    (h : Request.groups? cs = some [amount, source, target]) :
    ∃ link ∈ links, Asks cs source link target := by
  obtain ⟨_, _, _, heq, hform⟩ := groups?_cases h
  obtain ⟨rfl, rfl, rfl⟩ : _ ∧ _ ∧ _ := by simpa using heq
  have hlinks : ∀ t ∈ ["to", "in"], t.toList ∈ links := by decide
  rcases hform with ⟨-, hform⟩ | ⟨-, hform⟩
  · obtain ⟨link, hlink, hasks⟩ := hform.asks
    exact ⟨_, hlinks link hlink, hasks⟩
  · exact ⟨[], by decide, hform.asks⟩

/-! ## Names -/

theorem isKept_of_unitPhraseChar {c : Char} (h : isUnitPhraseChar c = true) : IsKept c := by
  simp only [isUnitPhraseChar, isUnitChar, Bool.or_eq_true, beq_iff_eq] at h
  rcases h with (((h | rfl) | rfl) | rfl) | rfl
  · exact isKept_of_lower h
  · exact ⟨by decide, by decide⟩
  · exact ⟨by decide, by decide⟩
  · exact isKept_of_ascii (by decide) (by decide)
  · exact isKept_of_ascii (by decide) (by decide)

theorem mem_unitWords {d : Dimension} {name : String} {row : UnitRow}
    (h : d.find? name = some row) : name.toList ∈ unitWords d := by
  unfold Dimension.find? at h
  have hname := List.find?_some h
  refine List.mem_map_of_mem (List.mem_flatMap.2 ⟨row, List.mem_of_find?_eq_some h, ?_⟩)
  exact List.contains_iff_mem.1 hname

/-- A name in a request is that of a unit as it stands, since it has no capitals. -/
theorem nameKey_trim {source : List Char} (h : ∀ c ∈ trim source, isUnitPhraseChar c = true) :
    (nameKey (String.ofList (trim source))).toList = trim source := by
  have hkept : ∀ c ∈ trim source, IsKept c := fun c hc => isKept_of_unitPhraseChar (h c hc)
  rw [nameKey, String.toList_ofList, String.toList_ofList, trim_trim, lower_of_kept hkept]

theorem common_of_convert {value : Float} {source target : String} {x : Float × UnitRow}
    (h : convert value source target = .ok x) :
    ∃ d ∈ Dimension.all, (nameKey source).toList ∈ unitWords d ∧
      (nameKey target).toList ∈ unitWords d := by
  unfold convert at h
  split at h
  · next d s t hcommon =>
    obtain ⟨d', hd, hfound⟩ := List.exists_of_findSome?_eq_some hcommon
    split at hfound
    · next hs ht => exact ⟨d', hd, mem_unitWords hs, mem_unitWords ht⟩
    · cases hfound
  · split at h
    · split at h <;> cases h
    · cases h

/-- A text that is converted has a number and the names of two units of one quantity. -/
theorem request_of_evaluate {settings : Settings} {q : String}
    (h : (evaluate settings q).isError = false) :
    ∃ amount source target value,
      Request.groups? (canonical q.toList) = some [amount, source, target] ∧
        Decimal.readFloat? amount = some value ∧
        ∃ d ∈ Dimension.all, trim source ∈ unitWords d ∧ trim target ∈ unitWords d := by
  simp only [evaluate] at h
  obtain ⟨a, h, -⟩ := ok_of_not_isError h
  unfold answer? at h
  split at h
  · cases h
  · obtain ⟨request, hrequest, h⟩ := ok_of_bind h
    obtain ⟨x, hx, -⟩ := ok_of_bind h
    obtain ⟨d, hd, hsource, htarget⟩ := common_of_convert hx
    unfold Request.read at hrequest
    rw [canonical_trimmed] at hrequest
    split at hrequest
    · next amount source target hgroups =>
      obtain ⟨link, -, hasks⟩ := asks_of_groups hgroups
      have hchars := hasks.trim.unit_chars
      simp only [List.forall_mem_append] at hchars
      split at hrequest
      · next value hvalue =>
        obtain rfl := Except.ok.inj hrequest
        rw [nameKey_trim hchars.1.1] at hsource
        rw [nameKey_trim hchars.2] at htarget
        exact ⟨amount, source, target, value, hgroups, hvalue, d, hd, hsource, htarget⟩
      · cases hrequest
    · cases hrequest

/-- **A text that is converted asks for a conversion between units of one quantity.** -/
theorem asks_of_evaluate {settings : Settings} {q : String}
    (h : (evaluate settings q).isError = false) :
    ∃ d ∈ Dimension.all, ∃ source ∈ unitWords d, ∃ target ∈ unitWords d, ∃ link ∈ links,
      Asks (canonical q.toList) source link target := by
  obtain ⟨amount, source, target, value, hgroups, -, d, hd, hsource, htarget⟩ :=
    request_of_evaluate h
  obtain ⟨link, hlink, hasks⟩ := asks_of_groups hgroups
  exact ⟨d, hd, _, hsource, _, htarget, link, hlink, hasks.trim⟩

/-! ## Letters and signs of a request -/

namespace Asks

variable {cs source link target : List Char} (h : Asks cs source link target)
include h

/-- All that is not blank is a digit, a point, a minus sign or part of a name. -/
theorem chars : ∀ c ∈ cs, isBlank c = false →
    isDigit c = true ∨ c = '.' ∨ c = '-' ∨ isUnitChar c = true := by
  obtain ⟨_, bs₁, bs₂, bs₃, bs₄, rfl, ⟨sign, digits, rfl, hsign, -, hdigits⟩, hblank, -, -,
    hchars⟩ := h
  simp only [List.forall_mem_append] at hblank
  obtain ⟨⟨⟨hbs₁, hbs₂⟩, hbs₃⟩, hbs₄⟩ := hblank
  intro c hc hnot
  have hout : ∀ bs : List Char, (∀ b ∈ bs, isBlank b = true) → c ∉ bs :=
    fun bs hbs hmem => Bool.false_ne_true (hnot.symm.trans (hbs c hmem))
  have hunit : c ∈ source ++ link ++ target → isUnitChar c = true := by
    intro hmem
    have hphrase := hchars c hmem
    rw [isUnitPhraseChar, Bool.or_eq_true, beq_iff_eq] at hphrase
    rcases hphrase with hunit | rfl
    · exact hunit
    · exact absurd hnot (by decide)
  simp only [List.mem_append, hout bs₁ hbs₁, hout bs₂ hbs₂, hout bs₃ hbs₃, hout bs₄ hbs₄,
    or_false] at hc hunit
  rcases hc with (((hc | hc) | hc) | hc) | hc
  · rcases hsign with rfl | rfl
    · exact absurd hc List.not_mem_nil
    · exact .inr (.inr (.inl (List.mem_singleton.1 hc)))
  · rcases hdigits c hc with hdigit | hpoint
    · exact .inl hdigit
    · exact .inr (.inl hpoint)
  · exact .inr (.inr (.inr (hunit (.inl (.inl hc)))))
  · exact .inr (.inr (.inr (hunit (.inl (.inr hc)))))
  · exact .inr (.inr (.inr (hunit (.inr hc))))

theorem kept : ∀ c ∈ cs, IsKept c := by
  intro c hc
  cases hblank : isBlank c with
  | true => exact isKept_of_blank hblank
  | false =>
    rcases h.chars c hc hblank with hdigit | rfl | rfl | hunit
    · exact isKept_of_digit hdigit
    · exact isKept_of_ascii (by decide) (by decide)
    · exact isKept_of_ascii (by decide) (by decide)
    · exact isKept_of_unitPhraseChar (isUnitPhraseChar_of_unit hunit)

/-- After the amount there is no digit and no sign, and without blanks only the names and the
link are left. -/
theorem split : ∃ amount tail, cs = amount ++ tail ∧ IsAmount amount ∧
    (∀ c ∈ tail, isBlank c = true ∨ isUnitPhraseChar c = true) ∧
    strip tail = strip (source ++ link ++ target) := by
  obtain ⟨amount, bs₁, bs₂, bs₃, bs₄, rfl, hamount, hblank, -, -, hchars⟩ := h
  refine ⟨amount, bs₁ ++ source ++ bs₂ ++ link ++ bs₃ ++ target ++ bs₄, by simp, hamount, ?_, ?_⟩
  · intro c hc
    simp only [List.mem_append] at hc hblank hchars
    rcases hc with (((((hc | hc) | hc) | hc) | hc) | hc) | hc
    · exact .inl (hblank c (.inl (.inl (.inl hc))))
    · exact .inr (hchars c (.inl (.inl hc)))
    · exact .inl (hblank c (.inl (.inl (.inr hc))))
    · exact .inr (hchars c (.inl (.inr hc)))
    · exact .inl (hblank c (.inl (.inr hc)))
    · exact .inr (hchars c (.inr hc))
    · exact .inl (hblank c (.inr hc))
  · simp only [List.forall_mem_append] at hblank
    obtain ⟨⟨⟨hbs₁, hbs₂⟩, hbs₃⟩, hbs₄⟩ := hblank
    simp only [strip_append, strip_of_blanks hbs₁, strip_of_blanks hbs₂, strip_of_blanks hbs₃,
      strip_of_blanks hbs₄, List.nil_append, List.append_nil]

/-- What the text starts with is neither a letter nor blank. -/
theorem first : ∃ c rest, cs = c :: rest ∧ isAsciiLower c = false ∧ isBlank c = false := by
  obtain ⟨amount, tail, rfl, hamount, -, -⟩ := h.split
  have hletters := hamount.no_letters
  have hsolid := hamount.not_blank
  obtain ⟨sign, digits, rfl, -, hne, -⟩ := hamount
  have hcons : sign ++ digits ≠ [] := by simp [hne]
  obtain ⟨c, cs, hcs⟩ := List.exists_cons_of_ne_nil hcons
  rw [hcs] at hletters hsolid
  exact ⟨c, cs ++ tail, by rw [hcs, List.cons_append], hletters c List.mem_cons_self,
    hsolid c List.mem_cons_self⟩

/-- A minus sign only comes first. -/
theorem minus_first {pre rest : List Char} (hcs : cs = pre ++ '-' :: rest) : pre = [] := by
  obtain ⟨amount, tail, rfl, ⟨sign, digits, rfl, hsign, -, hdigits⟩, htail, -⟩ := h.split
  have hno : '-' ∉ digits ++ tail := by
    intro hmem
    rcases List.mem_append.1 hmem with hmem | hmem
    · exact absurd (hdigits '-' hmem) (by decide)
    · exact absurd (htail '-' hmem) (by decide)
  rw [List.append_assoc] at hcs
  cases pre with
  | nil => rfl
  | cons c pre =>
    rcases hsign with rfl | rfl
    · rw [List.nil_append] at hcs
      rw [hcs] at hno
      exact absurd (List.mem_append_right _ List.mem_cons_self) hno
    · have hrest : digits ++ tail = pre ++ '-' :: rest := (List.cons.inj hcs).2
      rw [hrest] at hno
      exact absurd (List.mem_append_right _ List.mem_cons_self) hno

/-- No digit comes after a letter. -/
theorem no_digit_after {pre rest : List Char} {c : Char} (hcs : cs = pre ++ c :: rest)
    (hc : isAsciiLower c = true) : ∀ d ∈ rest, isDigit d = false := by
  obtain ⟨amount, tail, rfl, hamount, htail, -⟩ := h.split
  have hdigit : ∀ d ∈ tail, isDigit d = false := by
    intro d hd
    rcases htail d hd with hblank | hunit
    · exact isDigit_of_blank hblank
    · exact isDigit_of_unitPhraseChar hunit
  intro d hd
  rcases List.append_eq_append_iff.1 hcs with ⟨a, rfl, ha⟩ | ⟨a, rfl, ha⟩
  · exact hdigit d (ha ▸ List.mem_append_right a (List.mem_cons_of_mem c hd))
  · cases a with
    | nil =>
      obtain rfl : c :: rest = tail := ha
      exact hdigit d (List.mem_cons_of_mem c hd)
    | cons e a =>
      obtain ⟨rfl, -⟩ := List.cons.inj ha
      have hletter := hamount.no_letters c (List.mem_append_right _ List.mem_cons_self)
      exact absurd (hletter.symm.trans hc) Bool.false_ne_true

theorem mem_of_source {c : Char} (hc : c ∈ source) : c ∈ cs := by
  obtain ⟨amount, bs₁, bs₂, bs₃, bs₄, rfl, -⟩ := h
  simp [hc]

theorem mem_of_target {c : Char} (hc : c ∈ target) : c ∈ cs := by
  obtain ⟨amount, bs₁, bs₂, bs₃, bs₄, rfl, -⟩ := h
  simp [hc]

/-- The second name stands after a blank, and blanks may follow. -/
theorem target_apart : ∃ pre bs, cs = pre ++ target ++ bs ∧ EndsApart pre ∧
    ∀ b ∈ bs, isBlank b = true := by
  obtain ⟨amount, bs₁, bs₂, bs₃, bs₄, rfl, -, hblank, hne₃, -, -⟩ := h
  simp only [List.forall_mem_append] at hblank
  exact ⟨_, bs₄, rfl, .of_blanks hne₃ hblank.1.2, hblank.2⟩

/-- Letters lie in the names and in the link. -/
theorem infix_of_letters {w : List Char} (hw : w <:+: cs) (hne : w ≠ [])
    (hlower : ∀ c ∈ w, isAsciiLower c = true) : w <:+: source ∨ w <:+: link ∨ w <:+: target := by
  obtain ⟨amount, bs₁, bs₂, bs₃, bs₄, rfl, hamount, hblank, hne₃, hlink, -⟩ := h
  simp only [List.forall_mem_append] at hblank
  obtain ⟨⟨⟨hbs₁, hbs₂⟩, hbs₃⟩, hbs₄⟩ := hblank
  have hblanks : ∀ bs : List Char, (∀ b ∈ bs, isBlank b = true) → ∀ b ∈ bs, b ∉ w :=
    fun bs hbs b hb hmem =>
      Bool.false_ne_true ((isBlank_of_lower (hlower b hmem)).symm.trans (hbs b hb))
  have hout : ∀ c ∈ amount, c ∉ w := fun c hc hmem =>
    Bool.false_ne_true ((hamount.no_letters c hc).symm.trans (hlower c hmem))
  simp only [List.append_assoc] at hw
  have hnames := infix_of_append hne (hblanks bs₁ hbs₁) (infix_of_append hne hout hw)
  simp only [← List.append_assoc] at hnames
  have htail := infix_of_append_end hne (hblanks bs₄ hbs₄) hnames
  rcases infix_of_append_apart hne hne₃ (hblanks bs₃ hbs₃) htail with hfront | htarget
  · rcases hlink with rfl | hne₂
    · rw [List.append_nil] at hfront
      exact .inl (infix_of_append_end hne (hblanks bs₂ hbs₂) hfront)
    · rcases infix_of_append_apart hne hne₂ (hblanks bs₂ hbs₂) hfront with hsource | hlink
      · exact .inl hsource
      · exact .inr (.inl hlink)
  · exact .inr (.inr htarget)

end Asks

end Reckoner.Units
