/-
  Which numerals are read.

  * `readMagnitude?_isSome`, `readFloat?_isSome`: digits with a point between or before them are
    a number, with a minus sign too;
  * `readFloat?_ascii`: **only digits from `0` to `9` are read**.
-/
import Mathlib.Data.List.TakeDrop
import Reckoner.Decimal.Numeral
import Reckoner.Proofs.Arithmetic.Lexer

namespace Reckoner.Decimal

open Text Arithmetic

theorem digitOf?_isSome {c : Char} (hc : isAsciiDigit c = true) :
    ∃ d, digitOf? 10 c = some d := by
  obtain ⟨hfirst, hlast⟩ := isAsciiDigit_iff.1 hc
  have hvalue : digitValue c < 10 := by
    unfold digitValue
    omega
  exact ⟨digitValue c, by simp [digitOf?, hc, hvalue]⟩

theorem readDigits_isSome {ds : List Char} (hds : ∀ d ∈ ds, isAsciiDigit d = true)
    (value : Nat) : ∃ n, readDigits 10 value ds = some n := by
  induction ds generalizing value with
  | nil => exact ⟨value, rfl⟩
  | cons d ds ih =>
    obtain ⟨hd, hds⟩ := List.forall_mem_cons.1 hds
    obtain ⟨v, hv⟩ := digitOf?_isSome hd
    simp only [readDigits, hv]
    exact ih hds _

/-- Digits end where no digit comes next. -/
theorem takeWhile_digits {ds rest : List Char} (hds : ∀ d ∈ ds, isAsciiDigit d = true)
    (hrest : ∀ c ∈ rest.head?, isAsciiDigit c = false) :
    (ds ++ rest).takeWhile isAsciiDigit = ds := by
  have htake : rest.takeWhile isAsciiDigit = [] := by
    cases rest with
    | nil => rfl
    | cons c rest => simp [hrest c rfl]
  rw [List.takeWhile_append_of_pos hds, htake, List.append_nil]

theorem spanDigits_eq (cs : List Char) :
    spanDigits cs = (cs.takeWhile isAsciiDigit, cs.dropWhile isAsciiDigit) :=
  List.span_eq_takeWhile_dropWhile ..

theorem spanDigits_append {ds rest : List Char} (hds : ∀ d ∈ ds, isAsciiDigit d = true)
    (hrest : ∀ c ∈ rest.head?, isAsciiDigit c = false) :
    spanDigits (ds ++ rest) = (ds, rest) := by
  have hsplit := List.takeWhile_append_dropWhile (p := isAsciiDigit) (l := ds ++ rest)
  rw [takeWhile_digits hds hrest] at hsplit
  rw [spanDigits_eq, takeWhile_digits hds hrest, List.append_cancel_left hsplit]

theorem readDecimal?_whole {whole : List Char} (hwhole : ∀ d ∈ whole, isAsciiDigit d = true)
    (hne : whole ≠ []) : ∃ x, readDecimal? whole = some x := by
  have hspan := @spanDigits_append _ [] hwhole nofun
  rw [List.append_nil] at hspan
  obtain ⟨n, hn⟩ := readDigits_isSome hwhole 0
  simp [readDecimal?, hspan, hne, hn, readExponent?]

/-- A point may stand before, between or after digits. -/
theorem readDecimal?_point {whole fraction : List Char}
    (hwhole : ∀ d ∈ whole, isAsciiDigit d = true)
    (hfraction : ∀ d ∈ fraction, isAsciiDigit d = true) (hne : whole ≠ [] ∨ fraction ≠ []) :
    ∃ x, readDecimal? (whole ++ '.' :: fraction) = some x := by
  have hspan := @spanDigits_append _ ('.' :: fraction) hwhole (by simp; decide)
  have hspan' := @spanDigits_append _ [] hfraction nofun
  rw [List.append_nil] at hspan'
  obtain ⟨n, hn⟩ := @readDigits_isSome (whole ++ fraction)
    (List.forall_mem_append.2 ⟨hwhole, hfraction⟩) 0
  have hdigits : ¬ (whole = [] ∧ fraction = []) := fun h => hne.elim (· h.1) (· h.2)
  simp [readDecimal?, hspan, hspan', hdigits, hn, readExponent?]

theorem readDecimal?_isSome {p : List Char} (h : IsNumeral p) :
    ∃ x, readDecimal? p = some x := by
  obtain ⟨whole, fraction, hwhole, hfraction, ⟨rfl, hne⟩ | ⟨rfl, hne⟩⟩ := h
  · exact readDecimal?_whole hwhole hne
  · exact readDecimal?_point hwhole hfraction (.inr hne)

/-- Digits with a point between or before them are a number. -/
theorem readMagnitude?_isSome {p : List Char} (h : IsNumeral p) :
    ∃ x, readMagnitude? p = some x := by
  obtain ⟨x, hx⟩ := readDecimal?_isSome h
  exact ⟨x, by rw [readMagnitude?, hx]⟩

theorem readFloat?_isSome {sign p : List Char} (hsign : sign = [] ∨ sign = ['-'])
    (h : IsNumeral p) : ∃ x, readFloat? (sign ++ p) = some x := by
  obtain ⟨x, hx⟩ := readMagnitude?_isSome h
  obtain ⟨c, cs, rfl, hc⟩ := h.exists_cons
  rcases hsign with rfl | rfl
  · have hminus : c ≠ '-' := by
      rintro rfl
      exact absurd hc (by decide)
    have hplus : c ≠ '+' := by
      rintro rfl
      exact absurd hc (by decide)
    exact ⟨x, by simpa [readFloat?, hminus, hplus] using hx⟩
  · exact ⟨-x, by simp [readFloat?, hx]⟩

/-! ## Digits of other scripts -/

theorem readExponent?_digits {cs : List Char} {e : Int}
    (hcs : ∀ c ∈ cs, isDigit c = true ∨ c = '.') (h : readExponent? cs = some e) : cs = [] := by
  cases cs with
  | nil => rfl
  | cons c cs =>
    have hc := hcs c List.mem_cons_self
    simp only [readExponent?] at h
    split_ifs at h with he
    simp only [Bool.or_eq_true, beq_iff_eq] at he
    rcases he with rfl | rfl <;> exact absurd hc (by decide)

/-- What is left after the leading digits decides. -/
theorem ascii_of_dropWhile {p : List Char}
    (h : ∀ c ∈ p.dropWhile isAsciiDigit, isAsciiDigit c = true ∨ c = '.') :
    ∀ c ∈ p, isAsciiDigit c = true ∨ c = '.' := by
  rw [← List.takeWhile_append_dropWhile (p := isAsciiDigit) (l := p), List.forall_mem_append]
  exact ⟨fun c hc => .inl (List.mem_takeWhile_imp hc), h⟩

theorem readDecimal?_ascii {p : List Char} {x : Float} (hp : ∀ c ∈ p, isDigit c = true ∨ c = '.')
    (h : readDecimal? p = some x) : ∀ c ∈ p, isAsciiDigit c = true ∨ c = '.' := by
  have hrest : ∀ c ∈ p.dropWhile isAsciiDigit, isDigit c = true ∨ c = '.' :=
    fun c hc => hp c ((List.dropWhile_sublist _).subset hc)
  refine ascii_of_dropWhile ?_
  rw [readDecimal?, spanDigits_eq] at h
  generalize p.dropWhile isAsciiDigit = rest at h hrest ⊢
  dsimp only at h
  split at h
  · next cs =>
    have hcs : ∀ c ∈ cs.dropWhile isAsciiDigit, isDigit c = true ∨ c = '.' :=
      fun c hc => hrest c (List.mem_cons_of_mem _ ((List.dropWhile_sublist _).subset hc))
    rw [spanDigits_eq] at h
    dsimp only at h
    split_ifs at h
    split at h
    · next hexponent =>
      refine List.forall_mem_cons.2 ⟨.inr rfl, ascii_of_dropWhile ?_⟩
      rw [readExponent?_digits hcs hexponent]
      exact nofun
    · cases h
  · dsimp only at h
    split_ifs at h
    split at h
    · next hexponent =>
      rw [readExponent?_digits hrest hexponent]
      exact nofun
    · cases h

theorem toLower_not_lower {c : Char} (hc : isDigit c = true ∨ c = '.') :
    isAsciiLower c.toLower = false := by
  have hascii : ∀ n < 128, isDigit (Char.ofNat n) = true ∨ Char.ofNat n = '.' →
      isAsciiLower (Char.ofNat n).toLower = false := by
    decide
  by_cases hlt : c.toNat < 128
  · have := hascii c.toNat hlt
    rw [Char.ofNat_toNat] at this
    exact this hc
  · rw [toLower_of_not_ascii hlt, Bool.eq_false_iff]
    intro hlower
    have := isAsciiLower_iff.1 hlower
    omega

theorem readWord?_digits {p : List Char} (hp : ∀ c ∈ p, isDigit c = true ∨ c = '.') :
    readWord? p = none := by
  have hword : ∀ w : String, w.toList.any isAsciiLower = true →
      String.ofList (p.map Char.toLower) ≠ w := by
    rintro _ hw rfl
    rw [String.toList_ofList, List.any_map, List.any_eq_true] at hw
    obtain ⟨c, hc, hlower⟩ := hw
    exact Bool.false_ne_true ((toLower_not_lower (hp c hc)).symm.trans hlower)
  have hinf := hword "inf" (by decide)
  have hinfinity := hword "infinity" (by decide)
  have hnan := hword "nan" (by decide)
  simp [readWord?, hinf, hinfinity, hnan]

/-- **Only digits from `0` to `9` are read.** -/
theorem readFloat?_ascii {sign p : List Char} {x : Float} (hsign : sign = [] ∨ sign = ['-'])
    (hp : ∀ c ∈ p, isDigit c = true ∨ c = '.') (h : readFloat? (sign ++ p) = some x) :
    ∀ c ∈ p, isAsciiDigit c = true ∨ c = '.' := by
  have hmagnitude : ∃ y, readMagnitude? p = some y := by
    rcases hsign with rfl | rfl
    · rw [List.nil_append] at h
      unfold readFloat? at h
      split at h
      · exact absurd (hp '-' List.mem_cons_self) (by decide)
      · exact absurd (hp '+' List.mem_cons_self) (by decide)
      · exact ⟨x, h⟩
    · obtain ⟨y, hy, -⟩ := Option.map_eq_some_iff.1 h
      exact ⟨y, hy⟩
  obtain ⟨y, hy⟩ := hmagnitude
  rw [readMagnitude?] at hy
  split at hy
  · next hdecimal => exact readDecimal?_ascii hp hdecimal
  · rw [readWord?_digits hp] at hy
    cases hy

end Reckoner.Decimal
