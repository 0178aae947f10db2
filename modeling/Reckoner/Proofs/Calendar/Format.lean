/-
  What formats take from a text.

  * `Item.Takes`, `Format.Takes`: the stretch that a part of a format, or all of it, is read
    from;
  * `Format.takes_of_readInstant?`: **a text that is read in a format is such a stretch**;
  * `Format.Takes.exists_part`, `Format.Takes.forall_mem`: its parts and its characters;
  * `instant?_of_readStamp?`, `colon_of_readStamp?`: what a stamp is read as, and that it has a
    colon.
-/
import Mathlib.Data.List.TakeWhile
import Reckoner.Calendar.Format
import Reckoner.Proofs.Text.Word

namespace Reckoner.Calendar

open Text

/-- The months of a year. -/
def months : List Nat := (List.range 12).map (· + 1)

/-- The first three letters of the names of the months, in lower case. -/
def abbreviations : List (List Char) :=
  monthNames.map fun name => (name.toList.map Char.toLower).take 3

/-- A digit from `0` to `9`, a blank, or a sign. -/
def IsNumeric (c : Char) : Prop := isAsciiDigit c = true ∨ isBlank c = true ∨ c ∈ ['+', '-']

/-- The stretch that a part of a format is read from. -/
def Item.Takes : Item → List Char → Prop
  | literal c, s => s = [c]
  | space, s => ∀ b ∈ s, isBlank b = true
  | monthAbbreviation, s | monthName, s => (s.map Char.toLower).take 3 ∈ abbreviations
  | year, s | month, s | day, s | hour, s | minute, s | second, s =>
    (∀ c ∈ s, IsNumeric c) ∧ ∃ c ∈ s, isAsciiDigit c = true

/-- The stretch that a format is read from, part by part. -/
def Format.Takes : Format → List Char → Prop
  | [], s => s = []
  | item :: format, s => ∃ a b, s = a ++ b ∧ item.Takes a ∧ Format.Takes format b

/-! ## Reading parts -/

section
variable {cs rest : List Char}

/-- What is made of what has been read leaves the same rest. -/
theorem exists_of_map {α β : Type} {g : α × List Char → β × List Char}
    {x : Option (α × List Char)} {b : β} (h : x.map g = some (b, rest))
    (hg : ∀ y, (g y).2 = y.2) : ∃ a, x = some (a, rest) := by
  obtain ⟨⟨a, rest'⟩, rfl, heq⟩ := Option.map_eq_some_iff.1 h
  obtain rfl : rest' = rest := (hg _).symm.trans (congrArg Prod.snd heq)
  exact ⟨a, rfl⟩

/-- A number is read from digits. -/
theorem digits_of_readUpTo {most n : Nat} (h : readUpTo most cs = some (n, rest)) :
    ∃ digits, cs = digits ++ rest ∧ digits ≠ [] ∧ ∀ c ∈ digits, isAsciiDigit c = true := by
  obtain ⟨m, hm, hrest⟩ := Option.map_eq_some_iff.1 h
  obtain ⟨-, rfl⟩ := Prod.mk.inj hrest
  have hprefix := (List.takeWhile_prefix isAsciiDigit (l := cs.take most)).trans
    (List.take_prefix most cs)
  refine ⟨(cs.take most).takeWhile isAsciiDigit, (List.prefix_iff_eq_append.1 hprefix).symm, ?_,
    fun c hc => List.mem_takeWhile_imp hc⟩
  intro hnil
  rw [hnil] at hm
  cases hm

/-- Blanks and signs may stand before the digits of a number. -/
theorem takes_number {most n : Nat} {before : List Char} (hbefore : ∀ c ∈ before, IsNumeric c)
    (h : readUpTo most cs = some (n, rest)) :
    ∃ s, before ++ cs = s ++ rest ∧ (∀ c ∈ s, IsNumeric c) ∧ ∃ c ∈ s, isAsciiDigit c = true := by
  obtain ⟨digits, rfl, hne, hdigits⟩ := digits_of_readUpTo h
  obtain ⟨c, hc⟩ := List.exists_mem_of_ne_nil digits hne
  refine ⟨before ++ digits, (List.append_assoc ..).symm, ?_, c, List.mem_append_right _ hc,
    hdigits c hc⟩
  rw [List.forall_mem_append]
  exact ⟨hbefore, fun d hd => .inl (hdigits d hd)⟩

/-- The blanks that are passed over. -/
theorem exists_trimStart (cs : List Char) :
    ∃ bs, cs = bs ++ trimStart cs ∧ ∀ b ∈ bs, isBlank b = true :=
  ⟨cs.takeWhile isBlank, List.takeWhile_append_dropWhile.symm,
    fun _ hb => List.mem_takeWhile_imp hb⟩

theorem takes_trimmed {most n : Nat} (h : readUpTo most (trimStart cs) = some (n, rest)) :
    ∃ s, cs = s ++ rest ∧ (∀ c ∈ s, IsNumeric c) ∧ ∃ c ∈ s, isAsciiDigit c = true := by
  obtain ⟨bs, hcs, hbs⟩ := exists_trimStart cs
  rw [hcs]
  exact takes_number (fun b hb => .inr (.inl (hbs b hb))) h

theorem takes_year {n : Int} (h : readYear (trimStart cs) = some (n, rest)) :
    ∃ s, cs = s ++ rest ∧ (∀ c ∈ s, IsNumeric c) ∧ ∃ c ∈ s, isAsciiDigit c = true := by
  obtain ⟨bs, hcs, hbs⟩ := exists_trimStart cs
  have hblank : ∀ b ∈ bs, IsNumeric b := fun b hb => .inr (.inl (hbs b hb))
  have hsigned : ∀ sign ∈ ['+', '-'], ∀ c ∈ bs ++ [sign], IsNumeric c := by
    intro sign hsign
    rw [List.forall_mem_append, List.forall_mem_singleton]
    exact ⟨hblank, .inr (.inr hsign)⟩
  unfold readYear at h
  split at h
  · next ds hds =>
    obtain ⟨m, hm⟩ := exists_of_map h fun _ => rfl
    rw [hcs, hds, List.append_cons]
    exact takes_number (hsigned '-' (by decide)) hm
  · next ds hds =>
    obtain ⟨m, hm⟩ := exists_of_map h fun _ => rfl
    rw [hcs, hds, List.append_cons]
    exact takes_number (hsigned '+' (by decide)) hm
  · obtain ⟨m, hm⟩ := exists_of_map h fun _ => rfl
    rw [hcs]
    exact takes_number hblank hm

/-- A word is read in any case. -/
theorem word_of_readWord? {word : String} (h : readWord? word cs = some rest) :
    ∃ s, cs = s ++ rest ∧ s.map Char.toLower = word.toList.map Char.toLower := by
  unfold readWord? at h
  dsimp only at h
  split at h
  · next hword =>
    obtain rfl := Option.some.inj h
    exact ⟨cs.take word.length, (List.take_append_drop word.length cs).symm, hword⟩
  · cases h

theorem abbreviations_of_months : ∀ month ∈ months,
    ((monthNameOf month).toList.map Char.toLower).take 3 ∈ abbreviations := by
  decide

/-- The month is one of the twelve. -/
theorem month_of_readAbbreviation {month : Nat} (h : readAbbreviation cs = some (month, rest)) :
    month ∈ months ∧
      readWord? (String.ofList ((monthNameOf month).toList.take 3)) cs = some rest := by
  unfold readAbbreviation at h
  obtain ⟨m, hm, hfound⟩ := List.exists_of_findSome?_eq_some h
  obtain ⟨r, hr, heq⟩ := Option.map_eq_some_iff.1 hfound
  obtain ⟨rfl, rfl⟩ := Prod.mk.inj heq
  exact ⟨hm, hr⟩

theorem takes_abbreviation {month : Nat} (h : readAbbreviation cs = some (month, rest)) :
    ∃ s, cs = s ++ rest ∧ (s.map Char.toLower).take 3 ∈ abbreviations := by
  obtain ⟨hmonth, hword⟩ := month_of_readAbbreviation h
  obtain ⟨s, rfl, hs⟩ := word_of_readWord? hword
  refine ⟨s, rfl, ?_⟩
  rw [hs, String.toList_ofList, List.map_take, List.take_take, Nat.min_self]
  exact abbreviations_of_months month hmonth

theorem takes_monthName {month : Nat} (h : readMonthName cs = some (month, rest)) :
    ∃ s, cs = s ++ rest ∧ (s.map Char.toLower).take 3 ∈ abbreviations := by
  obtain ⟨⟨m, rest'⟩, habbreviation, hname⟩ := Option.map_eq_some_iff.1 h
  dsimp only at hname
  split at hname
  · next hword =>
    obtain ⟨rfl, rfl⟩ := Prod.mk.inj hname
    obtain ⟨s, rfl, hs⟩ := word_of_readWord? hword
    exact ⟨s, rfl, hs ▸ abbreviations_of_months m (month_of_readAbbreviation habbreviation).1⟩
  · obtain ⟨rfl, rfl⟩ := Prod.mk.inj hname
    exact takes_abbreviation habbreviation

end

/-! ## Reading formats -/

theorem Item.takes_of_read {item : Item} {f f' : Fields} {cs rest : List Char}
    (h : item.read f cs = some (f', rest)) : ∃ s, cs = s ++ rest ∧ item.Takes s := by
  cases item with
  | year =>
    obtain ⟨n, hn⟩ := exists_of_map h fun _ => rfl
    exact takes_year hn
  | month | day | hour | minute | second =>
    obtain ⟨n, hn⟩ := exists_of_map h fun _ => rfl
    exact takes_trimmed hn
  | monthAbbreviation =>
    obtain ⟨n, hn⟩ := exists_of_map h fun _ => rfl
    exact takes_abbreviation hn
  | monthName =>
    obtain ⟨n, hn⟩ := exists_of_map h fun _ => rfl
    exact takes_monthName hn
  | literal c =>
    cases cs with
    | nil => cases h
    | cons d cs =>
      rw [read] at h
      split at h
      · next hd =>
        obtain ⟨-, rfl⟩ := Prod.mk.inj (Option.some.inj h)
        exact ⟨[d], rfl, hd ▸ rfl⟩
      · cases h
  | space =>
    obtain ⟨-, rfl⟩ := Prod.mk.inj (Option.some.inj h)
    exact exists_trimStart cs

namespace Format

theorem takes_of_readFields {format : Format} {f f' : Fields} {cs rest : List Char}
    (h : format.readFields f cs = some (f', rest)) : ∃ s, cs = s ++ rest ∧ format.Takes s := by
  induction format generalizing f cs with
  | nil =>
    obtain ⟨-, rfl⟩ := Prod.mk.inj (Option.some.inj h)
    exact ⟨[], rfl, rfl⟩
  | cons item format ih =>
    obtain ⟨⟨f₁, cs₁⟩, hitem, hformat⟩ := Option.bind_eq_some_iff.1 h
    obtain ⟨a, rfl, ha⟩ := Item.takes_of_read hitem
    obtain ⟨b, rfl, hb⟩ := ih hformat
    exact ⟨a ++ b, (List.append_assoc ..).symm, a, b, rfl, ha, hb⟩

/-- **A text that is read in a format is taken by it part by part.** -/
theorem takes_of_readInstant? {format : Format} {cs : List Char} {i : Instant}
    (h : format.readInstant? cs = some i) : format.Takes cs := by
  unfold readInstant? at h
  split at h
  · next hfields =>
    obtain ⟨s, rfl, hs⟩ := takes_of_readFields hfields
    rwa [List.append_nil]
  · cases h

theorem Takes.exists_part {format : Format} {cs : List Char} {item : Item}
    (h : Format.Takes format cs) (hitem : item ∈ format) : ∃ s, s ⊆ cs ∧ item.Takes s := by
  induction format generalizing cs with
  | nil => exact absurd hitem List.not_mem_nil
  | cons first format ih =>
    obtain ⟨a, b, rfl, ha, hb⟩ := h
    rcases List.mem_cons.1 hitem with rfl | hitem
    · exact ⟨a, List.subset_append_left a b, ha⟩
    · obtain ⟨s, hs, htakes⟩ := ih hb hitem
      exact ⟨s, List.Subset.trans hs (List.subset_append_right a b), htakes⟩

theorem Takes.mem_of_literal {format : Format} {cs : List Char} {c : Char}
    (h : Format.Takes format cs) (hc : Item.literal c ∈ format) : c ∈ cs := by
  obtain ⟨s, hs, htakes⟩ := h.exists_part hc
  obtain rfl : s = [c] := htakes
  exact hs (List.mem_singleton_self c)

theorem Takes.forall_mem {P : Char → Prop} {format : Format} {cs : List Char}
    (hformat : ∀ item ∈ format, ∀ s, item.Takes s → ∀ c ∈ s, P c)
    (h : Format.Takes format cs) : ∀ c ∈ cs, P c := by
  induction format generalizing cs with
  | nil =>
    obtain rfl : cs = [] := h
    exact nofun
  | cons item format ih =>
    obtain ⟨a, b, rfl, ha, hb⟩ := h
    obtain ⟨hitem, hformat⟩ := List.forall_mem_cons.1 hformat
    rw [List.forall_mem_append]
    exact ⟨hitem a ha, ih hformat hb⟩

end Format

/-! ## Stamps -/

theorem suffix_of_readExactly {count n : Nat} {cs rest : List Char}
    (h : readExactly count cs = some (n, rest)) : rest <:+ cs := by
  unfold readExactly at h
  split at h
  · next m rest' hread =>
    split at h
    · obtain ⟨rfl, rfl⟩ := Prod.mk.inj (Option.some.inj h)
      obtain ⟨digits, rfl, -, -⟩ := digits_of_readUpTo hread
      exact List.suffix_append digits _
    · cases h
  · cases h

theorem cons_of_readChar {has : Char → Bool} {cs rest : List Char}
    (h : readChar has cs = some rest) : ∃ c, cs = c :: rest ∧ has c = true := by
  cases cs with
  | nil => cases h
  | cons c cs =>
    rw [readChar] at h
    split at h
    · next hc =>
      obtain rfl := Option.some.inj h
      exact ⟨c, rfl, hc⟩
    · cases h

/-- What a stamp is read as: the fields, and the fraction of a second before the offset. -/
theorem instant?_of_readStamp? {cs : List Char} {i : Instant} (h : readStamp? cs = some i) :
    ∃ (f : Fields) (nano : Nat) (tail rest : List Char),
      readFraction tail = some (nano, rest) ∧ f.instant? nano = some i := by
  obtain ⟨⟨year, _⟩, -, h⟩ := Option.bind_eq_some_iff.1 h
  obtain ⟨_, -, h⟩ := Option.bind_eq_some_iff.1 h
  obtain ⟨⟨month, _⟩, -, h⟩ := Option.bind_eq_some_iff.1 h
  obtain ⟨_, -, h⟩ := Option.bind_eq_some_iff.1 h
  obtain ⟨⟨day, _⟩, -, h⟩ := Option.bind_eq_some_iff.1 h
  obtain ⟨_, -, h⟩ := Option.bind_eq_some_iff.1 h
  obtain ⟨⟨hour, _⟩, -, h⟩ := Option.bind_eq_some_iff.1 h
  obtain ⟨_, -, h⟩ := Option.bind_eq_some_iff.1 h
  obtain ⟨⟨minute, _⟩, -, h⟩ := Option.bind_eq_some_iff.1 h
  obtain ⟨_, -, h⟩ := Option.bind_eq_some_iff.1 h
  obtain ⟨⟨second, tail⟩, -, h⟩ := Option.bind_eq_some_iff.1 h
  obtain ⟨⟨nano, rest⟩, hfraction, h⟩ := Option.bind_eq_some_iff.1 h
  obtain ⟨_, -, h⟩ := Option.bind_eq_some_iff.1 h
  split at h
  · exact ⟨⟨year, month, day, hour, minute, second⟩, nano, tail, rest, hfraction, h⟩
  · cases h

/-- A stamp has a colon between hours and minutes. -/
theorem colon_of_readStamp? {cs : List Char} {i : Instant} (h : readStamp? cs = some i) :
    ':' ∈ cs := by
  obtain ⟨⟨_, cs₁⟩, hyear, h⟩ := Option.bind_eq_some_iff.1 h
  obtain ⟨cs₂, hdash, h⟩ := Option.bind_eq_some_iff.1 h
  obtain ⟨⟨_, cs₃⟩, hmonth, h⟩ := Option.bind_eq_some_iff.1 h
  obtain ⟨cs₄, hdash', h⟩ := Option.bind_eq_some_iff.1 h
  obtain ⟨⟨_, cs₅⟩, hday, h⟩ := Option.bind_eq_some_iff.1 h
  obtain ⟨cs₆, hmark, h⟩ := Option.bind_eq_some_iff.1 h
  obtain ⟨⟨_, cs₇⟩, hhour, h⟩ := Option.bind_eq_some_iff.1 h
  obtain ⟨cs₈, hcolon, -⟩ := Option.bind_eq_some_iff.1 h
  obtain ⟨c₁, rfl, -⟩ := cons_of_readChar hdash
  obtain ⟨c₂, rfl, -⟩ := cons_of_readChar hdash'
  obtain ⟨c₃, rfl, -⟩ := cons_of_readChar hmark
  obtain ⟨c₄, rfl, hc₄⟩ := cons_of_readChar hcolon
  obtain rfl := beq_iff_eq.1 hc₄
  have h₆ : ':' ∈ cs₆ := (suffix_of_readExactly hhour).subset List.mem_cons_self
  have h₄ : ':' ∈ cs₄ := (suffix_of_readExactly hday).subset (List.mem_cons_of_mem c₃ h₆)
  have h₂ : ':' ∈ cs₂ := (suffix_of_readExactly hmonth).subset (List.mem_cons_of_mem c₂ h₄)
  exact (suffix_of_readExactly hyear).subset (List.mem_cons_of_mem c₁ h₂)

end Reckoner.Calendar
