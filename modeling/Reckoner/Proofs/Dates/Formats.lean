/-
  Texts in one format, read in another.

  * `Format.Apart`: a format asks for a character that the other one never writes, or the other
    one always writes a character that it never takes;
  * `readInstant?_of_apart`: **no text of the one is then read in the other**;
  * `slashed`, `readInstant?_yearFirst`: a year that stands last is not read as a day;
  * `writeLower_exchanged`: with the day first, a text is that of the instant with day and month
    exchanged;
  * `readInstant?_abbreviated`: a whole name is not read as its first three letters.
-/
import Reckoner.Dates.Reader
import Reckoner.Proofs.Calendar.Writing

namespace Reckoner.Calendar

open Text Decimal

variable {i : Instant}

/-! ## What a part asks for and takes -/

/-- Words of which one is in a text, letter by letter, that the part is read in. -/
def Item.wants : Item → List (List Char)
  | literal c => [[c]]
  | monthAbbreviation | monthName => abbreviations
  | year | month | day | hour | minute | second | space => []

/-- The character may be in the stretch that the part is read from. -/
def Item.admits : Item → Char → Bool
  | literal d, c => c == d
  | space, c => isBlank c
  | monthAbbreviation, _ | monthName, _ => true
  | year, c | month, c | day, c | hour, c | minute, c | second, c =>
    isAsciiDigit c || isBlank c || ['+', '-'].contains c

theorem Item.exists_wanted {item : Item} {s : List Char} (h : item.Takes s)
    (hlower : ∀ c ∈ s, c.toLower = c) (hwants : item.wants ≠ []) :
    ∃ word ∈ item.wants, word ⊆ s := by
  have hname : (s.map Char.toLower).take 3 ∈ abbreviations → ∃ word ∈ abbreviations, word ⊆ s := by
    intro hword
    refine ⟨_, hword, fun c hc => ?_⟩
    obtain ⟨d, hd, rfl⟩ := List.mem_map.1 (List.mem_of_mem_take hc)
    rwa [hlower d hd]
  cases item with
  | literal c =>
    obtain rfl : s = [c] := h
    exact ⟨[c], List.mem_singleton_self _, List.Subset.refl _⟩
  | monthAbbreviation => exact hname h
  | monthName => exact hname h
  | year | month | day | hour | minute | second | space => exact absurd rfl hwants

theorem Item.admits_of_takes {item : Item} {s : List Char} (h : item.Takes s) :
    ∀ c ∈ s, item.admits c = true := by
  intro c hc
  cases item with
  | literal d =>
    obtain rfl : s = [d] := h
    exact beq_iff_eq.2 (List.mem_singleton.1 hc)
  | space => exact h c hc
  | monthAbbreviation | monthName => rfl
  | year | month | day | hour | minute | second =>
    have hnumeric : IsNumeric c := h.1 c hc
    simpa [admits, IsNumeric, or_assoc] using hnumeric

namespace Format

/-- The format asks for a character that the other one never writes, or the other one always
writes a character that this one never takes. -/
def Apart (format other : Format) : Prop :=
  (∃ item ∈ format, item.wants ≠ [] ∧
    ∀ word ∈ item.wants, ∃ c ∈ word, ∀ part ∈ other, c ∉ part.alphabet) ∨
  ∃ part ∈ other, ∀ c ∈ part.alphabet, ∀ item ∈ format, item.admits c = false

instance : DecidableRel Apart := fun _ _ => inferInstanceAs (Decidable (_ ∨ _))

/-- **No text of one format is read in another that is apart from it.** -/
theorem readInstant?_of_apart {format other : Format} (h : format.Apart other)
    (hfits : ∀ item ∈ other, item.Fits i) : format.readInstant? (other.writeLower i) = none := by
  rw [Option.eq_none_iff_forall_ne_some]
  intro j hj
  have htakes := takes_of_readInstant? hj
  have hlower : ∀ c ∈ other.writeLower i, c.toLower = c := by
    intro c hc
    obtain ⟨d, -, rfl⟩ := List.mem_map.1 hc
    exact toLower_toLower d
  rcases h with ⟨item, hitem, hwants, hmissing⟩ | ⟨part, hpart, hforeign⟩
  · obtain ⟨s, hs, hread⟩ := htakes.exists_part hitem
    obtain ⟨word, hword, hsub⟩ :=
      Item.exists_wanted hread (fun c hc => hlower c (hs hc)) hwants
    obtain ⟨c, hc, hnever⟩ := hmissing word hword
    obtain ⟨part, hpart, hmem⟩ := mem_writeLower.1 (hs (hsub hc))
    exact hnever part hpart (Item.mem_alphabet (hfits part hpart) c hmem)
  · obtain ⟨c, cs, hcs⟩ := Item.exists_cons (hfits part hpart)
    have hc : c ∈ part.writeLower i := hcs ▸ List.mem_cons_self
    have hadmitted : ∃ item ∈ format, item.admits c = true := by
      refine htakes.forall_mem (P := fun c => ∃ item ∈ format, item.admits c = true) ?_ c
        (mem_writeLower.2 ⟨part, hpart, hc⟩)
      exact fun item hitem s hs d hd => ⟨item, hitem, Item.admits_of_takes hs d hd⟩
    obtain ⟨item, hitem, hadmits⟩ := hadmitted
    have hnever := hforeign c (Item.mem_alphabet (hfits part hpart) c hc) item hitem
    exact Bool.false_ne_true (hnever.symm.trans hadmits)

theorem readFields_of_read {item : Item} {format : Format} {fields fields' : Fields}
    {cs rest : List Char} (h : item.read fields cs = some (fields', rest)) :
    readFields (item :: format) fields cs = readFields format fields' rest := by
  rw [readFields, h]
  rfl

end Format

/-! ## Parts that do not fit -/

theorem readUpTo_of_not_digit {most : Nat} {c : Char} (h : isAsciiDigit c = false)
    (cs : List Char) : readUpTo most (c :: cs) = none := by
  have hnone : ((c :: cs).take most).takeWhile isAsciiDigit = [] := by
    cases most with
    | zero => rfl
    | succ most => rw [List.take_succ_cons, List.takeWhile_cons_of_neg (Bool.eq_false_iff.1 h)]
  unfold readUpTo
  dsimp only
  rw [hnone]
  rfl

theorem readUpTo_pair {a b : Char} (ha : isAsciiDigit a = true) (hb : isAsciiDigit b = true)
    (rest : List Char) :
    readUpTo 2 (a :: b :: rest) = (readNatural? 10 [a, b]).map fun n => (n, rest) := by
  refine @readUpTo_digits [a, b] rest ?_ 2 (Nat.le_refl 2) fun h => absurd h (Nat.lt_irrefl 2)
  rw [List.forall_mem_cons, List.forall_mem_singleton]
  exact ⟨ha, hb⟩

theorem trimStart_of_digit {c : Char} (h : isAsciiDigit c = true) (cs : List Char) :
    trimStart (c :: cs) = c :: cs :=
  @trimStart_of_digits [c] cs (List.forall_mem_singleton.2 h) (List.cons_ne_nil _ _)

/-- Two digits of a year are left when two are read, if it has no sign. -/
theorem rest_of_yearText {year : Int} {n : Nat} {rest rest' : List Char}
    (h : readUpTo 2 (trimStart (yearText year ++ rest)) = some (n, rest')) :
    ∃ c d, rest' = c :: d :: rest ∧ isAsciiDigit c = true ∧ isAsciiDigit d = true := by
  obtain ⟨sign, hyear, hsign⟩ := yearText_eq year
  have hdigits := @isAsciiDigit_of_mem 4 year.natAbs
  rw [hyear] at h
  rcases hsign with ⟨rfl, hpos, hlarge⟩ | ⟨rfl, -⟩ | ⟨rfl, -⟩
  · have hlength : (paddedDigits 4 year.natAbs).length = 4 :=
      length_paddedDigits (by decide) (by omega)
    rw [List.nil_append, trimStart_of_digits hdigits (paddedDigits_ne_nil _ _)] at h
    generalize paddedDigits 4 year.natAbs = ds at h hdigits hlength
    match ds, hlength with
    | [a, b, c, d], _ =>
      simp only [List.forall_mem_cons] at hdigits
      obtain ⟨ha, hb, hc, hd, -⟩ := hdigits
      rw [List.cons_append, List.cons_append, readUpTo_pair ha hb] at h
      obtain ⟨m, -, heq⟩ := Option.map_eq_some_iff.1 h
      exact ⟨c, d, (Prod.mk.inj heq).2.symm, hc, hd⟩
  · exact absurd ((readUpTo_of_not_digit (by decide) _).symm.trans h) nofun
  · exact absurd ((readUpTo_of_not_digit (by decide) _).symm.trans h) nofun

end Reckoner.Calendar

namespace Reckoner.Dates

open Calendar Text Decimal

variable {i : Instant}

/-! ## Numbers between slashes -/

/-- Three parts with slashes between them, and more. -/
def slashed (x y z : Item) (tail : Format) : Format :=
  x :: .literal '/' :: y :: .literal '/' :: z :: tail

/-- A blank and the time of day. -/
def clock : Format := .space :: timeFormat

theorem writeLower_slashed (x y z : Item) (tail : Format) :
    (slashed x y z tail).writeLower i = x.writeLower i ++ '/' ::
      (y.writeLower i ++ '/' :: (z.writeLower i ++ tail.writeLower i)) := by
  simp only [slashed, Format.writeLower_cons]
  rfl

theorem read_slash (fields : Fields) (cs : List Char) :
    (Item.literal '/').read fields ('/' :: cs) = some (fields, cs) := rfl

/-- Two short numbers with slashes are read as a year and a month, and of the year that follows
two digits are read as the day. -/
theorem readFields_yearFirst {a b : Nat} (ha : a < 100) (hb : b < 100) {year : Int}
    {tail : Format} {rest : List Char} {result : Fields × List Char}
    (h : (slashed .year .month .day tail).readFields {}
      (paddedDigits 2 a ++ '/' :: (paddedDigits 2 b ++ '/' :: (yearText year ++ rest))) =
        some result) :
    ∃ fields c d, isAsciiDigit c = true ∧ isAsciiDigit d = true ∧
      tail.readFields fields (c :: d :: rest) = some result := by
  have hyear (cs : List Char) : Item.year.read {} (paddedDigits 2 a ++ '/' :: cs) =
      some (⟨a, 0, 0, 0, 0, 0⟩, '/' :: cs) := by
    have hlength : (paddedDigits 2 a).length = 2 := length_paddedDigits (by decide) ha
    have hends : ∀ c ∈ ('/' :: cs).head?, isAsciiDigit c = false := by
      rintro c ⟨⟩
      decide
    rw [Item.read, trimStart_of_digits isAsciiDigit_of_mem (paddedDigits_ne_nil 2 a),
      readYear_of_digits isAsciiDigit_of_mem (paddedDigits_ne_nil 2 a),
      readUpTo_digits isAsciiDigit_of_mem (by omega) fun _ => hends, readNatural?_paddedDigits]
    rfl
  have hmonth (fields : Fields) (cs : List Char) :
      Item.month.read fields (paddedDigits 2 b ++ cs) = some ({ fields with month := b }, cs) := by
    rw [Item.read, readUpTo_paddedDigits hb]
    rfl
  rw [slashed, Format.readFields_of_read (hyear _), Format.readFields_of_read (read_slash _ _),
    Format.readFields_of_read (hmonth _ _), Format.readFields_of_read (read_slash _ _)] at h
  obtain ⟨⟨fields, cs⟩, hday, htail⟩ := Option.bind_eq_some_iff.1 h
  obtain ⟨⟨n, rest'⟩, hread, heq⟩ := Option.map_eq_some_iff.1 hday
  obtain ⟨rfl, rfl⟩ := Prod.mk.inj heq
  obtain ⟨c, d, rfl, hc, hd⟩ := rest_of_yearText hread
  exact ⟨_, c, d, hc, hd, htail⟩

/-- Digits before a time of day are read as its hour. -/
theorem clock_of_digits {c d : Char} (hc : isAsciiDigit c = true) (hd : isAsciiDigit d = true)
    (fields : Fields) (cs : List Char) :
    clock.readFields fields (c :: d :: ' ' :: cs) = none := by
  have hspace : Item.space.read fields (c :: d :: ' ' :: cs) = some (fields, c :: d :: ' ' :: cs) :=
    congrArg (fun cs => some (fields, cs)) (trimStart_of_digit hc _)
  rw [clock, Format.readFields_of_read hspace]
  refine Option.bind_eq_none_iff.2 ?_
  rintro ⟨fields', rest⟩ hhour
  obtain ⟨⟨n, rest'⟩, hread, heq⟩ := Option.map_eq_some_iff.1 hhour
  obtain ⟨-, rfl⟩ := Prod.mk.inj heq
  rw [trimStart_of_digit hc, readUpTo_pair hc hd] at hread
  obtain ⟨m, -, heq'⟩ := Option.map_eq_some_iff.1 hread
  obtain ⟨-, rfl⟩ := Prod.mk.inj heq'
  rfl

/-- **A text with the year last is not read with the year first.** -/
theorem readInstant?_yearFirst {x y : Item} (hx : x ∈ [Item.month, .day])
    (hy : y ∈ [Item.month, .day]) (hfitsX : x.Fits i) (hfitsY : y.Fits i) {tail : Format}
    (htail : tail ∈ [[], clock]) : (slashed .year .month .day tail).readInstant?
      ((slashed x y .year tail).writeLower i) = none := by
  have hnumber : ∀ z ∈ [Item.month, .day], z.Fits i →
      ∃ n < 100, z.writeLower i = paddedDigits 2 n := by
    intro z hz hfits
    rcases List.mem_pair.1 hz with rfl | rfl
    · exact ⟨_, hfits, Item.writeLower_of_number rfl⟩
    · exact ⟨_, hfits, Item.writeLower_of_number rfl⟩
  obtain ⟨a, ha, hx⟩ := hnumber x hx hfitsX
  obtain ⟨b, hb, hy⟩ := hnumber y hy hfitsY
  have hz : Item.year.writeLower i = yearText i.date.year := map_toLower_yearText _
  rw [writeLower_slashed, hx, hy, hz, Format.readInstant?]
  split
  · next fields hread =>
    obtain ⟨fields', c, d, hc, hd, hrest⟩ := readFields_yearFirst ha hb hread
    rcases List.mem_pair.1 htail with rfl | rfl
    · cases hrest
    · have hsome := (clock_of_digits hc hd fields' _).symm.trans hrest
      cases hsome
  · rfl

/-- The instant with its day and its month exchanged. -/
def exchanged (i : Instant) : Instant := { i with date := ⟨i.date.year, i.date.day, i.date.month⟩ }

/-- **With the day first, a text is that of the instant with day and month exchanged.** -/
theorem writeLower_exchanged {tail : Format} (htail : tail ∈ [[], clock]) :
    (slashed .day .month .year tail).writeLower i =
      (slashed .month .day .year tail).writeLower (exchanged i) := by
  rcases List.mem_pair.1 htail with rfl | rfl <;> rfl

/-! ## Names of months -/

theorem letters_apart : ∀ c ∈ letters,
    isAsciiDigit c = false ∧ isBlank c = false ∧ c ≠ '-' ∧ c ≠ '+' := by
  decide

/-- No day and no year starts with a letter. -/
theorem read_of_letter {c : Char} (hc : c ∈ letters) {item : Item}
    (hitem : item ∈ [Item.day, .year]) (fields : Fields) (cs : List Char) :
    item.read fields (c :: cs) = none := by
  obtain ⟨hdigit, hblank, hminus, hplus⟩ := letters_apart c hc
  have htrim : trimStart (c :: cs) = c :: cs :=
    List.dropWhile_cons_of_neg (Bool.eq_false_iff.1 hblank)
  rcases List.mem_pair.1 hitem with rfl | rfl
  · rw [Item.read, htrim, readUpTo_of_not_digit hdigit]
    rfl
  · have hyear : readYear (c :: cs) = none := by
      unfold readYear
      split
      · next heq => exact absurd (List.cons.inj heq).1 hminus
      · next heq => exact absurd (List.cons.inj heq).1 hplus
      · rw [readUpTo_of_not_digit hdigit]
        rfl
    rw [Item.read, htrim, hyear]
    rfl

/-- What a month's name has after its first three letters. -/
def nameEnd (month : Nat) : List Char := ((monthNameOf month).toList.map Char.toLower).drop 3

theorem writeLower_monthName :
    Item.monthName.writeLower i = abbreviationOf i.date.month ++ nameEnd i.date.month :=
  (List.take_append_drop 3 _).symm

/-- After the first three letters of a longer name comes no number. -/
theorem readFields_abbreviated (hmonth : Item.monthName.Fits i) (hmore : nameEnd i.date.month ≠ [])
    {next : Item} (hnext : next ∈ [Item.day, .year]) (after : Format) (fields : Fields)
    (rest : List Char) :
    Format.readFields (.monthAbbreviation :: .space :: next :: after) fields
      (Item.monthName.writeLower i ++ rest) = none := by
  obtain ⟨c, cs, hcs⟩ := List.exists_cons_of_ne_nil hmore
  have hletter : c ∈ letters := by
    refine Item.mem_alphabet hmonth c ?_
    rw [writeLower_monthName, hcs]
    exact List.mem_append_right _ List.mem_cons_self
  obtain ⟨-, hblank, -⟩ := letters_apart c hletter
  have hname : Item.monthAbbreviation.read fields (Item.monthName.writeLower i ++ rest) =
      some (Item.monthAbbreviation.put i fields, c :: cs ++ rest) := by
    rw [writeLower_monthName, hcs, List.append_assoc, Item.read, readAbbreviation_of_start hmonth]
    rfl
  have hspace (fields : Fields) : Item.space.read fields (c :: cs ++ rest) =
      some (fields, c :: cs ++ rest) :=
    congrArg (fun cs => some (fields, cs))
      (List.dropWhile_cons_of_neg (Bool.eq_false_iff.1 hblank))
  rw [Format.readFields_of_read hname, Format.readFields_of_read (hspace _), Format.readFields,
    List.cons_append, read_of_letter hletter hnext]
  rfl

/-- **A whole name is not read as its first three letters**, if it has more. -/
theorem readInstant?_abbreviated {before : Format} (hbefore : before ∈ [[], [Item.day, .space]])
    {next : Item} (hnext : next ∈ [Item.day, .year]) (after : Format)
    (hfits : ∀ item ∈ Item.monthName :: before, item.Fits i) :
    (before ++ .monthAbbreviation :: .space :: next :: after).readInstant?
        ((before ++ .monthName :: .space :: next :: after).writeLower i) = none ∨
      (before ++ .monthName :: .space :: next :: after).writeLower i =
        (before ++ .monthAbbreviation :: .space :: next :: after).writeLower i := by
  obtain ⟨hmonth, hfits⟩ := List.forall_mem_cons.1 hfits
  simp only [Format.writeLower_append, Format.writeLower_cons]
  generalize Item.space.writeLower i ++ (next.writeLower i ++ Format.writeLower after i) = rest
  by_cases hmore : nameEnd i.date.month = []
  · right
    have htext : Item.monthAbbreviation.writeLower i = abbreviationOf i.date.month := List.map_take
    rw [writeLower_monthName, hmore, htext, List.append_nil]
  · left
    have hends : ∀ item ∈ before.getLast?,
        ∀ c ∈ (Item.monthName.writeLower i ++ rest).head?, item.goesOn c = false := by
      obtain ⟨c, cs, hcs⟩ := Item.exists_cons hmonth
      obtain ⟨-, hblank, -⟩ :=
        letters_apart c (Item.mem_alphabet hmonth c (hcs ▸ List.mem_cons_self))
      rw [hcs]
      rcases List.mem_pair.1 hbefore with rfl | rfl
      · exact nofun
      · rintro _ ⟨⟩ _ ⟨⟩
        exact hblank
    have hreadable : Format.IsReadable before := by
      rcases List.mem_pair.1 hbefore with rfl | rfl <;> decide
    rw [Format.readInstant?, Format.readFields_append,
      Format.readFields_writeLower hfits hreadable hends, Option.bind_some]
    dsimp only
    rw [readFields_abbreviated hmonth hmore hnext]

end Reckoner.Dates
