/-
  Formats read what they write, in lower case.

  * `Item.alphabet`: the characters that a part is written in;
  * `Item.put`, `Item.Fits`: what reading a part back sets, and which parts of an instant can be
    read back;
  * `Item.read_writeLower`: a part is read from its own text, if what follows does not go on
    with it;
  * `Format.readInstant?_writeLower`: **a format reads its own text**, if its parts can be told
    apart.
-/
import Mathlib.Data.List.Chain
import Reckoner.Proofs.Calendar.Format
import Reckoner.Proofs.Decimal.Digits
import Reckoner.Proofs.Decimal.Numeral
import Reckoner.Proofs.Text.Covered

namespace Reckoner.Calendar

open Text Decimal

variable {i : Instant}

/-- The digits from `0` to `9`. -/
def digits : List Char := (List.range 10).map Nat.digitChar

/-- The small letters of English. -/
def letters : List Char := "abcdefghijklmnopqrstuvwxyz".toList

theorem mem_months {month : Nat} : month ∈ months ↔ 1 ≤ month ∧ month ≤ 12 := by
  simp only [months, List.mem_map, List.mem_range]
  constructor
  · rintro ⟨n, hn, rfl⟩
    omega
  · rintro ⟨hfirst, hlast⟩
    exact ⟨month - 1, by omega, by omega⟩

theorem mem_digits {c : Char} (h : isAsciiDigit c = true) : c ∈ digits := by
  obtain ⟨hfirst, hlast⟩ := isAsciiDigit_iff.1 h
  refine List.mem_map.2 ⟨c.toNat - 48, List.mem_range.2 (by omega), Char.toNat_inj.1 ?_⟩
  rw [Nat.toNat_digitChar_of_lt_ten (by omega)]
  omega

theorem map_toLower_of_digits {cs : List Char} (h : ∀ c ∈ cs, isAsciiDigit c = true) :
    cs.map Char.toLower = cs :=
  (List.map_congr_left fun c hc => toLower_of_kept (isKept_of_asciiDigit (h c hc))).trans
    (List.map_id cs)

/-! ## Texts in lower case -/

/-- A part of an instant as it is written, in lower case. -/
def Item.writeLower (i : Instant) (item : Item) : List Char := (item.write i).map Char.toLower

/-- An instant as it is written in a format, in lower case. -/
def Format.writeLower (f : Format) (i : Instant) : List Char := (f.write i).map Char.toLower

@[simp] theorem Format.writeLower_nil : Format.writeLower [] i = [] := rfl

@[simp] theorem Format.writeLower_cons (item : Item) (f : Format) :
    Format.writeLower (item :: f) i = item.writeLower i ++ Format.writeLower f i :=
  List.map_append

theorem Format.writeLower_append (f g : Format) :
    Format.writeLower (f ++ g) i = Format.writeLower f i ++ Format.writeLower g i := by
  rw [writeLower, write, List.flatMap_append, List.map_append]
  rfl

theorem Format.mem_writeLower {f : Format} {c : Char} :
    c ∈ f.writeLower i ↔ ∃ item ∈ f, c ∈ item.writeLower i := by
  induction f with
  | nil => simp
  | cons item f ih => simp [ih]

/-- The characters that a part is written in, in lower case. -/
def Item.alphabet : Item → List Char
  | year => digits ++ ['+', '-']
  | month | day | hour | minute | second => digits
  | monthAbbreviation | monthName => letters
  | literal c => [c.toLower]
  | space => [' ']

theorem yearText_eq (year : Int) : ∃ sign, yearText year = sign ++ paddedDigits 4 year.natAbs ∧
    (sign = [] ∧ 0 ≤ year ∧ year ≤ 9999 ∨ sign = ['-'] ∧ year < 0 ∨
      sign = ['+'] ∧ 9999 < year) := by
  unfold yearText
  dsimp only
  split_ifs with hneg hlarge
  · exact ⟨['-'], rfl, .inr (.inl ⟨rfl, hneg⟩)⟩
  · exact ⟨['+'], rfl, .inr (.inr ⟨rfl, hlarge⟩)⟩
  · exact ⟨[], rfl, .inl ⟨rfl, by omega⟩⟩

theorem map_toLower_yearText (year : Int) : (yearText year).map Char.toLower = yearText year := by
  obtain ⟨sign, hyear, hsign⟩ := yearText_eq year
  rw [hyear, List.map_append, map_toLower_of_digits isAsciiDigit_of_mem]
  rcases hsign with ⟨rfl, -⟩ | ⟨rfl, -⟩ | ⟨rfl, -⟩ <;> rfl

theorem letters_of_months : ∀ month ∈ months, (monthNameOf month).toList ≠ [] ∧
    ∀ c ∈ (monthNameOf month).toList, c.toLower ∈ letters := by
  decide

theorem Item.writeLower_of_number {n length : Nat} {item : Item}
    (h : item.write i = paddedDigits length n) : item.writeLower i = paddedDigits length n := by
  rw [writeLower, h, map_toLower_of_digits isAsciiDigit_of_mem]

/-- The instant has what a part writes: numbers of two digits at most, and a month by name. -/
def Item.Fits (i : Instant) : Item → Prop
  | month => i.date.month < 100
  | day => i.date.day < 100
  | hour => i.second < dayLength
  | second => i.nano < nanos
  | monthAbbreviation | monthName => i.date.month ∈ months
  | year | minute | literal _ | space => True

section
variable {item : Item} (hfits : item.Fits i)
include hfits

theorem Item.mem_alphabet : ∀ c ∈ item.writeLower i, c ∈ item.alphabet := by
  intro c hc
  cases item with
  | year =>
    obtain ⟨sign, hyear, hsign⟩ := yearText_eq i.date.year
    rw [writeLower, write, map_toLower_yearText, hyear] at hc
    rcases List.mem_append.1 hc with hc | hc
    · refine List.mem_append_right digits ?_
      rcases hsign with ⟨rfl, -⟩ | ⟨rfl, -⟩ | ⟨rfl, -⟩ <;> simp_all
    · exact List.mem_append_left _ (mem_digits (isAsciiDigit_of_mem c hc))
  | month | day | hour | minute | second =>
    rw [writeLower_of_number rfl] at hc
    exact mem_digits (isAsciiDigit_of_mem c hc)
  | monthAbbreviation =>
    obtain ⟨d, hd, rfl⟩ := List.mem_map.1 hc
    exact (letters_of_months _ hfits).2 d (List.mem_of_mem_take hd)
  | monthName =>
    obtain ⟨d, hd, rfl⟩ := List.mem_map.1 hc
    exact (letters_of_months _ hfits).2 d hd
  | literal d => exact hc
  | space => exact hc

theorem Item.exists_cons : ∃ c cs, item.writeLower i = c :: cs := by
  refine List.exists_cons_of_ne_nil (mt List.map_eq_nil_iff.1 ?_)
  cases item with
  | year =>
    obtain ⟨sign, hyear, -⟩ := yearText_eq i.date.year
    rw [write, hyear]
    exact List.append_ne_nil_of_right_ne_nil _ (paddedDigits_ne_nil _ _)
  | month | day | hour | minute | second => exact paddedDigits_ne_nil _ _
  | monthAbbreviation =>
    exact mt List.take_eq_nil_iff.1 (not_or.2 ⟨by decide, (letters_of_months _ hfits).1⟩)
  | monthName => exact (letters_of_months _ hfits).1
  | literal c => exact List.cons_ne_nil _ _
  | space => exact List.cons_ne_nil _ _

end

/-! ## Reading numbers -/

section
variable {ds rest : List Char} (hds : ∀ d ∈ ds, isAsciiDigit d = true)
include hds

theorem trimStart_of_digits (hne : ds ≠ []) : trimStart (ds ++ rest) = ds ++ rest := by
  obtain ⟨d, ds, rfl⟩ := List.exists_cons_of_ne_nil hne
  have hd : isBlank d = false :=
    isBlank_of_asciiDigit (hds d List.mem_cons_self)
  rw [trimStart, List.cons_append, List.dropWhile_cons_of_neg (Bool.eq_false_iff.1 hd)]

/-- A number ends after as many digits as it may have, or where no digit comes next. -/
theorem readUpTo_digits {most : Nat} (hlength : ds.length ≤ most)
    (hrest : ds.length < most → ∀ c ∈ rest.head?, isAsciiDigit c = false) :
    readUpTo most (ds ++ rest) = (readNatural? 10 ds).map fun n => (n, rest) := by
  have hshort : ∀ c ∈ (rest.take (most - ds.length)).head?, isAsciiDigit c = false := by
    intro c hc
    rw [List.head?_take] at hc
    split_ifs at hc with hfull
    · cases hc
    · exact hrest (by omega) c hc
  have htake : ((ds ++ rest).take most).takeWhile isAsciiDigit = ds := by
    rw [List.take_append, List.take_of_length_le hlength, takeWhile_digits hds hshort]
  unfold readUpTo
  dsimp only
  rw [htake, List.drop_left]

end

/-- A number of at most two digits is read from two. -/
theorem readUpTo_paddedDigits {n : Nat} (h : n < 100) (rest : List Char) :
    readUpTo 2 (trimStart (paddedDigits 2 n ++ rest)) = some (n, rest) := by
  have hlength : (paddedDigits 2 n).length = 2 := length_paddedDigits (by decide) h
  rw [trimStart_of_digits isAsciiDigit_of_mem (paddedDigits_ne_nil 2 n),
    readUpTo_digits isAsciiDigit_of_mem hlength.le (by omega), readNatural?_paddedDigits]
  rfl

/-- A text of digits is read as a year of at most four. -/
theorem readYear_of_digits {ds rest : List Char} (hds : ∀ d ∈ ds, isAsciiDigit d = true)
    (hne : ds ≠ []) :
    readYear (ds ++ rest) = (readUpTo 4 (ds ++ rest)).map fun (n, rest) => ((n : Int), rest) := by
  obtain ⟨d, ds, rfl⟩ := List.exists_cons_of_ne_nil hne
  have hd := hds d List.mem_cons_self
  unfold readYear
  split
  · next heq =>
    obtain ⟨rfl, -⟩ := List.cons.inj heq
    exact absurd hd (by decide)
  · next heq =>
    obtain ⟨rfl, -⟩ := List.cons.inj heq
    exact absurd hd (by decide)
  · rfl

theorem readYear_minus (cs : List Char) : readYear (trimStart ('-' :: cs)) =
    (readAll cs).map fun (n, rest) => (-(n : Int), rest) := rfl

theorem readYear_plus (cs : List Char) : readYear (trimStart ('+' :: cs)) =
    (readAll cs).map fun (n, rest) => ((n : Int), rest) := rfl

theorem readAll_paddedDigits {rest : List Char}
    (hrest : ∀ c ∈ rest.head?, isAsciiDigit c = false) (length n : Nat) :
    readAll (paddedDigits length n ++ rest) = some (n, rest) := by
  rw [readAll, readUpTo_digits isAsciiDigit_of_mem (by simp) fun _ => hrest,
    readNatural?_paddedDigits]
  rfl

theorem readYear_yearText {rest : List Char} (hrest : ∀ c ∈ rest.head?, isAsciiDigit c = false)
    (year : Int) : readYear (trimStart (yearText year ++ rest)) = some (year, rest) := by
  obtain ⟨sign, hyear, hsign⟩ := yearText_eq year
  rw [hyear, List.append_assoc]
  rcases hsign with ⟨rfl, hpos, hlarge⟩ | ⟨rfl, hneg⟩ | ⟨rfl, hlarge⟩
  · have hlength : (paddedDigits 4 year.natAbs).length = 4 :=
      length_paddedDigits (by decide) (by omega)
    rw [List.nil_append, trimStart_of_digits isAsciiDigit_of_mem (paddedDigits_ne_nil _ _),
      readYear_of_digits isAsciiDigit_of_mem (paddedDigits_ne_nil _ _),
      readUpTo_digits isAsciiDigit_of_mem hlength.le fun _ => hrest, readNatural?_paddedDigits]
    show some ((year.natAbs : Int), rest) = some (year, rest)
    rw [Int.natAbs_of_nonneg hpos]
  · rw [List.singleton_append, readYear_minus, readAll_paddedDigits hrest]
    show some (-(year.natAbs : Int), rest) = some (year, rest)
    rw [Int.ofNat_natAbs_of_nonpos (Int.le_of_lt hneg), Int.neg_neg]
  · rw [List.singleton_append, readYear_plus, readAll_paddedDigits hrest]
    show some ((year.natAbs : Int), rest) = some (year, rest)
    rw [Int.natAbs_of_nonneg (by omega)]

/-! ## Reading names -/

/-- What follows a word that has been read is left. -/
theorem readWord?_append {word : String} {cs : List Char} (h : word.length ≤ cs.length)
    (rest : List Char) :
    readWord? word (cs ++ rest) = (readWord? word cs).map (· ++ rest) := by
  unfold readWord?
  dsimp only
  rw [List.take_append_of_le_length h, List.drop_append_of_le_length h]
  split_ifs <;> rfl

theorem length_abbreviation (name : String) :
    (String.ofList (name.toList.take 3)).length ≤ 3 := by
  rw [String.length_ofList]
  exact List.length_take_le 3 _

theorem readAbbreviation_append {cs : List Char} (h : 3 ≤ cs.length) (rest : List Char) :
    readAbbreviation (cs ++ rest) =
      (readAbbreviation cs).map fun (month, rest') => (month, rest' ++ rest) := by
  unfold readAbbreviation
  rw [List.map_findSome?]
  refine congrArg (List.findSome? · months) (funext fun month => ?_)
  rw [readWord?_append ((length_abbreviation _).trans h)]
  simp only [Function.comp, Option.map_map]
  rfl

/-- The first three letters of a month's name, in lower case. -/
def abbreviationOf (month : Nat) : List Char :=
  ((monthNameOf month).toList.map Char.toLower).take 3

theorem months_read : ∀ month ∈ months, 3 ≤ (abbreviationOf month).length ∧
    readAbbreviation (abbreviationOf month) = some (month, []) ∧
      readWord? (monthNameOf month) ((monthNameOf month).toList.map Char.toLower) = some [] := by
  decide

theorem readAbbreviation_of_start {month : Nat} (h : month ∈ months) (rest : List Char) :
    readAbbreviation (abbreviationOf month ++ rest) = some (month, rest) := by
  obtain ⟨hlength, hread, -⟩ := months_read month h
  rw [readAbbreviation_append hlength, hread]
  rfl

theorem readAbbreviation_name {month : Nat} (h : month ∈ months) (rest : List Char) :
    readAbbreviation ((monthNameOf month).toList.map Char.toLower ++ rest) =
      some (month, ((monthNameOf month).toList.map Char.toLower).drop 3 ++ rest) := by
  have hsplit : (monthNameOf month).toList.map Char.toLower =
      abbreviationOf month ++ ((monthNameOf month).toList.map Char.toLower).drop 3 :=
    (List.take_append_drop 3 _).symm
  nth_rewrite 1 [hsplit]
  rw [List.append_assoc, readAbbreviation_of_start h]

theorem readMonthName_name {month : Nat} (h : month ∈ months) (rest : List Char) :
    readMonthName ((monthNameOf month).toList.map Char.toLower ++ rest) = some (month, rest) := by
  obtain ⟨-, -, hread⟩ := months_read month h
  have hlength : (monthNameOf month).length ≤
      ((monthNameOf month).toList.map Char.toLower).length := by
    rw [List.length_map, String.length_toList]
  rw [readMonthName, readAbbreviation_name h, Option.map_some]
  dsimp only
  rw [readWord?_append hlength, hread]
  rfl

/-! ## Reading parts -/

/-- What reading a part back sets. -/
def Item.put (i : Instant) (item : Item) (fields : Fields) : Fields :=
  match item with
  | year => { fields with year := i.date.year }
  | month | monthAbbreviation | monthName => { fields with month := i.date.month }
  | day => { fields with day := i.date.day }
  | hour => { fields with hour := i.second / 3600 }
  | minute => { fields with minute := i.second / 60 % 60 }
  | second => { fields with second := i.second % 60 }
  | literal _ | space => fields

/-- The part is written in lower case. -/
def Item.isLower : Item → Bool
  | literal c => c.toLower == c
  | _ => true

/-- The part would go on with the character. -/
def Item.goesOn : Item → Char → Bool
  | year, c => isAsciiDigit c
  | space, c => isBlank c
  | _, _ => false

/-- **A part is read from its own text.** -/
theorem Item.read_writeLower {item : Item} (hfits : item.Fits i)
    (hlower : item.isLower = true) {rest : List Char}
    (hrest : ∀ c ∈ rest.head?, item.goesOn c = false) (fields : Fields) :
    item.read fields (item.writeLower i ++ rest) = some (item.put i fields, rest) := by
  cases item with
  | year =>
    rw [writeLower, write, map_toLower_yearText, read, readYear_yearText hrest]
    rfl
  | month =>
    rw [writeLower_of_number rfl, read, readUpTo_paddedDigits hfits]
    rfl
  | day =>
    rw [writeLower_of_number rfl, read, readUpTo_paddedDigits hfits]
    rfl
  | hour =>
    have hhour : i.second / 3600 < 100 := by
      have hsecond : i.second < 86400 := hfits
      omega
    rw [writeLower_of_number rfl, read, readUpTo_paddedDigits hhour]
    rfl
  | minute =>
    rw [writeLower_of_number rfl, read, readUpTo_paddedDigits (by omega)]
    rfl
  | second =>
    have hnumber : i.second % 60 + i.nano / nanos = i.second % 60 := by
      rw [Nat.div_eq_of_lt hfits, Nat.add_zero]
    rw [writeLower_of_number rfl, hnumber, read, readUpTo_paddedDigits (by omega)]
    rfl
  | monthAbbreviation =>
    have htext : monthAbbreviation.writeLower i = abbreviationOf i.date.month := List.map_take
    rw [htext, read, readAbbreviation_of_start hfits]
    rfl
  | monthName =>
    rw [writeLower, write, read, readMonthName_name hfits]
    rfl
  | literal c =>
    have hc : c.toLower = c := beq_iff_eq.1 hlower
    rw [writeLower, write, List.map_singleton, hc, List.singleton_append, read, if_pos rfl]
    rfl
  | space =>
    cases rest with
    | nil => rfl
    | cons c rest =>
      have hc : ¬ isBlank c = true := Bool.eq_false_iff.1 (hrest c rfl)
      have hskip : trimStart (' ' :: c :: rest) = c :: rest := by
        rw [trimStart, List.dropWhile_cons_of_pos (by decide), List.dropWhile_cons_of_neg hc]
      exact congrArg (fun cs => some (fields, cs)) hskip

/-! ## Reading formats -/

/-- What the next part is written in does not go on with this one. -/
def Item.Parted (item next : Item) : Prop := ∀ c ∈ next.alphabet, item.goesOn c = false

instance : DecidableRel Item.Parted :=
  fun item next => inferInstanceAs (Decidable (∀ c ∈ next.alphabet, item.goesOn c = false))

namespace Format

/-- A text in the format is read as it was written. -/
def IsReadable (f : Format) : Prop := (∀ item ∈ f, item.isLower = true) ∧ f.IsChain Item.Parted

instance (f : Format) : Decidable f.IsReadable := inferInstanceAs (Decidable (_ ∧ _))

/-- What reading a format back sets. -/
def put (f : Format) (i : Instant) (fields : Fields) : Fields :=
  f.foldl (fun fields item => item.put i fields) fields

/-- A text starts with a character of the first part. -/
theorem mem_of_head {item : Item} (hfits : item.Fits i) (f : Format) (rest : List Char) :
    ∀ c ∈ (writeLower (item :: f) i ++ rest).head?, c ∈ item.alphabet := by
  obtain ⟨c, cs, hcs⟩ := Item.exists_cons hfits
  rw [writeLower_cons, hcs]
  rintro d ⟨⟩
  exact Item.mem_alphabet hfits c (hcs ▸ List.mem_cons_self)

/-- A text ends with a character of the last part. -/
theorem mem_of_getLast {item : Item} (hfits : item.Fits i) (f : Format) :
    ∀ c ∈ (writeLower (f ++ [item]) i).getLast?, c ∈ item.alphabet := by
  obtain ⟨c, cs, hcs⟩ := Item.exists_cons hfits
  intro d hd
  have hne : item.writeLower i ≠ [] := hcs ▸ List.cons_ne_nil c cs
  rw [writeLower_append, writeLower_cons, writeLower_nil, List.append_nil,
    List.getLast?_append_of_ne_nil _ hne] at hd
  exact Item.mem_alphabet hfits d (List.mem_of_getLast? hd)

theorem readFields_append (f g : Format) (fields : Fields) (cs : List Char) :
    readFields (f ++ g) fields cs =
      (readFields f fields cs).bind fun (fields, rest) => readFields g fields rest := by
  induction f generalizing fields cs with
  | nil => rfl
  | cons item f ih =>
    rw [List.cons_append, readFields, readFields]
    cases item.read fields cs with
    | none => rfl
    | some read => exact ih read.1 read.2

theorem readFields_writeLower {f : Format} (hfits : ∀ item ∈ f, item.Fits i)
    (hreadable : f.IsReadable) {rest : List Char}
    (hrest : ∀ item ∈ f.getLast?, ∀ c ∈ rest.head?, item.goesOn c = false) (fields : Fields) :
    f.readFields fields (f.writeLower i ++ rest) = some (f.put i fields, rest) := by
  obtain ⟨hlower, hparted⟩ := hreadable
  induction f generalizing fields with
  | nil => rfl
  | cons item f ih =>
    obtain ⟨hitem, hfits⟩ := List.forall_mem_cons.1 hfits
    obtain ⟨hitemLower, hlower⟩ := List.forall_mem_cons.1 hlower
    -- the next part starts with one of its characters; after the last one comes the rest
    have hends : ∀ c ∈ (writeLower f i ++ rest).head?, item.goesOn c = false := by
      cases f with
      | nil => exact hrest item rfl
      | cons next f =>
        obtain ⟨hnext, -⟩ := List.isChain_cons_cons.1 hparted
        exact fun c hc => hnext c (mem_of_head (hfits next List.mem_cons_self) f rest c hc)
    have hlast : ∀ item ∈ f.getLast?, ∀ c ∈ rest.head?, item.goesOn c = false := by
      cases f with
      | nil => exact nofun
      | cons next f => exact hrest
    rw [writeLower_cons, List.append_assoc, readFields,
      Item.read_writeLower hitem hitemLower hends]
    exact ih hfits hlast (item.put i fields) hlower hparted.tail

/-- **A format reads its own text.** -/
theorem readInstant?_writeLower {f : Format} (hfits : ∀ item ∈ f, item.Fits i)
    (hreadable : f.IsReadable) : f.readInstant? (f.writeLower i) = (f.put i {}).instant? 0 := by
  have hread := @readFields_writeLower i f hfits hreadable [] (fun _ _ => nofun) {}
  rw [List.append_nil] at hread
  rw [readInstant?, hread]

end Format

end Reckoner.Calendar
