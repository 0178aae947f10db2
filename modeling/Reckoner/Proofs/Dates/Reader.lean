/-
  Dates are read back as they were written.

  * `marked`, `dayFirst`, `readAs`: the format that is never read, those that are taken for another
    one, and what a written instant is read as;
  * `earlier_formats`: why no earlier format takes a text for something else;
  * `readFormats?_writeLower`: **an instant is read from its text in any other format**;
  * `readDate_write`: **so it is in any letter case, and with `T` before the time it is refused**.
-/
import Reckoner.Proofs.Calendar.Order
import Reckoner.Proofs.Dates.Clock
import Reckoner.Proofs.Dates.Formats

namespace Reckoner.Dates

open Calendar Text Decimal

/-- The format `2024-01-15T10:30:00`. -/
def marked : Format := dayFormat ++ [.literal 'T'] ++ timeFormat

/-- The formats of numbers that start with the day. -/
def dayFirst : List Format :=
  [[.day, .literal '/', .month, .literal '/', .year, .space] ++ timeFormat,
    [.day, .literal '/', .month, .literal '/', .year]]

/-- What a format shows of an instant: all of it, or the day. -/
def shownIn (f : Format) (i : Instant) : Instant :=
  if f ∈ instantFormats then i else i.startOfDay

/-- What an instant that is written in a format is read as. -/
def readAs (f : Format) (i : Instant) : Instant :=
  shownIn f (if f ∈ dayFirst ∧ i.date.day ≤ 12 then exchanged i else i)

variable {i : Instant}

/-! ## What can be written -/

theorem fits_of_numbers (hmonth : i.date.month < 100) (hday : i.date.day < 100)
    (hsecond : i.second < dayLength) (hnano : i.nano = 0) {item : Item}
    (hitem : item ∉ [Item.monthAbbreviation, .monthName]) : item.Fits i := by
  cases item with
  | month => exact hmonth
  | day => exact hday
  | hour => exact hsecond
  | second =>
    show i.nano < nanos
    rw [hnano]
    decide
  | monthAbbreviation | monthName => exact absurd (by decide) hitem
  | year | minute | literal | space => trivial

section
variable (hi : i.IsRegular) (hnano : i.nano = 0)
include hi hnano

theorem fits_of_isRegular (item : Item) : item.Fits i := by
  obtain ⟨hfirst, hlast, -, hday⟩ := Date.exists_of_isValid hi.date
  have hlength := monthLength_le i.date.year i.date.month
  by_cases hitem : item ∈ [Item.monthAbbreviation, .monthName]
  · rcases List.mem_pair.1 hitem with rfl | rfl
    · exact mem_months.2 ⟨hfirst, hlast⟩
    · exact mem_months.2 ⟨hfirst, hlast⟩
  · exact fits_of_numbers (by omega) (by omega) hi.second hnano hitem

end

/-! ## Reading in the same format -/

theorem put_instantFormats : ∀ f ∈ instantFormats, f.put i {} =
    ⟨i.date.year, i.date.month, i.date.day,
      i.second / 3600, i.second / 60 % 60, i.second % 60⟩ := by
  simp only [instantFormats, List.forall_mem_cons]
  exact ⟨rfl, rfl, rfl, rfl, rfl, nofun⟩

theorem put_dayFormats : ∀ f ∈ dayFormats, f.put i {} =
    ⟨i.date.year, i.date.month, i.date.day, 0, 0, 0⟩ := by
  simp only [dayFormats, List.forall_mem_cons]
  exact ⟨rfl, rfl, rfl, rfl, rfl, rfl, rfl, rfl, nofun⟩

theorem instant?_of_time {second : Nat} (hsecond : second < dayLength) (d : Date) :
    Fields.instant? ⟨d.year, d.month, d.day, second / 3600, second / 60 % 60, second % 60⟩ 0 =
      if d.isValid then some ⟨d, second, 0⟩ else none := by
  have hhour : second / 3600 < 24 := by
    unfold dayLength at hsecond
    omega
  have hclock : second / 3600 * 3600 + second / 60 % 60 * 60 + second % 60 = second := by omega
  have hmost : second % 60 ≠ 60 := by omega
  have hlast : second % 60 ≤ 60 := by omega
  have hminute : second / 60 % 60 < 60 := by omega
  have hdate : Date.ofYmd? d.year d.month d.day = if d.isValid then some d else none := rfl
  unfold Fields.instant?
  dsimp only
  rw [hdate]
  by_cases hvalid : d.isValid = true
  · simp [hvalid, hhour, hminute, hlast, hmost, hclock]
  · rw [if_neg hvalid, if_neg hvalid]
    rfl

theorem instant?_of_day (d : Date) : Fields.instant? ⟨d.year, d.month, d.day, 0, 0, 0⟩ 0 =
    if d.isValid then some (.midnight d) else none :=
  @instant?_of_time 0 (by decide) d

theorem formats_readable : ∀ f ∈ instantFormats ++ dayFormats, f ≠ marked → f.IsReadable := by
  decide

/-- **A format reads its own text**, unless the day does not exist. -/
theorem readInstant?_own {f : Format} (hf : f ∈ instantFormats ++ dayFormats) (hmarked : f ≠ marked)
    (hsecond : i.second < dayLength) (hnano : i.nano = 0) (hfits : ∀ item ∈ f, item.Fits i) :
    f.readInstant? (f.writeLower i) = if i.date.isValid then some (shownIn f i) else none := by
  rw [Format.readInstant?_writeLower hfits (formats_readable f hf hmarked)]
  by_cases htime : f ∈ instantFormats
  · rw [put_instantFormats f htime, instant?_of_time hsecond, shownIn, if_pos htime, ← hnano]
  · have hday : f ∈ dayFormats := (List.mem_append.1 hf).resolve_left htime
    rw [put_dayFormats f hday, instant?_of_day, shownIn, if_neg htime]
    rfl

/-! ## Earlier formats -/

/-- What the first success is, if what comes before it fails or gives the same. -/
theorem findSome?_of_earlier {α β : Type} [DecidableEq α] {p : α → Option β} {a : α} {b : β}
    {l : List α} (ha : a ∈ l) (hp : p a = some b)
    (h : ∀ x ∈ l.takeWhile (· ≠ a), p x = none ∨ p x = some b) : l.findSome? p = some b := by
  induction l with
  | nil => exact absurd ha List.not_mem_nil
  | cons x l ih =>
    by_cases hx : x = a
    · rw [List.findSome?_cons, hx, hp]
    · rw [List.takeWhile_cons_of_pos (by exact decide_eq_true hx)] at h
      obtain ⟨hfirst, h⟩ := List.forall_mem_cons.1 h
      have ha : a ∈ l := (List.mem_cons.1 ha).resolve_left (Ne.symm hx)
      rcases hfirst with hnone | hsome
      · rw [List.findSome?_cons, hnone]
        exact ih ha h
      · rw [List.findSome?_cons, hsome]

/-- Where a month stands in a format, before a blank and a number: with what is before it, the
number, and what comes after it. -/
def namings : List (Format × Item × Format) :=
  [([], .day, [.literal ',', .space, .year]), ([.day, .space], .year, [])]

theorem formats_of_namings : ∀ p ∈ namings, p.1 ∈ [[], [Item.day, .space]] ∧
    p.2.1 ∈ [Item.day, .year] ∧ ∀ name ∈ [Item.monthAbbreviation, .monthName],
      p.1 ++ name :: .space :: p.2.1 :: p.2.2 ∈ dayFormats ∧
        p.1 ++ name :: .space :: p.2.1 :: p.2.2 ∉ instantFormats := by
  decide

theorem formats_of_slashed : ∀ tail ∈ [[], clock],
    slashed .day .month .year tail ∈ dayFirst ∧
      slashed .month .day .year tail ∈ instantFormats ++ dayFormats ∧
      slashed .month .day .year tail ≠ marked ∧ slashed .month .day .year tail ∉ dayFirst ∧
      (slashed .month .day .year tail ∈ instantFormats ↔
        slashed .day .month .year tail ∈ instantFormats) ∧
      ∀ item ∈ slashed .month .day .year tail, item ∉ [Item.monthAbbreviation, .monthName] := by
  decide

theorem slashed_of_dayFirst :
    ∀ f ∈ dayFirst, ∃ tail ∈ [[], clock], f = slashed .day .month .year tail := by
  decide

theorem isRegular_exchanged (hi : i.IsRegular) (hsmall : i.date.day ≤ 12) :
    (exchanged i).IsRegular := by
  obtain ⟨hyear, hfirst, hlast, hpos, -⟩ := (Date.isValid_iff _).1 hi.date
  have hlength := monthLength_pos i.date.year i.date.day
  have hlong : i.date.month ≤ monthLength i.date.year i.date.day := by omega
  exact ⟨(Date.isValid_iff _).2 ⟨hyear, hpos, hsmall, hfirst, hlong⟩, hi.second, hi.nano⟩

theorem marked_mem : marked ∈ instantFormats := by
  decide

/-- **Why no earlier format takes a text for something else**: it is apart from the format of the
text, or both have numbers between slashes, or both have the month by name. -/
theorem earlier_formats : ∀ f ∈ instantFormats ++ dayFormats,
    ∀ g ∈ (instantFormats ++ dayFormats).takeWhile (· ≠ f), f ≠ marked → g.Apart f ∨
      (∃ tail ∈ [[], clock], g = slashed .year .month .day tail ∧
        ∃ x ∈ [Item.month, .day], ∃ y ∈ [Item.month, .day], f = slashed x y .year tail) ∨
      (∃ tail ∈ [[], clock],
        g = slashed .month .day .year tail ∧ f = slashed .day .month .year tail) ∨
      ∃ p ∈ namings, g = p.1 ++ .monthAbbreviation :: .space :: p.2.1 :: p.2.2 ∧
        f = p.1 ++ .monthName :: .space :: p.2.1 :: p.2.2 := by
  decide

section
variable (hi : i.IsRegular) (hnano : i.nano = 0)
include hi hnano

/-- A day above 12 in front is read as no month. -/
theorem readInstant?_dayFirst (hlarge : 12 < i.date.day) {tail : Format}
    (htail : tail ∈ [[], clock]) : (slashed .month .day .year tail).readInstant?
      ((slashed .day .month .year tail).writeLower i) = none := by
  obtain ⟨-, hmem, hmarked, -, -, hnumbers⟩ := formats_of_slashed tail htail
  have hmonth : i.date.month < 100 := fits_of_isRegular hi hnano .month
  have hday : i.date.day < 100 := fits_of_isRegular hi hnano .day
  have hfits : ∀ item ∈ slashed .month .day .year tail, item.Fits (exchanged i) :=
    fun item hitem => @fits_of_numbers (exchanged i) hday hmonth hi.second hnano item
      (hnumbers item hitem)
  have hinvalid : ¬ (exchanged i).date.isValid = true := by
    intro hvalid
    have hle : i.date.day ≤ 12 := (Date.exists_of_isValid hvalid).month_le
    omega
  have hown := @readInstant?_own (exchanged i) _ hmem hmarked hi.second hnano hfits
  rw [writeLower_exchanged htail, hown, if_neg hinvalid]

/-- No earlier format reads something else, if no day that may be a month is in front. -/
theorem readInstant?_earlier {f g : Format} (hf : f ∈ instantFormats ++ dayFormats)
    (hg : g ∈ (instantFormats ++ dayFormats).takeWhile (· ≠ f)) (hmarked : f ≠ marked)
    (hday : f ∈ dayFirst → 12 < i.date.day) :
    g.readInstant? (f.writeLower i) = none ∨
      g.readInstant? (f.writeLower i) = some (shownIn f i) := by
  have hfits := fits_of_isRegular hi hnano
  rcases earlier_formats f hf g hg hmarked with hapart | ⟨tail, htail, rfl, x, hx, y, hy, rfl⟩ |
    ⟨tail, htail, rfl, rfl⟩ | ⟨p, hp, rfl, rfl⟩
  · exact .inl (Format.readInstant?_of_apart hapart fun item _ => hfits item)
  · exact .inl (readInstant?_yearFirst hx hy (hfits x) (hfits y) htail)
  · obtain ⟨hfirst, -⟩ := formats_of_slashed tail htail
    exact .inl (readInstant?_dayFirst hi hnano (hday hfirst) htail)
  · obtain ⟨hbefore, hnext, hnames⟩ := formats_of_namings p hp
    obtain ⟨hshort, hshort'⟩ := hnames .monthAbbreviation (by decide)
    obtain ⟨-, hlong⟩ := hnames .monthName (by decide)
    rcases readInstant?_abbreviated hbefore hnext p.2.2 (fun item _ => hfits item) with
      hnone | hsame
    · exact .inl hnone
    · right
      rw [hsame, readInstant?_own (List.mem_append_right _ hshort)
        (ne_of_mem_of_not_mem marked_mem hshort').symm hi.second hnano fun item _ => hfits item,
        if_pos hi.date, shownIn, shownIn, if_neg hshort', if_neg hlong]

/-- **An instant is read in the first format that can be meant.** -/
theorem readFormats?_of_first {f : Format} (hf : f ∈ instantFormats ++ dayFormats)
    (hmarked : f ≠ marked) (hday : f ∈ dayFirst → 12 < i.date.day) :
    readFormats? (f.writeLower i) = some (shownIn f i) := by
  have hown : f.readInstant? (f.writeLower i) = some (shownIn f i) := by
    rw [readInstant?_own hf hmarked hi.second hnano
      fun item _ => fits_of_isRegular hi hnano item, if_pos hi.date]
  have hfirst : ((instantFormats ++ dayFormats).findSome? fun g =>
      g.readInstant? (f.writeLower i)) = some (shownIn f i) :=
    findSome?_of_earlier hf hown fun g hg =>
      readInstant?_earlier hi hnano hf hg hmarked hday
  rw [readFormats?, hfirst]

/-- **An instant is read from its text in every format but one.** -/
theorem readFormats?_writeLower {f : Format} (hf : f ∈ instantFormats ++ dayFormats)
    (hmarked : f ≠ marked) : readFormats? (f.writeLower i) = some (readAs f i) := by
  by_cases hswap : f ∈ dayFirst ∧ i.date.day ≤ 12
  · obtain ⟨hfirst, hsmall⟩ := hswap
    obtain ⟨tail, htail, rfl⟩ := slashed_of_dayFirst f hfirst
    obtain ⟨-, hmem, hmarked', hlast, hshown, -⟩ := formats_of_slashed tail htail
    have hread := readFormats?_of_first (isRegular_exchanged hi hsmall) hnano hmem
      hmarked' fun h => absurd h hlast
    rw [writeLower_exchanged htail, hread, readAs, if_pos ⟨hfirst, hsmall⟩, shownIn, shownIn]
    simp only [hshown]
  · rw [readAs, if_neg hswap]
    refine readFormats?_of_first hi hnano hf hmarked fun hfirst => ?_
    exact Nat.lt_of_not_le fun hsmall => hswap ⟨hfirst, hsmall⟩

end

/-! ## The mark before the time -/

theorem readExactly_paddedDigits {count n : Nat} (hpos : 0 < count) (h : n < 10 ^ count)
    (rest : List Char) : readExactly count (paddedDigits count n ++ rest) = some (n, rest) := by
  have hlength : (paddedDigits count n).length = count := length_paddedDigits hpos h
  have hread := @readUpTo_digits _ rest isAsciiDigit_of_mem count hlength.le (by omega)
  rw [readNatural?_paddedDigits] at hread
  rw [readExactly, hread, Option.map_some]
  dsimp only
  rw [List.length_append, hlength, if_pos (Nat.add_comm _ _)]

theorem writeLower_marked : marked.writeLower i = yearText i.date.year ++ '-' ::
    (paddedDigits 2 i.date.month ++ '-' :: (paddedDigits 2 i.date.day ++ 't' ::
      (paddedDigits 2 (i.second / 3600) ++ ':' :: (paddedDigits 2 (i.second / 60 % 60) ++ ':' ::
        (paddedDigits 2 (i.second % 60 + i.nano / nanos) ++ []))))) := by
  simp only [marked, dayFormat, timeFormat, List.cons_append, List.nil_append,
    Format.writeLower_cons, Format.writeLower_nil]
  rw [@Item.writeLower_of_number i _ _ .month rfl, @Item.writeLower_of_number i _ _ .day rfl,
    @Item.writeLower_of_number i _ _ .hour rfl, @Item.writeLower_of_number i _ _ .minute rfl,
    @Item.writeLower_of_number i _ _ .second rfl, Item.writeLower, Item.write, map_toLower_yearText]
  rfl

theorem bind_of_some {α β : Type} {x : Option α} {a : α} (h : x = some a) (k : α → Option β) :
    (x >>= k) = k a := by
  rw [h]
  rfl

/-- A stamp needs an offset from universal time. -/
theorem readStamp?_marked (hmonth : i.date.month < 100) (hday : i.date.day < 100)
    (hsecond : i.second < dayLength) (hnano : i.nano = 0) :
    readStamp? (marked.writeLower i) = none := by
  have hhour : i.second / 3600 < 100 := by
    unfold dayLength at hsecond
    omega
  have hminute : i.second / 60 % 60 < 100 := by omega
  have hnumber : i.second % 60 + i.nano / nanos < 100 := by
    rw [hnano, Nat.zero_div]
    omega
  have hread {n : Nat} (h : n < 100) := readExactly_paddedDigits (by decide : 0 < 2) h
  have hmark {has : Char → Bool} {c : Char} (h : has c = true) (cs : List Char) :
      readChar has (c :: cs) = some cs := if_pos h
  rw [writeLower_marked]
  obtain ⟨sign, hyear, ⟨rfl, hpos, hlarge⟩ | ⟨rfl, -⟩ | ⟨rfl, -⟩⟩ := yearText_eq i.date.year
  · have hsmall : i.date.year.natAbs < 10 ^ 4 := by omega
    rw [hyear, List.nil_append]
    -- all is read up to the offset, and nothing is left for it
    refine (bind_of_some (readExactly_paddedDigits (by decide) hsmall _) _).trans ?_
    refine (bind_of_some (hmark rfl _) _).trans ?_
    refine (bind_of_some (hread hmonth _) _).trans ?_
    refine (bind_of_some (hmark rfl _) _).trans ?_
    refine (bind_of_some (hread hday _) _).trans ?_
    refine (bind_of_some (hmark rfl _) _).trans ?_
    refine (bind_of_some (hread hhour _) _).trans ?_
    refine (bind_of_some (hmark rfl _) _).trans ?_
    refine (bind_of_some (hread hminute _) _).trans ?_
    refine (bind_of_some (hmark rfl _) _).trans ?_
    refine (bind_of_some (hread hnumber _) _).trans ?_
    rfl
  · rw [hyear]
    rfl
  · rw [hyear]
    rfl

theorem formats_apart_marked : ∀ g ∈ instantFormats ++ dayFormats, g.Apart marked := by
  decide

/-! ## The text as it is typed -/

/-- What the formats are written in: ASCII, with no blank at either end and with digits. -/
theorem alphabets_of_formats : ∀ f ∈ instantFormats ++ dayFormats,
    (∀ item ∈ f, ∀ c ∈ item.alphabet, c.toNat < 128) ∧
      (∀ item ∈ f.head?, ∀ c ∈ item.alphabet, isBlank c = false) ∧
        (∀ item ∈ f.getLast?, ∀ c ∈ item.alphabet, isBlank c = false) ∧ .year ∈ f := by
  decide

section
variable (hi : i.IsRegular) (hnano : i.nano = 0)
include hi hnano

/-- **With the mark `T` before the time no text is read.** -/
theorem readFormats?_marked : readFormats? (marked.writeLower i) = none := by
  have hfits := fits_of_isRegular hi hnano
  have hnone : ((instantFormats ++ dayFormats).findSome? fun g =>
      g.readInstant? (marked.writeLower i)) = none :=
    List.findSome?_eq_none_iff.2 fun g hg =>
      Format.readInstant?_of_apart (formats_apart_marked g hg) fun item _ => hfits item
  rw [readFormats?, hnone]
  exact readStamp?_marked (hfits .month) (hfits .day) hi.second hnano

variable {f : Format} (hf : f ∈ instantFormats ++ dayFormats)
include hf

theorem lower_write : lower (f.write i) = f.writeLower i := by
  obtain ⟨hascii, -⟩ := alphabets_of_formats f hf
  refine lower_eq_map fun c hc => .inl ?_
  by_contra hlarge
  obtain ⟨item, hitem, hmem⟩ :=
    Format.mem_writeLower.1 (List.mem_map_of_mem (f := Char.toLower) hc)
  rw [toLower_of_not_ascii hlarge] at hmem
  exact hlarge (hascii item hitem c
    (Item.mem_alphabet (fits_of_isRegular hi hnano item) c hmem))

/-- A text in any letter case is read in lower case, and there is nothing to trim. -/
theorem lower_trim_of_write {cs : List Char} (hcs : lower cs = lower (f.write i)) :
    lower (trim cs) = f.writeLower i := by
  have hfits := fits_of_isRegular hi hnano
  obtain ⟨-, hfirst, hlast, -⟩ := alphabets_of_formats f hf
  rw [lower_write hi hnano hf] at hcs
  rw [lower_trim_of_edges, hcs]
  · rw [hcs]
    cases f with
    | nil => exact nofun
    | cons item f =>
      intro c hc
      rw [← List.append_nil (Format.writeLower _ _)] at hc
      exact hfirst item rfl c (Format.mem_of_head (hfits item) f [] c hc)
  · rw [hcs]
    rcases List.eq_nil_or_concat f with rfl | ⟨f, item, rfl⟩
    · exact nofun
    · rw [List.concat_eq_append] at hlast ⊢
      exact fun c hc => hlast item List.getLast?_concat c
        (Format.mem_of_getLast (hfits item) f c hc)

/-- A text with a year is no keyword. -/
theorem not_keyword_of_write : String.ofList (f.writeLower i) ∉ keywords := by
  obtain ⟨-, -, -, hyear⟩ := alphabets_of_formats f hf
  intro hmem
  have hfits := fits_of_isRegular hi hnano .year
  obtain ⟨c, cs, hcs⟩ := Item.exists_cons hfits
  have hc : c ∈ Item.year.writeLower i := hcs ▸ List.mem_cons_self
  have hletters := keyword_letters _ hmem
  rw [String.toList_ofList, List.all_eq_true] at hletters
  have hletter := hletters c (Format.mem_writeLower.2 ⟨.year, hyear, hc⟩)
  have hnone : ∀ c ∈ Item.year.alphabet, ¬ 97 ≤ c.toNat := by decide
  simp only [Bool.and_eq_true, decide_eq_true_eq] at hletter
  exact hnone c (Item.mem_alphabet hfits c hc) hletter.1.1

end

/-- **A date in any letter case is read as it was written**, whatever the time of asking: all of the
instant, or its day; with day and month exchanged if the day is in front and may be a month. Only
with the mark `T` before the time it is refused, for in lower case the mark is not found. -/
theorem readDate_write {i : Instant} (hi : i.IsRegular) (hnano : i.nano = 0) {f : Format}
    (hf : f ∈ instantFormats ++ dayFormats) {text : String}
    (htext : lower text.toList = lower (f.write i)) (now : Instant) : readDate now text =
      if f = marked then .error (.unparseableDate (String.ofList (lower (f.write i))))
      else .ok (readAs f i) := by
  have hread := lower_trim_of_write hi hnano hf htext
  have hkeyword : String.ofList (lower (trim text.toList)) ∉ keywords :=
    hread ▸ not_keyword_of_write hi hnano hf
  rw [readDate_of_not_keyword hkeyword, readWritten, hread, lower_write hi hnano hf]
  split_ifs with hmarked
  · rw [hmarked, readFormats?_marked hi hnano]
  · rw [readFormats?_writeLower hi hnano hf hmarked]

theorem readDate_write_march : readDate (.midnight ⟨2024, 1, 15⟩) "MARCH 05, 2024" =
    .ok (.midnight ⟨2024, 3, 5⟩) :=
  @readDate_write ⟨⟨2024, 3, 5⟩, 3723, 0⟩ ⟨by decide, by decide, by decide⟩ rfl
    [.monthName, .space, .day, .literal ',', .space, .year] (by decide) "MARCH 05, 2024"
    (by decide) (.midnight ⟨2024, 1, 15⟩)

theorem mark_not_found : marked ∈ instantFormats ∧
    String.ofList (marked.write ⟨⟨2024, 3, 5⟩, 3723, 0⟩) = "2024-03-05T01:02:03" ∧
    readDate (.midnight ⟨2024, 1, 15⟩) "2024-03-05T01:02:03" =
      .error (.unparseableDate "2024-03-05t01:02:03") := by
  refine ⟨by decide, by decide, ?_⟩
  rfl

end Reckoner.Dates
