/-
  What date queries look like.

  * `Datelike`: a text has something of a date query: a word or a sign, the name of a month
    before a number, or numbers with dashes or slashes between them;
  * `datelike_of_readDate`: what is read as a date is datelike;
  * `datelike_of_evaluate`: **so is every query with an answer**, if lower-casing keeps it.
-/
import Reckoner.Dates
import Reckoner.Proofs.Calendar.Format
import Reckoner.Proofs.Dates.Shape
import Reckoner.Proofs.Success
import Reckoner.Proofs.Text.Covered

namespace Reckoner.Dates

open Calendar Text

/-- The words that a date query may start with. -/
def openings : List (List Char) :=
  (["next", "last", "age", "what", "which"] ++ keywords).map String.toList

/-- The words between dates, and those that say how a distance counts. -/
def relations : List (List Char) := ["between", "ago", "from"].map String.toList

/-- The units that dates are moved by. -/
def unitNames : List (List Char) :=
  ["second", "minute", "hour", "day", "week", "month", "year"].map String.toList

/-- The text has something of a date query. -/
inductive Datelike (cs : List Char) : Prop
  | opens {bs word rest : List Char} (hcs : cs = bs ++ word ++ rest) (hword : word ∈ openings)
    (hbs : ∀ b ∈ bs, isBlank b = true)
  | relates {word : List Char} (hword : word ∈ relations) (hwithin : word <:+: cs)
  | moves {pre rest unit : List Char} {sign : Char} (hcs : cs = pre ++ sign :: rest)
    (hpre : pre ≠ []) (hsign : sign ∈ ['+', '-']) (hunit : unit ∈ unitNames)
    (hwithin : unit <:+: cs)
  | marks {mark : Char} (hmark : mark ∈ [':', ',']) (hmem : mark ∈ cs)
  | names {pre word rest : List Char} {d : Char} (hcs : cs = pre ++ word ++ rest)
    (hpre : ∀ c ∈ pre, isAsciiLower c = false) (hword : word ∈ abbreviations) (hd : d ∈ rest)
    (hdigit : isAsciiDigit d = true)
  | counts {sign : Char} (hchars : ∀ c ∈ cs, IsNumeric c ∨ c = '/') (hsign : sign ∈ ['-', '/'])
    (hmem : sign ∈ cs)

/-! ## Dates -/

theorem isAsciiLower_of_numeric {c : Char} (h : IsNumeric c) : isAsciiLower c = false := by
  rw [Bool.eq_false_iff]
  intro hlower
  rcases h with hdigit | hblank | hsign
  · have hdigit := isDigit_of_ascii hdigit
    exact Bool.false_ne_true ((isDigit_of_lower hlower).symm.trans hdigit)
  · exact Bool.false_ne_true ((isBlank_of_lower hlower).symm.trans hblank)
  · have hsigns : ∀ c ∈ ['+', '-'], isAsciiLower c = false := by decide
    exact Bool.false_ne_true ((hsigns c hsign).symm.trans hlower)

/-- What a format of dates has of a date. -/
theorem kinds_of_formats : ∀ f ∈ instantFormats ++ dayFormats,
    (∃ mark ∈ [':', ','], Item.literal mark ∈ f) ∨
    ((∀ item ∈ f, item ∈ [.year, .month, .day, .literal '-', .literal '/']) ∧
      ∃ sign ∈ ['-', '/'], Item.literal sign ∈ f) ∨
    ∃ item ∈ [Item.monthAbbreviation, .monthName], f = [.day, .space, item, .space, .year] := by
  decide

theorem datelike_of_takes {f : Format} (hf : f ∈ instantFormats ++ dayFormats)
    {bs cs bs' : List Char} (hbs : ∀ b ∈ bs, isBlank b = true)
    (hbs' : ∀ b ∈ bs', isBlank b = true) (hkept : ∀ c ∈ cs, IsKept c) (h : f.Takes cs) :
    Datelike (bs ++ cs ++ bs') := by
  have hmem : ∀ c ∈ cs, c ∈ bs ++ cs ++ bs' :=
    fun c hc => List.mem_append_left bs' (List.mem_append_right bs hc)
  rcases kinds_of_formats f hf with ⟨mark, hmark, hliteral⟩ | ⟨hitems, sign, hsign, hliteral⟩ |
    ⟨item, hitem, rfl⟩
  · exact .marks hmark (hmem mark (h.mem_of_literal hliteral))
  · refine .counts ?_ hsign (hmem sign (h.mem_of_literal hliteral))
    have hchars : ∀ c ∈ cs, IsNumeric c ∨ c = '/' := by
      refine h.forall_mem fun item hitem s hs c hc => ?_
      have hitem := hitems item hitem
      simp only [List.mem_cons, List.not_mem_nil, or_false] at hitem
      rcases hitem with rfl | rfl | rfl | rfl | rfl
      · exact .inl (hs.1 c hc)
      · exact .inl (hs.1 c hc)
      · exact .inl (hs.1 c hc)
      · obtain rfl : s = ['-'] := hs
        obtain rfl := List.mem_singleton.1 hc
        exact .inl (.inr (.inr (by decide)))
      · obtain rfl : s = ['/'] := hs
        exact .inr (List.mem_singleton.1 hc)
    simp only [List.forall_mem_append]
    exact ⟨⟨fun b hb => .inl (.inr (.inl (hbs b hb))), hchars⟩,
      fun b hb => .inl (.inr (.inl (hbs' b hb)))⟩
  · obtain ⟨day, _, rfl, hday, bs₁, _, rfl, hbs₁, name, _, rfl, hname, bs₂, _, rfl, -, year, _, rfl,
      hyear, rfl⟩ := h
    have hname : (name.map Char.toLower).take 3 ∈ abbreviations := by
      rcases List.mem_pair.1 hitem with rfl | rfl
      · exact hname
      · exact hname
    simp only [List.forall_mem_append] at hkept
    have hlower : name.map Char.toLower = name :=
      (List.map_congr_left fun c hc => toLower_of_kept (hkept.2.2.1 c hc)).trans (List.map_id name)
    rw [hlower] at hname
    obtain ⟨word, more, rfl, hword⟩ : ∃ word more, name = word ++ more ∧ word ∈ abbreviations :=
      ⟨name.take 3, name.drop 3, (List.take_append_drop 3 name).symm, hname⟩
    obtain ⟨d, hd, hdigit⟩ := hyear.2
    have hcs : bs ++ (day ++ (bs₁ ++ (word ++ more ++ (bs₂ ++ (year ++ []))))) ++ bs' =
        (bs ++ day ++ bs₁) ++ word ++ (more ++ bs₂ ++ year ++ bs') := by
      simp
    refine .names hcs ?_ hword (by simp [hd]) hdigit
    simp only [List.forall_mem_append]
    exact ⟨⟨fun b hb => isAsciiLower_of_numeric (.inr (.inl (hbs b hb))),
      fun c hc => isAsciiLower_of_numeric (hday.1 c hc)⟩,
      fun b hb => isAsciiLower_of_numeric (.inr (.inl (hbs₁ b hb)))⟩

/-- What is read as a date is datelike. -/
theorem datelike_of_readDate {now i : Instant} {text : String} (h : readDate now text = .ok i)
    (hkept : ∀ c ∈ text.toList, IsKept c) : Datelike text.toList := by
  obtain ⟨bs, bs', htext, hbs, hbs'⟩ := exists_trim text.toList
  have hkept' : ∀ c ∈ trim text.toList, IsKept c := by
    rw [htext] at hkept
    simp only [List.forall_mem_append] at hkept
    exact hkept.1.2
  have hkeyword : ∀ k ∈ keywords, (String.ofList (trim text.toList) == k) = true →
      Datelike text.toList := by
    intro k hk heq
    have hword : trim text.toList = k.toList := by
      rw [← beq_iff_eq.1 heq, String.toList_ofList]
    rw [hword] at htext
    exact .opens htext (List.mem_map_of_mem (List.mem_append_right _ hk)) hbs
  unfold readDate at h
  rw [lower_of_kept hkept'] at h
  dsimp only at h
  split_ifs at h with hnow htoday hyesterday htomorrow
  · exact hkeyword "now" (by decide) hnow
  · exact hkeyword "today" (by decide) htoday
  · exact hkeyword "yesterday" (by decide) hyesterday
  · exact hkeyword "tomorrow" (by decide) htomorrow
  · split at h
    · next j hread =>
      unfold readFormats? at hread
      rw [htext]
      split at hread
      · next k hformat =>
        obtain ⟨f, hf, hfits⟩ := List.exists_of_findSome?_eq_some hformat
        exact datelike_of_takes hf hbs hbs' hkept' (Format.takes_of_readInstant? hfits)
      · have hcolon := colon_of_readStamp? hread
        exact .marks (by decide)
          (List.mem_append_left bs' (List.mem_append_right bs hcolon))
    · cases h

/-! ## Queries -/

theorem unit_of_fits {before : Option Char} {stretch rest : List Char}
    {groups : List (List Char)}
    (h : (Pattern.choice Shape.shiftUnits).Fits before stretch rest groups) :
    ∃ unit plural, stretch = unit ++ plural ∧ unit ∈ unitNames := by
  obtain ⟨q, hq, hfits⟩ := Pattern.fits_choice.1 h
  rw [← List.map_cons] at hq
  obtain ⟨word, hword, rfl⟩ := List.mem_map.1 hq
  obtain ⟨unit, plural, _, _, rfl, -, htext, -⟩ := hfits
  obtain ⟨rfl, -⟩ := Pattern.fits_text.1 htext
  exact ⟨word.toList, plural, rfl, List.mem_map_of_mem hword⟩

theorem datelike_of_start {word : String} (hword : word.toList ∈ openings) (rest : List Char) :
    Datelike (word.toList ++ rest) :=
  @Datelike.opens _ [] word.toList rest rfl hword nofun

/-- A query of some shape starts with a word, or relates dates, or moves one. -/
theorem datelike_of_recognize? {cs : List Char} {shape : Shape} {parts : List String}
    (h : Shape.recognize? cs = some (shape, parts)) : Datelike cs := by
  obtain ⟨pre, _, rest, _, rfl, rfl, hfits⟩ := Shape.fits_of_recognize? h
  cases shape with
  | arithmetic =>
    obtain ⟨rfl, h₁⟩ := Pattern.fits_start_then hfits
    obtain ⟨_, _, _, rfl, rfl, ⟨_, more, _, _, rfl, -, ⟨⟨c, rfl, -⟩, -⟩, -⟩, h₂⟩ :=
      Pattern.fits_group_then rfl h₁
    obtain ⟨bs, _, rfl, -, h₃⟩ := Pattern.fits_gap_then h₂
    obtain ⟨_, _, _, rfl, rfl, ⟨⟨sign, rfl, hsign⟩, -⟩, h₄⟩ := Pattern.fits_group_then rfl h₃
    obtain ⟨bs₁, _, rfl, -, h₅⟩ := Pattern.fits_gap_then h₄
    obtain ⟨amount, _, _, rfl, rfl, -, h₆⟩ := Pattern.fits_group_then rfl h₅
    obtain ⟨bs₂, _, rfl, -, -, h₇⟩ := Pattern.fits_blanks_then h₆
    obtain ⟨rfl, -, hunit⟩ := Pattern.fits_group_finish Shape.isPlain_shiftUnits h₇
    obtain ⟨unit, plural, rfl, hmem⟩ := unit_of_fits hunit
    have hcs : [] ++ ([c] ++ more ++ (bs ++ ([sign] ++ (bs₁ ++ (amount ++ (bs₂ ++
        (unit ++ plural))))))) ++ [] = (c :: more ++ bs) ++ sign ::
          (bs₁ ++ amount ++ bs₂ ++ unit ++ plural) := by
      simp
    have hsigns : ∀ c ∈ "+-".toList, c ∈ ['+', '-'] := by decide
    refine .moves hcs (List.cons_ne_nil c _) (hsigns sign (List.contains_iff_mem.1 hsign)) hmem ?_
    rw [hcs]
    exact ⟨c :: more ++ bs ++ sign :: (bs₁ ++ amount ++ bs₂), plural, by simp⟩
  | difference =>
    obtain ⟨_, _, _, _, rfl, -, ⟨rfl, -, -⟩, h₁⟩ := hfits
    obtain ⟨unit, _, _, rfl, -, -, h₂⟩ := Pattern.fits_group_then Shape.isPlain_units h₁
    obtain ⟨bs, _, rfl, -, -, h₃⟩ := Pattern.fits_blanks_then h₂
    obtain ⟨tail, rfl, -⟩ := Pattern.fits_text_then h₃
    have hbetween : "between".toList ∈ relations := by decide
    exact .relates hbetween ⟨pre ++ unit ++ bs, tail ++ rest, by simp⟩
  | relativeWeekday =>
    obtain ⟨rfl, h₁⟩ := Pattern.fits_start_then hfits
    obtain ⟨_, tail, _, rfl, -, hdirection, -⟩ := Pattern.fits_group_then rfl h₁
    obtain ⟨⟨word, hword, rfl⟩, -⟩ := Pattern.fits_anyText.1 hdirection
    have hopens : ∀ word ∈ ["next", "last"], word.toList ∈ openings := by decide
    rw [List.nil_append, List.append_assoc]
    exact datelike_of_start (hopens word hword) _
  | relativeOffset =>
    obtain ⟨rfl, h₁⟩ := Pattern.fits_start_then hfits
    obtain ⟨amount, _, _, rfl, -, -, h₂⟩ := Pattern.fits_group_then rfl h₁
    obtain ⟨bs, _, rfl, -, -, h₃⟩ := Pattern.fits_blanks_then h₂
    obtain ⟨unit, _, _, rfl, -, -, h₄⟩ := Pattern.fits_group_then Shape.isPlain_shiftUnits h₃
    obtain ⟨bs', _, rfl, -, -, h₅⟩ := Pattern.fits_blanks_then h₄
    obtain ⟨rfl, -, hside⟩ := Pattern.fits_group_finish rfl h₅
    obtain ⟨⟨side, hmem, rfl⟩, -⟩ := Pattern.fits_anyText.1 hside
    have hsides : ∀ side ∈ ["ago", "from now"], ∃ word ∈ relations, word <+: side.toList := by
      decide
    obtain ⟨word, hword, more, hmore⟩ := hsides side hmem
    rw [← hmore]
    exact .relates hword ⟨amount ++ bs ++ unit ++ bs', more, by simp⟩
  | age =>
    obtain ⟨rfl, h₁⟩ := Pattern.fits_start_then hfits
    obtain ⟨tail, rfl, -⟩ := Pattern.fits_text_then h₁
    rw [List.nil_append, List.append_assoc]
    exact datelike_of_start (by decide) _
  | weekday =>
    obtain ⟨rfl, _, tail, _, _, rfl, -, hwhat, -⟩ := Pattern.fits_start_then hfits
    obtain ⟨⟨word, hword, rfl⟩, -⟩ := Pattern.fits_anyText.1 hwhat
    have hopens : ∀ word ∈ ["what", "which"], word.toList ∈ openings := by decide
    rw [List.nil_append, List.append_assoc]
    exact datelike_of_start (hopens word hword) _

/-- **A query that is answered as one about dates is datelike**, if lower-casing keeps it. -/
theorem datelike_of_evaluate {now : Instant} {q : String}
    (h : (evaluate now q).isError = false) (hkept : ∀ c ∈ canonical q.toList, IsKept c) :
    Datelike (canonical q.toList) := by
  simp only [evaluate] at h
  obtain ⟨a, h, -⟩ := ok_of_not_isError h
  unfold answer? at h
  dsimp only at h
  rw [canonical_trimmed] at h
  split at h
  · cases h
  · split at h
    · next parts hparts => exact datelike_of_recognize? hparts
    · unfold dateAnswer at h
      split at h
      · next day hday =>
        rw [← @String.toList_ofList (canonical q.toList)] at hkept ⊢
        exact datelike_of_readDate hday hkept
      · cases h

end Reckoner.Dates
