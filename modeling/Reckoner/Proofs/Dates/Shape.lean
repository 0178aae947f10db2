/-
  Where the parts of a date query stand.

  * `fits_of_recognize?`: the parts of a query are those of a stretch that fits its shape;
  * `arithmetic_parts` to `weekday_parts`: what a query of each shape is made of;
  * `dates`, `standing_of_mem_dates`: **the parts that are dates stand alone in the query**.
-/
import Reckoner.Dates.Shape
import Reckoner.Proofs.Text.Word

namespace Reckoner.Dates.Shape

open Text Pattern

theorem isPlain_units :
    (choice (counted "business day" :: counted "workday" :: shiftUnits)).isPlain = true := rfl

theorem isPlain_shiftUnits : (choice shiftUnits).isPlain = true := rfl

theorem isWordChar_sign {c : Char} (h : "+-".toList.contains c = true) :
    isWordChar c = false := by
  have hsigns : "+-".toList.all (fun c => !isWordChar c) = true := rfl
  simpa using List.all_eq_true.1 hsigns c (List.contains_iff_mem.1 h)

variable {cs : List Char} {parts : List String}

/-- The parts of a query are those of a stretch that fits its shape. -/
theorem fits_of_recognize? {shape : Shape} (h : recognize? cs = some (shape, parts)) :
    ∃ pre stretch rest groups, cs = pre ++ stretch ++ rest ∧
      parts = groups.map String.ofList ∧
      shape.pattern.Fits pre.getLast? stretch rest groups := by
  obtain ⟨shape', -, hshape⟩ := List.exists_of_findSome?_eq_some h
  obtain ⟨groups, hgroups, hparts⟩ := Option.map_eq_some_iff.1 hshape
  obtain ⟨rfl, rfl⟩ := Prod.mk.inj hparts
  obtain ⟨pre, stretch, rest, hcs, hfits⟩ := groups?_eq_some hgroups
  exact ⟨pre, stretch, rest, groups, hcs, rfl, hfits⟩

/-! ## The shapes one by one -/

/-- A date starts a sum; blanks or a sign follow. -/
theorem arithmetic_parts (h : recognize? cs = some (.arithmetic, parts)) :
    ∃ date more, parts = date :: more ∧ Standing date.toList cs := by
  obtain ⟨pre, _, rest, _, rfl, rfl, h₁⟩ := fits_of_recognize? h
  obtain ⟨rfl, h₂⟩ := fits_start_then h₁
  obtain ⟨date, _, _, rfl, rfl, -, h₃⟩ := fits_group_then rfl h₂
  obtain ⟨bs, _, rfl, hbs, h₄⟩ := fits_gap_then h₃
  obtain ⟨_, tail, _, rfl, rfl, ⟨⟨c, rfl, hc⟩, -⟩, -⟩ := fits_group_then rfl h₄
  refine ⟨String.ofList date, _, rfl, [], bs ++ (c :: tail ++ rest), ?_, EndsApart.nil, ?_⟩
  · simp
  · exact StartsApart.blanks_append (isWordChar_sign hc) hbs

/-- Blanks stand around the dates of a difference. -/
theorem difference_parts (h : recognize? cs = some (.difference, parts)) :
    ∃ unit first second, parts = [unit, first, second] ∧ Standing first.toList cs ∧
      Standing second.toList cs := by
  obtain ⟨pre, _, rest, _, rfl, rfl, _, _, _, _, rfl, rfl, ⟨rfl, -, rfl⟩, h₁⟩ :=
    fits_of_recognize? h
  obtain ⟨unit, _, _, rfl, rfl, -, h₂⟩ := fits_group_then isPlain_units h₁
  obtain ⟨bs₁, _, rfl, -, -, h₃⟩ := fits_blanks_then h₂
  obtain ⟨_, rfl, h₄⟩ := fits_text_then h₃
  obtain ⟨bs₂, _, rfl, hne₂, hbs₂, h₅⟩ := fits_blanks_then h₄
  obtain ⟨first, _, _, rfl, rfl, -, h₆⟩ := fits_group_then rfl h₅
  obtain ⟨bs₃, _, rfl, hne₃, hbs₃, h₇⟩ := fits_blanks_then h₆
  obtain ⟨_, rfl, h₈⟩ := fits_text_then h₇
  obtain ⟨bs₄, second, rfl, hne₄, hbs₄, h₉⟩ := fits_blanks_then h₈
  obtain ⟨rfl, rfl, -⟩ := fits_group_finish rfl h₉
  refine ⟨String.ofList unit, String.ofList first, String.ofList second, rfl, ?_, ?_⟩
  · refine ⟨pre ++ unit ++ bs₁ ++ "between".toList ++ bs₂,
      bs₃ ++ ("and".toList ++ bs₄ ++ second), ?_, .of_blanks hne₂ hbs₂, .of_blanks hne₃ hbs₃⟩
    simp
  · refine ⟨pre ++ unit ++ bs₁ ++ "between".toList ++ bs₂ ++ first ++ bs₃ ++ "and".toList ++ bs₄,
      [], ?_, .of_blanks hne₄ hbs₄, .nil⟩
    simp

/-- A direction starts the query for a weekday, and blanks follow. -/
theorem relativeWeekday_parts (h : recognize? cs = some (.relativeWeekday, parts)) :
    ∃ direction ∈ ["next", "last"], Standing direction.toList cs := by
  obtain ⟨pre, _, rest, _, rfl, rfl, h₁⟩ := fits_of_recognize? h
  obtain ⟨rfl, h₂⟩ := fits_start_then h₁
  obtain ⟨_, _, _, rfl, rfl, hdirection, h₃⟩ := fits_group_then rfl h₂
  obtain ⟨⟨direction, hmem, rfl⟩, -⟩ := fits_anyText.1 hdirection
  obtain ⟨bs, tail, rfl, hne, hbs, -⟩ := fits_blanks_then h₃
  refine ⟨direction, hmem, [], bs ++ (tail ++ rest), ?_, .nil, .of_blanks hne hbs⟩
  simp

/-- A word at the end of the query says that the distance counts from the present. -/
theorem relativeOffset_parts (h : recognize? cs = some (.relativeOffset, parts)) :
    ∃ side ∈ ["ago", "now"], Standing side.toList cs := by
  obtain ⟨pre, _, rest, _, rfl, rfl, h₁⟩ := fits_of_recognize? h
  obtain ⟨rfl, h₂⟩ := fits_start_then h₁
  obtain ⟨amount, _, _, rfl, rfl, -, h₃⟩ := fits_group_then rfl h₂
  obtain ⟨bs, _, rfl, -, -, h₄⟩ := fits_blanks_then h₃
  obtain ⟨unit, _, _, rfl, rfl, -, h₅⟩ := fits_group_then isPlain_shiftUnits h₄
  obtain ⟨bs', _, rfl, hne, hbs', h₆⟩ := fits_blanks_then h₅
  obtain ⟨rfl, rfl, hside⟩ := fits_group_finish rfl h₆
  obtain ⟨⟨side, hmem, rfl⟩, -⟩ := fits_anyText.1 hside
  rcases List.mem_pair.1 hmem with rfl | rfl
  · refine ⟨"ago", List.mem_cons_self, amount ++ bs ++ unit ++ bs', [], ?_,
      .of_blanks hne hbs', .nil⟩
    simp
  · refine ⟨"now", by simp, amount ++ bs ++ unit ++ bs' ++ "from".toList ++ [' '], [], ?_,
      .of_blanks (List.cons_ne_nil _ _) (List.forall_mem_singleton.2 rfl), .nil⟩
    simp

/-- How an age is asked for: the date follows `age of`, however these words are spaced. -/
theorem age_parts (h : recognize? cs = some (.age, parts)) :
    ∃ bs bs' date, parts = [date] ∧ cs = "age".toList ++ bs ++ "of".toList ++ bs' ++ date.toList ∧
      (bs ≠ [] ∧ ∀ b ∈ bs, isBlank b = true) ∧ (bs' ≠ [] ∧ ∀ b ∈ bs', isBlank b = true) := by
  obtain ⟨pre, _, rest, _, rfl, rfl, h₁⟩ := fits_of_recognize? h
  obtain ⟨rfl, h₂⟩ := fits_start_then h₁
  obtain ⟨_, rfl, h₃⟩ := fits_text_then h₂
  obtain ⟨bs, _, rfl, hne, hbs, h₄⟩ := fits_blanks_then h₃
  obtain ⟨_, rfl, h₅⟩ := fits_text_then h₄
  obtain ⟨bs', date, rfl, hne', hbs', h₆⟩ := fits_blanks_then h₅
  obtain ⟨rfl, rfl, -⟩ := fits_group_finish rfl h₆
  refine ⟨bs, bs', String.ofList date, rfl, ?_, ⟨hne, hbs⟩, hne', hbs'⟩
  simp

/-- The date ends the query for its weekday, after blanks. -/
theorem weekday_parts (h : recognize? cs = some (.weekday, parts)) :
    ∃ date, parts = [date] ∧ Standing date.toList cs := by
  obtain ⟨pre, _, rest, _, rfl, rfl, h₁⟩ := fits_of_recognize? h
  obtain ⟨rfl, what, _, _, _, rfl, rfl, hwhat, h₂⟩ := fits_start_then h₁
  obtain ⟨-, rfl⟩ := fits_anyText.1 hwhat
  obtain ⟨bs₁, _, rfl, -, -, h₃⟩ := fits_blanks_then h₂
  obtain ⟨_, rfl, h₄⟩ := fits_text_then h₃
  obtain ⟨bs₂, _, rfl, -, -, h₅⟩ := fits_blanks_then h₄
  obtain ⟨_, rfl, h₆⟩ := fits_text_then h₅
  obtain ⟨bs₃, date, rfl, hne, hbs, h₇⟩ := fits_blanks_then h₆
  obtain ⟨rfl, rfl, -⟩ := fits_group_finish rfl h₇
  refine ⟨String.ofList date, rfl,
    what ++ bs₁ ++ "day".toList ++ bs₂ ++ "is".toList ++ bs₃, [], ?_,
    .of_blanks hne hbs, .nil⟩
  simp

/-! ## Dates -/

/-- The parts of a query that are dates. -/
def dates : Shape × List String → List String
  | (.arithmetic, [date, _, _, _]) => [date]
  | (.difference, [_, first, second]) => [first, second]
  | (.age, [date]) => [date]
  | (.weekday, [date]) => [date]
  | _ => []

/-- **The parts that are dates stand alone in the query.** -/
theorem standing_of_mem_dates {asked : Shape × List String} (h : recognize? cs = some asked)
    {date : String} (hdate : date ∈ dates asked) : Standing date.toList cs := by
  unfold dates at hdate
  split at hdate
  · obtain ⟨_, _, hparts, hstands⟩ := arithmetic_parts h
    obtain ⟨rfl, -⟩ := List.cons.inj hparts
    obtain rfl := List.mem_singleton.1 hdate
    exact hstands
  · obtain ⟨_, _, _, hparts, hfirst, hsecond⟩ := difference_parts h
    simp only [List.cons.injEq, and_true] at hparts
    obtain ⟨-, rfl, rfl⟩ := hparts
    rcases List.mem_pair.1 hdate with rfl | rfl
    · exact hfirst
    · exact hsecond
  · obtain ⟨bs, bs', _, hparts, rfl, -, hne', hbs'⟩ := age_parts h
    obtain ⟨rfl, -⟩ := List.cons.inj hparts
    obtain rfl := List.mem_singleton.1 hdate
    exact ⟨_, [], (List.append_nil _).symm, .of_blanks hne' hbs', .nil⟩
  · obtain ⟨_, hparts, hstands⟩ := weekday_parts h
    obtain ⟨rfl, -⟩ := List.cons.inj hparts
    obtain rfl := List.mem_singleton.1 hdate
    exact hstands
  · exact absurd hdate List.not_mem_nil

end Reckoner.Dates.Shape
