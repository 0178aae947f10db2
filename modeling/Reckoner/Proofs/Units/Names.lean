/-
  The names of units, and the parts of a request.

  * `takeWhile_amount`: where the amount of a request ends;
  * `unitWords_words`, `unitWords_links`: the words that names are made of, and where `to` and `in`
    are among them;
  * `find?_of_mem`, `common?_of_mem`: **a name is that of one unit of one quantity**.
-/
import Mathlib.Data.List.Nodup
import Reckoner.Proofs.Units.Convert

namespace Reckoner.Units

open Text Request

/-! ## Amounts -/

/-- A character of an amount. -/
def isAmountChar (c : Char) : Bool := isDigit c || c == '.' || c == '-'

theorem isAmountChar_of_isAmount {p : List Char} (h : IsAmount p) :
    ∀ c ∈ p, isAmountChar c = true := by
  obtain ⟨sign, digits, rfl, hsign, -, hdigits⟩ := h
  rw [List.forall_mem_append]
  constructor
  · rcases hsign with rfl | rfl
    · exact nofun
    · exact List.forall_mem_singleton.2 rfl
  · intro c hc
    rcases hdigits c hc with hdigit | rfl
    · simp [isAmountChar, hdigit]
    · rfl

theorem not_isAmountChar {c : Char} (h : isBlank c = true ∨ isUnitPhraseChar c = true) :
    isAmountChar c = false := by
  have hdigit : isDigit c = false := by
    rcases h with hblank | hunit
    · exact isDigit_of_blank hblank
    · exact isDigit_of_unitPhraseChar hunit
  have hsigns : c ≠ '.' ∧ c ≠ '-' := by
    constructor <;> rintro rfl <;> exact absurd h (by decide)
  simp [isAmountChar, hdigit, hsigns]

theorem head_not_amount {tail : List Char}
    (htail : ∀ c ∈ tail, isBlank c = true ∨ isUnitPhraseChar c = true) :
    ∀ c ∈ tail.head?, isAmountChar c = false :=
  fun c hc => not_isAmountChar (htail c (List.mem_of_mem_head? hc))

/-- An amount ends where none of its characters comes next. -/
theorem takeWhile_amount {amount tail : List Char} (hamount : ∀ c ∈ amount, isAmountChar c = true)
    (htail : ∀ c ∈ tail.head?, isAmountChar c = false) :
    (amount ++ tail).takeWhile isAmountChar = amount := by
  rw [List.takeWhile_append_of_pos hamount]
  cases tail with
  | nil => exact List.append_nil amount
  | cons c tail =>
    rw [List.takeWhile_cons_of_neg (Bool.eq_false_iff.1 (htail c rfl)), List.append_nil]

section
variable {cs amount source target : List Char}

theorem tail_of_explicit (h : IsExplicit cs amount source target) : ∃ tail, cs = amount ++ tail ∧
    ∀ c ∈ tail, isBlank c = true ∨ isUnitPhraseChar c = true := by
  obtain ⟨bs₁, bs₂, bs₃, link, hlink, rfl, hblank, -, -, -, hsource, htarget⟩ := h
  have hchars : ∀ t ∈ ["to", "in"], ∀ c ∈ t.toList, isUnitPhraseChar c = true := by decide
  simp only [List.forall_mem_append] at hblank
  refine ⟨bs₁ ++ source ++ bs₂ ++ link.toList ++ bs₃ ++ target, by simp, ?_⟩
  simp only [List.forall_mem_append]
  exact ⟨⟨⟨⟨⟨fun c hc => .inl (hblank.1.1 c hc), fun c hc => .inr (hsource.forall_mem c hc)⟩,
    fun c hc => .inl (hblank.1.2 c hc)⟩, fun c hc => .inr (hchars link hlink c hc)⟩,
    fun c hc => .inl (hblank.2 c hc)⟩, fun c hc => .inr (htarget.forall_mem c hc)⟩

theorem tail_of_compact (h : IsCompact cs amount source target) : ∃ tail, cs = amount ++ tail ∧
    ∀ c ∈ tail, isBlank c = true ∨ isUnitPhraseChar c = true := by
  obtain ⟨bs₁, bs₂, rfl, hblank, -, -, hsource, htarget⟩ := h
  simp only [List.forall_mem_append] at hblank
  refine ⟨bs₁ ++ source ++ bs₂ ++ target, by simp, ?_⟩
  simp only [List.forall_mem_append]
  exact ⟨⟨⟨fun c hc => .inl (hblank.1 c hc),
    fun c hc => .inr (isUnitPhraseChar_of_unit (hsource.2 c hc))⟩,
    fun c hc => .inl (hblank.2 c hc)⟩,
    fun c hc => .inr (isUnitPhraseChar_of_unit (htarget.2 c hc))⟩

end

/-! ## Words -/

theorem isBlank_of_unitWord {p : List Char} (h : IsUnitWord p) : ∀ c ∈ p, isBlank c = false := by
  intro c hc
  have hunit := h.2 c hc
  simp only [isUnitChar, Bool.or_eq_true, beq_iff_eq] at hunit
  rcases hunit with ((hlower | rfl) | rfl) | rfl
  · exact isBlank_of_lower hlower
  all_goals decide

theorem trim_of_unitWord {p : List Char} (h : IsUnitWord p) : trim p = p ∧ p.splitOn ' ' = [p] := by
  have hsolid := isBlank_of_unitWord h
  obtain ⟨lead, trail, hsplit, hlead, htrail⟩ := exists_trim p
  have hnil : ∀ bs : List Char, (∀ b ∈ bs, isBlank b = true) → (∀ b ∈ bs, b ∈ p) → bs = [] := by
    intro bs hbs hmem
    refine List.eq_nil_iff_forall_not_mem.2 fun b hb => ?_
    exact Bool.false_ne_true ((hsolid b (hmem b hb)).symm.trans (hbs b hb))
  have hlead' := hnil lead hlead fun b hb => by rw [hsplit]; simp [hb]
  have htrail' := hnil trail htrail fun b hb => by rw [hsplit]; simp [hb]
  constructor
  · rw [hlead', htrail', List.nil_append, List.append_nil] at hsplit
    exact hsplit.symm
  · exact List.splitOn_eq_singleton fun hmem => absurd (hsolid ' ' hmem) (by decide)

/-- A word that names are made of starts with a degree sign or a small letter, but not with `x`. -/
def isNamePart : List Char → Bool
  | [] => false
  | c :: w =>
    (isAsciiLower c || c == '°') && c != 'x' && w.all fun c => isUnitChar c || isAsciiDigit c

/-- Names are made of such words; none of them is `to`, and `in` is a name of its own. -/
theorem unitWords_parts : ∀ d ∈ Dimension.all, ∀ s ∈ unitWords d, ∀ w ∈ s.splitOn ' ',
    isNamePart w = true ∧ w ≠ "to".toList ∧ (w = "in".toList → s = w) := by
  decide

/-- The words of a name. -/
theorem unitWords_words : ∀ d ∈ Dimension.all, ∀ s ∈ unitWords d, ∀ w ∈ s.splitOn ' ',
    w ≠ [] ∧ w.head?.any isUnitChar = true ∧
      ∀ c ∈ w, isUnitChar c = true ∨ isAsciiDigit c = true := by
  intro d hd s hs w hw
  have hpart := (unitWords_parts d hd s hs w hw).1
  cases w with
  | nil => exact absurd hpart Bool.false_ne_true
  | cons c w =>
    simp only [isNamePart, Bool.and_eq_true, Bool.or_eq_true, List.all_eq_true] at hpart
    obtain ⟨⟨hfirst, -⟩, hrest⟩ := hpart
    have hunit : isUnitChar c = true := by
      rcases hfirst with hlower | hdegree
      · simp [isUnitChar, hlower]
      · simp [isUnitChar, hdegree]
    exact ⟨List.cons_ne_nil c w, hunit, List.forall_mem_cons.2 ⟨.inl hunit, hrest⟩⟩

/-- A name starts with its first word. -/
theorem exists_first_part {s : List Char} : ∃ w rest, w ∈ s.splitOn ' ' ∧ s = w ++ rest := by
  obtain ⟨w, ws, hws⟩ := List.exists_cons_of_ne_nil (List.splitOn_ne_nil ' ' s)
  have hjoin : [' '].intercalate (w :: ws) = s := by rw [← hws, List.intercalate_splitOn]
  refine ⟨w, s.drop w.length, hws ▸ List.mem_cons_self, ?_⟩
  rw [← hjoin]
  cases ws <;> simp [List.intercalate]

/-- The characters of a text are spaces and those of its words. -/
theorem forall_mem_intercalate {P : Char → Prop} (hspace : P ' ') {ws : List (List Char)}
    (hws : ∀ w ∈ ws, ∀ c ∈ w, P c) : ∀ c ∈ [' '].intercalate ws, P c := by
  induction ws with
  | nil => exact nofun
  | cons w ws ih =>
    obtain ⟨hw, hws⟩ := List.forall_mem_cons.1 hws
    cases ws with
    | nil => simpa [List.intercalate] using hw
    | cons w' ws =>
      rw [List.intercalate_cons_cons, List.forall_mem_append, List.forall_mem_append]
      exact ⟨⟨hw, List.forall_mem_singleton.2 hspace⟩, ih hws⟩

/-- The characters of a name. -/
theorem unitWords_chars : ∀ d ∈ Dimension.all, ∀ s ∈ unitWords d,
    s.head?.any isUnitChar = true ∧
      ∀ c ∈ s, isUnitPhraseChar c = true ∨ isAsciiDigit c = true := by
  intro d hd s hs
  have hwords := unitWords_words d hd s hs
  constructor
  · obtain ⟨w, rest, hw, hsplit⟩ := exists_first_part (s := s)
    obtain ⟨hne, hhead, -⟩ := hwords w hw
    rw [hsplit, List.head?_append_of_ne_nil w hne]
    exact hhead
  · have hjoin : [' '].intercalate (s.splitOn ' ') = s := List.intercalate_splitOn ' '
    rw [← hjoin]
    refine forall_mem_intercalate (.inl rfl) fun w hw c hc => ?_
    exact ((hwords w hw).2.2 c hc).imp_left isUnitPhraseChar_of_unit

/-- In a name of several words none but the inner ones could stand between units. -/
theorem unitWords_links : ∀ d ∈ Dimension.all, ∀ s ∈ unitWords d,
    (∀ w ∈ (s.splitOn ' ').tail, w ≠ "to".toList ∧ w ≠ "in".toList) ∧
      ∀ w ∈ (s.splitOn ' ').dropLast, w ≠ "to".toList ∧ w ≠ "in".toList := by
  intro d hd s hs
  constructor
  · intro w hw
    obtain ⟨-, hto, hlone⟩ := unitWords_parts d hd s hs w (List.mem_of_mem_tail hw)
    refine ⟨hto, fun hin => ?_⟩
    rw [hlone hin, hin] at hw
    exact absurd hw (by decide)
  · intro w hw
    obtain ⟨-, hto, hlone⟩ := unitWords_parts d hd s hs w (List.dropLast_subset _ hw)
    refine ⟨hto, fun hin => ?_⟩
    rw [hlone hin, hin] at hw
    exact absurd hw (by decide)

/-! ## Rows -/

/-- The characters of a name as one number, which is compared faster than they are. -/
def wordKey (cs : List Char) : Nat := cs.foldl (fun key c => key * 1114112 + c.toNat) 0

/-- No number of the list comes up in it again. -/
def distinct : List Nat → Bool
  | [] => true
  | n :: ns => ns.all (fun m => !Nat.beq n m) && distinct ns

theorem nodup_of_distinct : ∀ {ns : List Nat}, distinct ns = true → ns.Nodup
  | [], _ => List.nodup_nil
  | n :: ns, h => by
    obtain ⟨hhead, hrest⟩ := Bool.and_eq_true_iff.1 h
    refine List.nodup_cons.2 ⟨fun hn => ?_, nodup_of_distinct hrest⟩
    have hne := List.all_eq_true.1 hhead n hn
    simp at hne

/-- No name is that of two units. -/
theorem unitWords_nodup : (Dimension.all.flatMap unitWords).Nodup := by
  refine .of_map wordKey (nodup_of_distinct ?_)
  decide

/-- Where the lists of all elements together have no duplicates, each is of one element. -/
theorem eq_of_nodup_flatMap {α β : Type} {f : α → List β} {as : List α} {a b : α} {x : β}
    (h : (as.flatMap f).Nodup) (ha : a ∈ as) (hb : b ∈ as) (hxa : x ∈ f a) (hxb : x ∈ f b) :
    a = b := by
  induction as with
  | nil => exact absurd ha List.not_mem_nil
  | cons c as ih =>
    rw [List.flatMap_cons, List.nodup_append] at h
    obtain ⟨-, hrest, hdisjoint⟩ := h
    have hout {e : α} (he : e ∈ as) (hx : x ∈ f e) (hc : x ∈ f c) : False :=
      hdisjoint x hc x (List.mem_flatMap.2 ⟨e, he, hx⟩) rfl
    rcases List.mem_cons.1 ha with rfl | ha'
    · rcases List.mem_cons.1 hb with rfl | hb'
      · rfl
      · exact (hout hb' hxb hxa).elim
    · rcases List.mem_cons.1 hb with rfl | hb'
      · exact (hout ha' hxa hxb).elim
      · exact ih hrest ha' hb'

theorem Dimension.mem_all (d : Dimension) : d ∈ Dimension.all := by
  cases d <;> decide

section
variable {d : Dimension} {r : UnitRow} {name : String}

theorem mem_unitWords_of_row (hr : r ∈ d.rows) (hname : name ∈ r.names) :
    name.toList ∈ unitWords d :=
  List.mem_map_of_mem (List.mem_flatMap.2 ⟨r, hr, hname⟩)

/-- A name is of one quantity. -/
theorem dimension_unique {d' : Dimension} {w : List Char} (hw : w ∈ unitWords d)
    (hw' : w ∈ unitWords d') : d = d' :=
  eq_of_nodup_flatMap unitWords_nodup d.mem_all d'.mem_all hw hw'

/-- A name is of one unit. -/
theorem row_unique {r' : UnitRow} (hr : r ∈ d.rows) (hr' : r' ∈ d.rows) (hname : name ∈ r.names)
    (hname' : name ∈ r'.names) : r = r' := by
  have hnodup : (d.rows.flatMap (·.names)).Nodup :=
    .of_map _ ((List.nodup_flatMap.1 unitWords_nodup).1 d d.mem_all)
  exact eq_of_nodup_flatMap hnodup hr hr' hname hname'

/-- A name finds its unit. -/
theorem find?_of_mem (hr : r ∈ d.rows) (hname : name ∈ r.names) : d.find? name = some r := by
  have hsome : (d.find? name).isSome = true :=
    List.find?_isSome.2 ⟨r, hr, List.contains_iff_mem.2 hname⟩
  obtain ⟨r', hr'⟩ := Option.isSome_iff_exists.1 hsome
  have hname' : name ∈ r'.names := by
    unfold Dimension.find? at hr'
    have hfound := List.find?_some hr'
    exact List.contains_iff_mem.1 hfound
  rw [hr', row_unique (mem_rows_of_find? hr') hr hname' hname]

/-- **Two names of units of a quantity are converted as these.** -/
theorem common?_of_mem {s t : UnitRow} {source target : String} (hs : s ∈ d.rows) (ht : t ∈ d.rows)
    (hsource : nameKey source ∈ s.names) (htarget : nameKey target ∈ t.names) :
    common? source target = some (d, s, t) := by
  have hsome : (common? source target).isSome = true := by
    rw [common?, List.findSome?_isSome_iff]
    refine ⟨d, d.mem_all, ?_⟩
    rw [find?_of_mem hs hsource, find?_of_mem ht htarget]
    rfl
  obtain ⟨⟨d', s', t'⟩, hfound⟩ := Option.isSome_iff_exists.1 hsome
  rw [hfound]
  obtain ⟨d'', -, hmatch⟩ := List.exists_of_findSome?_eq_some hfound
  split at hmatch
  · next s'' t'' hs'' ht'' =>
    obtain ⟨rfl, rfl, rfl⟩ : d'' = d' ∧ s'' = s' ∧ t'' = t' := by simpa using hmatch
    obtain rfl : d'' = d :=
      dimension_unique (mem_unitWords hs'') (mem_unitWords_of_row hs hsource)
    rw [find?_of_mem hs hsource] at hs''
    rw [find?_of_mem ht htarget] at ht''
    rw [Option.some.inj hs'', Option.some.inj ht'']
  · cases hmatch

end

end Reckoner.Units
