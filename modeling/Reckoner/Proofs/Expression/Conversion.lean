/-
  Conversions as expressions.

  * `Spaced.words`, `spaced_amount`: the lexemes of the names and of the number of a request;
  * `request_tokens`: what the tokens of a conversion are;
  * `validateUnits_link`, `validateUnits_pair`: what the validator says about them;
  * `AgreesWithConverter`: an expression has an answer where the converter has one, and the same;
  * `agreesWithConverter_iff`: **a conversion agrees with the converter unless it is one of two
    words of which the second is `in`**.
-/
import Reckoner.Proofs.Engine.Routes
import Reckoner.Proofs.Expression.Lexer
import Reckoner.Proofs.Units.Names

namespace Reckoner.Expression

open Text Pattern Reckoner.Units Reckoner.Units.Request

/-! ## The number -/

theorem getLast?_of_digits {before : Option Char} {ds rest : List Char} {groups : List (List Char)}
    (h : digits.Fits before ds rest groups) : ∃ d, ds.getLast? = some d ∧ isDigit d = true := by
  obtain ⟨hne, hds, -⟩ := fits_some.1 h
  exact ⟨_, List.getLast?_eq_some_getLast hne, hds _ (List.getLast_mem hne)⟩

theorem fits_plainNumeral {before : Option Char} {stretch rest : List Char}
    {groups : List (List Char)} (h : plainNumeral.Fits before stretch rest groups) :
    (∀ c ∈ stretch, isAmountChar c = true) ∧ ∃ d, stretch.getLast? = some d ∧ isDigit d = true := by
  constructor
  · have hdigit : ∀ c, isDigit c = true → isAmountChar c = true := fun c hc => by
      simp [isAmountChar, hc]
    have hpoint : ∀ c, (c == '.') = true → isAmountChar c = true := fun c hc => by
      simp [isAmountChar, hc]
    have hminus : ∀ c, (c == '-') = true → isAmountChar c = true := fun c hc => by
      simp [isAmountChar, hc]
    have honly : plainNumeral.Only fun c => isAmountChar c = true :=
      ⟨⟨hminus, trivial⟩, ⟨⟨hdigit, hdigit⟩, ⟨hpoint, hdigit, hdigit⟩, trivial⟩,
        hpoint, hdigit, hdigit⟩
    exact h.forall_mem honly
  · obtain ⟨sign, _, _, _, rfl, -, -, hbody⟩ := h
    rcases hbody with ⟨ds, _, _, _, rfl, -, hds, htail⟩ | ⟨_, fs, _, _, rfl, -, -, hfs⟩
    · rcases htail with ⟨_, fs, _, _, rfl, -, -, hfs⟩ | ⟨rfl, -⟩
      · obtain ⟨d, hlast, hd⟩ := getLast?_of_digits hfs
        exact ⟨d, by simp [hlast], hd⟩
      · obtain ⟨d, hlast, hd⟩ := getLast?_of_digits hds
        exact ⟨d, by simp [hlast], hd⟩
    · obtain ⟨d, hlast, hd⟩ := getLast?_of_digits hfs
      exact ⟨d, by simp [hlast], hd⟩

/-- What starts with a number that ends in a digit, and has nothing but names after it. -/
theorem amount_of_occursIn (ps : List Pattern) {cs : List Char}
    (hps : (chain (ps ++ [finish])).Only fun c => isBlank c = true ∨ isUnitPhraseChar c = true)
    (h : (chain (start :: plainNumeral :: (ps ++ [finish]))).occursIn cs = true) :
    ∃ d, (cs.takeWhile isAmountChar).getLast? = some d ∧ isDigit d = true := by
  obtain ⟨pre, stretch, rest, groups, rfl, hfits⟩ := occursIn_iff.1 h
  obtain rfl : rest = [] := rest_of_finish (start :: plainNumeral :: ps) hfits
  obtain ⟨rfl, hnumber⟩ := fits_start_then hfits
  obtain ⟨amount, tail, _, _, _, rfl, hamount, htail⟩ := fits_chain_split hnumber
  obtain ⟨hchars, hlast⟩ := fits_plainNumeral hamount
  rw [List.nil_append, List.append_nil,
    takeWhile_amount hchars (head_not_amount (htail.forall_mem hps))]
  exact hlast

/-- What is detected as a conversion starts with a number that ends in a digit. -/
theorem amount_of_detect {cs : List Char} (h : Kind.detect cs = .unitConversion) :
    ∃ d, (cs.takeWhile isAmountChar).getLast? = some d ∧ isDigit d = true := by
  have hblank : ∀ c, isBlank c = true → isBlank c = true ∨ isUnitPhraseChar c = true :=
    fun _ => .inl
  have hunit : ∀ c, isUnitChar c = true → isBlank c = true ∨ isUnitPhraseChar c = true :=
    fun _ hc => .inr (isUnitPhraseChar_of_unit hc)
  have hphrase : ∀ c, isUnitPhraseChar c = true → isBlank c = true ∨ isUnitPhraseChar c = true :=
    fun _ => .inr
  have hletter : ∀ d ∈ ['t', 'o', 'i', 'n'], ∀ c, (c == d) = true →
      isBlank c = true ∨ isUnitPhraseChar c = true := by
    have hletters : ∀ d ∈ ['t', 'o', 'i', 'n'], isUnitPhraseChar d = true := by decide
    intro d hd c hc
    exact .inr (beq_iff_eq.1 hc ▸ hletters d hd)
  have hconversion : isConversion cs = true := by
    unfold Kind.detect at h
    split_ifs at h with _ hconversion
    exact hconversion
  rw [isConversion, Bool.or_eq_true, Bool.and_eq_true] at hconversion
  rcases hconversion with hoccurs | ⟨hoccurs, -⟩
  · refine amount_of_occursIn [gap, one isUnitChar, few isUnitPhraseChar, blanks, separator, blanks,
      one isUnitChar, many isUnitPhraseChar] ?_ hoccurs
    exact ⟨hblank, hunit, hphrase, ⟨hblank, hblank⟩,
      ⟨⟨hletter 't' (by decide), hletter 'o' (by decide)⟩,
        hletter 'i' (by decide), hletter 'n' (by decide)⟩,
      ⟨hblank, hblank⟩, hunit, hphrase, trivial⟩
  · refine amount_of_occursIn [gap, some_ isUnitChar, blanks, some_ isUnitChar] ?_ hoccurs
    exact ⟨hblank, ⟨hunit, hunit⟩, ⟨hblank, hblank⟩, ⟨hunit, hunit⟩, trivial⟩

/-- The number of a conversion is one that arithmetic reads, with a minus sign or none. -/
theorem numeral_of_detect {cs amount tail : List Char} {value : Float}
    (h : Kind.detect cs = .unitConversion) (hcs : cs = amount ++ tail) (hamount : IsNumber amount)
    (htail : ∀ c ∈ tail, isBlank c = true ∨ isUnitPhraseChar c = true)
    (hvalue : Decimal.readFloat? amount = some value) :
    ∃ sign digits, amount = sign ++ digits ∧ (sign = [] ∨ sign = ['-']) ∧
      Arithmetic.IsNumeral digits := by
  obtain ⟨d, hlast, hd⟩ := amount_of_detect h
  rw [hcs, takeWhile_amount (isAmountChar_of_isAmount hamount.isAmount) (head_not_amount htail)]
    at hlast
  obtain ⟨sign, digits, rfl, hsign, hdigits⟩ := hamount
  refine ⟨sign, digits, rfl, hsign, ?_⟩
  cases hdigits with
  | whole hne hds =>
    have hascii := Decimal.readFloat?_ascii hsign (fun c hc => .inl (hds c hc)) hvalue
    refine ⟨digits, [], fun c hc => (hascii c hc).resolve_right ?_, nofun, .inl ⟨rfl, hne⟩⟩
    rintro rfl
    exact absurd (hds '.' hc) (by decide)
  | @point ds fs _ hds hfs =>
    have hne : fs ≠ [] := by
      rintro rfl
      obtain rfl : '.' = d := by simpa using hlast
      exact absurd hd (by decide)
    have hascii := Decimal.readFloat?_ascii hsign (fun c hc => ?_) hvalue
    · rw [List.forall_mem_append, List.forall_mem_cons] at hascii
      refine ⟨ds, fs, fun c hc => (hascii.1 c hc).resolve_right ?_,
        fun c hc => (hascii.2.2 c hc).resolve_right ?_, .inr ⟨rfl, hne⟩⟩
      · rintro rfl
        exact absurd (hds '.' hc) (by decide)
      · rintro rfl
        exact absurd (hfs '.' hc) (by decide)
    · rcases List.mem_append.1 hc with hc | hc
      · exact .inl (hds c hc)
      · exact (List.mem_cons.1 hc).symm.imp_left (hfs c)

/-! ## Lexemes -/

/-- The text is cut into the lexemes. -/
def Lexes (pieces : List (Lexeme × List Char)) (cs : List Char) : Prop :=
  Spaced (·.2) (fun s rest => Takes (lexeme true) s.2 s.1 rest) pieces cs

/-- Words as lexemes. -/
def wordPieces (ws : List (List Char)) : List (Lexeme × List Char) := ws.map fun w => (.word, w)

/-- The lexemes of a number with a sign. -/
def amountPieces (sign digits : List Char) : List (Lexeme × List Char) :=
  sign.map (fun c => (.sign, [c])) ++ [(.number, digits)]

/-- What a name has in it continues a word. -/
theorem continuesWord_of_unit {c : Char} (h : isUnitChar c = true ∨ isAsciiDigit c = true) :
    continuesWord true c = true := by
  rcases h with hunit | hdigit
  · simp only [isUnitChar, Bool.or_eq_true, beq_iff_eq] at hunit
    rcases hunit with ((hlower | rfl) | rfl) | rfl
    · simp [continuesWord, isLetter_of_lower hlower]
    all_goals simp [continuesWord]
  · simp [continuesWord, isNumeral, isDigit_of_ascii hdigit]

theorem isNameWord_of_isNamePart {w : List Char} (h : isNamePart w = true) :
    isNameWord w = true := by
  cases w with
  | nil => exact h
  | cons c w =>
    simp only [isNamePart, Bool.and_eq_true, Bool.or_eq_true, List.all_eq_true] at h
    obtain ⟨⟨hfirst, hx⟩, hrest⟩ := h
    simp only [isNameWord, startsName, Bool.and_eq_true, Bool.or_eq_true, List.all_eq_true]
    exact ⟨⟨hfirst, hx⟩, fun c hc => continuesWord_of_unit (hrest c hc)⟩

theorem isNameWord_of_unitWords : ∀ d ∈ Dimension.all, ∀ s ∈ unitWords d,
    s.head?.any (· != 'x') = true ∧ ∀ w ∈ s.splitOn ' ', isNameWord w = true := by
  intro d hd s hs
  have hparts := fun w hw => isNameWord_of_isNamePart (unitWords_parts d hd s hs w hw).1
  refine ⟨?_, hparts⟩
  obtain ⟨w, rest, hw, hsplit⟩ := exists_first_part (s := s)
  have hword := hparts w hw
  cases w with
  | nil => exact absurd hword Bool.false_ne_true
  | cons c w =>
    simp only [isNameWord, startsName, Bool.and_eq_true] at hword
    rw [hsplit]
    exact hword.1.2

theorem head_blank {bs rest : List Char} (hbs : ∀ b ∈ bs, isBlank b = true)
    (hrest : rest.head?.all isBlank = true) : (bs ++ rest).head?.all isBlank = true := by
  cases bs with
  | nil => exact hrest
  | cons b bs => exact hbs b List.mem_cons_self

theorem head_of_blanks {bs : List Char} (rest : List Char) (hne : bs ≠ [])
    (hbs : ∀ b ∈ bs, isBlank b = true) : (bs ++ rest).head?.all isBlank = true := by
  obtain ⟨b, bs, rfl⟩ := List.exists_cons_of_ne_nil hne
  exact hbs b List.mem_cons_self

namespace Lexes

variable {pieces : List (Lexeme × List Char)} {rest : List Char}

theorem cons {tag : Lexeme} {p : List Char} (htakes : Takes (lexeme true) p tag rest)
    (h : Lexes pieces rest) : Lexes ((tag, p) :: pieces) (p ++ rest) :=
  @Spaced.piece _ (fun s : Lexeme × List Char => s.2) _ _ _ (tag, p) htakes h

theorem blanks {bs : List Char} (hbs : ∀ b ∈ bs, isBlank b = true) (h : Lexes pieces rest) :
    Lexes pieces (bs ++ rest) := by
  induction bs with
  | nil => exact h
  | cons b bs ih =>
    obtain ⟨hb, hbs⟩ := List.forall_mem_cons.1 hbs
    exact .blank hb (ih hbs)

theorem words {ws : List (List Char)} (hne : ws ≠ []) (hws : ∀ w ∈ ws, isNameWord w = true)
    (hrest : rest.head?.all isBlank = true) (h : Lexes pieces rest) :
    Lexes (wordPieces ws ++ pieces) ([' '].intercalate ws ++ rest) := by
  induction ws with
  | nil => exact absurd rfl hne
  | cons w ws ih =>
    obtain ⟨hw, hws⟩ := List.forall_mem_cons.1 hws
    cases ws with
    | nil => simpa [wordPieces] using cons (takes_word hw hrest) h
    | cons w' ws =>
      have hlater := @blanks _ _ [' '] (by decide) (ih (List.cons_ne_nil _ _) hws)
      simpa [wordPieces, List.intercalate] using cons (takes_word hw rfl) hlater

/-- The words of a name, with blanks around it. -/
theorem name {d : Dimension} {source : List Char} (hd : d ∈ Dimension.all)
    (hsource : trim source ∈ unitWords d) (hrest : rest.head?.all isBlank = true)
    (h : Lexes pieces rest) :
    Lexes (wordPieces ((trim source).splitOn ' ') ++ pieces) (source ++ rest) := by
  obtain ⟨lead, trail, hsplit, hlead, htrail⟩ := exists_trim source
  have hwords := (isNameWord_of_unitWords d hd _ hsource).2
  have hname := words (List.splitOn_ne_nil _ _) hwords (head_blank htrail hrest) (h.blanks htrail)
  rw [List.intercalate_splitOn] at hname
  nth_rewrite 2 [hsplit]
  rw [List.append_assoc, List.append_assoc]
  exact hname.blanks hlead

/-- A number before a name. -/
theorem amount {sign digits : List Char} (hsign : sign = [] ∨ sign = ['-'])
    (hdigits : Arithmetic.IsNumeral digits)
    (hrest : ∀ c ∈ rest, isBlank c = true ∨ isUnitPhraseChar c = true)
    (hx : rest.head? ≠ some 'x') (h : Lexes pieces rest) :
    Lexes (amountPieces sign digits ++ pieces) (sign ++ digits ++ rest) := by
  have hplain : ∀ c ∈ rest, isDigit c = false ∧ c ≠ '.' := by
    intro c hc
    have hnot := not_isAmountChar (hrest c hc)
    simp only [isAmountChar, Bool.or_eq_false_iff, beq_eq_false_iff_ne] at hnot
    exact hnot.1
  have hnumber := cons (takes_numeral hdigits true hplain hx) h
  rcases hsign with rfl | rfl
  · exact hnumber
  · exact cons (takes_minus true _) hnumber

end Lexes

/-! ## The forms of a request -/

section
variable {cs amount source target : List Char} {d : Dimension}

/-- No name starts with the letter of base 16. -/
theorem head_ne_x {bs rest : List Char} (hbs : ∀ b ∈ bs, isBlank b = true)
    (hd : d ∈ Dimension.all) (hsource : trim source ∈ unitWords d) :
    (bs ++ (source ++ rest)).head? ≠ some 'x' := by
  obtain ⟨lead, trail, hsplit, hlead, -⟩ := exists_trim source
  have hname := (isNameWord_of_unitWords d hd _ hsource).1
  rw [hsplit, List.append_assoc, List.append_assoc, ← List.append_assoc]
  cases hblanks : bs ++ lead with
  | nil =>
    cases hsource : trim source with
    | nil => simp [hsource] at hname
    | cons c cs =>
      intro hx
      obtain rfl : c = 'x' := by simpa using hx
      simp [hsource] at hname
  | cons b bs' =>
    have hmem : b ∈ bs ++ lead := by simp [hblanks]
    have hb := List.forall_mem_append.2 ⟨hbs, hlead⟩ b hmem
    intro hx
    obtain rfl : b = 'x' := by simpa using hx
    exact absurd hb (by decide)

/-- The lexemes of a request with a word between the units. -/
theorem lexes_explicit {sign digits : List Char} (h : IsExplicit cs amount source target)
    (hd : d ∈ Dimension.all) (hsource : trim source ∈ unitWords d)
    (htarget : trim target ∈ unitWords d) (hamount : amount = sign ++ digits)
    (hsign : sign = [] ∨ sign = ['-']) (hdigits : Arithmetic.IsNumeral digits) :
    ∃ link ∈ ["to", "in"], Lexes (amountPieces sign digits ++ wordPieces
      ((trim source).splitOn ' ' ++ link.toList :: (trim target).splitOn ' ')) cs := by
  obtain ⟨tail, hcs, htail⟩ := tail_of_explicit h
  obtain ⟨bs₁, bs₂, bs₃, link, hlink, hsplit, hblank, hne₂, hne₃, -, -, -⟩ := h
  obtain rfl : tail = bs₁ ++ (source ++ (bs₂ ++ (link.toList ++ (bs₃ ++ target)))) := by
    rw [hsplit] at hcs
    simpa using hcs.symm
  simp only [List.forall_mem_append] at hblank
  have hlinks : ∀ t ∈ ["to", "in"], isNameWord t.toList = true := by decide
  have htargetLexes : Lexes (wordPieces ((trim target).splitOn ' ')) (bs₃ ++ target) := by
    have hname := @Lexes.name [] [] d target hd htarget rfl (.nil nofun)
    rw [List.append_nil, List.append_nil] at hname
    exact hname.blanks hblank.2
  have hlinkLexes := Lexes.cons (takes_word (hlinks link hlink)
    (head_of_blanks target hne₃ hblank.2)) htargetLexes
  have hsourceLexes := Lexes.name hd hsource
    (head_of_blanks (link.toList ++ (bs₃ ++ target)) hne₂ hblank.1.2)
    (hlinkLexes.blanks hblank.1.2)
  have hall := Lexes.amount hsign hdigits htail (head_ne_x hblank.1.1 hd hsource)
    (hsourceLexes.blanks hblank.1.1)
  refine ⟨link, hlink, ?_⟩
  rw [hcs, hamount]
  simpa [wordPieces] using hall

/-- The lexemes of a request of two words. -/
theorem lexes_compact {sign digits : List Char} (h : IsCompact cs amount source target)
    (hd : d ∈ Dimension.all) (hsource : source ∈ unitWords d) (htarget : target ∈ unitWords d)
    (hamount : amount = sign ++ digits) (hsign : sign = [] ∨ sign = ['-'])
    (hdigits : Arithmetic.IsNumeral digits) :
    Lexes (amountPieces sign digits ++ wordPieces [source, target]) cs := by
  obtain ⟨tail, hcs, htail⟩ := tail_of_compact h
  obtain ⟨bs₁, bs₂, hsplit, hblank, hne₂, -, hsourceWord, htargetWord⟩ := h
  obtain rfl : tail = bs₁ ++ (source ++ (bs₂ ++ target)) := by
    rw [hsplit] at hcs
    simpa using hcs.symm
  simp only [List.forall_mem_append] at hblank
  obtain ⟨htrim, hsplitOn⟩ := trim_of_unitWord hsourceWord
  obtain ⟨htrim', hsplitOn'⟩ := trim_of_unitWord htargetWord
  rw [← htrim] at hsource
  rw [← htrim'] at htarget
  have htargetLexes := @Lexes.name [] [] d target hd htarget rfl (.nil nofun)
  have hsourceLexes := Lexes.name hd hsource (head_of_blanks _ hne₂ hblank.2)
    (htargetLexes.blanks hblank.2)
  have hall := Lexes.amount hsign hdigits (by simpa using htail)
    (head_ne_x hblank.1 hd hsource) (hsourceLexes.blanks hblank.1)
  rw [hcs, hamount]
  simpa [wordPieces, htrim, htrim', hsplitOn, hsplitOn'] using hall

end

/-! ## The validator -/

/-- The word stands between two units. -/
def isLink (w : List Char) : Bool := String.ofList w == "to" || String.ofList w == "in"

theorem lexemeKey_word (w : List Char) : lexemeKey .unitConversion (.word, w) =
    (if isLink w then .keyword else .unit, String.ofList w) := rfl

theorem findIdx?_words {us : List Token} {words : List (List Char)}
    (h : us.map key = (wordPieces words).map (lexemeKey .unitConversion)) :
    us.findIdx? (fun t => t.kind == .keyword) = words.findIdx? isLink := by
  have hkeys : us.findIdx? (fun t => t.kind == .keyword) =
      (us.map key).findIdx? fun k => k.1 == .keyword := by
    rw [List.findIdx?_map]
    rfl
  have hlinks : ((fun k : TokenKind × String => k.1 == .keyword) ∘
      lexemeKey .unitConversion ∘ fun w => (Lexeme.word, w)) = isLink := by
    funext w
    simp only [Function.comp_apply, lexemeKey_word]
    cases isLink w <;> rfl
  rw [hkeys, h, wordPieces, List.map_map, List.findIdx?_map, hlinks]

/-- What the validator says about the words after the number. -/
theorem validateUnits_words {us : List Token} {words : List (List Char)} (offset count : Nat)
    (h : us.map key = (wordPieces words).map (lexemeKey .unitConversion)) :
    validateUnits offset count us = .ok () ↔
      match (words.drop 1).findIdx? isLink with
      | some i => i + 2 < words.length
      | none => words.length = 2 := by
  have hlength : us.length = words.length := by
    have := congrArg List.length h
    simpa [wordPieces] using this
  have hwords : us.findIdx? (fun t => t.kind != .unit && t.kind != .keyword) = none := by
    rw [List.findIdx?_eq_none_iff]
    intro t ht
    have hkey : key t ∈ (wordPieces words).map (lexemeKey .unitConversion) :=
      h ▸ List.mem_map_of_mem ht
    simp only [wordPieces, List.map_map, List.mem_map, Function.comp_apply, lexemeKey_word] at hkey
    obtain ⟨w, -, hw⟩ := hkey
    have hkind : t.kind = if isLink w then .keyword else .unit := (congrArg Prod.fst hw).symm
    rw [hkind]
    cases isLink w <;> rfl
  have hdrop : (us.drop 1).findIdx? (fun t => t.kind == .keyword) =
      (words.drop 1).findIdx? isLink := by
    refine findIdx?_words ?_
    rw [List.map_drop, h, wordPieces, wordPieces, List.map_drop, List.map_drop]
  rw [validateUnits, hwords]
  simp only [hdrop, hlength]
  generalize (words.drop 1).findIdx? isLink = found
  cases found <;> simp

/-- A word between units is found with something after it. -/
theorem validateUnits_link {us : List Token} {ws ws' : List (List Char)} {link : List Char}
    (offset count : Nat)
    (h : us.map key = (wordPieces (ws ++ link :: ws')).map (lexemeKey .unitConversion))
    (hne : ws ≠ []) (hne' : ws' ≠ []) (hlink : isLink link = true) :
    validateUnits offset count us = .ok () := by
  rw [validateUnits_words offset count h]
  obtain ⟨w, ws, rfl⟩ := List.exists_cons_of_ne_nil hne
  have hlength' := List.length_pos_iff.2 hne'
  cases hfind : ((w :: ws ++ link :: ws').drop 1).findIdx? isLink with
  | none =>
    rw [List.findIdx?_eq_none_iff] at hfind
    have hnot := hfind link (by simp)
    simp [hlink] at hnot
  | some i =>
    have hle : i ≤ ws.length := by
      by_contra hlt
      rw [List.findIdx?_eq_some_iff_getElem] at hfind
      obtain ⟨_, _, hbefore⟩ := hfind
      have hnot := hbefore ws.length (by omega)
      simp [hlink] at hnot
    simp only [List.cons_append, List.length_cons, List.length_append]
    omega

/-- Two words are accepted unless the second could stand between units. -/
theorem validateUnits_pair {us : List Token} {source target : List Char} (offset count : Nat)
    (h : us.map key = (wordPieces [source, target]).map (lexemeKey .unitConversion)) :
    validateUnits offset count us = .ok () ↔ isLink target = false := by
  rw [validateUnits_words offset count h]
  cases hlink : isLink target <;> simp [List.findIdx?_cons, hlink]

/-- The validator reads the number with its sign, and then the words. -/
theorem validateConversion_eq {tokens : List Token} {sign digits : List Char}
    {words : List (List Char)} (hsign : sign = [] ∨ sign = ['-'])
    (h : tokens.map key = (amountPieces sign digits ++ wordPieces words).map
      (lexemeKey .unitConversion)) :
    ∃ offset us, us.map key = (wordPieces words).map (lexemeKey .unitConversion) ∧
      validateConversion tokens = validateUnits offset tokens.length us := by
  rcases hsign with rfl | rfl
  · obtain ⟨number, us, rfl, hnumber, hus⟩ := List.map_eq_cons_iff.1 h
    have hkind : number.kind = .number := congrArg Prod.fst hnumber
    exact ⟨0, us, hus, by simp [validateConversion, hkind]⟩
  · obtain ⟨minus, rest, rfl, hminus, hrest⟩ := List.map_eq_cons_iff.1 h
    obtain ⟨number, us, rfl, hnumber, hus⟩ := List.map_eq_cons_iff.1 hrest
    have hkind : number.kind = .number := congrArg Prod.fst hnumber
    have hsign : minus.kind = .operator ∧ minus.value = "-" :=
      ⟨congrArg Prod.fst hminus, congrArg Prod.snd hminus⟩
    exact ⟨1, us, hus, by simp [validateConversion, hkind, hsign]⟩

/-! ## Agreement -/

theorem to_not_unitWord : ∀ d ∈ Dimension.all, "to".toList ∉ unitWords d := by
  intro d hd hto
  exact (unitWords_parts d hd _ hto "to".toList (by decide)).2.1 rfl

/-- Of the names of units only `in` could stand between units. -/
theorem isLink_unitWord {d : Dimension} {w : List Char} (hd : d ∈ Dimension.all)
    (hw : w ∈ unitWords d) : isLink w = true ↔ w = "in".toList := by
  rw [isLink, Bool.or_eq_true, beq_iff_eq, beq_iff_eq]
  constructor
  · rintro (h | h)
    · have hto : w = "to".toList := by rw [← h, String.toList_ofList]
      exact absurd (hto ▸ hw) (to_not_unitWord d hd)
    · rw [← h, String.toList_ofList]
  · rintro rfl
    exact .inr rfl

/-- The last word of a text is what stands after its last blank. -/
theorem eq_of_append_blank {xs ys w v : List Char} {b b' : Char} (hb : isBlank b = true)
    (hb' : isBlank b' = true) (hw : ∀ c ∈ w, isBlank c = false) (hv : ∀ c ∈ v, isBlank c = false)
    (h : xs ++ b :: w = ys ++ b' :: v) : w = v := by
  have hlast (zs : List Char) {u : List Char} {c : Char} (hc : isBlank c = true)
      (hu : ∀ c ∈ u, isBlank c = false) :
      (zs ++ c :: u).reverse.takeWhile (fun c => !isBlank c) = u.reverse := by
    rw [List.reverse_append, List.reverse_cons, List.append_assoc,
      List.takeWhile_append_of_pos (by simpa using hu), List.singleton_append,
      List.takeWhile_cons_of_neg (by simp [hc]), List.append_nil]
  rw [← List.reverse_inj, ← hlast xs hb hw, ← hlast ys hb' hv, h]

/-- What the validator says about a text that is converted. -/
theorem validateConversion_iff {settings : Settings} {q : String}
    (hkind : Kind.detect (canonical q.toList) = .unitConversion)
    (h : (Units.evaluate settings q).isError = false) :
    validateConversion (tokenize .unitConversion (canonical q.toList)) = .ok () ↔
      ¬ (explicit.occursIn (canonical q.toList) = false ∧
        " in".toList <:+ canonical q.toList) := by
  obtain ⟨amount, source, target, value, hgroups, hvalue, d, hd, hsource, htarget⟩ :=
    request_of_evaluate h
  obtain ⟨_, _, _, heq, hform⟩ := groups?_cases hgroups
  obtain ⟨rfl, rfl, rfl⟩ : _ ∧ _ ∧ _ := by simpa using heq
  rcases hform with ⟨hoccurs, hform⟩ | ⟨hoccurs, hform⟩
  · have hnumber := hform
    obtain ⟨_, _, _, _, _, _, _, _, _, hnumber, -, -⟩ := hnumber
    obtain ⟨tail, hcs, htail⟩ := tail_of_explicit hform
    obtain ⟨sign, digits, hamount, hsign, hdigits⟩ :=
      numeral_of_detect hkind hcs hnumber htail hvalue
    obtain ⟨link, hlink, hlexes⟩ := lexes_explicit hform hd hsource htarget hamount hsign hdigits
    obtain ⟨offset, us, hus, hvalidate⟩ := validateConversion_eq hsign (key_tokenize hlexes)
    have hlinks : ∀ t ∈ ["to", "in"], isLink t.toList = true := by decide
    rw [hvalidate, hoccurs]
    simp only [Bool.true_eq_false, false_and, not_false_iff, iff_true]
    exact validateUnits_link _ _ hus (List.splitOn_ne_nil _ _) (List.splitOn_ne_nil _ _)
      (hlinks link hlink)
  · have hparts := hform
    obtain ⟨bs₁, bs₂, hsplit, hblank, hne₂, hnumber, hsourceWord, htargetWord⟩ := hparts
    rw [(trim_of_unitWord hsourceWord).1] at hsource
    rw [(trim_of_unitWord htargetWord).1] at htarget
    obtain ⟨tail, hcs, htail⟩ := tail_of_compact hform
    obtain ⟨sign, digits, hamount, hsign, hdigits⟩ :=
      numeral_of_detect hkind hcs hnumber htail hvalue
    have hlexes := lexes_compact hform hd hsource htarget hamount hsign hdigits
    obtain ⟨offset, us, hus, hvalidate⟩ := validateConversion_eq hsign (key_tokenize hlexes)
    rw [hvalidate, hoccurs, validateUnits_pair _ _ hus, ← Bool.not_eq_true,
      isLink_unitWord hd htarget]
    simp only [true_and, not_iff_not]
    have hlast := List.dropLast_append_getLast hne₂
    have hblankLast : isBlank (bs₂.getLast hne₂) = true :=
      hblank _ (List.mem_append_right _ (List.getLast_mem hne₂))
    generalize bs₂.getLast hne₂ = b at hlast hblankLast
    have hend : canonical q.toList =
        (amount ++ bs₁ ++ source ++ bs₂.dropLast) ++ b :: target := by
      rw [hsplit, ← hlast]
      simp
    constructor
    · rintro rfl
      have hspace : b = ' ' := eq_space_of_canonical b (by rw [hend]; simp) hblankLast
      exact ⟨_, by rw [hend, hspace]; rfl⟩
    · rintro ⟨ys, hys⟩
      rw [hend] at hys
      refine (eq_of_append_blank (b := ' ') rfl hblankLast (by decide) ?_ hys).symm
      exact isBlank_of_unitWord htargetWord

theorem validate_conversion (tokens : List Token) :
    validate .unitConversion tokens = validateConversion tokens := by
  cases tokens with
  | nil => rfl
  | cons t ts => rfl

/-- The expression has an answer where the converter has one, and it is the same. -/
def AgreesWithConverter (settings : Settings) (now : Calendar.Instant) (q : String) : Prop :=
  ((evaluate settings now q).isError = false ↔
      (Units.evaluate settings (trimmed q)).isError = false) ∧
    ((Units.evaluate settings (trimmed q)).isError = false →
      evaluate settings now q = Units.evaluate settings (trimmed q))

section
variable {settings : Settings} {now : Calendar.Instant} {q : String}

theorem evaluate_of_conversion (hkind : Kind.detect (canonical q.toList) = .unitConversion)
    (h : (evaluate settings now q).isError = false) :
    evaluate settings now q = Units.evaluate settings (trimmed q) := by
  obtain ⟨d, hd, heq⟩ := evaluate_eq h
  rw [hkind] at hd
  obtain rfl := Option.some.inj hd
  exact (Option.some.inj heq).symm

theorem not_blank_of_units (h : (Units.evaluate settings q).isError = false) :
    isBlankText q = false := by
  rw [Units.evaluate] at h
  obtain ⟨a, hanswer, -⟩ := ok_of_not_isError h
  rw [Units.answer?] at hanswer
  by_contra hblank
  rw [if_pos (by rw [trimmed_isEmpty]; simpa using hblank)] at hanswer
  cases hanswer

/-- The expression has an answer if the validator accepts it and the converter has one. -/
theorem evaluate_of_validate (hkind : Kind.detect (canonical q.toList) = .unitConversion)
    (h : (Units.evaluate settings (trimmed q)).isError = false) :
    (evaluate settings now q).isError = false ↔
      validateConversion (tokenize .unitConversion (canonical q.toList)) = .ok () := by
  have hunits : Units.evaluate settings (trimmed q) = Units.evaluate settings q := by
    simp only [Units.evaluate, trimmed_trimmed]
  have hblank := not_blank_of_units (hunits ▸ h)
  have hparse := parse_kind hblank
  have hvalid := parse_error_iff hblank
  rw [hkind] at hparse hvalid
  rw [← validate_conversion, ← hvalid, evaluate]
  split
  · next hsome => simp [hsome, Answer.failure]
  · next hnone => simpa [hnone, hparse, Kind.domain?, evaluateAs] using h

/-- **A conversion agrees with the converter, unless it is converted, has no `to` or `in`
between the units, and its second unit is `in`.** -/
theorem agreesWithConverter_iff (hkind : Kind.detect (canonical q.toList) = .unitConversion) :
    AgreesWithConverter settings now q ↔
      ¬ ((Units.evaluate settings (trimmed q)).isError = false ∧
        explicit.occursIn (canonical q.toList) = false ∧
        " in".toList <:+ canonical q.toList) := by
  have hunits : Units.evaluate settings (trimmed q) = Units.evaluate settings q := by
    simp only [Units.evaluate, trimmed_trimmed]
  have hvalidate (h : (Units.evaluate settings (trimmed q)).isError = false) :
      (evaluate settings now q).isError = false ↔
        ¬ (explicit.occursIn (canonical q.toList) = false ∧
          " in".toList <:+ canonical q.toList) :=
    (evaluate_of_validate hkind h).trans (validateConversion_iff hkind (hunits ▸ h))
  constructor
  · rintro ⟨hiff, -⟩ ⟨h, hin⟩
    exact (hvalidate h).1 (hiff.2 h) hin
  · intro hnot
    have hanswer (h : (Units.evaluate settings (trimmed q)).isError = false) :
        (evaluate settings now q).isError = false :=
      (hvalidate h).2 fun hin => hnot ⟨h, hin⟩
    refine ⟨⟨fun h => ?_, hanswer⟩, fun h => evaluate_of_conversion hkind (hanswer h)⟩
    rwa [← evaluate_of_conversion hkind h]

end

theorem kilometers_agree :
    Kind.detect (canonical "5 km to miles".toList) = .unitConversion ∧
      AgreesWithConverter {} (.midnight ⟨2024, 1, 15⟩) "5 km to miles" := by
  have hkind : Kind.detect (canonical "5 km to miles".toList) = .unitConversion := by
    decide
  have hoccurs : explicit.occursIn (canonical "5 km to miles".toList) = true := by decide
  refine ⟨hkind, (agreesWithConverter_iff hkind).2 ?_⟩
  rintro ⟨-, hnot, -⟩
  exact Bool.false_ne_true (hnot.symm.trans hoccurs)

/-- Ten centimeters are converted to inches, and refused as an expression. -/
theorem inches_refused :
    Kind.detect (canonical "10 cm in".toList) = .unitConversion ∧
      (Units.evaluate {} (trimmed "10 cm in")).isError = false ∧
      (evaluate {} (.midnight ⟨2024, 1, 15⟩) "10 cm in").isError = true := by
  have hgroups : Request.groups? (canonical (trimmed "10 cm in").toList) =
      some ["10".toList, "cm".toList, "in".toList] := by decide
  have hnumeral : Arithmetic.IsNumeral "10".toList :=
    ⟨"10".toList, [], by decide, nofun, .inl ⟨rfl, by decide⟩⟩
  obtain ⟨value, hvalue⟩ := Decimal.readFloat?_isSome (.inl rfl) hnumeral
  have hnames : ((common? "cm" "in").isSome) = true := by decide
  obtain ⟨⟨d, s, t⟩, hcommon⟩ := Option.isSome_iff_exists.1 hnames
  obtain ⟨x, hconvert⟩ := convert_of_common hcommon value
  have hunits := @evaluate_of_request {} _ _ _ _ _ _ _ (by decide) hgroups hvalue hconvert
  refine ⟨by decide, by rw [hunits]; rfl, ?_⟩
  have hvalid : (parse "10 cm in").error.isSome = true := by decide +kernel
  obtain ⟨e, he⟩ := Option.isSome_iff_exists.1 hvalid
  rw [evaluate]
  simp [he, Answer.failure]

end Reckoner.Expression
