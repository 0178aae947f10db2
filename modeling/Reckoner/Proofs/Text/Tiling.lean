/-
  How the pieces of a text lie in it.

  * `Tiles`: pieces, each with the byte at which it starts, make up a text with the characters
    that are passed over between them; `Slice.cut_tiles`: those that a text is cut into do;
  * `Lossless`: tokens stand in order where their positions say, and every other character is
    passed over; `Tiles.lossless`: **tokens that are the pieces of a text are lossless**;
  * `Longest`: a piece is a lexeme, and no longer one starts where it does; `Tiles.unique`: a
    text is made up of such pieces in one way only;
  * `Scans`: what cutting a text into admitted lexemes gives; `scans_mapM`: **a tokenizer whose
    rule takes the longest lexemes scans, and fails at the first that is not admitted**.
-/
import Reckoner.Proofs.Success
import Reckoner.Proofs.Text.Covered
import Reckoner.Token

namespace Reckoner

open Text

/-! ## Bytes -/

namespace Text

theorem byteLength_cons (c : Char) (cs : List Char) :
    byteLength (c :: cs) = c.utf8Size + byteLength cs := rfl

theorem byteLength_append (cs ds : List Char) :
    byteLength (cs ++ ds) = byteLength cs + byteLength ds := by
  induction cs with
  | nil => exact (Nat.zero_add _).symm
  | cons c cs ih => rw [List.cons_append, byteLength_cons, byteLength_cons, ih, Nat.add_assoc]

theorem byteLength_pos {cs : List Char} (h : cs ≠ []) : 0 < byteLength cs := by
  cases cs with
  | nil => exact absurd rfl h
  | cons c cs => exact Nat.add_pos_left c.utf8Size_pos _

end Text

/-! ## Pieces -/

/-- A piece of a text, and the byte at which it starts. -/
abbrev Piece := Nat × List Char

/-- The piece that a token is. -/
def Token.piece (t : Token) : Piece := (t.position, t.value.toList)

/-- The piece that a slice is. -/
def Slice.piece {α : Type} (s : Slice α) : Piece := (s.position, s.text)

theorem Slice.piece_token {α : Type} (s : Slice α) (kind : TokenKind) :
    (s.token kind).piece = s.piece := by
  rw [Token.piece, token, String.toList_ofList, piece]

/-- The text from a byte on is made up of the pieces, and of characters that are passed over
between them. `fits` says which pieces may stand before which text. -/
inductive Tiles (skip : Char → Bool) (fits : List Char → List Char → Prop) :
    Nat → List Char → List Piece → Prop
  | nil (position : Nat) : Tiles skip fits position [] []
  | skip {position : Nat} {c : Char} {cs : List Char} {pieces : List Piece} :
      skip c = true → Tiles skip fits (position + c.utf8Size) cs pieces →
      Tiles skip fits position (c :: cs) pieces
  | piece {position : Nat} {w rest : List Char} {pieces : List Piece} :
      w ≠ [] → fits w rest → Tiles skip fits (position + byteLength w) rest pieces →
      Tiles skip fits position (w ++ rest) ((position, w) :: pieces)

/-- What a text is cut into makes it up. -/
theorem Slice.cut_tiles {α : Type} {skip : Char → Bool} {rule : Char → List Char → α × Nat}
    {fits : List Char → List Char → Prop}
    (hrule : ∀ c (cs : List Char), skip c = false →
      fits (c :: cs.take (rule c cs).2) (cs.drop (rule c cs).2))
    (position : Nat) (cs : List Char) :
    Tiles skip fits position cs ((cut skip rule position cs).map piece) := by
  induction position, cs using cut_induction skip rule with
  | nil position =>
    rw [cut_nil]
    exact .nil position
  | pass position c cs hc ih =>
    rw [cut_pass hc]
    exact .skip hc ih
  | slice position c cs hc ih =>
    have htile := Tiles.piece (List.cons_ne_nil c _) (hrule c cs hc) ih
    rw [List.cons_append, List.take_append_drop] at htile
    rw [cut_slice hc]
    exact htile

namespace Tiles

variable {skip : Char → Bool} {fits : List Char → List Char → Prop} {position : Nat}
  {cs : List Char} {pieces : List Piece} {p : Piece}

theorem ne_nil (h : Tiles skip fits position cs pieces) (hp : p ∈ pieces) : p.2 ≠ [] := by
  induction h with
  | nil => exact absurd hp List.not_mem_nil
  | skip _ _ ih => exact ih hp
  | piece hne _ _ ih =>
    rcases List.mem_cons.1 hp with rfl | hp
    · exact hne
    · exact ih hp

theorem position_le (h : Tiles skip fits position cs pieces) (hp : p ∈ pieces) :
    position ≤ p.1 := by
  induction h with
  | nil => exact absurd hp List.not_mem_nil
  | skip _ _ ih => exact Nat.le_of_add_right_le (ih hp)
  | piece _ _ _ ih =>
    rcases List.mem_cons.1 hp with rfl | hp
    · exact Nat.le_refl _
    · exact Nat.le_of_add_right_le (ih hp)

/-- Each piece ends before the next one starts. -/
theorem ordered (h : Tiles skip fits position cs pieces) :
    pieces.Pairwise fun p q => p.1 < q.1 ∧ p.1 + byteLength p.2 ≤ q.1 := by
  induction h with
  | nil => exact .nil
  | skip _ _ ih => exact ih
  | piece hne _ hrest ih =>
    refine List.pairwise_cons.2 ⟨fun q hq => ?_, ih⟩
    have hle := hrest.position_le hq
    have hpos := byteLength_pos hne
    exact ⟨by omega, hle⟩

/-- A piece stands in the text where it is said to start. -/
theorem placed (h : Tiles skip fits position cs pieces) (hp : p ∈ pieces) :
    ∃ before after, cs = before ++ p.2 ++ after ∧ position + byteLength before = p.1 := by
  induction h with
  | nil => exact absurd hp List.not_mem_nil
  | @skip _ c _ _ _ _ ih =>
    obtain ⟨before, after, rfl, hstart⟩ := ih hp
    exact ⟨c :: before, after, rfl, by rw [byteLength_cons, ← Nat.add_assoc, hstart]⟩
  | @piece _ w rest _ _ _ _ ih =>
    rcases List.mem_cons.1 hp with rfl | hp
    · exact ⟨[], rest, rfl, rfl⟩
    · obtain ⟨before, after, rfl, hstart⟩ := ih hp
      refine ⟨w ++ before, after, by simp, ?_⟩
      rw [byteLength_append, ← Nat.add_assoc, hstart]

/-- A character that is in no piece is passed over. -/
theorem skipped {before after : List Char} {c : Char}
    (h : Tiles skip fits position (before ++ c :: after) pieces) :
    skip c = true ∨ ∃ p ∈ pieces, p.1 ≤ position + byteLength before ∧
      position + byteLength before + c.utf8Size ≤ p.1 + byteLength p.2 := by
  generalize htext : before ++ c :: after = text at h
  induction h generalizing before with
  | nil => exact absurd htext (by simp)
  | @skip position d cs pieces hd _ ih =>
    cases before with
    | nil =>
      obtain ⟨rfl, -⟩ := List.cons.inj htext
      exact .inl hd
    | cons e before =>
      obtain ⟨rfl, hcs⟩ := List.cons.inj htext
      rcases ih hcs with hc | ⟨p, hp, hstart, hstop⟩
      · exact .inl hc
      · rw [byteLength_cons, ← Nat.add_assoc]
        exact .inr ⟨p, hp, hstart, hstop⟩
  | @piece position w rest pieces _ _ _ ih =>
    rcases List.append_eq_append_iff.1 htext with ⟨more, rfl, hmore⟩ | ⟨more, rfl, hmore⟩
    · cases more with
      | nil =>
        obtain rfl : c :: after = rest := hmore
        rcases @ih [] rfl with hc | ⟨p, hp, hstart, hstop⟩
        · exact .inl hc
        · rw [List.append_nil] at hstart hstop
          exact .inr ⟨p, List.mem_cons_of_mem _ hp, hstart, hstop⟩
      | cons d more =>
        obtain ⟨rfl, -⟩ := List.cons.inj hmore
        refine .inr ⟨_, List.mem_cons_self, Nat.le_add_right _ _, ?_⟩
        rw [byteLength_append, byteLength_cons]
        omega
    · rcases ih hmore.symm with hc | ⟨p, hp, hstart, hstop⟩
      · exact .inl hc
      · rw [byteLength_append, ← Nat.add_assoc]
        exact .inr ⟨p, List.mem_cons_of_mem _ hp, hstart, hstop⟩

end Tiles

/-! ## Tokens -/

/-- Tokens that nothing of a text is lost in. -/
structure Lossless (skip : Char → Bool) (cs : List Char) (tokens : List Token) : Prop where
  nonempty : ∀ t ∈ tokens, t.value ≠ ""
  ordered : tokens.Pairwise fun t u => t.position < u.position ∧ t.span.stop ≤ u.position
  /-- a token is the stretch of the text at its position -/
  placed : ∀ t ∈ tokens, ∃ before after,
    cs = before ++ t.value.toList ++ after ∧ byteLength before = t.position
  /-- a character that is in no token is one that is passed over -/
  skipped : ∀ before c after, cs = before ++ c :: after → skip c = true ∨
    ∃ t ∈ tokens, t.span.start ≤ byteLength before ∧
      byteLength before + c.utf8Size ≤ t.span.stop

/-- **Tokens that are the pieces of a text are lossless.** -/
theorem Tiles.lossless {skip : Char → Bool} {fits : List Char → List Char → Prop}
    {cs : List Char} {tokens : List Token}
    (h : Tiles skip fits 0 cs (tokens.map Token.piece)) : Lossless skip cs tokens where
  nonempty t ht hempty := by
    refine h.ne_nil (List.mem_map_of_mem ht) ?_
    rw [Token.piece, hempty]
    rfl
  ordered := List.pairwise_map.1 h.ordered
  placed t ht := by
    obtain ⟨before, after, hcs, hstart⟩ := h.placed (List.mem_map_of_mem ht)
    rw [Nat.zero_add] at hstart
    exact ⟨before, after, hcs, hstart⟩
  skipped before c after hcs := by
    subst hcs
    rcases h.skipped with hc | ⟨_, hp, hstart, hstop⟩
    · exact .inl hc
    · obtain ⟨t, ht, rfl⟩ := List.mem_map.1 hp
      rw [Nat.zero_add] at hstart hstop
      exact .inr ⟨t, ht, hstart, hstop⟩

/-! ## Lexemes that may not be admitted -/

/-- Where a lexeme starts, no longer one does. -/
def Longest (IsLexeme : List Char → Prop) (w rest : List Char) : Prop :=
  IsLexeme w ∧ ∀ v, IsLexeme v → v <+: w ++ rest → v.length ≤ w.length

theorem Tiles.cases {skip : Char → Bool} {fits : List Char → List Char → Prop} {position : Nat}
    {cs : List Char} {pieces : List Piece} (h : Tiles skip fits position cs pieces) :
    (cs = [] ∧ pieces = []) ∨
      (∃ c rest, cs = c :: rest ∧ skip c = true ∧
        Tiles skip fits (position + c.utf8Size) rest pieces) ∨
      ∃ c w rest more, cs = c :: w ++ rest ∧ pieces = (position, c :: w) :: more ∧
        fits (c :: w) rest ∧ Tiles skip fits (position + byteLength (c :: w)) rest more := by
  cases h with
  | nil => exact .inl ⟨rfl, rfl⟩
  | skip hc hrest => exact .inr (.inl ⟨_, _, rfl, hc, hrest⟩)
  | @piece _ w rest more hne hfits hrest =>
    obtain ⟨c, w, rfl⟩ := List.exists_cons_of_ne_nil hne
    exact .inr (.inr ⟨c, w, rest, more, rfl, rfl, hfits, hrest⟩)

/-- A text is made up of longest lexemes in one way only. -/
theorem Tiles.unique {skip : Char → Bool} {IsLexeme : List Char → Prop}
    (hstart : ∀ c w, IsLexeme (c :: w) → skip c = false) {position : Nat} {cs : List Char}
    {pieces pieces' : List Piece} (h : Tiles skip (Longest IsLexeme) position cs pieces)
    (h' : Tiles skip (Longest IsLexeme) position cs pieces') : pieces' = pieces := by
  induction h generalizing pieces' with
  | nil =>
    rcases h'.cases with ⟨-, rfl⟩ | ⟨_, _, heq, -⟩ | ⟨_, _, _, _, heq, -⟩
    · rfl
    · cases heq
    · cases heq
  | skip hc _ ih =>
    rcases h'.cases with ⟨heq, -⟩ | ⟨_, _, heq, -, hrest⟩ | ⟨_, _, _, _, heq, -, hlongest, -⟩
    · cases heq
    · obtain ⟨rfl, rfl⟩ := List.cons.inj heq
      exact ih hrest
    · obtain ⟨rfl, -⟩ := List.cons.inj heq
      exact absurd ((hstart _ _ hlongest.1).symm.trans hc) Bool.false_ne_true
  | @piece _ w rest _ hne hlongest _ ih =>
    obtain ⟨d, w, rfl⟩ := List.exists_cons_of_ne_nil hne
    rcases h'.cases with ⟨heq, -⟩ | ⟨_, _, heq, hc, -⟩ | ⟨c, v, rest', _, heq, rfl, hlongest', hrest⟩
    · cases heq
    · obtain ⟨rfl, -⟩ := List.cons.inj heq
      exact absurd ((hstart _ _ hlongest.1).symm.trans hc) Bool.false_ne_true
    · have hle : (c :: v).length ≤ (d :: w).length :=
        hlongest.2 _ hlongest'.1 ⟨rest', heq.symm⟩
      have hge : (d :: w).length ≤ (c :: v).length := hlongest'.2 _ hlongest.1 ⟨rest, heq⟩
      obtain ⟨hw, rfl⟩ := List.append_inj heq (Nat.le_antisymm hge hle)
      rw [← hw] at hrest ⊢
      rw [ih hrest]

theorem longest_take {IsLexeme : List Char → Prop} {c : Char} {cs : List Char} {n : Nat}
    (hw : IsLexeme (c :: cs.take n))
    (hlongest : ∀ v, IsLexeme (c :: v) → v <+: cs → v.length ≤ n) :
    Longest IsLexeme (c :: cs.take n) (cs.drop n) := by
  refine ⟨hw, fun v hv hprefix => ?_⟩
  rw [List.cons_append, List.take_append_drop] at hprefix
  cases v with
  | nil => exact Nat.zero_le _
  | cons d v =>
    obtain ⟨rfl, hcs⟩ := List.cons_prefix_cons.1 hprefix
    have hn := hlongest v hv hcs
    have hle := hcs.length_le
    rw [List.length_cons, List.length_cons, List.length_take]
    omega

theorem length_le_takeWhile {p : Char → Bool} {v cs : List Char} (hv : ∀ c ∈ v, p c = true)
    (h : v <+: cs) : v.length ≤ (cs.takeWhile p).length := by
  obtain ⟨rest, rfl⟩ := h
  rw [List.takeWhile_append_of_pos hv, List.length_append]
  exact Nat.le_add_right _ _

/-- What a text is read as that is made up of longest lexemes, in the one way there is: its tokens
if all of them are admitted, and otherwise a failure that names the first that is not. -/
def Scans (IsLexeme IsAdmitted : List Char → Prop) (cs : List Char)
    (result : Except Failure (List Token)) : Prop :=
  ∃ pieces, (∀ ps, Tiles isBlank (Longest IsLexeme) 0 cs ps ↔ ps = pieces) ∧
    match result with
    | .ok tokens => Lossless isBlank cs tokens ∧ tokens.map Token.piece = pieces ∧
        ∀ t ∈ tokens, IsAdmitted t.value.toList
    | .error f => ∃ good position w rest, pieces = good ++ (position, w) :: rest ∧
        (∀ p ∈ good, IsAdmitted p.2) ∧ ¬ IsAdmitted w ∧ f = .unknownToken (String.ofList w)

/-- A slice becomes a token if it is admitted. -/
def Settles (IsAdmitted : List Char → Prop) (s : Slice TokenKind) :
    Except Failure Token → Prop
  | .ok t => IsAdmitted s.text ∧ t.piece = s.piece
  | .error f => ¬ IsAdmitted s.text ∧ f = .unknownToken (String.ofList s.text)

/-- **A tokenizer whose rule takes the longest lexemes scans.** -/
theorem scans_mapM {IsLexeme IsAdmitted : List Char → Prop}
    {rule : Char → List Char → TokenKind × Nat} {toToken : Slice TokenKind → Except Failure Token}
    (hstart : ∀ c w, IsLexeme (c :: w) → isBlank c = false)
    (hrule : ∀ c (cs : List Char), isBlank c = false →
      Longest IsLexeme (c :: cs.take (rule c cs).2) (cs.drop (rule c cs).2))
    (htoken : ∀ c (cs : List Char) position, isBlank c = false → Settles IsAdmitted
      ⟨(rule c cs).1, c :: cs.take (rule c cs).2, position⟩
      (toToken ⟨(rule c cs).1, c :: cs.take (rule c cs).2, position⟩))
    (cs : List Char) :
    Scans IsLexeme IsAdmitted cs ((Slice.cut isBlank rule 0 cs).mapM toToken) := by
  have htiles := Slice.cut_tiles hrule 0 cs
  have hsettles : ∀ s ∈ Slice.cut isBlank rule 0 cs, Settles IsAdmitted s (toToken s) := by
    intro s hs
    obtain ⟨c, rest, hc, htag, htext⟩ := Slice.eq_of_mem_cut hs
    have hslice : s = ⟨(rule c rest).1, c :: rest.take (rule c rest).2, s.position⟩ := by
      rw [← htag, ← htext]
    rw [hslice]
    exact htoken c rest s.position hc
  generalize Slice.cut isBlank rule 0 cs = slices at htiles hsettles ⊢
  refine ⟨slices.map Slice.piece, fun ps => ⟨htiles.unique hstart, fun h => h ▸ htiles⟩, ?_⟩
  cases htokens : slices.mapM toToken with
  | ok tokens =>
    have hpieces : tokens.map Token.piece = slices.map Slice.piece := by
      refine map_of_mapM (fun s hs t ht => ?_) htokens
      have hsettle := hsettles s hs
      rw [ht] at hsettle
      exact hsettle.2
    rw [← hpieces] at htiles
    refine ⟨htiles.lossless, hpieces, fun t ht => ?_⟩
    obtain ⟨s, hs, hpiece⟩ := List.mem_map.1 (hpieces ▸ List.mem_map_of_mem ht)
    obtain ⟨t', ht'⟩ := ok_of_mapM htokens s hs
    have hsettle := hsettles s hs
    rw [ht'] at hsettle
    have htext : s.text = t.value.toList := congrArg Prod.snd hpiece
    exact htext ▸ hsettle.1
  | error f =>
    obtain ⟨good, s, rest, rfl, hgood, hs⟩ := split_of_mapM htokens
    have hsettle := hsettles s (by simp)
    rw [hs] at hsettle
    refine ⟨good.map Slice.piece, s.position, s.text, rest.map Slice.piece, ?_, fun p hp => ?_,
      hsettle⟩
    · rw [List.map_append, List.map_cons]
      rfl
    · obtain ⟨g, hg, rfl⟩ := List.mem_map.1 hp
      obtain ⟨t, ht⟩ := hgood g hg
      have hsettle := hsettles g (List.mem_append_left _ hg)
      rw [ht] at hsettle
      exact hsettle.1

end Reckoner
