/-
  Texts made of pieces with blanks around them.

  * `Spaced`: the text holds the pieces in turn, with any blanks before, between and after them;
  * `Spaced.of_chain`: what comes right after a piece is a blank or a piece that may follow it;
  * `Spaced.cut`, `Spaced.tokens`: **cutting such a text gives its pieces**, if the rule takes
    each of them for what it is;
  * `Spaced.canonical`: **the canonical form holds the pieces in lower case**.
-/
import Mathlib.Data.List.Chain
import Reckoner.Failure
import Reckoner.Proofs.Text.Word
import Reckoner.Token

namespace Reckoner.Text

variable {σ : Type} {text : σ → List Char} {touch : σ → List Char → Prop} {ss : List σ}
  {cs : List Char}

/-- The text holds the pieces in turn, with any blanks around them. `touch` says what may come
right after a piece. -/
inductive Spaced (text : σ → List Char) (touch : σ → List Char → Prop) :
    List σ → List Char → Prop
  | nil {bs} : (∀ b ∈ bs, isBlank b = true) → Spaced text touch [] bs
  | cons {bs s ss cs} : (∀ b ∈ bs, isBlank b = true) → touch s cs → Spaced text touch ss cs →
      Spaced text touch (s :: ss) (bs ++ text s ++ cs)

/-- Two words do not run into one: the piece ends in no word character, or none comes next. -/
def Apart (text : σ → List Char) (s : σ) (cs : List Char) : Prop :=
  EndsApart (text s) ∨ StartsApart cs

/-- A piece holds something, and no blank. -/
def Solid (p : List Char) : Prop := p ≠ [] ∧ ∀ c ∈ p, isBlank c = false

namespace Spaced

theorem piece {s : σ} (htouch : touch s cs) (h : Spaced text touch ss cs) :
    Spaced text touch (s :: ss) (text s ++ cs) :=
  @cons _ _ _ [] _ _ _ nofun htouch h

theorem blank {b : Char} (hb : isBlank b = true) (h : Spaced text touch ss cs) :
    Spaced text touch ss (b :: cs) := by
  cases h with
  | nil hbs => exact .nil (List.forall_mem_cons.2 ⟨hb, hbs⟩)
  | cons hbs htouch hrest => exact .cons (List.forall_mem_cons.2 ⟨hb, hbs⟩) htouch hrest

/-- If each piece may be followed by the next one, what comes after a piece is as it should be
if that holds of blanks and of those that may follow. -/
theorem of_chain {touch' : σ → List Char → Prop} {R : σ → σ → Prop}
    (hblank : ∀ s cs, touch s cs → cs.head?.all isBlank = true → touch' s cs)
    (hnext : ∀ s s' cs, R s s' → touch s (text s' ++ cs) → touch' s (text s' ++ cs))
    (h : Spaced text touch ss cs) (hchain : ss.IsChain R) : Spaced text touch' ss cs := by
  induction h with
  | nil hbs => exact .nil hbs
  | @cons bs s ss cs hbs htouch hrest ih =>
    refine .cons hbs ?_ (ih hchain.tail)
    cases hrest with
    | nil hbs' =>
      refine hblank s _ htouch ?_
      cases cs with
      | nil => rfl
      | cons b _ => exact hbs' b List.mem_cons_self
    | @cons bs' s' _ cs' hbs' _ _ =>
      cases bs' with
      | nil => exact (List.append_assoc ..) ▸ hnext s s' cs' (hchain.rel_head? rfl) htouch
      | cons b _ => exact hblank s _ htouch (hbs' b List.mem_cons_self)

/-- What holds of blanks and of the characters of the pieces holds throughout. -/
theorem forall_mem {P : Char → Prop} (h : Spaced text touch ss cs)
    (hblank : ∀ b, isBlank b = true → P b) (htext : ∀ s ∈ ss, ∀ c ∈ text s, P c) :
    ∀ c ∈ cs, P c := by
  induction h with
  | nil hbs => exact fun c hc => hblank c (hbs c hc)
  | @cons bs s ss cs hbs _ _ ih =>
    obtain ⟨hs, hss⟩ := List.forall_mem_cons.1 htext
    simp only [List.forall_mem_append]
    exact ⟨⟨fun c hc => hblank c (hbs c hc), hs⟩, ih hss⟩

/-- The pieces without anything between them. -/
theorem flatMap (text : σ → List Char) (ss : List σ) :
    Spaced text (fun _ _ => True) ss (ss.flatMap text) := by
  induction ss with
  | nil => exact .nil nofun
  | cons s ss ih => exact .piece trivial ih

theorem eq_flatMap (h : Spaced text touch ss cs) (hblank : ∀ c ∈ cs, isBlank c = false) :
    cs = ss.flatMap text := by
  induction h with
  | @nil bs hbs =>
    refine List.eq_nil_iff_forall_not_mem.2 fun b hb => ?_
    exact Bool.false_ne_true ((hblank b hb).symm.trans (hbs b hb))
  | @cons bs s ss cs hbs _ _ ih =>
    simp only [List.forall_mem_append] at hblank
    obtain ⟨⟨hblank, -⟩, hrest⟩ := hblank
    have hnil : bs = [] := List.eq_nil_iff_forall_not_mem.2 fun b hb =>
      Bool.false_ne_true ((hblank b hb).symm.trans (hbs b hb))
    rw [hnil, List.nil_append, List.flatMap_cons, ← ih hrest]

/-- A text with a piece is not blank. -/
theorem not_all_blank (h : Spaced text touch ss cs) {s : σ} (hs : s ∈ ss) (hsolid : Solid (text s)) :
    cs.all isBlank = false := by
  obtain ⟨hne, hblank⟩ := hsolid
  obtain ⟨c, hc⟩ := List.exists_mem_of_ne_nil _ hne
  have hmem : c ∈ cs := by
    induction h with
    | nil => exact absurd hs List.not_mem_nil
    | @cons bs s' ss cs _ _ _ ih =>
      rcases List.mem_cons.1 hs with rfl | hs
      · exact List.mem_append_left _ (List.mem_append_right _ hc)
      · exact List.mem_append_right _ (ih hs)
  rw [List.all_eq_false]
  exact ⟨c, hmem, by rw [hblank c hc]; exact Bool.false_ne_true⟩

end Spaced

/-! ## Cutting -/

/-- A rule takes the piece before `rest` as a whole, and for a `tag`. -/
def Takes {α : Type} (rule : Char → List Char → α × Nat) (p : List Char) (tag : α)
    (rest : List Char) : Prop :=
  ∃ c cs, p = c :: cs ∧ isBlank c = false ∧ rule c (cs ++ rest) = (tag, cs.length)

theorem cut_blanks {α : Type} (rule : Char → List Char → α × Nat) {bs : List Char}
    (hbs : ∀ b ∈ bs, isBlank b = true) (cs : List Char) (position : Nat) :
    ∃ position', Slice.cut isBlank rule position (bs ++ cs) =
      Slice.cut isBlank rule position' cs := by
  induction bs generalizing position with
  | nil => exact ⟨position, rfl⟩
  | cons b bs ih =>
    obtain ⟨hb, hbs⟩ := List.forall_mem_cons.1 hbs
    obtain ⟨position', h⟩ := ih hbs (position + b.utf8Size)
    exact ⟨position', by rw [List.cons_append, Slice.cut_pass hb, h]⟩

theorem cut_takes {α : Type} {rule : Char → List Char → α × Nat} {p cs : List Char} {tag : α}
    (h : Takes rule p tag cs) (position : Nat) :
    ∃ position', Slice.cut isBlank rule position (p ++ cs) =
      ⟨tag, p, position⟩ :: Slice.cut isBlank rule position' cs := by
  obtain ⟨c, p, rfl, hc, hrule⟩ := h
  rw [List.cons_append, Slice.cut_slice hc, hrule]
  simp only [List.take_left, List.drop_left]
  exact ⟨_, rfl⟩

/-- **Cutting a text gives its pieces**, if the rule takes each of them for what it is. -/
theorem Spaced.cut {α : Type} {rule : Char → List Char → α × Nat} {tag : σ → α}
    (h : Spaced text touch ss cs)
    (hrule : ∀ s cs, touch s cs → Takes rule (text s) (tag s) cs) (position : Nat) :
    (Slice.cut isBlank rule position cs).map (fun s => (s.tag, s.text)) =
      ss.map fun s => (tag s, text s) := by
  induction h generalizing position with
  | nil hbs =>
    obtain ⟨position', hcut⟩ := cut_blanks rule hbs [] position
    rw [List.append_nil] at hcut
    rw [hcut, Slice.cut_nil]
    rfl
  | @cons bs s ss cs hbs htouch _ ih =>
    obtain ⟨position', hcut⟩ := cut_blanks rule hbs (text s ++ cs) position
    obtain ⟨position'', hcut'⟩ := cut_takes (hrule s cs htouch) position'
    rw [List.append_assoc, hcut, hcut', List.map_cons, List.map_cons, ih]

/-- The tokens of a text are those of its pieces, if each of them is one. -/
theorem Spaced.tokens {rule : Char → List Char → TokenKind × Nat} {kind : σ → TokenKind}
    {toToken : Slice TokenKind → Except Failure Token} (h : Spaced text touch ss cs)
    (hrule : ∀ s cs, touch s cs → Takes rule (text s) (kind s) cs)
    (htoken : ∀ s position, toToken ⟨kind s, text s, position⟩ =
      .ok ⟨kind s, String.ofList (text s), position⟩) (position : Nat) :
    ∃ tokens, (Slice.cut isBlank rule position cs).mapM toToken = .ok tokens ∧
      tokens.map (fun t => (t.kind, t.value)) =
        ss.map fun s => (kind s, String.ofList (text s)) := by
  have hslices := h.cut hrule position
  generalize Slice.cut isBlank rule position cs = slices at hslices ⊢
  clear h
  induction ss generalizing slices with
  | nil =>
    obtain rfl := List.map_eq_nil_iff.1 hslices
    exact ⟨[], rfl, rfl⟩
  | cons s ss ih =>
    obtain ⟨⟨tag, p, position'⟩, slices, rfl, hslice, hrest⟩ := List.map_eq_cons_iff.1 hslices
    obtain ⟨rfl, rfl⟩ := Prod.mk.inj hslice
    obtain ⟨tokens, htokens, hmap⟩ := ih slices hrest
    refine ⟨⟨kind s, String.ofList (text s), position'⟩ :: tokens, ?_, ?_⟩
    · rw [List.mapM_cons, htoken, htokens]
      rfl
    · rw [List.map_cons, List.map_cons, hmap]

/-- A run of word characters of a class ends where no word character comes next. -/
theorem takeWhile_apart {p : Char → Bool} (hp : ∀ c, p c = true → isWordChar c = true)
    {run rest : List Char} (hrun : ∀ c ∈ run, p c = true) (hrest : StartsApart rest) :
    (run ++ rest).takeWhile p = run := by
  rw [List.takeWhile_append_of_pos hrun]
  cases rest with
  | nil => exact List.append_nil run
  | cons c rest =>
    have hc : ¬ p c = true := fun h => Bool.false_ne_true (hrest.symm.trans (hp c h))
    rw [List.takeWhile_cons_of_neg hc, List.append_nil]

/-! ## Canonical form -/

/-- Dropping blanks at the end does not reach beyond a piece. -/
theorem trimEnd_append {p : List Char} (hp : Solid p) (bs cs : List Char) :
    trimEnd (bs ++ p ++ cs) = bs ++ p ++ trimEnd cs := by
  obtain ⟨hne, hblank⟩ := hp
  have hkeep : (bs ++ p).reverse.dropWhile isBlank = (bs ++ p).reverse := by
    obtain ⟨c, p', hp'⟩ := List.exists_cons_of_ne_nil (mt List.reverse_eq_nil_iff.1 hne)
    have hc : isBlank c = false := hblank c (List.mem_reverse.1 (hp' ▸ List.mem_cons_self))
    rw [List.reverse_append, hp', List.cons_append,
      List.dropWhile_cons_of_neg (Bool.eq_false_iff.1 hc)]
  rw [trimEnd, List.reverse_append, List.dropWhile_append, trimEnd]
  split
  · next hall => rw [hkeep, List.isEmpty_iff.1 hall, List.reverse_reverse, List.reverse_nil,
      List.append_nil]
  · rw [List.reverse_append, List.reverse_reverse]

/-- ASCII and blanks. -/
def IsPlain (c : Char) : Prop := c.toNat < 128 ∨ isBlank c = true

theorem lowerChar_ascii : ∀ n < 128, lowerChar (Char.ofNat n) = [(Char.ofNat n).toLower] ∧
    isWordChar (Char.ofNat n).toLower = isWordChar (Char.ofNat n) ∧
    isBlank (Char.ofNat n).toLower = isBlank (Char.ofNat n) := by
  decide

theorem toLower_of_not_ascii {c : Char} (hc : ¬ c.toNat < 128) : c.toLower = c := by
  unfold Char.toLower
  refine dif_neg fun h => hc ?_
  have hle : c.val.toNat ≤ 90 := UInt32.le_iff_toNat_le.1 h.2
  show c.val.toNat < 128
  omega

theorem lowerChar_of_plain {c : Char} (h : IsPlain c) : lowerChar c = [c.toLower] := by
  by_cases hc : c.toNat < 128
  · simpa using (lowerChar_ascii c.toNat hc).1
  · rw [toLower_of_not_ascii hc, lowerChar_of_blank (h.resolve_left hc)]

theorem isWordChar_toLower (c : Char) : isWordChar c.toLower = isWordChar c := by
  by_cases hc : c.toNat < 128
  · simpa using (lowerChar_ascii c.toNat hc).2.1
  · rw [toLower_of_not_ascii hc]

theorem isBlank_toLower (c : Char) : isBlank c.toLower = isBlank c := by
  by_cases hc : c.toNat < 128
  · simpa using (lowerChar_ascii c.toNat hc).2.2
  · rw [toLower_of_not_ascii hc]

theorem toLower_ascii :
    ∀ n < 128, (Char.ofNat n).toLower.toLower = (Char.ofNat n).toLower := by
  decide

theorem toLower_toLower (c : Char) : c.toLower.toLower = c.toLower := by
  by_cases hc : c.toNat < 128
  · have hlow := toLower_ascii c.toNat hc
    rwa [Char.ofNat_toNat] at hlow
  · rw [toLower_of_not_ascii hc, toLower_of_not_ascii hc]

theorem lowerFrom_eq_map {cs : List Char} (h : ∀ c ∈ cs, IsPlain c) (before : List Char) :
    lowerFrom before cs = cs.map Char.toLower := by
  induction cs generalizing before with
  | nil => rfl
  | cons c cs ih =>
    obtain ⟨hc, hcs⟩ := List.forall_mem_cons.1 h
    have hsigma : ¬ (c == 'Σ') = true := by
      intro heq
      obtain rfl := beq_iff_eq.1 heq
      exact absurd hc (by rintro (h | h) <;> revert h <;> decide)
    rw [lowerFrom_cons, lowered, if_neg hsigma, lowerChar_of_plain hc, ih hcs]
    rfl

/-- ASCII is lower-cased character by character. -/
theorem lower_eq_map {cs : List Char} (h : ∀ c ∈ cs, IsPlain c) :
    lower cs = cs.map Char.toLower :=
  lowerFrom_eq_map h []

theorem startsApart_map_toLower {cs : List Char} :
    StartsApart (cs.map Char.toLower) ↔ StartsApart cs := by
  cases cs with
  | nil => exact Iff.rfl
  | cons c cs => exact iff_of_eq (congrArg (· = false) (isWordChar_toLower c))

theorem endsApart_map_toLower {cs : List Char} :
    EndsApart (cs.map Char.toLower) ↔ EndsApart cs := by
  unfold EndsApart
  rw [List.getLast?_map]
  cases cs.getLast? with
  | none => exact Iff.rfl
  | some c => exact iff_of_eq (congrArg (· = false) (isWordChar_toLower c))

theorem startsApart_trimEnd {cs : List Char} (h : StartsApart cs) :
    StartsApart (trimEnd cs) := by
  have hprefix : trimEnd cs <+: cs := List.rdropWhile_prefix isBlank cs
  obtain ⟨rest, hrest⟩ := hprefix
  cases hcs : trimEnd cs with
  | nil => exact .nil
  | cons c cs' =>
    rw [← hrest, hcs] at h
    exact h

namespace Spaced

/-- Blanks may go at the start. -/
theorem trimStart (htext : ∀ s ∈ ss, Solid (text s)) (h : Spaced text touch ss cs) :
    Spaced text touch ss (trimStart cs) := by
  cases h with
  | nil hbs => exact .nil fun b hb => hbs b ((List.dropWhile_suffix _).subset hb)
  | @cons bs s ss cs hbs htouch hrest =>
    obtain ⟨hne, hblank⟩ := htext s List.mem_cons_self
    obtain ⟨c, p, hp⟩ := List.exists_cons_of_ne_nil hne
    have hc : isBlank c = false := hblank c (hp ▸ List.mem_cons_self)
    have hdrop : Text.trimStart (bs ++ text s ++ cs) = text s ++ cs := by
      rw [Text.trimStart, List.append_assoc, List.dropWhile_append_of_pos hbs, hp,
        List.cons_append, List.dropWhile_cons_of_neg (Bool.eq_false_iff.1 hc)]
    exact hdrop ▸ .piece htouch hrest

/-- Blanks may go at the end. -/
theorem trimEnd (htext : ∀ s ∈ ss, Solid (text s)) (h : Spaced text (Apart text) ss cs) :
    Spaced text (Apart text) ss (trimEnd cs) := by
  induction h with
  | nil hbs => exact .nil fun b hb => hbs b ((List.rdropWhile_prefix isBlank _).subset hb)
  | @cons bs s ss cs hbs htouch _ ih =>
    obtain ⟨hs, hss⟩ := List.forall_mem_cons.1 htext
    rw [trimEnd_append hs]
    exact .cons hbs (htouch.imp_right startsApart_trimEnd) (ih hss)

/-- Runs of blanks may become single spaces. -/
theorem collapseFrom (htext : ∀ s ∈ ss, Solid (text s)) (h : Spaced text (Apart text) ss cs)
    (open_ : Bool) : Spaced text (Apart text) ss (collapseFrom open_ cs) := by
  have hblanks : ∀ bs : List Char, (∀ b ∈ bs, isBlank b = true) → ∀ open_ rest,
      ∃ bs' open_', (∀ b ∈ bs', isBlank b = true) ∧
        Text.collapseFrom open_ (bs ++ rest) = bs' ++ Text.collapseFrom open_' rest := by
    intro bs hbs open_ rest
    induction bs generalizing open_ with
    | nil => exact ⟨[], open_, nofun, rfl⟩
    | cons b bs ih =>
      obtain ⟨hb, hbs⟩ := List.forall_mem_cons.1 hbs
      obtain ⟨bs', open_', hbs', heq⟩ := ih hbs true
      rw [List.cons_append, Text.collapseFrom_cons, if_pos hb, heq]
      cases open_ with
      | true => exact ⟨bs', open_', hbs', rfl⟩
      | false => exact ⟨' ' :: bs', open_', List.forall_mem_cons.2 ⟨rfl, hbs'⟩, rfl⟩
  induction h generalizing open_ with
  | @nil bs hbs =>
    obtain ⟨bs', open_', hbs', heq⟩ := hblanks bs hbs open_ []
    rw [List.append_nil] at heq
    rw [heq, Text.collapseFrom_nil, List.append_nil]
    exact .nil hbs'
  | @cons bs s ss cs hbs htouch _ ih =>
    obtain ⟨hs, hss⟩ := List.forall_mem_cons.1 htext
    obtain ⟨bs', open_', hbs', heq⟩ := hblanks bs hbs open_ (text s ++ cs)
    rw [List.append_assoc, heq, collapseFrom_append hs.1 hs.2, ← List.append_assoc]
    exact .cons hbs' (htouch.imp_right startsApart_collapse.2) (ih hss false)

/-- Blanks stay blanks in lower case. -/
theorem mapLower (h : Spaced text (Apart text) ss cs) :
    Spaced (fun s => (text s).map Char.toLower) (Apart fun s => (text s).map Char.toLower) ss
      (cs.map Char.toLower) := by
  have hlow : ∀ bs : List Char, (∀ b ∈ bs, isBlank b = true) →
      ∀ b ∈ bs.map Char.toLower, isBlank b = true := by
    intro bs hbs
    simpa [isBlank_toLower] using hbs
  induction h with
  | nil hbs => exact .nil (hlow _ hbs)
  | @cons bs s ss cs hbs htouch _ ih =>
    rw [List.map_append, List.map_append]
    exact .cons (hlow _ hbs)
      (htouch.imp endsApart_map_toLower.2 startsApart_map_toLower.2) ih

/-- **The canonical form holds the pieces in lower case.** -/
theorem canonical (htext : ∀ s ∈ ss, Solid (text s)) (hascii : ∀ s ∈ ss, ∀ c ∈ text s, c.toNat < 128)
    (h : Spaced text (Apart text) ss cs) :
    Spaced (fun s => (text s).map Char.toLower) (Apart fun s => (text s).map Char.toLower) ss
      (canonical cs) := by
  have hspaced := ((h.trimStart htext).trimEnd htext).collapseFrom htext false
  have hplain : ∀ c ∈ collapse (trim cs), IsPlain c :=
    hspaced.forall_mem (fun _ => .inr) fun s hs c hc => .inl (hascii s hs c hc)
  rw [Text.canonical, lower_eq_map hplain]
  exact hspaced.mapLower

end Spaced

end Reckoner.Text
