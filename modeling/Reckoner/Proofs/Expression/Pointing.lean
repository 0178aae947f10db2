/-
  What the message about a refused expression points at.

  * `Span.underline_between`: the line below a stretch of a text has a space for each character
    before it and a caret for each one in it;
  * `validate_error_le`: a row of tokens is refused at one of them or at its end;
  * `PointsAt`: a span is that of the token of an index, or the end of the text;
  * `parse_points_at`: **the span of the message is that of the token at which the row is
    refused**.
-/
import Reckoner.Expression
import Reckoner.Proofs.Expression.Lossless

namespace Reckoner

open Text

/-! ## Underlines -/

namespace Text

/-- A character starts at the byte, or the text ends there. -/
def IsCharBoundary (cs : List Char) (position : Nat) : Prop :=
  ∃ before after, cs = before ++ after ∧ byteLength before = position

end Text

namespace Span

theorem length_startsFrom (position : Nat) (cs : List Char) :
    (startsFrom position cs).length = cs.length := by
  induction cs generalizing position with
  | nil => rfl
  | cons c cs ih => rw [startsFrom, List.length_cons, ih, List.length_cons]

theorem startsFrom_append (position : Nat) (cs ds : List Char) :
    startsFrom position (cs ++ ds) =
      startsFrom position cs ++ startsFrom (position + byteLength cs) ds := by
  induction cs generalizing position with
  | nil => rfl
  | cons c cs ih =>
    rw [List.cons_append, startsFrom, startsFrom, ih, byteLength_cons, List.cons_append,
      Nat.add_assoc]

theorem mem_startsFrom {position i : Nat} {cs : List Char} (h : i ∈ startsFrom position cs) :
    position ≤ i ∧ i < position + byteLength cs := by
  induction cs generalizing position with
  | nil => exact absurd h List.not_mem_nil
  | cons c cs ih =>
    have hpos := c.utf8Size_pos
    rw [byteLength_cons]
    rcases List.mem_cons.1 h with rfl | h
    · omega
    · have hbounds := ih h
      omega

/-- **The line below a stretch**: spaces under what comes before it, and carets under it. -/
theorem underline_between (before w after : List Char) :
    (Span.mk (byteLength before) (byteLength before + byteLength w)).underline
        (before ++ w ++ after) =
      List.replicate before.length ' ' ++ List.replicate (max w.length 1) '^' := by
  have hbefore : ∀ i ∈ startsFrom 0 before, i < byteLength before := by
    intro i hi
    have hbounds := mem_startsFrom hi
    omega
  have hin : ∀ i ∈ startsFrom (byteLength before) w,
      byteLength before ≤ i ∧ i < byteLength before + byteLength w :=
    fun i hi => mem_startsFrom hi
  have hafter : ∀ i ∈ startsFrom (byteLength before + byteLength w) after,
      byteLength before + byteLength w ≤ i :=
    fun i hi => (mem_startsFrom hi).1
  have hstarts : startsFrom 0 (before ++ w ++ after) =
      startsFrom 0 before ++ (startsFrom (byteLength before) w ++
        startsFrom (byteLength before + byteLength w) after) := by
    rw [startsFrom_append, startsFrom_append, byteLength_append, Nat.zero_add, Nat.zero_add,
      List.append_assoc]
  have hcolumn : (startsFrom 0 (before ++ w ++ after)).takeWhile (· < byteLength before) =
      startsFrom 0 before := by
    rw [hstarts, List.takeWhile_append_of_pos (by simpa using hbefore)]
    cases hlater : startsFrom (byteLength before) w ++
        startsFrom (byteLength before + byteLength w) after with
    | nil => exact List.append_nil _
    | cons i more =>
      have hi : byteLength before ≤ i := by
        rcases List.mem_append.1 (hlater ▸ List.mem_cons_self (a := i)) with hi | hi
        · exact (hin i hi).1
        · exact Nat.le_of_add_right_le (hafter i hi)
      rw [List.takeWhile_cons_of_neg (by simpa using hi), List.append_nil]
  have hwidth : (startsFrom 0 (before ++ w ++ after)).filter
      (fun i => byteLength before ≤ i && i < byteLength before + byteLength w) =
      startsFrom (byteLength before) w := by
    rw [hstarts, List.filter_append, List.filter_append, List.filter_eq_nil_iff.2,
      List.filter_eq_self.2, List.filter_eq_nil_iff.2, List.append_nil, List.nil_append]
    · intro i hi
      have hle := hafter i hi
      simp only [Bool.and_eq_true, decide_eq_true_eq]
      omega
    · intro i hi
      simpa using hin i hi
    · intro i hi
      have hlt := hbefore i hi
      simp only [Bool.and_eq_true, decide_eq_true_eq]
      omega
  unfold underline
  simp only [hcolumn, hwidth, length_startsFrom]

end Span

namespace Expression

/-! ## Where a row is refused -/

theorem run_error_le {step : Progress → Token → Option Progress} {p : Progress} {i k : Nat}
    {ts : List Token} (h : run step p i ts = .error k) : k ≤ i + ts.length := by
  induction ts generalizing p i with
  | nil =>
    rw [run] at h
    split at h <;> cases h
    exact Nat.le_refl _
  | cons t ts ih =>
    rw [run] at h
    rw [List.length_cons]
    split at h
    · have hle := ih h
      omega
    · cases h
      omega

theorem validateUnits_error_le {offset i : Nat} {units : List Token}
    (h : validateUnits offset (offset + 1 + units.length) units = .error i) :
    i ≤ offset + 1 + units.length := by
  unfold validateUnits at h
  split at h
  · next bad hbad =>
    obtain ⟨hlt, -⟩ := List.findIdx?_eq_some_iff_getElem.1 hbad
    cases h
    omega
  · split at h
    · split at h <;> cases h
      exact Nat.le_refl _
    · split at h <;> cases h
      omega

theorem validateConversion_error_le {ts : List Token} {i : Nat}
    (h : validateConversion ts = .error i) : i ≤ ts.length := by
  unfold validateConversion at h
  dsimp only at h
  -- a minus sign takes up one token, so that there is one
  have hoffset : (if ts.head?.any fun t => t.kind == .operator && t.value == "-" then 1 else 0) ≤
      ts.length := by
    cases ts with
    | nil => exact Nat.le_refl _
    | cons t ts =>
      rw [List.length_cons]
      split_ifs <;> omega
  generalize (if ts.head?.any fun t => t.kind == .operator && t.value == "-" then 1 else 0) =
    offset at h hoffset
  split at h
  · next number units hdrop =>
    have hlength : ts.length = offset + 1 + units.length := by
      have hlength := congrArg List.length hdrop
      rw [List.length_drop, List.length_cons] at hlength
      omega
    split at h
    · rw [hlength] at h ⊢
      exact validateUnits_error_le h
    · cases h
      exact hoffset
  · cases h
    exact hoffset

theorem validateDate_error_le {ts : List Token} {i : Nat} (h : validateDate ts = .error i) :
    i ≤ ts.length := by
  unfold validateDate at h
  split at h
  · split at h <;> cases h
    exact Nat.le_refl _
  · split at h
    · cases h
      exact Nat.zero_le _
    · split at h <;> cases h
      exact Nat.le_refl _

/-- A row of tokens is refused at one of them or at its end. -/
theorem validate_error_le {kind : Kind} {ts : List Token} {i : Nat}
    (h : validate kind ts = .error i) : i ≤ ts.length := by
  unfold validate at h
  split at h
  · cases h
    exact Nat.zero_le _
  · cases kind with
    | arithmetic | logic =>
      have hle := run_error_le h
      omega
    | unitConversion => exact validateConversion_error_le h
    | dateCalculation => exact validateDate_error_le h
    | naturalLanguage => cases h
    | unknown =>
      cases h
      exact Nat.zero_le _

/-! ## What the message points at -/

/-- A span is that of the token of an index, or empty at the end of the text if the index is that
of the end; and it can be underlined. -/
structure PointsAt (text : List Char) (tokens : List Token) (i : Nat) (s : Span) : Prop where
  index : i ≤ tokens.length
  token : ∀ t, tokens[i]? = some t → s = t.span ∧ ∃ before after,
    text = before ++ t.value.toList ++ after ∧ byteLength before = s.start ∧
      s.underline text =
        List.replicate before.length ' ' ++ List.replicate t.value.toList.length '^'
  finish : i = tokens.length → s = .point (byteLength text) ∧
    s.underline text = List.replicate text.length ' ' ++ ['^']
  ordered : s.start ≤ s.stop
  within : s.stop ≤ byteLength text
  start_boundary : IsCharBoundary text s.start
  stop_boundary : IsCharBoundary text s.stop

theorem pointsAt_spanAt {skip : Char → Bool} {text : List Char} {tokens : List Token} {i : Nat}
    (htokens : Lossless skip text tokens) (hi : i ≤ tokens.length) :
    PointsAt text tokens i (spanAt text tokens i) := by
  cases ht : tokens[i]? with
  | some t =>
    have hmem := List.mem_of_getElem? ht
    obtain ⟨before, after, htext, hposition⟩ := htokens.placed t hmem
    have hspan : spanAt text tokens i =
        ⟨byteLength before, byteLength before + byteLength t.value.toList⟩ := by
      rw [spanAt, ht, hposition]
      rfl
    have hlength : 1 ≤ t.value.toList.length := by
      refine List.length_pos_iff.2 fun hnil => htokens.nonempty t hmem ?_
      exact String.toList_eq_nil_iff.1 hnil
    rw [hspan]
    refine ⟨hi, fun u hu => ?_, fun hend => ?_, Nat.le_add_right _ _, ?_, ?_, ?_⟩
    · obtain rfl := Option.some.inj (ht.symm.trans hu)
      refine ⟨by rw [Token.span, hposition], before, after, htext, rfl, ?_⟩
      rw [htext, Span.underline_between, Nat.max_eq_left hlength]
    · rw [List.getElem?_eq_none hend.ge] at ht
      cases ht
    · rw [htext, byteLength_append, byteLength_append]
      exact Nat.le_add_right _ _
    · exact ⟨before, t.value.toList ++ after, by rw [htext, List.append_assoc], rfl⟩
    · exact ⟨before ++ t.value.toList, after, htext, byteLength_append ..⟩
  | none =>
    have hend : i = tokens.length := Nat.le_antisymm hi (List.getElem?_eq_none_iff.1 ht)
    have hspan : spanAt text tokens i = .point (byteLength text) := by rw [spanAt, ht]
    have hboundary : IsCharBoundary text (byteLength text) :=
      ⟨text, [], (List.append_nil text).symm, rfl⟩
    rw [hspan]
    refine ⟨hi, fun u hu => ?_, fun _ => ⟨rfl, ?_⟩, Nat.le_refl _, Nat.le_refl _, hboundary,
      hboundary⟩
    · rw [ht] at hu
      cases hu
    · have hline := Span.underline_between text [] []
      rwa [List.append_nil, List.append_nil] at hline

/-- **The message about a refused expression points at the token at which the row is refused**,
or at the end of the text if more has to come. -/
theorem parse_points_at {q : String} (hq : isBlankText q = false) {d : Diagnostic}
    (h : (parse q).error = some d) :
    ∃ i s, validate (parse q).kind (parse q).tokens = .error i ∧ d.span = some s ∧
      PointsAt (parse q).canonical.toList (parse q).tokens i s := by
  unfold parse at h ⊢
  rw [hq] at h ⊢
  simp only [Bool.false_eq_true, if_false, String.toList_ofList] at h ⊢
  split at h
  · cases h
  · next i hi =>
    obtain rfl := Option.some.inj h
    exact ⟨i, _, hi, rfl, pointsAt_spanAt (lossless_tokenize ..) (validate_error_le hi)⟩

/-- The degree sign takes two bytes and is underlined by one caret. -/
theorem parse_points_at_degree :
    isBlankText "2 + 5° )" = false ∧ ∃ d, (parse "2 + 5° )").error = some d ∧
      d.span = some ⟨5, 7⟩ ∧
      ∃ i s, validate (parse "2 + 5° )").kind (parse "2 + 5° )").tokens = .error i ∧
        d.span = some s ∧
        PointsAt (parse "2 + 5° )").canonical.toList (parse "2 + 5° )").tokens i s := by
  have hq : isBlankText "2 + 5° )" = false := by decide
  have herror : (parse "2 + 5° )").error =
      some { Diagnostic.of .error ⟨4⟩ "Invalid expression syntax" with span := some ⟨5, 7⟩ } := by
    decide +kernel
  exact ⟨hq, _, herror, rfl, parse_points_at hq herror⟩

end Expression

end Reckoner
