/-
  Which domains are tried for a query.

  * `Weighs`: a pattern of a weight, one of those of a domain, occurs in the query;
  * `IsBest`: the first declared of the domains with the greatest weight that occurs;
  * `IsOrder`, `isOrder_priority`: **no domain is tried twice, the four common ones always are,
    and the best one, if any, is tried first**.
-/
import Mathlib.Data.List.Nodup
import Reckoner.Proofs.Engine.Agreement
import Reckoner.Proofs.Query.Priority

namespace Reckoner.Query

open Text Pattern

/-! ## Weights -/

/-- A pattern of this weight occurs in the query. -/
def Weighs (q : String) (ps : List (Pattern × Nat)) (w : Nat) : Prop :=
  ∃ p, (p, w) ∈ ps ∧ p.occursIn (normalize q) = true

section
variable {q : String} {ps : List (Pattern × Nat)} {w : Nat}

theorem mem_weights_iff :
    w ∈ (ps.filter fun p => p.1.occursIn (normalize q)).map (·.2) ↔ Weighs q ps w := by
  simp only [List.mem_map, List.mem_filter, Prod.exists, exists_eq_right, Weighs]

theorem bestWeight?_eq_some_iff : bestWeight? ps (normalize q) = some w ↔
    Weighs q ps w ∧ ∀ v, Weighs q ps v → v ≤ w := by
  simp only [bestWeight?, List.max?_eq_some_iff, mem_weights_iff]

theorem bestWeight?_eq_none_iff : bestWeight? ps (normalize q) = none ↔ ∀ v, ¬ Weighs q ps v := by
  simp only [bestWeight?, List.max?_eq_none_iff, List.eq_nil_iff_forall_not_mem, mem_weights_iff]

end

/-! ## The best domain -/

theorem eq_nil_of_firstBest {entries : List (Domain × Nat)} (h : firstBest entries = none) :
    entries = [] := by
  cases entries with
  | nil => rfl
  | cons entry entries =>
    rw [firstBest] at h
    split at h
    · split_ifs at h
    · cases h

/-- The first entry of the greatest score: those before it are smaller, those after it no
larger. -/
theorem exists_split_of_firstBest {entries : List (Domain × Nat)} {best : Classification}
    (h : firstBest entries = some best) : ∃ before after,
      entries = before ++ (best.domain, best.confidence) :: after ∧
        (∀ e ∈ before, e.2 < best.confidence) ∧ ∀ e ∈ after, e.2 ≤ best.confidence := by
  induction entries generalizing best with
  | nil => cases h
  | cons entry entries ih =>
    obtain ⟨d, w⟩ := entry
    rw [firstBest] at h
    split at h
    · next later hlater =>
      obtain ⟨before, after, hentries, hbefore, hafter⟩ := ih hlater
      split_ifs at h with hgreater
      · obtain rfl := Option.some.inj h
        refine ⟨(d, w) :: before, after, congrArg _ hentries, ?_, hafter⟩
        exact List.forall_mem_cons.2 ⟨hgreater, hbefore⟩
      · obtain rfl := Option.some.inj h
        refine ⟨[], entries, rfl, List.forall_mem_nil _, fun e he => ?_⟩
        have hle : later.confidence ≤ w := Nat.le_of_not_gt hgreater
        rw [hentries] at he
        rcases List.mem_append.1 he with he | he
        · exact (hbefore e he).le.trans hle
        · rcases List.mem_cons.1 he with rfl | he
          · exact hle
          · exact (hafter e he).trans hle
    · next hnone =>
      obtain rfl := Option.some.inj h
      obtain rfl := eq_nil_of_firstBest hnone
      exact ⟨[], [], rfl, List.forall_mem_nil _, List.forall_mem_nil _⟩

/-- The first declared of the domains with the greatest weight that occurs in the query. -/
def IsBest (q : String) (d : Domain) : Prop :=
  ∃ before ps after w, patterns = before ++ (d, ps) :: after ∧ Weighs q ps w ∧
    (∀ e ∈ before, ∀ v, Weighs q e.2 v → v < w) ∧
      ∀ e ∈ (d, ps) :: after, ∀ v, Weighs q e.2 v → v ≤ w

/-- The score of an entry is at least each weight that occurs. -/
theorem exists_score {q : String} {es : List (Domain × List (Pattern × Nat))}
    {e : Domain × List (Pattern × Nat)} {v : Nat} (he : e ∈ es) (hv : Weighs q e.2 v) :
    ∃ w, v ≤ w ∧ (e.1, w) ∈ es.filterMap fun (d, ps) =>
      (bestWeight? ps (normalize q)).map fun w => (d, w) := by
  obtain ⟨w, hw⟩ := Option.ne_none_iff_exists'.1 (mt bestWeight?_eq_none_iff.1 fun h => h v hv)
  refine ⟨w, (bestWeight?_eq_some_iff.1 hw).2 v hv, List.mem_filterMap.2 ⟨e, he, ?_⟩⟩
  simp only [hw, Option.map_some]

theorem isBest_of_firstBest {q : String} {best : Classification}
    (h : firstBest (scores q) = some best) : IsBest q best.domain := by
  obtain ⟨first, later, hscores, hfirst, hlater⟩ := exists_split_of_firstBest h
  obtain ⟨before, rest, hpatterns, hbefore, hrest⟩ := List.filterMap_eq_append_iff.1 hscores
  obtain ⟨skipped, ⟨d, ps⟩, after, rfl, hskipped, hbest, hafter⟩ :=
    List.filterMap_eq_cons_iff.1 hrest
  obtain ⟨w, hw, heq⟩ := Option.map_eq_some_iff.1 hbest
  obtain ⟨rfl, rfl⟩ := Prod.mk.inj heq
  obtain ⟨hweighs, hgreatest⟩ := bestWeight?_eq_some_iff.1 hw
  refine ⟨before ++ skipped, ps, after, best.confidence, ?_, hweighs, ?_, ?_⟩
  · rw [hpatterns, List.append_assoc]
  · intro e he v hv
    rcases List.mem_append.1 he with he | he
    · obtain ⟨w, hle, hmem⟩ := exists_score he hv
      rw [hbefore] at hmem
      exact hle.trans_lt (hfirst _ hmem)
    · have hnone := Option.map_eq_none_iff.1 (hskipped e he)
      exact absurd hv (bestWeight?_eq_none_iff.1 hnone v)
  · intro e he v hv
    rcases List.mem_cons.1 he with rfl | he
    · exact hgreatest v hv
    · obtain ⟨w, hle, hmem⟩ := exists_score he hv
      rw [hafter] at hmem
      exact hle.trans (hlater _ hmem)

/-! ## Queries in which a pattern occurs -/

theorem patterns_not_nullable : ∀ e ∈ patterns, ∀ p ∈ e.2, p.1.isNullable = false := by
  decide

/-- No pattern occurs in a blank query. -/
theorem not_blank_of_weighs {q : String} {e : Domain × List (Pattern × Nat)} {w : Nat}
    (he : e ∈ patterns) (hw : Weighs q e.2 w) : isBlankText q = false := by
  obtain ⟨p, hp, hoccurs⟩ := hw
  by_contra hblank
  rw [Bool.not_eq_false] at hblank
  have hnil : normalize q = [] := by
    rw [normalize, trim_eq_nil.2 hblank]
    rfl
  rw [hnil] at hoccurs
  obtain ⟨before, stretch, rest, groups, hcs, hfits⟩ := occursIn_iff.1 hoccurs
  obtain ⟨hstretch, rfl⟩ := List.append_eq_nil_iff.1 hcs.symm
  obtain ⟨rfl, rfl⟩ := List.append_eq_nil_iff.1 hstretch
  exact Bool.false_ne_true ((patterns_not_nullable e he _ hp).symm.trans hfits.isNullable)

/-- If a pattern occurs, the query has the best domain. -/
theorem isBest_classify {q : String} {e : Domain × List (Pattern × Nat)} {w : Nat}
    (he : e ∈ patterns) (hw : Weighs q e.2 w) :
    firstBest (scores q) = some (classify q) ∧ IsBest q (classify q).domain := by
  obtain ⟨v, -, hmem⟩ := exists_score he hw
  have hclassify : firstBest (scores q) = some (classify q) := by
    unfold classify
    rw [not_blank_of_weighs he hw, if_neg Bool.false_ne_true]
    cases hbest : firstBest (scores q) with
    | some best => rfl
    | none => exact absurd (eq_nil_of_firstBest hbest) (List.ne_nil_of_mem hmem)
  exact ⟨hclassify, isBest_of_firstBest hclassify⟩

/-! ## The order -/

theorem nodup_addNew {ds : List Domain} (h : ds.Nodup) (more : List Domain) :
    (addNew ds more).Nodup := by
  unfold addNew
  induction more generalizing ds with
  | nil => exact h
  | cons d more ih =>
    rw [List.foldl_cons]
    split_ifs with hd
    · exact ih h
    · refine ih (List.nodup_append.2 ⟨h, List.nodup_singleton d, fun a ha b hb => ?_⟩)
      rw [List.mem_singleton.1 hb]
      rintro rfl
      exact hd (List.contains_iff_mem.2 ha)

theorem of_mem_addNew {d : Domain} {ds more : List Domain} (h : d ∈ addNew ds more) :
    d ∈ ds ∨ d ∈ more := by
  unfold addNew at h
  induction more generalizing ds with
  | nil => exact .inl h
  | cons e more ih =>
    rw [List.foldl_cons] at h
    rcases ih h with hmem | hmem
    · split_ifs at hmem
      · exact .inl hmem
      · rcases List.mem_append.1 hmem with hmem | hmem
        · exact .inl hmem
        · exact .inr (List.mem_cons.2 (.inl (List.mem_singleton.1 hmem)))
    · exact .inr (List.mem_cons_of_mem e hmem)

theorem domain_ne_error_of_firstBest {q : String} {best : Classification}
    (h : firstBest (scores q) = some best) : best.domain ≠ .error := by
  obtain ⟨ps, hps, -⟩ := pattern_of_scores (mem_of_firstBest h)
  have hdomains : ∀ e ∈ patterns, e.1 ≠ .error := by decide
  exact hdomains _ hps

theorem domain_ne_error_of_confidence {q : String} (h : 50 ≤ (classify q).confidence) :
    (classify q).domain ≠ .error := by
  rcases classify_cases q with hunclear | hnumeric | hbest
  · rw [hunclear] at h
    exact absurd h (by decide)
  · rw [hnumeric]
    decide
  · exact domain_ne_error_of_firstBest hbest

/-- In which order domains are tried for a query. -/
structure IsOrder (q : String) (ds : List Domain) : Prop where
  nodup : ds.Nodup
  common : ∀ d ∈ defaultOrder, d ∈ ds
  no_error : .error ∉ ds
  /-- if a pattern occurs, the best domain is tried first -/
  best : ∀ e ∈ patterns, ∀ w, Weighs q e.2 w → ∃ d rest, ds = d :: rest ∧ IsBest q d

/-- **No domain is tried twice, the four common ones always are, and the best one first.** -/
theorem isOrder_priority (q : String) : IsOrder q (priority q) where
  nodup := by
    unfold priority
    dsimp only
    refine nodup_addNew (nodup_addNew ?_ _) _
    split_ifs
    · exact List.nodup_singleton _
    · exact List.nodup_nil
  common d hd := mem_addNew (.inr hd)
  no_error hmem := by
    unfold priority at hmem
    rcases of_mem_addNew hmem with hmem | hmem
    · rcases of_mem_addNew hmem with hmem | hmem
      · split_ifs at hmem with hsure
        · exact domain_ne_error_of_confidence hsure (List.mem_singleton.1 hmem).symm
        · exact List.not_mem_nil hmem
      · obtain ⟨p, hp, -⟩ := trigger_of_mem hmem
        have htriggers : ∀ t ∈ triggers, t.1 ≠ .error := by decide
        exact htriggers _ hp rfl
    · exact absurd hmem (by decide)
  best e he w hw := by
    obtain ⟨hclassify, hbest⟩ := isBest_classify he hw
    obtain ⟨rest, hrest⟩ := priority_of_classify (domain_ne_error_of_firstBest hclassify) rfl
    exact ⟨_, rest, hrest, hbest⟩

end Reckoner.Query
