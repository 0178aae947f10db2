/-
  Computations that succeed or fail.

  * `ok_of_bind`, `ok_of_mapM`, `ok_of_foldlM`: where a computation made of steps succeeds, each
    of its steps does, and `exists_of_mem_mapM`: its results are theirs; `error_of_bind`,
    `split_of_mapM`: where it fails, one of them does, after others that succeed;
  * `ok_of_not_isError`: an answer that is no failure comes from a computation that succeeds.
-/
import Reckoner.Answer

namespace Reckoner

variable {α β γ : Type}

theorem ok_of_bind {x : Except Failure α} {k : α → Except Failure β} {b : β}
    (h : x >>= k = .ok b) : ∃ a, x = .ok a ∧ k a = .ok b := by
  cases x with
  | error f => cases h
  | ok a => exact ⟨a, rfl, h⟩

theorem error_of_bind {x : Except Failure α} {k : α → Except Failure β} {f : Failure}
    (h : x >>= k = .error f) : x = .error f ∨ ∃ a, x = .ok a ∧ k a = .error f := by
  cases x with
  | error e =>
    obtain rfl : e = f := Except.error.inj h
    exact .inl rfl
  | ok a => exact .inr ⟨a, rfl, h⟩

theorem ok_of_mapM {k : α → Except Failure β} {as : List α} {bs : List β}
    (h : as.mapM k = .ok bs) : ∀ a ∈ as, ∃ b, k a = .ok b := by
  induction as generalizing bs with
  | nil => exact nofun
  | cons a as ih =>
    rw [List.mapM_cons] at h
    obtain ⟨b, hb, h⟩ := ok_of_bind h
    obtain ⟨bs', hbs, -⟩ := ok_of_bind h
    exact List.forall_mem_cons.2 ⟨⟨b, hb⟩, ih hbs⟩

/-- Every result is one of a step. -/
theorem exists_of_mem_mapM {k : α → Except Failure β} {as : List α} {bs : List β}
    (h : as.mapM k = .ok bs) : ∀ b ∈ bs, ∃ a ∈ as, k a = .ok b := by
  induction as generalizing bs with
  | nil =>
    obtain rfl : [] = bs := Except.ok.inj h
    exact nofun
  | cons a as ih =>
    rw [List.mapM_cons] at h
    obtain ⟨b, hb, h⟩ := ok_of_bind h
    obtain ⟨bs', hbs, h⟩ := ok_of_bind h
    obtain rfl : b :: bs' = bs := Except.ok.inj h
    refine List.forall_mem_cons.2 ⟨⟨a, List.mem_cons_self, hb⟩, fun c hc => ?_⟩
    obtain ⟨a', ha', hstep⟩ := ih hbs c hc
    exact ⟨a', List.mem_cons_of_mem a ha', hstep⟩

/-- What the results have in common with what they are made of, in turn. -/
theorem map_of_mapM {k : α → Except Failure β} {g : α → γ} {g' : β → γ} {as : List α}
    {bs : List β} (hk : ∀ a ∈ as, ∀ b, k a = .ok b → g' b = g a) (h : as.mapM k = .ok bs) :
    bs.map g' = as.map g := by
  induction as generalizing bs with
  | nil =>
    obtain rfl : [] = bs := Except.ok.inj h
    rfl
  | cons a as ih =>
    rw [List.mapM_cons] at h
    obtain ⟨b, hb, h⟩ := ok_of_bind h
    obtain ⟨bs', hbs, h⟩ := ok_of_bind h
    obtain rfl : b :: bs' = bs := Except.ok.inj h
    obtain ⟨ha, has⟩ := List.forall_mem_cons.1 hk
    rw [List.map_cons, List.map_cons, ha b hb, ih has hbs]

/-- Where a step fails, the steps before it succeed. -/
theorem split_of_mapM {k : α → Except Failure β} {as : List α} {f : Failure}
    (h : as.mapM k = .error f) : ∃ good a rest, as = good ++ a :: rest ∧
      (∀ b ∈ good, ∃ c, k b = .ok c) ∧ k a = .error f := by
  induction as with
  | nil => cases h
  | cons a as ih =>
    rw [List.mapM_cons] at h
    rcases error_of_bind h with ha | ⟨b, hb, h⟩
    · exact ⟨[], a, as, rfl, nofun, ha⟩
    · rcases error_of_bind h with has | ⟨bs, -, h⟩
      · obtain ⟨good, a', rest, rfl, hgood, ha'⟩ := ih has
        exact ⟨a :: good, a', rest, rfl, List.forall_mem_cons.2 ⟨⟨b, hb⟩, hgood⟩, ha'⟩
      · cases h

theorem error_of_mapM {k : α → Except Failure β} {as : List α} {f : Failure}
    (h : as.mapM k = .error f) : ∃ a ∈ as, k a = .error f := by
  obtain ⟨good, a, rest, rfl, -, ha⟩ := split_of_mapM h
  exact ⟨a, List.mem_append_right good List.mem_cons_self, ha⟩

theorem ok_of_foldlM {k : β → α → Except Failure β} {as : List α} {b c : β}
    (h : as.foldlM k b = .ok c) : ∀ a ∈ as, ∃ b₁ b₂, k b₁ a = .ok b₂ := by
  induction as generalizing b with
  | nil => exact nofun
  | cons a as ih =>
    rw [List.foldlM_cons] at h
    obtain ⟨b', hb, h⟩ := ok_of_bind h
    exact List.forall_mem_cons.2 ⟨⟨b, b', hb⟩, ih h⟩

theorem ok_of_not_isError {input : String} {x : Except Failure Answer}
    (h : (Answer.ofExcept input x).isError = false) :
    ∃ a, x = .ok a ∧ Answer.ofExcept input x = a := by
  cases x with
  | error f => cases h
  | ok a => exact ⟨a, rfl, rfl⟩

end Reckoner
