/-
  Conversions that succeed.

  * `scale_isOk`: a value in a unit has one in every other unit of the quantity;
  * `convert_of_common`: two names of one quantity are converted;
  * `evaluate_of_request`: **the answer to a request whose number and names are read**.
-/
import Reckoner.Proofs.Units.Parts

namespace Reckoner.Units

open Text

theorem temperature_symbols {r : UnitRow} (h : r ∈ Dimension.temperature.rows) :
    r.symbol = "°C" ∨ r.symbol = "°F" ∨ r.symbol = "K" := by
  simp only [Dimension.rows, List.mem_cons, List.not_mem_nil, or_false] at h
  rcases h with rfl | rfl | rfl <;> simp

theorem toCelsius_isOk {r : UnitRow} (h : r ∈ Dimension.temperature.rows) (value : Float) :
    ∃ x, toCelsius value r.symbol = .ok x := by
  rcases temperature_symbols h with h | h | h <;> simp [toCelsius, h]

theorem fromCelsius_isOk {r : UnitRow} (h : r ∈ Dimension.temperature.rows) (celsius : Float) :
    ∃ x, fromCelsius celsius r.symbol = .ok x := by
  rcases temperature_symbols h with h | h | h <;> simp [fromCelsius, h]

/-- A value in a unit has one in every other unit of the quantity. -/
theorem scale_isOk {d : Dimension} {s t : UnitRow} (hs : s ∈ d.rows) (ht : t ∈ d.rows)
    (value : Float) : ∃ x, scale d value s t = .ok x := by
  rw [scale]
  split
  · next haffine =>
    obtain rfl : d = .temperature := by simpa [Dimension.isAffine] using haffine
    obtain ⟨celsius, hcelsius⟩ := toCelsius_isOk hs value
    rw [hcelsius]
    exact fromCelsius_isOk ht celsius
  · exact ⟨_, rfl⟩

theorem mem_rows_of_find? {d : Dimension} {name : String} {r : UnitRow}
    (h : d.find? name = some r) : r ∈ d.rows :=
  List.mem_of_find?_eq_some h

/-- Two names of one quantity are converted. -/
theorem convert_of_common {source target : String} {d : Dimension} {s t : UnitRow}
    (h : common? source target = some (d, s, t)) (value : Float) :
    ∃ x, convert value source target = .ok (x, t) := by
  obtain ⟨d', -, hfound⟩ := List.exists_of_findSome?_eq_some h
  split at hfound
  · next s' t' hs ht =>
    obtain ⟨rfl, rfl, rfl⟩ : d' = d ∧ s' = s ∧ t' = t := by simpa using hfound
    obtain ⟨x, hx⟩ := scale_isOk (mem_rows_of_find? hs) (mem_rows_of_find? ht) value
    exact ⟨x, by rw [convert, h]; simp [hx, bind, Except.bind, pure, Except.pure]⟩
  · cases hfound

/-- **The answer to a request whose number and names are read.** -/
theorem evaluate_of_request {settings : Settings} {q : String} {amount source target : List Char}
    {value x : Float} {t : UnitRow} (hblank : isBlankText q = false)
    (hgroups : Request.groups? (canonical q.toList) = some [amount, source, target])
    (hvalue : Decimal.readFloat? amount = some value)
    (hconvert : convert value (String.ofList (trim source)) (String.ofList (trim target)) =
      .ok (x, t)) :
    evaluate settings q = .success (trimmed q) (Decimal.numberText x settings.precision)
      .unitConversion
      (Decimal.plainText value ++ " " ++ String.ofList (trim source) ++ " = " ++
        Decimal.numberText x settings.precision ++ " " ++ String.ofList (trim target))
      (some x) (some t.symbol) := by
  have hread : Request.read (trimmed q) =
      .ok ⟨value, String.ofList (trim source), String.ofList (trim target)⟩ := by
    rw [Request.read, canonical_trimmed, hgroups]
    simp only [hvalue]
  rw [evaluate, answer?, if_neg (by rw [trimmed_isEmpty, hblank]; exact Bool.false_ne_true), hread]
  simp only [bind, Except.bind, hconvert]
  rfl

end Reckoner.Units
