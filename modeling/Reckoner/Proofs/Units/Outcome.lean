/-
  What comes of a conversion.

  * `lookup?_nameKey`: a name is found as its key is;
  * `lookupIn_eq_some_iff`, `commonIn_eq_some_iff`: in whatever order the quantities are searched,
    a name is found in the one that has it, since no other does;
  * `convertIn_eq`: a conversion is decided by the two lookups alone;
  * `Outcome`, `convert_eq_iff`: the four ways in which it can come out;
  * `convert_outcome`: **when a conversion has a value, and which, and when it fails, and how.**
-/
import Reckoner.Proofs.Text.Canonical
import Reckoner.Proofs.Units.Names

namespace Reckoner.Units

open Text

/-! ## Keys -/

theorem nameKey_nameKey (name : String) : nameKey (nameKey name) = nameKey name := by
  simp only [nameKey, String.toList_ofList]
  rw [trim_lower (trim_trim _), lower_lower]

/-- A name is found as its key is. -/
theorem lookup?_nameKey (name : String) : lookup? (nameKey name) = lookup? name := by
  rw [lookup?, nameKey_nameKey, lookup?]

/-! ## Searches in any order -/

/-- The unit of a name, where the quantities are searched in the order given. -/
def lookupIn (order : List Dimension) (name : String) : Option (Dimension × UnitRow) :=
  order.findSome? fun d => (d.find? (nameKey name)).map fun r => (d, r)

/-- The first quantity in the order given that has units of both names. -/
def commonIn (order : List Dimension) (source target : String) :
    Option (Dimension × UnitRow × UnitRow) :=
  order.findSome? fun d =>
    match d.find? (nameKey source), d.find? (nameKey target) with
    | some s, some t => some (d, s, t)
    | _, _ => none

/-- The conversion of a value, where the quantities are searched in the order given. -/
def convertIn (order : List Dimension) (value : Float) (source target : String) :
    Except Failure (Float × UnitRow) :=
  match commonIn order source target with
  | some (d, s, t) => do return (← scale d value s t, t)
  | none =>
    match lookupIn order source, lookupIn order target with
    | some (d, _), some (d', _) =>
      if d.isAffine != d'.isAffine then .error .affineMix
      else .error (.incompatibleUnits source target)
    | _, _ => .error (.unknownUnits source target)

theorem convertIn_all : convertIn Dimension.all = convert := by
  have hcommon : commonIn Dimension.all = common? := rfl
  have hlookup : lookupIn Dimension.all = lookup? := rfl
  funext value source target
  rewrite [convertIn, hcommon, hlookup, convert]
  cases common? source target with
  | none => cases lookup? source <;> cases lookup? target <;> rfl
  | some found => rfl

/-- A name is found in one quantity. -/
theorem eq_of_find? {d d' : Dimension} {r r' : UnitRow} {name : String}
    (h : d.find? name = some r) (h' : d'.find? name = some r') : d = d' ∧ r = r' := by
  obtain rfl := dimension_unique (mem_unitWords h) (mem_unitWords h')
  exact ⟨rfl, Option.some.inj (h.symm.trans h')⟩

/-- What is found in one element alone is found in whatever order they are searched. -/
theorem findSome?_eq_some_of_unique {α β : Type} {f : α → Option β} {as : List α} {a : α} {b : β}
    (ha : a ∈ as) (hf : f a = some b) (hunique : ∀ a' b', f a' = some b' → b' = b) :
    as.findSome? f = some b := by
  have hsome : (as.findSome? f).isSome = true :=
    List.findSome?_isSome_iff.2 ⟨a, ha, Option.isSome_iff_exists.2 ⟨b, hf⟩⟩
  obtain ⟨b', hb'⟩ := Option.isSome_iff_exists.1 hsome
  obtain ⟨a', -, ha'⟩ := List.exists_of_findSome?_eq_some hb'
  rw [hb', hunique a' b' ha']

section
variable {order : List Dimension} (horder : ∀ d, d ∈ order) {source target name : String}
include horder

theorem lookupIn_eq_some_iff {d : Dimension} {r : UnitRow} :
    lookupIn order name = some (d, r) ↔ d.find? (nameKey name) = some r := by
  constructor
  · intro h
    obtain ⟨d', -, hd'⟩ := List.exists_of_findSome?_eq_some h
    obtain ⟨r', hr', heq⟩ := Option.map_eq_some_iff.1 hd'
    obtain ⟨rfl, rfl⟩ := Prod.mk.inj heq
    exact hr'
  · intro h
    refine findSome?_eq_some_of_unique (horder d) (by rw [h]; rfl) ?_
    intro d' b' hd'
    obtain ⟨r', hr', rfl⟩ := Option.map_eq_some_iff.1 hd'
    obtain ⟨rfl, rfl⟩ := eq_of_find? h hr'
    rfl

theorem commonIn_eq_some_iff {d : Dimension} {s t : UnitRow} :
    commonIn order source target = some (d, s, t) ↔
      lookupIn order source = some (d, s) ∧ lookupIn order target = some (d, t) := by
  rw [lookupIn_eq_some_iff horder, lookupIn_eq_some_iff horder]
  constructor
  · intro h
    obtain ⟨d', -, hd'⟩ := List.exists_of_findSome?_eq_some h
    split at hd'
    · next s' t' hs ht =>
      obtain ⟨rfl, rfl, rfl⟩ : d' = d ∧ s' = s ∧ t' = t := by simpa using hd'
      exact ⟨hs, ht⟩
    · cases hd'
  · rintro ⟨hs, ht⟩
    refine findSome?_eq_some_of_unique (horder d) (by rw [hs, ht]) ?_
    intro d' b' hd'
    split at hd'
    · next s' t' hs' ht' =>
      obtain ⟨rfl, rfl⟩ := eq_of_find? hs hs'
      obtain ⟨-, rfl⟩ := eq_of_find? ht ht'
      exact (Option.some.inj hd').symm
    · cases hd'

/-- A name is found in any order as in that of the quantities. -/
theorem lookupIn_eq (name : String) : lookupIn order name = lookup? name := by
  refine Option.ext fun ⟨d, r⟩ => ?_
  rw [lookupIn_eq_some_iff horder]
  exact (lookupIn_eq_some_iff Dimension.mem_all).symm

/-- A conversion is decided by the two lookups. -/
theorem convertIn_eq (value : Float) (source target : String) :
    convertIn order value source target =
      match lookup? source, lookup? target with
      | some (d, s), some (d', t) =>
        if d = d' then (scale d value s t).map fun x => (x, t)
        else if d = .temperature ∨ d' = .temperature then .error .affineMix
        else .error (.incompatibleUnits source target)
      | _, _ => .error (.unknownUnits source target) := by
  have hcommon := @commonIn_eq_some_iff order horder source target
  simp only [lookupIn_eq horder] at hcommon
  rw [convertIn, lookupIn_eq horder, lookupIn_eq horder]
  cases hfound : commonIn order source target with
  | some found =>
    obtain ⟨d, s, t⟩ := found
    obtain ⟨hs, ht⟩ := hcommon.1 hfound
    rw [hs, ht]
    simp only [if_pos]
    cases scale d value s t <;> rfl
  | none =>
    cases hs : lookup? source with
    | none => rfl
    | some found =>
      obtain ⟨d, s⟩ := found
      cases ht : lookup? target with
      | none => rfl
      | some found =>
        obtain ⟨d', t⟩ := found
        have hne : d ≠ d' := by
          rintro rfl
          rw [hcommon.2 ⟨hs, ht⟩] at hfound
          cases hfound
        simp only [if_neg hne]
        cases d <;> cases d' <;> first | rfl | exact absurd rfl hne

end

/-! ## Values -/

/-- Units that differ by a factor have a size. -/
theorem size_ne_zero : ∀ d ∈ Dimension.all, d ≠ .temperature → ∀ r ∈ d.rows,
    (r.size == 0) = false := by
  decide

/-- `x` of the unit `t` is as much as `value` of the unit `s`: temperatures go by way of Celsius,
all others by the factor between the units, and what is divided by is not zero. -/
def IsScaled (d : Dimension) (value : Float) (s t : UnitRow) (x : Float) : Prop :=
  if d = .temperature then
    ∃ celsius, toCelsius value s.symbol = .ok celsius ∧ fromCelsius celsius t.symbol = .ok x
  else (t.size == 0) = false ∧ x = value * s.size / t.size

theorem mem_rows_of_lookup? {d : Dimension} {r : UnitRow} {name : String}
    (h : lookup? name = some (d, r)) : r ∈ d.rows :=
  mem_rows_of_find? ((lookupIn_eq_some_iff Dimension.mem_all).1 h)

theorem scale_eq_ok_iff {d : Dimension} {s t : UnitRow} {value x : Float} (hs : s ∈ d.rows)
    (ht : t ∈ d.rows) : scale d value s t = .ok x ↔ IsScaled d value s t x := by
  by_cases htemperature : d = .temperature
  · subst htemperature
    obtain ⟨celsius, hcelsius⟩ := toCelsius_isOk hs value
    have haffine : Dimension.temperature.isAffine = true := rfl
    rw [scale, if_pos haffine, IsScaled, if_pos rfl, hcelsius]
    refine ⟨fun h => ⟨celsius, rfl, h⟩, ?_⟩
    rintro ⟨celsius', heq, h⟩
    obtain rfl := Except.ok.inj heq
    exact h
  · have haffine : ¬ d.isAffine = true := fun h => htemperature (beq_iff_eq.1 h)
    rw [scale, if_neg haffine, IsScaled, if_neg htemperature, Except.ok.injEq]
    exact ⟨fun h => ⟨size_ne_zero d d.mem_all htemperature t ht, h.symm⟩, fun h => h.2.symm⟩

/-- A value in a unit that is found has one in every other unit of the quantity. -/
theorem exists_isScaled {d : Dimension} {s t : UnitRow} {source target : String}
    (hs : lookup? source = some (d, s)) (ht : lookup? target = some (d, t)) (value : Float) :
    ∃ x, scale d value s t = .ok x ∧ IsScaled d value s t x := by
  have hs' := mem_rows_of_lookup? hs
  have ht' := mem_rows_of_lookup? ht
  obtain ⟨x, hx⟩ := scale_isOk hs' ht' value
  exact ⟨x, hx, (scale_eq_ok_iff hs' ht').1 hx⟩

/-! ## Outcomes -/

/-- What comes of a conversion, by where the two names are found. -/
inductive Outcome (value : Float) (source target : String) :
    Except Failure (Float × UnitRow) → Prop
  | scaled {d s t x} (hs : lookup? source = some (d, s)) (ht : lookup? target = some (d, t))
      (hx : IsScaled d value s t x) : Outcome value source target (.ok (x, t))
  | mix {d s d' t} (hs : lookup? source = some (d, s)) (ht : lookup? target = some (d', t))
      (h : Xor (d = .temperature) (d' = .temperature)) :
      Outcome value source target (.error .affineMix)
  | apart {d s d' t} (hs : lookup? source = some (d, s)) (ht : lookup? target = some (d', t))
      (hne : d ≠ d') (h : d ≠ .temperature ∧ d' ≠ .temperature) :
      Outcome value source target (.error (.incompatibleUnits source target))
  | unknown (h : lookup? source = none ∨ lookup? target = none) :
      Outcome value source target (.error (.unknownUnits source target))

section
variable {value : Float} {source target : String} {result : Except Failure (Float × UnitRow)}

/-- A conversion comes out in one of these ways. -/
theorem outcome_convert (value : Float) (source target : String) :
    Outcome value source target (convert value source target) := by
  rw [← convertIn_all, convertIn_eq Dimension.mem_all]
  cases hs : lookup? source with
  | none => exact .unknown (.inl hs)
  | some found =>
    obtain ⟨d, s⟩ := found
    cases ht : lookup? target with
    | none => exact .unknown (.inr ht)
    | some found =>
      obtain ⟨d', t⟩ := found
      simp only
      split_ifs with hd hmix
      · subst hd
        obtain ⟨x, hx, hscaled⟩ := exists_isScaled hs ht value
        rw [hx]
        exact .scaled hs ht hscaled
      · have hboth : ¬ (d = .temperature ∧ d' = .temperature) := fun h => hd (h.1.trans h.2.symm)
        exact .mix hs ht ((xor_iff_or_and_not_and _ _).2 ⟨hmix, hboth⟩)
      · exact .apart hs ht hd (not_or.1 hmix)

theorem Outcome.convert_eq (h : Outcome value source target result) :
    convert value source target = result := by
  rw [← convertIn_all, convertIn_eq Dimension.mem_all]
  cases h with
  | scaled hs ht hx =>
    have hscale := (scale_eq_ok_iff (mem_rows_of_lookup? hs) (mem_rows_of_lookup? ht)).2 hx
    rw [hs, ht]
    simp only [if_pos, hscale]
    rfl
  | @mix d s d' t hs ht h =>
    have hne : d ≠ d' := by
      rintro rfl
      exact xor_self _ ▸ h
    rw [hs, ht]
    simp only [if_neg hne, if_pos h.or]
  | apart hs ht hne h =>
    rw [hs, ht]
    simp only [if_neg hne, if_neg (not_or.2 h)]
  | unknown h =>
    rcases h with h | h
    · rw [h]
    · rw [h]
      cases lookup? source <;> rfl

/-- Each outcome has its one condition. -/
theorem convert_eq_iff :
    convert value source target = result ↔ Outcome value source target result :=
  ⟨fun h => h ▸ outcome_convert value source target, Outcome.convert_eq⟩

end

/-- **When a conversion has a value, and which, and when it fails, and how.** -/
theorem convert_outcome (value : Float) (source target : String) :
    -- it has a value if and only if both names are found in one quantity
    ((∃ y, convert value source target = .ok y) ↔
      ∃ d s t, lookup? source = some (d, s) ∧ lookup? target = some (d, t)) ∧
    -- with the unit found for the second name
    (∀ x t, convert value source target = .ok (x, t) ↔
      ∃ d s, lookup? source = some (d, s) ∧ lookup? target = some (d, t) ∧
        IsScaled d value s t x) ∧
    (convert value source target = .error .affineMix ↔
      ∃ d s d' t, lookup? source = some (d, s) ∧ lookup? target = some (d', t) ∧
        Xor (d = .temperature) (d' = .temperature)) ∧
    (convert value source target = .error (.incompatibleUnits source target) ↔
      ∃ d s d' t, lookup? source = some (d, s) ∧ lookup? target = some (d', t) ∧
        d ≠ d' ∧ d ≠ .temperature ∧ d' ≠ .temperature) ∧
    (convert value source target = .error (.unknownUnits source target) ↔
      lookup? source = none ∨ lookup? target = none) ∧
    (∀ f, convert value source target = .error f →
      f ∈ [.affineMix, .incompatibleUnits source target, .unknownUnits source target]) ∧
    -- neither case nor blanks around a name make a difference
    (∀ name, lookup? (nameKey name) = lookup? name) ∧
    -- nor does the order in which the quantities are searched
    (∀ order, (∀ d, d ∈ order) →
      convertIn order value source target = convert value source target) ∧
    -- the symbols of temperatures are known
    ∀ name r, lookup? name = some (.temperature, r) → ∀ x,
      (∃ y, toCelsius x r.symbol = .ok y) ∧ ∃ y, fromCelsius x r.symbol = .ok y := by
  simp only [convert_eq_iff]
  refine ⟨?_, fun x t => ?_, ?_, ?_, ?_, fun f h => ?_, lookup?_nameKey, fun order horder => ?_,
    fun name r h x => ?_⟩
  · constructor
    · rintro ⟨y, hs, ht, -⟩
      exact ⟨_, _, _, hs, ht⟩
    · rintro ⟨d, s, t, hs, ht⟩
      obtain ⟨x, -, hx⟩ := exists_isScaled hs ht value
      exact ⟨_, .scaled hs ht hx⟩
  · exact ⟨fun | .scaled hs ht hx => ⟨_, _, hs, ht, hx⟩, fun ⟨_, _, hs, ht, hx⟩ => .scaled hs ht hx⟩
  · exact ⟨fun | .mix hs ht h => ⟨_, _, _, _, hs, ht, h⟩,
      fun ⟨_, _, _, _, hs, ht, h⟩ => .mix hs ht h⟩
  · exact ⟨fun | .apart hs ht hne h => ⟨_, _, _, _, hs, ht, hne, h⟩,
      fun ⟨_, _, _, _, hs, ht, hne, h⟩ => .apart hs ht hne h⟩
  · exact ⟨fun | .unknown h => h, .unknown⟩
  · cases h <;> simp
  · rw [← convertIn_all, convertIn_eq horder, convertIn_eq Dimension.mem_all]
  · have hr := mem_rows_of_lookup? h
    exact ⟨toCelsius_isOk hr x, fromCelsius_isOk hr x⟩

/-- A length is no weight, a temperature nothing else, and a parsec not known. -/
theorem convert_outcome_refused :
    convert 1.0 "km" "kg" = .error (.incompatibleUnits "km" "kg") ∧
    convert 1.0 "celsius" "meters" = .error .affineMix ∧
    convert 1.0 "parsecs" "km" = .error (.unknownUnits "parsecs" "km") := by
  obtain ⟨-, -, -, hapart, -⟩ := convert_outcome 1.0 "km" "kg"
  obtain ⟨-, -, hmix, -⟩ := convert_outcome 1.0 "celsius" "meters"
  obtain ⟨-, -, -, -, hunknown, -⟩ := convert_outcome 1.0 "parsecs" "km"
  have hnone : (lookup? "parsecs").isNone = true := by decide
  refine ⟨hapart.2 ⟨.length, _, .weight, _, rfl, rfl, by decide⟩,
    hmix.2 ⟨.temperature, _, .length, _, rfl, rfl, .inl ⟨rfl, by decide⟩⟩,
    hunknown.2 (.inl (Option.isNone_iff_eq_none.1 hnone))⟩

end Reckoner.Units
