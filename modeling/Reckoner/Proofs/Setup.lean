/-
  What an engine is set up with, given a file and options.

  A file is checked when it is read, so before any option has taken the place of one of its
  settings; what comes out of both is checked again.

  * `Setup.IsValid`: what `Setup.validate` accepts, and what it reports first;
  * `Document.IsSetup`: a document whose fields have the right types, with the setup it stands
    for;
  * `Overrides.IsFrom`: the setup that options start from, that of the file or the default;
  * `Overrides.resolve_validates_twice`: when there is a setup, which one, and else which error.
-/
import Reckoner.Setup
import Mathlib.Tactic.ByContra

namespace Reckoner

/-! ## Checks -/

/-- Settings in range, and a cache with room. -/
structure Setup.IsValid (s : Setup) : Prop where
  precision_le : s.settings.precision ≤ Decimal.maxPlaces
  capacity_pos : 0 < s.capacity

namespace Setup
variable {s : Setup}

theorem validate_of_precision (h : Decimal.maxPlaces < s.settings.precision) :
    s.validate = .error (.precisionOutOfRange s.settings.precision) := by
  simp [validate, Settings.validate, h, bind, Except.bind]

theorem validate_of_capacity (hp : s.settings.precision ≤ Decimal.maxPlaces)
    (hc : s.capacity = 0) : s.validate = .error .zeroCapacity := by
  simp [validate, Settings.validate, Nat.not_lt.2 hp, hc, bind, Except.bind]

theorem IsValid.validate_eq (h : s.IsValid) : s.validate = .ok () := by
  simp [validate, Settings.validate, Nat.not_lt.2 h.precision_le, Nat.ne_of_gt h.capacity_pos,
    bind, Except.bind]

theorem validate_eq_ok_iff : s.validate = .ok () ↔ s.IsValid := by
  refine ⟨fun h => ?_, IsValid.validate_eq⟩
  have hp : s.settings.precision ≤ Decimal.maxPlaces := by
    by_contra hp
    rw [validate_of_precision (Nat.not_le.1 hp)] at h
    cases h
  refine ⟨hp, Nat.pos_of_ne_zero fun hc => ?_⟩
  rw [validate_of_capacity hp hc] at h
  cases h

/-- The defaults are valid. -/
theorem isValid_default : ({} : Setup).IsValid := ⟨by decide, by decide⟩

end Setup

/-! ## Documents of the right types -/

/-- The name of an angle unit as documents have it. -/
def AngleUnit.title : AngleUnit → String
  | radians => "Radians"
  | degrees => "Degrees"
  | gradians => "Gradians"

namespace Document

/-- A number written with digits alone that is below a bound. -/
def IsCount (bound n : Nat) (d : Document) : Prop := d.integer? = some (n : Int) ∧ n < bound

/-- A document that names an angle unit: as a text, or by the one field it has. -/
inductive IsAngle (unit : AngleUnit) : Document → Prop where
  | text : IsAngle unit (ofString unit.title)
  | null : IsAngle unit (ofFields [(unit.title, null)])
  | fields : IsAngle unit (ofFields [(unit.title, fields [])])

/-- A field that is not there, or is there once with a value of the right type. -/
def HasField {α : Type} (fs : List (Quoted × Document)) (name : String)
    (Is : α → Document → Prop) : Option α → Prop
  | none => valuesOf name fs = []
  | some a => ∃ d, valuesOf name fs = [d] ∧ Is a d

/-- A document whose fields have the right types, and the setup that it stands for: its own
values, and the defaults for those it leaves out. Fields of other names may hold anything that
is sound. -/
inductive IsSetup : Document → Setup → Prop where
  | intro {fs : List (Quoted × Document)} {precision capacity : Option Nat}
      {angleUnit : Option AngleUnit} (whole : ∀ f ∈ fs, f.1.isWhole)
      (sound : allFieldsSound 127 (fs.filter fun f => f.1.chars != "cacheCapacity".toList))
      (hp : HasField fs "precision" (IsCount (Nat.pow 2 32)) precision)
      (ha : HasField fs "angleUnit" IsAngle angleUnit)
      (hc : HasField fs "cacheCapacity" (IsCount (Nat.pow 2 64)) capacity) :
      IsSetup (fields fs)
        ⟨⟨precision.getD 10, angleUnit.getD .radians⟩, capacity.getD defaultCapacity⟩

theorem natBelow?_eq_some_iff {bound n : Nat} {d : Document} :
    d.natBelow? bound = some n ↔ d.IsCount bound n := by
  simp only [natBelow?, IsCount, Option.bind_eq_some_iff, Bool.and_eq_true, decide_eq_true_eq]
  constructor
  · rintro ⟨i, hi, h⟩
    split at h
    · next hb =>
      obtain rfl : i.toNat = n := by simpa using h
      rw [Int.toNat_of_nonneg hb.1]
      exact ⟨hi, by omega⟩
    · cases h
  · rintro ⟨hd, hn⟩
    exact ⟨n, hd, by simp [hn]⟩

theorem angleUnit?_eq_some_iff {name : Quoted} {unit : AngleUnit} :
    angleUnit? name = some unit ↔ name = ⟨unit.title.toList, true⟩ := by
  obtain ⟨cs, whole⟩ := name
  constructor
  · intro h
    unfold angleUnit? at h
    split at h
    · cases h
    · next hw =>
      obtain rfl : whole = true := by simpa using hw
      have hcs (s : String) (hs : String.ofList cs = s) : cs = s.toList := by simp [← hs]
      split at h
      case h_4 => cases h
      all_goals
        cases h
        rw [hcs _ ‹_›]
        rfl
  · rintro h
    rw [h]
    cases unit <;> rfl

theorem angle?_eq_some_iff {unit : AngleUnit} {d : Document} :
    d.angle? true = some unit ↔ IsAngle unit d := by
  constructor
  · intro h
    unfold angle? at h
    split at h
    · rw [angleUnit?_eq_some_iff] at h; subst h; exact .text
    · rw [angleUnit?_eq_some_iff] at h; subst h; exact .null
    · rw [if_pos rfl, angleUnit?_eq_some_iff] at h; subst h; exact .fields
    · cases h
  · intro h
    cases h <;> exact angleUnit?_eq_some_iff.2 rfl

/-- A field is read just if it has the right type. -/
theorem field?_eq_some_iff {α : Type} (fs : List (Quoted × Document)) (name : String)
    (default : α) (read? : Document → Option α) {Is : α → Document → Prop}
    (hread : ∀ a d, read? d = some a ↔ Is a d) (a : α) :
    field? fs name default read? = some a ↔ ∃ x, HasField fs name Is x ∧ x.getD default = a := by
  have hx : (∃ x, HasField fs name Is x ∧ x.getD default = a) ↔
      (valuesOf name fs = [] ∧ default = a) ∨ ∃ d, valuesOf name fs = [d] ∧ read? d = some a := by
    simp only [Option.exists, HasField, Option.getD_none, Option.getD_some, hread]
    grind
  rw [hx]
  unfold field?
  split
  · simp_all
  · simp_all
  · simp_all

/-- Documents whose fields have the right types are those that a setup is read from. -/
theorem setup?_eq_some_iff {d : Document} {own : Setup} :
    d.setup? = some own ↔ d.IsSetup own := by
  have hp (fs) := field?_eq_some_iff fs "precision" 10 precision?
    fun _ _ => natBelow?_eq_some_iff
  have ha (fs) := field?_eq_some_iff fs "angleUnit" .radians (angle? true)
    fun _ _ => angle?_eq_some_iff
  have hc (fs) := field?_eq_some_iff fs "cacheCapacity" defaultCapacity (natBelow? (Nat.pow 2 64))
    fun _ _ => natBelow?_eq_some_iff
  constructor
  · intro h
    cases d with
    | fields fs =>
      simp only [setup?, settingsIn?, Option.bind_eq_bind, Option.bind_eq_some_iff] at h
      obtain ⟨c, hc', h⟩ := h
      split at h
      · next hs =>
        rw [Bool.and_eq_true, List.all_eq_true] at hs
        simp only [Option.pure_def, Option.some.injEq, Option.bind_eq_some_iff] at h
        obtain ⟨s, ⟨p, hp', a, ha', rfl⟩, rfl⟩ := h
        obtain ⟨p, hpf, rfl⟩ := (hp fs p).1 hp'
        obtain ⟨a, haf, rfl⟩ := (ha fs a).1 ha'
        obtain ⟨c, hcf, rfl⟩ := (hc fs c).1 hc'
        exact .intro hs.1 hs.2 hpf haf hcf
      · cases h
    | _ => cases h
  · rintro ⟨whole, sound, hp', ha', hc'⟩
    have hp' := (hp _ _).2 ⟨_, hp', rfl⟩
    have ha' := (ha _ _).2 ⟨_, ha', rfl⟩
    have hc' := (hc _ _).2 ⟨_, hc', rfl⟩
    simp only [setup?, settingsIn?, hp', ha', hc', sound, List.all_eq_true.2 whole]
    rfl

end Document

/-! ## Files and options -/

/-- A file whose content is a document of the right types. -/
def ConfigFile.Holds (f : ConfigFile) (own : Setup) : Prop :=
  ∃ text d, f.content = .ok text ∧ Document.read? text = some d ∧ d.IsSetup own

theorem ConfigFile.holds_iff {f : ConfigFile} {own : Setup} :
    f.Holds own ↔ ∃ text, f.content = .ok text ∧
      (Document.read? text).bind Document.setup? = some own := by
  simp [Holds, Option.bind_eq_some_iff, Document.setup?_eq_some_iff]

theorem ConfigFile.Holds.read_eq {f : ConfigFile} {own : Setup} (h : f.Holds own) :
    f.read = own.validate.map fun _ => own := by
  obtain ⟨text, hf, ht⟩ := holds_iff.1 h
  simp only [read, hf, Setup.read, ht]
  cases own.validate <;> rfl

namespace Overrides

/-- What options start from: what the file holds, or the defaults without a file. -/
def IsFrom (o : Overrides) (own : Setup) : Prop :=
  match o.file with
  | none => own = {}
  | some f => f.Holds own

/-- The options that are given in place of the settings of a setup. -/
def merge (o : Overrides) (own : Setup) : Setup :=
  { own with settings := ⟨o.precision.getD own.settings.precision,
                          o.angleUnit.getD own.settings.angleUnit⟩ }

variable {o : Overrides} {own : Setup}

/-- Options leave the cache as it is. -/
@[simp] theorem merge_capacity : (o.merge own).capacity = own.capacity := rfl

theorem isFrom_none (hf : o.file = none) : o.IsFrom own ↔ own = {} := by
  rw [IsFrom, hf]

theorem isFrom_some {f : ConfigFile} (hf : o.file = some f) : o.IsFrom own ↔ f.Holds own := by
  rw [IsFrom, hf]

/-- The check of what the options make of a valid start. -/
theorem resolve_of_isValid (h : o.IsFrom own) (hv : own.IsValid) :
    o.resolve = ((o.merge own).validate.mapError (⟨"Invalid configuration", ·⟩)).map
      fun _ => o.merge own := by
  cases hf : o.file with
  | none =>
    obtain rfl := (isFrom_none hf).1 h
    simp only [resolve, hf]
    rfl
  | some f =>
    have hread := ((isFrom_some hf).1 h).read_eq
    simp only [resolve, hf, hread, hv.validate_eq]
    rfl

/-- What is wrong with a file is reported whatever the options are. -/
theorem resolve_of_file {f : ConfigFile} {e : SetupError} (h : o.IsFrom own)
    (hf : o.file = some f) (he : own.validate = .error e) :
    o.resolve = .error ⟨"Failed to load configuration from " ++ f.path, e⟩ := by
  have hread := ((isFrom_some hf).1 h).read_eq
  simp only [resolve, hf, hread, he]
  rfl

/-- Only a file can be wrong before the options are looked at. -/
theorem exists_file (h : o.IsFrom own) (hv : ¬ own.IsValid) : ∃ f, o.file = some f := by
  cases hf : o.file with
  | none =>
    obtain rfl := (isFrom_none hf).1 h
    exact absurd Setup.isValid_default hv
  | some f => exact ⟨f, rfl⟩

theorem resolve_eq_ok_iff (h : o.IsFrom own) {s : Setup} :
    o.resolve = .ok s ↔ own.IsValid ∧ (o.merge own).IsValid ∧ s = o.merge own := by
  by_cases hv : own.IsValid
  · rw [resolve_of_isValid h hv]
    simp only [hv, true_and, ← Setup.validate_eq_ok_iff (s := o.merge own)]
    cases (o.merge own).validate <;> simp [Except.mapError, Except.map, eq_comm]
  · obtain ⟨f, hf⟩ := exists_file h hv
    cases he : own.validate with
    | ok => exact absurd (Setup.validate_eq_ok_iff.1 he) hv
    | error e => simp [resolve_of_file h hf he, hv]

/-- There is a setup just if the start and what the options make of it are both valid, and it
is what they make of it. Otherwise the first of these is reported that applies: the precision
of the file, its empty cache, the precision with the options. -/
theorem resolve_validates_twice (o : Overrides) (own : Setup) (h : o.IsFrom own) :
    (∀ s, o.resolve = .ok s ↔ own.IsValid ∧ (o.merge own).IsValid ∧ s = o.merge own) ∧
    (Decimal.maxPlaces < own.settings.precision → ∃ f, o.file = some f ∧
      o.resolve = .error ⟨"Failed to load configuration from " ++ f.path,
        .precisionOutOfRange own.settings.precision⟩) ∧
    (own.settings.precision ≤ Decimal.maxPlaces → own.capacity = 0 → ∃ f, o.file = some f ∧
      o.resolve = .error ⟨"Failed to load configuration from " ++ f.path, .zeroCapacity⟩) ∧
    (own.IsValid → Decimal.maxPlaces < (o.merge own).settings.precision →
      o.resolve = .error ⟨"Invalid configuration",
        .precisionOutOfRange (o.merge own).settings.precision⟩) := by
  refine ⟨fun s => resolve_eq_ok_iff h, fun hp => ?_, fun hp hc => ?_, fun hv hp => ?_⟩
  · obtain ⟨f, hf⟩ := exists_file h fun hv => Nat.not_lt.2 hv.precision_le hp
    exact ⟨f, hf, resolve_of_file h hf (Setup.validate_of_precision hp)⟩
  · obtain ⟨f, hf⟩ := exists_file h fun hv => Nat.ne_of_gt hv.capacity_pos hc
    exact ⟨f, hf, resolve_of_file h hf (Setup.validate_of_capacity hp hc)⟩
  · rw [resolve_of_isValid h hv, Setup.validate_of_precision hp]
    rfl

/-- A file with a precision out of range, and an option that goes before it. -/
def overridden : Overrides where
  file := some ⟨"config.json", .ok "\x7b\"precision\": 99\x7d"⟩
  precision := some 5

/-- A file with an empty cache, and an option out of range. -/
def emptied : Overrides where
  file := some ⟨"config.json", .ok "\x7b\"cacheCapacity\": 0\x7d"⟩
  precision := some 40

theorem overridden_isFrom : overridden.IsFrom ⟨⟨99, .radians⟩, 100⟩ :=
  ConfigFile.holds_iff.2 ⟨_, rfl, by decide +kernel⟩

theorem emptied_isFrom : emptied.IsFrom ⟨⟨10, .radians⟩, 0⟩ :=
  ConfigFile.holds_iff.2 ⟨_, rfl, by decide +kernel⟩

theorem resolve_validates_twice_overridden :
    overridden.IsFrom ⟨⟨99, .radians⟩, 100⟩ ∧ ∃ f, overridden.file = some f ∧
      overridden.resolve = .error ⟨"Failed to load configuration from " ++ f.path,
        .precisionOutOfRange 99⟩ :=
  ⟨overridden_isFrom,
    (resolve_validates_twice overridden _ overridden_isFrom).2.1 (by decide)⟩

/-- The merged setup alone does not tell whether there is a setup: an option cannot make up for
a precision of the file that is out of range. Nor does it tell which error is reported: that
of the file's cache goes before that of an option. -/
theorem resolve_not_of_merge :
    (overridden.IsFrom ⟨⟨99, .radians⟩, 100⟩ ∧
      (overridden.merge ⟨⟨99, .radians⟩, 100⟩).IsValid ∧
      overridden.resolve = .error ⟨"Failed to load configuration from config.json",
        .precisionOutOfRange 99⟩) ∧
    (emptied.IsFrom ⟨⟨10, .radians⟩, 0⟩ ∧
      Decimal.maxPlaces < (emptied.merge ⟨⟨10, .radians⟩, 0⟩).settings.precision ∧
      emptied.resolve = .error ⟨"Failed to load configuration from config.json",
        .zeroCapacity⟩) := by
  refine ⟨⟨overridden_isFrom, ⟨by decide, by decide⟩, ?_⟩, emptied_isFrom, by decide, ?_⟩
  · exact resolve_of_file overridden_isFrom rfl (Setup.validate_of_precision (by decide))
  · exact resolve_of_file emptied_isFrom rfl (Setup.validate_of_capacity (by decide) rfl)

end Overrides

end Reckoner
