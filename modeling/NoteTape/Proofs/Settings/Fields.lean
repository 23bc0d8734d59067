/-
  NoteTape.Proofs.Settings.Fields

  What the entries of a settings file mean. `Gives entry field` says, without the
  reader, which entry gives which field: a name is written letter for letter, a track
  is a whole number of 64 bits, and a prompt is any text. Entries that give the fields
  of some choices, in any order, make these choices; one entry with a known key that
  gives no field spoils all of them.
-/

import Mathlib.Data.List.Forall2
import Mathlib.Data.List.Nodup
import NoteTape.Proofs.Settings.Values

namespace NoteTape.Settings

open Document

/-- One of the settings with a value. -/
inductive Field where
  | scale (s : Scale)
  | track (n : Nat)
  | inputMode (m : InputMode)
  | prompt (text : String)
  deriving DecidableEq, Repr

namespace Field

/-- The key under which a field is written. -/
def key : Field → String
  | .scale _ => "scale"
  | .track _ => "track"
  | .inputMode _ => "input_mode"
  | .prompt _ => "prompt"

/-- The choices with a field. -/
def put (c : Choices) : Field → Choices
  | .scale s => { c with scale := some s }
  | .track n => { c with track := some n }
  | .inputMode m => { c with inputMode := some m }
  | .prompt text => { c with prompt := some text }

/-- Whether the choices have no field of the same key. -/
def isOpen (c : Choices) : Field → Bool
  | .scale _ => c.scale.isNone
  | .track _ => c.track.isNone
  | .inputMode _ => c.inputMode.isNone
  | .prompt _ => c.prompt.isNone

end Field

/-- What a scalar tells of a field. -/
inductive Tells : Scalar → Field → Prop where
  | scale {s : Scalar} {scale : Scale} (named : Names s scale.name.toList) : Tells s (.scale scale)
  | track {s : Scalar} {n : Nat} (counts : Counts s) (number : Numbers s.text n)
    (fits : n < Text.wordLimit) : Tells s (.track n)
  | inputMode {s : Scalar} {mode : InputMode} (named : Names s mode.name.toList) :
    Tells s (.inputMode mode)
  | prompt (s : Scalar) : Tells s (.prompt (String.ofList s.text))

/-- An entry gives a field: it has the key of the field, and its value tells it. -/
structure Gives (e : Entry) (field : Field) : Prop where
  key : e.1.text? = some field.key.toList
  value : ∃ s, e.2 = .scalar s ∧ Tells s field

/-- An entry has a known key and gives no field. -/
structure Spoils (e : Entry) : Prop where
  known : ∃ field : Field, e.1.text? = some field.key.toList
  silent : ∀ field, ¬ Gives e field

/-- The fields of some choices. -/
def fieldsOf (c : Choices) : List Field :=
  c.scale.toList.map .scale ++ (c.track.toList.map .track ++
    (c.inputMode.toList.map .inputMode ++ c.prompt.toList.map .prompt))

-- ============================================================================
-- Making choices
-- ============================================================================

theorem scaleOf?_eq_some_iff {v : Value} {scale : Scale} :
    scaleOf? v = some scale ↔ ∃ s, v = .scalar s ∧ Tells s (.scale scale) := by
  cases v with
  | collection => simp [scaleOf?, name?]
  | scalar s =>
    rw [scaleOf?, Option.bind_eq_bind, Option.bind_eq_some_iff]
    constructor
    · rintro ⟨name, named, found⟩
      have same : scale.name.toList = name := by simpa using List.find?_some found
      exact ⟨s, rfl, .scale (same ▸ name?_eq_some_iff.mp named)⟩
    · rintro ⟨_, ⟨⟩, told⟩
      cases told with
      | scale named => exact ⟨_, name?_eq_some_iff.mpr named, by cases scale <;> decide⟩

theorem inputModeOf?_eq_some_iff {v : Value} {mode : InputMode} :
    inputModeOf? v = some mode ↔ ∃ s, v = .scalar s ∧ Tells s (.inputMode mode) := by
  cases v with
  | collection => simp [inputModeOf?, name?]
  | scalar s =>
    rw [inputModeOf?, Option.bind_eq_bind, Option.bind_eq_some_iff]
    constructor
    · rintro ⟨name, named, found⟩
      have same : mode.name.toList = name := by simpa using List.find?_some found
      exact ⟨s, rfl, .inputMode (same ▸ name?_eq_some_iff.mp named)⟩
    · rintro ⟨_, ⟨⟩, told⟩
      cases told with
      | inputMode named => exact ⟨_, name?_eq_some_iff.mpr named, by cases mode <;> decide⟩

theorem trackOf?_eq_some_iff {v : Value} {n : Nat} :
    trackOf? v = some n ↔ ∃ s, v = .scalar s ∧ Tells s (.track n) := by
  cases v with
  | collection => simp [trackOf?]
  | scalar s =>
    simp only [trackOf?, Option.ite_none_right_eq_some, number?_eq_some_iff]
    constructor
    · rintro ⟨counts, number, fits⟩
      exact ⟨s, rfl, .track counts number fits⟩
    · rintro ⟨_, ⟨⟩, told⟩
      cases told with
      | track counts number fits => exact ⟨counts, number, fits⟩

theorem promptOf?_eq_some_iff {v : Value} {text : String} :
    promptOf? v = some text ↔ ∃ s, v = .scalar s ∧ Tells s (.prompt text) := by
  cases v with
  | collection => simp [promptOf?, Value.text?]
  | scalar s =>
    constructor
    · rintro ⟨⟩
      exact ⟨s, rfl, .prompt s⟩
    · rintro ⟨_, ⟨⟩, ⟨⟩⟩
      rfl

/-- The field of the same key that a value gives. -/
def Field.ofValue? (v : Value) : Field → Option Field
  | .scale _ => (scaleOf? v).map .scale
  | .track _ => (trackOf? v).map .track
  | .inputMode _ => (inputModeOf? v).map .inputMode
  | .prompt _ => (promptOf? v).map .prompt

theorem settle_bind {α β : Type} (chosen value : Option α) (f : Option α → Option β) :
    (settle chosen value).bind f =
      value.bind fun a => if chosen.isNone then f (some a) else none := by
  cases chosen <;> cases value <;> rfl

/-- An entry with the key of a field puts the field that its value gives, unless there
    is one. -/
theorem choose_of_key {e : Entry} {field : Field} (key : e.1.text? = some field.key.toList)
    (c : Choices) :
    choose c e = (field.ofValue? e.2).bind fun given =>
      if given.isOpen c then some (given.put c) else none := by
  simp only [choose, key, Option.bind_eq_bind, Option.bind_some, String.ofList_toList]
  cases field with
  | scale =>
    rw [Field.ofValue?, Option.bind_map]
    exact settle_bind ..
  | track =>
    rw [Field.ofValue?, Option.bind_map]
    exact settle_bind ..
  | inputMode =>
    rw [Field.ofValue?, Option.bind_map]
    exact settle_bind ..
  | prompt =>
    rw [Field.ofValue?, Option.bind_map]
    exact settle_bind ..

theorem Field.ofValue?_eq_some_iff {v : Value} {field given : Field} :
    field.ofValue? v = some given ↔
      given.key = field.key ∧ ∃ s, v = .scalar s ∧ Tells s given := by
  cases field <;> cases given <;>
    simp [ofValue?, key, scaleOf?_eq_some_iff, trackOf?_eq_some_iff, inputModeOf?_eq_some_iff,
      promptOf?_eq_some_iff]

theorem choose_of_gives {e : Entry} {field : Field} {c : Choices} (gives : Gives e field)
    (opened : field.isOpen c = true) : choose c e = some (field.put c) := by
  have given : field.ofValue? e.2 = some field :=
    Field.ofValue?_eq_some_iff.mpr ⟨rfl, gives.value⟩
  rw [choose_of_key gives.key, given, Option.bind_some, if_pos opened]

theorem choose_of_spoils {e : Entry} (spoils : Spoils e) (c : Choices) : choose c e = none := by
  obtain ⟨field, key⟩ := spoils.known
  have nothing : field.ofValue? e.2 = none := by
    rw [Option.eq_none_iff_forall_ne_some]
    intro given found
    obtain ⟨same, value⟩ := Field.ofValue?_eq_some_iff.mp found
    exact spoils.silent given ⟨same ▸ key, value⟩
  rw [choose_of_key key, nothing, Option.bind_none]

/-- A field that is put closes its own key only. -/
theorem Field.isOpen_put {field other : Field} {c : Choices} (different : field.key ≠ other.key)
    (opened : other.isOpen c = true) : other.isOpen (field.put c) = true := by
  cases field <;> cases other <;> first | exact absurd rfl different | exact opened

/-- Fields of different keys that are still open are put one after another. -/
theorem foldlM_choose {entries : List Entry} {fields : List Field} {c : Choices}
    (gives : List.Forall₂ Gives entries fields) (opened : ∀ field ∈ fields, field.isOpen c = true)
    (different : (fields.map Field.key).Nodup) :
    entries.foldlM choose c = some (fields.foldl Field.put c) := by
  induction gives generalizing c with
  | nil => rfl
  | @cons e field entries fields here more ih =>
    rw [List.map_cons, List.nodup_cons] at different
    rw [List.forall_mem_cons] at opened
    rw [List.foldlM_cons, choose_of_gives here opened.1]
    refine ih (fun other mem => ?_) different.2
    have apart : field.key ≠ other.key := by
      intro same
      exact different.1 (same ▸ List.mem_map_of_mem mem)
    exact Field.isOpen_put apart (opened.2 other mem)

/-- An entry that spoils everything does so wherever it stands. -/
theorem foldlM_choose_of_spoils {entries : List Entry} {e : Entry} (mem : e ∈ entries)
    (spoils : Spoils e) (c : Choices) : entries.foldlM choose c = none := by
  induction entries generalizing c with
  | nil => cases mem
  | cons first entries ih =>
    rw [List.foldlM_cons, Option.bind_eq_bind]
    obtain rfl | behind := List.mem_cons.mp mem
    · rw [choose_of_spoils spoils, Option.bind_none]
    · cases choose c first with
      | none => rfl
      | some next => exact ih behind next

-- ============================================================================
-- Fields in any order
-- ============================================================================

theorem nodup_key_fieldsOf (c : Choices) : ((fieldsOf c).map Field.key).Nodup := by
  obtain ⟨_ | _, _ | _, _ | _, _ | _⟩ := c <;> simp [fieldsOf, Field.key]

/-- The fields of some choices, put one after another, make these choices. -/
theorem foldl_put_fieldsOf (c : Choices) : (fieldsOf c).foldl Field.put {} = c := by
  obtain ⟨_ | _, _ | _, _ | _, _ | _⟩ := c <;> rfl

/-- Fields of different keys are put in either order. -/
theorem Field.put_put {field other : Field} (different : field.key ≠ other.key) (c : Choices) :
    Field.put (Field.put c field) other = Field.put (Field.put c other) field := by
  cases field <;> cases other <;> first | exact absurd rfl different | rfl

/-- The order in which fields are put does not matter. -/
theorem foldl_put_of_perm {fields : List Field} {c : Choices} (perm : fields.Perm (fieldsOf c)) :
    fields.foldl Field.put {} = c := by
  have nodup : (fields.map Field.key).Nodup :=
    (perm.map Field.key).nodup_iff.mpr (nodup_key_fieldsOf c)
  have commute : ∀ x ∈ fields, ∀ y ∈ fields, ∀ z : Choices,
      Field.put (Field.put z x) y = Field.put (Field.put z y) x := by
    intro x memX y memY z
    by_cases same : x.key = y.key
    · rw [List.inj_on_of_nodup_map nodup memX memY same]
    · exact Field.put_put same z
  rw [perm.foldl_eq' commute, foldl_put_fieldsOf]

end NoteTape.Settings
