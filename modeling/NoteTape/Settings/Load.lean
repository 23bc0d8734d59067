/-
  NoteTape.Settings.Load

  What the entries of a settings file choose. Of the keys that are known each is
  given once at most and has a value of its kind; all other keys are ignored. A
  file that breaks a rule chooses nothing at all.
-/

import NoteTape.Device.Error
import NoteTape.Document.Reader
import NoteTape.Settings.Basic
import NoteTape.Text.Digits

namespace NoteTape

namespace Settings

open Document

/-- The words for nothing. -/
def nullWords : List (List Char) := ["", "~", "null", "Null", "NULL"].map String.toList

/-- The name that a scalar gives: its tag, if that begins with an exclamation mark
    and the scalar is nothing, and otherwise its text. -/
def name? : Value → Option (List Char)
  | .collection => none
  | .scalar s =>
    match s.tag with
    | some ('!' :: name) =>
      if s.style = .plain && nullWords.contains s.text then some name else none
    | _ => some s.text

/-- The scale that a scalar names, letter for letter. -/
def scaleOf? (value : Value) : Option Scale := do
  let name ← name? value
  Scale.all.find? fun s => s.name.toList = name

/-- The input mode that a scalar names, letter for letter. -/
def inputModeOf? (value : Value) : Option InputMode := do
  let name ← name? value
  InputMode.all.find? fun m => m.name.toList = name

/-- The text of a scalar. -/
def promptOf? (value : Value) : Option String := value.text?.map String.ofList

/-- The number that digits of a base give. -/
def digits? (base : Nat) (cs : List Char) : Option Nat :=
  match Text.readDigits base cs with
  | .ok n => some n
  | .error _ => none

/-- Whether decimal digits begin with a zero that they do not need. -/
def hasSpareZero : List Char → Bool
  | '0' :: c :: cs => (c :: cs).all Char.isDigit
  | _ => false

/-- The number that a plain scalar gives: a plus at most, then decimal digits, or
    digits of another base behind its mark. -/
def number? (cs : List Char) : Option Nat :=
  let unsigned := match cs with
    | '+' :: rest => rest
    | _ => cs
  match unsigned with
  | '0' :: 'x' :: rest => digits? 16 rest
  | '0' :: 'o' :: rest => digits? 8 rest
  | '0' :: 'b' :: rest => digits? 2 rest
  | _ => if hasSpareZero unsigned then none else digits? 10 unsigned

/-- The tag of whole numbers. -/
def numberTag : List Char := "tag:yaml.org,2002:int".toList

/-- The number that a scalar gives. Plain digits are a number, and so is literal text
    with the tag of numbers; other digits are text. -/
def trackOf? : Value → Option Nat
  | .collection => none
  | .scalar s =>
    if s.style = .plain ∨ (s.style = .literal ∧ s.tag = some numberTag) then number? s.text
    else none

/-- A choice that was open so far, now made if the value is of its kind. -/
def settle {α : Type} (chosen : Option α) (value : Option α) : Option (Option α) :=
  match chosen, value with
  | none, some a => some (some a)
  | _, _ => none

/-- The choices with that of one more entry. -/
def choose (c : Choices) (entry : Entry) : Option Choices := do
  let key ← entry.1.text?
  match String.ofList key with
  | "scale" => return { c with scale := ← settle c.scale (scaleOf? entry.2) }
  | "track" => return { c with track := ← settle c.track (trackOf? entry.2) }
  | "input_mode" => return { c with inputMode := ← settle c.inputMode (inputModeOf? entry.2) }
  | "prompt" => return { c with prompt := ← settle c.prompt (promptOf? entry.2) }
  | _ => return c

/-- The settings that the text of a file gives. -/
def ofText? (text : List Char) : Option Settings := do
  let entries ← entriesOf? text
  let choices ← entries.foldlM choose {}
  return choices.over standard

/-- The settings that the bytes of a file give. -/
def ofBytes? (bytes : List UInt8) : Option Settings := do
  let text ← String.fromUTF8? ⟨bytes.toArray⟩
  ofText? text.toList

/-- What is answered for a file that gives no settings. -/
def invalid : DeviceError := ⟨.invalidData, "invalid settings"⟩

/-- Reads the settings of a file, where there may be none. -/
def load (contents : Option (List UInt8)) : Except DeviceError Settings :=
  match openFile contents with
  | .error e => .error e
  | .ok bytes =>
    match ofBytes? bytes with
    | some settings => .ok settings
    | none => .error invalid

/-- The settings of a file, or the standard ones if it gives none. -/
def loadOrStandard (contents : Option (List UInt8)) : Settings :=
  match load contents with
  | .ok settings => settings
  | .error _ => standard

end Settings

end NoteTape
