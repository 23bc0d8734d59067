/-
  NoteTape.Fault

  Why a program was not built or not run to its end. A `Fault` is the cause; its
  `Report` is what is shown of it: a kind, a message, and the position of the
  instruction concerned if there is one.
-/

import NoteTape.Device.Error

namespace NoteTape

/-- The four kinds of fault that a report distinguishes. -/
inductive FaultKind where
  /-- A track has no root note. -/
  | noRootNote
  /-- A bracket has no partner. -/
  | unbalancedBrackets
  /-- An instruction asked for input and there was none. -/
  | inputExhausted
  /-- A device refused to be read or written. -/
  | device
  deriving DecidableEq, Repr, Inhabited

/-- The word that stands for a kind in a report. -/
def FaultKind.label : FaultKind → String
  | .noRootNote => "NoRootNote"
  | .unbalancedBrackets => "UnbalancedBrackets"
  | .inputExhausted => "InputExhausted"
  | .device => "Io"

/-- What is shown of a fault. -/
structure Report where
  kind : FaultKind
  message : String
  position? : Option Nat
  deriving DecidableEq, Repr, Inhabited

namespace Report

/-- The report of a track without a root note has no position. -/
def noRootNote (message : String) : Report := ⟨.noRootNote, message, none⟩

/-- The report of a bracket without a partner. -/
def unbalanced (message : String) (position : Nat) : Report :=
  ⟨.unbalancedBrackets, message, some position⟩

/-- The report of missing input always has the same message. -/
def inputExhausted (position : Nat) : Report :=
  ⟨.inputExhausted, "no input available", some position⟩

/-- The report of a refusal passes on the message of the device. -/
def device (error : DeviceError) (position : Nat) : Report :=
  ⟨.device, error.message, some position⟩

/-- The line in which a report is printed. -/
def display (r : Report) : String :=
  match r.position? with
  | some position => s!"{r.kind.label} at instruction {position}: {r.message}"
  | none => s!"{r.kind.label}: {r.message}"

end Report

/-- Why a program was not built or not run to its end. -/
inductive Fault where
  /-- There is no note start among the events that open the track together. -/
  | noRoot (leading : Nat)
  /-- The `]` at this position closes nothing. -/
  | strayClose (position : Nat)
  /-- So many `[` stay open; the innermost of them is at this position. -/
  | leftOpen (count position : Nat)
  /-- The bracket map in use knows no partner for this position. -/
  | noPartner (position : Nat)
  /-- The instruction at this position asked for input and there was none. -/
  | noInput (position : Nat)
  /-- A device refused while the instruction at this position was carried out,
      or when the output was flushed there. -/
  | device (error : DeviceError) (position : Nat)
  deriving DecidableEq, Repr, Inhabited

/-- What is shown of a fault. -/
def Fault.report : Fault → Report
  | .noRoot leading =>
    .noRootNote s!"no note starts among the {leading} leading simultaneous events"
  | .strayClose position => .unbalanced "']' has no matching '['" position
  | .leftOpen count position =>
    .unbalanced s!"{count} '[' left without a matching ']'" position
  | .noPartner position => .unbalanced "bracket missing from jump table" position
  | .noInput position => .inputExhausted position
  | .device error position => .device error position

end NoteTape
