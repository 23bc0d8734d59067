/-
  NoteTape.Scale

  A scale assigns an instruction to eight of the twelve semitones of an octave,
  counted upwards from the root; the other four slots are empty. There are three
  scales, and each of them holds all eight instructions.
-/

import NoteTape.Instruction
import NoteTape.Text.Blank

namespace NoteTape

/-- The number of semitones in an octave. -/
def octave : Nat := 12

/-- The scale in which the intervals of a track are read. -/
inductive Scale where
  | major
  | minor
  | dominant
  deriving DecidableEq, Repr, Inhabited

namespace Scale

/-- The three scales, in the order in which messages list them. -/
def all : List Scale := [.major, .minor, .dominant]

/-- The name a scale is written with. -/
def name : Scale → String
  | .major => "major"
  | .minor => "minor"
  | .dominant => "dominant"

/-- The instruction on each semitone above the root, or none on an empty slot. -/
def slots : Scale → Vector (Option Instruction) octave
  | .major => #v[some .right, none, some .left, none, some .increment, some .decrement,
      none, some .output, some .input, some .loopOpen, none, some .loopClose]
  | .minor => #v[some .right, none, some .left, some .increment, none, some .decrement,
      none, some .output, none, some .input, some .loopOpen, some .loopClose]
  | .dominant => #v[some .right, none, some .left, none, some .increment, some .decrement,
      none, some .output, none, some .input, some .loopOpen, some .loopClose]

/-- The instruction on a semitone; none on an empty slot and beyond the octave. -/
def lookup (s : Scale) (semitone : Nat) : Option Instruction :=
  s.slots[semitone]?.join

/-- Reads the name of a scale, whatever the case of its ASCII letters and the
    white space around it. -/
def ofText? (text : String) : Option Scale :=
  all.find? fun s => Text.sameLetters s.name.toList (Text.trim text.toList)

/-- What is said of a text that names no scale. -/
def unknown (text : String) : String :=
  let names := ", ".intercalate (all.map name)
  s!"unknown scale '{text}' (expected one of: {names})"

end Scale

end NoteTape
