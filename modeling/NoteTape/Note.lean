/-
  NoteTape.Note

  The events of a track, as far as they matter here: a pitch, the time since the
  event before, and whether a note starts. Two pitches are compared by their
  `interval`, the number of semitones from one up to the other, octaves dropped.
-/

import NoteTape.Scale

namespace NoteTape

/-- One timed event of a track. Only note starts are read as instructions; all
    other events are kept for their place in time. -/
structure NoteEvent where
  /-- The note number, zero where there is no note. -/
  pitch : Int32
  /-- Ticks since the event before. -/
  delta : UInt32
  /-- Whether a note starts here. -/
  isStart : Bool
  deriving DecidableEq, Repr, Inhabited

namespace NoteEvent

/-- A note starts. -/
def start (pitch : Int32) (delta : UInt32) : NoteEvent := ⟨pitch, delta, true⟩

/-- A note stops. -/
def stop (pitch : Int32) (delta : UInt32) : NoteEvent := ⟨pitch, delta, false⟩

/-- Time passes and no note is concerned. -/
def rest (delta : UInt32) : NoteEvent := ⟨0, delta, false⟩

end NoteEvent

/-- The distance between two pitches in semitones. The subtraction may leave the
    range of pitches, and read as an unsigned word it is still the distance. -/
def distance (a b : Int32) : UInt32 :=
  if a < b then (b - a).toUInt32 else (a - b).toUInt32

/-- The semitone, from 0 to 11, on which a pitch stands above a root. A pitch
    below the root counts down from the octave: four semitones below stand on 8,
    and whole octaves below on 0. -/
def interval (pitch root : Int32) : Nat :=
  let semitone := (distance pitch root).toNat % octave
  if pitch < root then (octave - semitone) % octave else semitone

end NoteTape
