/-
  NoteTape.Performance

  A track performed from beginning to end: it is read as a program, the brackets
  of the program are paired, and a fresh machine runs it. Each stage comes after
  the one before it succeeded, so a device is not touched before the run.
-/

import NoteTape.Machine.Run
import NoteTape.Transcription.Basic

namespace NoteTape

variable {δ : Type} [Device δ]

/-- Pairs the brackets of a program and runs it on a fresh machine for at most
    the given number of steps. -/
def Program.run (most : Nat) (p : Program) (d : δ) : Run δ :=
  match BracketMap.ofProgram p with
  | .error fault => .ended (.error fault) .fresh d
  | .ok map => Machine.run p map most .fresh d

/-- Reads a track in a scale and runs the program. -/
def perform (most : Nat) (scale : Scale) (events : List NoteEvent) (d : δ) : Run δ :=
  match transcribe scale events with
  | .error fault => .ended (.error fault) .fresh d
  | .ok p => p.run most d

end NoteTape
