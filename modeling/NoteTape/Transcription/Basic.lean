/-
  NoteTape.Transcription.Basic

  A track read as a program. The events that open the track together, those
  before the first with a delta time, give the root: the lowest note that starts
  among them. All later note starts, in order, are the body: each stands for the
  instruction that the scale has on its interval above the root, or for nothing.
-/

import NoteTape.Fault
import NoteTape.Note
import NoteTape.Program

namespace NoteTape

/-- The events before the first one with a delta time. -/
def opening (events : List NoteEvent) : List NoteEvent :=
  events.takeWhile fun e => e.delta = 0

/-- The events from the first one with a delta time on. -/
def body (events : List NoteEvent) : List NoteEvent :=
  events.dropWhile fun e => e.delta = 0

/-- The lowest pitch among the note starts, if a note starts at all. -/
def lowestStart (events : List NoteEvent) : Option Int32 :=
  ((events.filter (·.isStart)).map (·.pitch)).min?

/-- The pitch that intervals are counted from, and where the body begins. -/
structure Root where
  pitch : Int32
  bodyStart : Nat
  deriving DecidableEq, Repr, Inhabited

/-- The root of a track: the lowest note start of its opening. -/
def findRoot (events : List NoteEvent) : Except Fault Root :=
  let opening := opening events
  match lowestStart opening with
  | some pitch => .ok ⟨pitch, opening.length⟩
  | none => .error (.noRoot opening.length)

/-- The instruction an event stands for against a root, if it stands for one. -/
def NoteEvent.instruction? (scale : Scale) (root : Int32) (e : NoteEvent) : Option Instruction :=
  if e.isStart then scale.lookup (interval e.pitch root) else none

/-- Reads a track as a program; it fails exactly if the track has no root. -/
def transcribe (scale : Scale) (events : List NoteEvent) : Except Fault Program :=
  match findRoot events with
  | .error fault => .error fault
  | .ok root =>
    .ok (Program.ofList ((events.drop root.bodyStart).filterMap
      (NoteEvent.instruction? scale root.pitch)))

end NoteTape
