/-
  NoteTape.Transcription.OnePass

  A track heard once, event by event, with pitches as unbounded integers. What is
  known after some events is a `Hearing`; `Hearing.program` and `Hearing.root`
  say what it comes to when the track ends there.
-/

import NoteTape.Fault
import NoteTape.Note
import NoteTape.Program

namespace NoteTape

/-- The residue of the distance from a root up to a pitch, from 0 to 11. -/
def residue (pitch root : Int) : Nat := ((pitch - root) % octave).toNat

/-- What is known of a track of which some events were heard. -/
inductive Hearing where
  /-- No time has passed for so many events; the lowest note that started is
      known, if one did. -/
  | opening (events : Nat) (lowest : Option Int)
  /-- Time passed after so many events, the root is known, and some instructions
      were read since. -/
  | body (events : Nat) (root : Int) (read : List Instruction)
  /-- Time passed after so many events and no note had started. -/
  | rootless (events : Nat)
  deriving DecidableEq, Repr, Inhabited

namespace Hearing

/-- Nothing was heard yet. -/
def silence : Hearing := .opening 0 none

/-- The lower of a pitch and the lowest so far. -/
def lower (lowest : Option Int) (pitch : Int) : Int :=
  match lowest with
  | some low => min low pitch
  | none => pitch

/-- The instructions that one event adds against a root. -/
def reading (scale : Scale) (root : Int) (e : NoteEvent) : List Instruction :=
  if e.isStart then (scale.lookup (residue e.pitch.toInt root)).toList else []

/-- What is known after one more event. -/
def hear (scale : Scale) (h : Hearing) (e : NoteEvent) : Hearing :=
  match h with
  | .opening events lowest =>
    if e.delta = 0 then
      .opening (events + 1) (if e.isStart then some (lower lowest e.pitch.toInt) else lowest)
    else match lowest with
      | some root => .body events root (reading scale root e)
      | none => .rootless events
  | .body events root read => .body events root (read ++ reading scale root e)
  | .rootless events => .rootless events

/-- What is known after all events of a track. -/
def ofEvents (scale : Scale) (events : List NoteEvent) : Hearing :=
  events.foldl (hear scale) silence

/-- The program, when the track ends here. -/
def program : Hearing → Except Fault Program
  | .opening _ (some _) => .ok .empty
  | .opening events none => .error (.noRoot events)
  | .body _ _ read => .ok (Program.ofList read)
  | .rootless events => .error (.noRoot events)

/-- The root and the number of events before the body, when the track ends
    here. -/
def root : Hearing → Except Fault (Int × Nat)
  | .opening events (some root) => .ok (root, events)
  | .opening events none => .error (.noRoot events)
  | .body events root _ => .ok (root, events)
  | .rootless events => .error (.noRoot events)

end Hearing

end NoteTape
