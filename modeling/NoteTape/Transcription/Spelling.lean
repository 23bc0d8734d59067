/-
  NoteTape.Transcription.Spelling

  How a program is written as a track. `Spells` says which events of a body stand
  for which instructions, whatever octaves they use and whatever else is between
  them.
-/

import NoteTape.Note
import NoteTape.Transcription.OnePass

namespace NoteTape

/-- The semitone on which a scale has an instruction. -/
def Scale.semitoneOf (s : Scale) (i : Instruction) : Nat := s.slots.toList.idxOf (some i)

theorem Scale.lookup_semitoneOf (s : Scale) (i : Instruction) :
    s.lookup (s.semitoneOf i) = some i := by
  cases s <;> cases i <;> decide

/-- Events that spell instructions against a root. -/
inductive Spells (scale : Scale) (root : Int) : List NoteEvent → List Instruction → Prop where
  /-- No events spell no instructions. -/
  | done : Spells scale root [] []
  /-- An event that starts no note adds nothing. -/
  | silent {e : NoteEvent} {es : List NoteEvent} {is : List Instruction}
    (rest : e.isStart = false) (more : Spells scale root es is) : Spells scale root (e :: es) is
  /-- A note on a semitone where the scale has nothing adds nothing. -/
  | unread {e : NoteEvent} {es : List NoteEvent} {is : List Instruction}
    (starts : e.isStart = true) (slot : scale.lookup (residue e.pitch.toInt root) = none)
    (more : Spells scale root es is) : Spells scale root (e :: es) is
  /-- A note on the semitone of an instruction, in any octave, adds that
      instruction. -/
  | note {e : NoteEvent} {es : List NoteEvent} {i : Instruction} {is : List Instruction}
    (starts : e.isStart = true) (slot : residue e.pitch.toInt root = scale.semitoneOf i)
    (more : Spells scale root es is) : Spells scale root (e :: es) (i :: is)

end NoteTape
