/-
  NoteTape.TrackFile.Basic

  Track files: a header, then tracks, with foreign chunks anywhere. Reading is
  lenient: damage behind the header ends the file without complaint, and neither
  the number of tracks nor the format that the header declares is checked.
-/

import NoteTape.Device.Error
import NoteTape.TrackFile.Chunk
import NoteTape.TrackFile.Message

namespace NoteTape

/-- The tracks of a file, each a sequence of messages. -/
structure TrackFile where
  tracks : List (List TrackFile.TimedMessage)
  deriving DecidableEq, Repr, Inhabited

namespace TrackFile

/-- Why bytes are not a track file. -/
inductive Refusal where
  | foreignFile
  | badHeader
  | trackBeforeHeader
  | noHeader
  | emptyWrapper
  | noWrapperForm
  | foreignWrapper
  | nothingWrapped
  deriving DecidableEq, Repr, Inhabited

/-- What is said of bytes that are not a track file. -/
def Refusal.reason : Refusal → String
  | .foreignFile => "not a midi file"
  | .badHeader => "invalid midi header"
  | .trackBeforeHeader => "expected header, found track"
  | .noHeader => "no midi header chunk"
  | .emptyWrapper => "no main riff chunk"
  | .noWrapperForm => "failed to read riff formtype"
  | .foreignWrapper => "not an rmid riff file"
  | .nothingWrapped => "no rmid data chunk"

/-! ## Identifiers -/

/-- The identifier written with the given ASCII characters. -/
def identifier (text : String) : List UInt8 := text.toList.map fun c => c.toNat.toUInt8

/-- The identifier of the header of a file. -/
def headerId : List UInt8 := identifier "MThd"

/-- The identifier of a track. -/
def trackId : List UInt8 := identifier "MTrk"

/-- The identifier of a wrapper around a file. -/
def wrapperId : List UInt8 := identifier "RIFF"

/-- The form of a wrapper that holds a track file. -/
def wrapperForm : List UInt8 := identifier "RMID"

/-- The identifier of the chunk of a wrapper that is the track file. -/
def wrappedId : List UInt8 := identifier "data"

/-! ## Sections -/

/-- Whether the division of a header is known: ticks in a quarter note, or a
    negated frame rate in the upper byte. -/
def divisionFits (upper : UInt8) : Bool :=
  upper < 0x80 || Message.frameRates.contains (256 - upper.toNat)

/-- Whether data is that of a header: a format up to 2, a number of tracks, and a
    division. -/
def headerFits : List UInt8 → Bool
  | f :: g :: _ :: _ :: upper :: _ :: _ => bigEndian [f, g] ≤ 2 && divisionFits upper
  | _ => false

/-- What a chunk is for a track file. -/
inductive Section where
  | header
  | track (data : List UInt8)
  | damage
  deriving DecidableEq, Repr, Inhabited

namespace Section

/-- The section that a chunk is, or that a missing one is; none for a chunk that
    is foreign to track files. -/
def ofChunk? : Option Chunk → Option Section
  | none => some .damage
  | some chunk =>
    if chunk.id = headerId then some (if headerFits chunk.data then .header else .damage)
    else if chunk.id = trackId then some (.track chunk.data)
    else none

/-- The data of a track. -/
def track? : Section → Option (List UInt8)
  | .track data => some data
  | _ => none

end Section

/-- The sections that the bytes consist of, foreign chunks left out. -/
def sections (bytes : List UInt8) : List Section :=
  (Chunk.splitAll .plain bytes).filterMap Section.ofChunk?

/-! ## Files -/

/-- Reads a file that starts with its first chunk. -/
def ofSections : List Section → Except Refusal TrackFile
  | [] => .error .noHeader
  | .damage :: _ => .error .badHeader
  | .track _ :: _ => .error .trackBeforeHeader
  | .header :: rest =>
    .ok ⟨((rest.takeWhile (· ≠ .damage)).filterMap Section.track?).map decodeTrack⟩

/-- The file inside a wrapper. -/
def unwrap (bytes : List UInt8) : Except Refusal (List UInt8) :=
  match Chunk.split? .wrapper bytes with
  | none => .error .emptyWrapper
  | some (chunk, _) =>
    let form := chunk.data.take 4
    if form.length < 4 then .error .noWrapperForm
    else if form ≠ wrapperForm then .error .foreignWrapper
    else
      let inner := (Chunk.splitAll .wrapper (chunk.data.drop 4)).filterMap id
      match inner.find? fun c => c.id = wrappedId with
      | some wrapped => .ok wrapped.data
      | none => .error .nothingWrapped

/-- Reads a track file, wrapped or not. -/
def decode (bytes : List UInt8) : Except Refusal TrackFile :=
  if bytes.take 4 = wrapperId then
    match unwrap bytes with
    | .ok inner => ofSections (sections inner)
    | .error refusal => .error refusal
  else if bytes.take 4 = headerId then ofSections (sections bytes)
  else .error .foreignFile

/-- The number of tracks. -/
def count (file : TrackFile) : Nat := file.tracks.length

/-- The events of a track, if the file has so many. -/
def events? (file : TrackFile) (track : Nat) : Option (List NoteEvent) :=
  (file.tracks[track]?).map fun messages => messages.map TimedMessage.toEvent

/-! ## Refusals as device errors -/

/-- What is answered for bytes that are not a track file. -/
def Refusal.toDeviceError (refusal : Refusal) : DeviceError :=
  ⟨.invalidData, s!"MIDI parse: invalid midi: {refusal.reason}"⟩

/-- What is answered for a track that the file does not have. -/
def outOfRange (track count : Nat) : DeviceError :=
  ⟨.invalidInput, s!"track {track} out of range (file has {count} tracks)"⟩

/-- Reads a track file. -/
def load (bytes : List UInt8) : Except DeviceError TrackFile :=
  match decode bytes with
  | .ok file => .ok file
  | .error refusal => .error refusal.toDeviceError

/-- Reads the events of one track of a file. -/
def loadTrack (bytes : List UInt8) (track : Nat) : Except DeviceError (List NoteEvent) :=
  match load bytes with
  | .error e => .error e
  | .ok file =>
    match file.events? track with
    | some events => .ok events
    | none => .error (outOfRange track file.count)

end TrackFile

end NoteTape
