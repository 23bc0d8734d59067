/-
  NoteTape.TrackFile.Writer

  How tracks are written as a file. The format leaves a writer some freedom: a
  variable-length number may have leading bytes that it does not need, and a
  voice message may leave out a status byte that repeats the one before. A
  `Manner` says how one message uses it; `Fits` says what may be written how.
-/

import NoteTape.TrackFile.Basic

namespace NoteTape.TrackFile

/-! ## Numbers -/

/-- A number in two bytes, the first of which weighs most. -/
def write16 (n : Nat) : List UInt8 := [UInt8.ofNat (n / 256), UInt8.ofNat n]

/-- A number in four bytes, the first of which weighs most. -/
def write32 (n : Nat) : List UInt8 := write16 (n / 65536) ++ write16 n

/-- The first number that is too large for so many bytes in front of a last
    one. -/
def variableLimit : (leading : Nat) → Nat
  | 0 => 128
  | leading + 1 => 128 * variableLimit leading

/-- A variable-length number with so many bytes in front of its last one. -/
def writeVariable : (leading : Nat) → Nat → List UInt8
  | 0, n => [UInt8.ofNat (n % 128)]
  | leading + 1, n =>
    UInt8.ofNat (n / variableLimit leading % 128 + 128) :: writeVariable leading n

/-- Whether a number can be written with so many bytes in front of its last
    one. -/
def variableFits (leading n : Nat) : Prop := leading < variableSize ∧ n < variableLimit leading

/-! ## Messages -/

/-- How a message is written. -/
structure Manner where
  /-- The bytes in front of the last one of the time. -/
  leadingOfDelta : Nat
  /-- The bytes in front of the last one of the size of the payload. -/
  leadingOfSize : Nat
  /-- Whether the status byte is left out. -/
  statusLeftOut : Bool
  deriving DecidableEq, Repr, Inhabited

/-- The bytes of a message, its time apart. -/
def Message.encode (manner : Manner) : Message → List UInt8
  | .voice status data => if manner.statusLeftOut then data else status :: data
  | .about kind payload =>
    0xFF :: kind :: (writeVariable manner.leadingOfSize payload.length ++ payload)
  | .exclusive status payload =>
    status :: (writeVariable manner.leadingOfSize payload.length ++ payload)

/-- Whether a message is one of the format: a status byte of its kind, as many
    data bytes as it asks for, and a payload that it may have. -/
def Message.Valid : Message → Prop
  | .voice status data =>
    0x80 ≤ status ∧ status < 0xF0 ∧ data.length = dataSize status ∧ ∀ b ∈ data, b < 0x80
  | .about kind payload => kind < 0x80 ∧ payloadFits kind payload = true
  | .exclusive status _ => status = 0xF0 ∨ status = 0xF7

/-- Whether a message that follows one which left the given status can be written
    in a manner. -/
def Message.Fits (running : Option UInt8) (manner : Manner) : Message → Prop
  | .voice status _ => manner.statusLeftOut = true → running = some status
  | .about _ payload | .exclusive _ payload =>
    variableFits manner.leadingOfSize payload.length

/-- A timed message and how it is written. -/
structure Written where
  timed : TimedMessage
  manner : Manner
  deriving DecidableEq, Repr, Inhabited

/-- The bytes of a timed message. -/
def Written.encode (w : Written) : List UInt8 :=
  writeVariable w.manner.leadingOfDelta w.timed.delta.toNat ++ w.timed.message.encode w.manner

/-- Whether messages can be written one after another, the first behind one that
    left the given status. -/
def TrackFits : (running : Option UInt8) → List Written → Prop
  | _, [] => True
  | running, w :: ws =>
    w.timed.message.Valid ∧ w.timed.message.Fits running w.manner ∧
      variableFits w.manner.leadingOfDelta w.timed.delta.toNat ∧
      TrackFits w.timed.message.runningStatus ws

/-- The bytes of a track. -/
def encodeTrack (ws : List Written) : List UInt8 := ws.flatMap Written.encode

/-! ## Files -/

/-- The bytes of a chunk, its size in front of its data. -/
def Chunk.encode (chunk : Chunk) : List UInt8 :=
  chunk.id ++ write32 chunk.data.length ++ chunk.data

/-- Whether a chunk can be written: an identifier of four bytes, and a size of
    32 bits. -/
def Chunk.Fits (chunk : Chunk) : Prop := chunk.id.length = 4 ∧ chunk.data.length < UInt32.size

/-- What the header of a file says. -/
structure Header where
  format : Nat
  declaredTracks : Nat
  division : Nat
  deriving DecidableEq, Repr, Inhabited

/-- Whether a header can be written: one of the three formats, and ticks in a
    quarter note as the division. -/
def Header.Fits (h : Header) : Prop :=
  h.format ≤ 2 ∧ h.declaredTracks < UInt16.size ∧ h.division < 0x8000

/-- The chunk of a header. -/
def Header.chunk (h : Header) : Chunk :=
  ⟨headerId, write16 h.format ++ write16 h.declaredTracks ++ write16 h.division⟩

/-- The chunk of a track. -/
def trackChunk (data : List UInt8) : Chunk := ⟨trackId, data⟩

/-- The bytes of a file: the header, then the other chunks. -/
def encodeChunks (h : Header) (chunks : List Chunk) : List UInt8 :=
  h.chunk.encode ++ chunks.flatMap Chunk.encode

/-- The bytes of a file of tracks. -/
def encode (h : Header) (tracks : List (List Written)) : List UInt8 :=
  encodeChunks h (tracks.map fun track => trackChunk (encodeTrack track))

end NoteTape.TrackFile
