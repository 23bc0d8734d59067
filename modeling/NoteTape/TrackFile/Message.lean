/-
  NoteTape.TrackFile.Message

  The messages of a track and how they are read from its bytes. A voice message
  may leave out its status byte if the message before it was a voice message of
  the same status. Reading is lenient: `decodeTrack` stops without complaint at
  the first message it cannot read.
-/

import NoteTape.Note
import NoteTape.TrackFile.Number

namespace NoteTape.TrackFile

/-- A message of a track. -/
inductive Message where
  /-- Something on one of the sixteen channels: a status byte from 0x80 to 0xEF
      and one or two data bytes below 0x80. -/
  | voice (status : UInt8) (data : List UInt8)
  /-- Something about the track, of a kind and with a payload. -/
  | about (kind : UInt8) (payload : List UInt8)
  /-- A payload for one make of instrument (status 0xF0), or any other bytes to
      be sent as they are (status 0xF7). -/
  | exclusive (status : UInt8) (payload : List UInt8)
  deriving DecidableEq, Repr, Inhabited

/-- A message and the ticks since the one before. -/
structure TimedMessage where
  delta : UInt32
  message : Message
  deriving DecidableEq, Repr, Inhabited

namespace Message

/-- The status that a message leaves for one without a status byte of its own. -/
def runningStatus : Message → Option UInt8
  | .voice status _ => some status
  | _ => none

/-- How many data bytes follow the status byte of a voice message. -/
def dataSize (status : UInt8) : Nat :=
  if status / 16 = 0xC ∨ status / 16 = 0xD then 1 else 2

/-- The kind of message that gives the key signature. -/
def keySignature : UInt8 := 0x59

/-- The kind of message that gives the starting time of a track. -/
def startingTime : UInt8 := 0x54

/-- The frame rates, in the order of their codes. -/
def frameRates : List Nat := [24, 25, 29, 30]

/-- Whether five bytes are a time: hours, minutes, seconds, frames, hundredths of
    a frame. The hours come with the code of the frame rate. -/
def isTime (hours minutes seconds frames hundredths : UInt8) : Bool :=
  let rate := frameRates.getD ((hours.toNat / 32) % 4) 0
  hours.toNat % 32 < 24 && minutes < 60 && seconds < 60 && frames.toNat < rate
    && hundredths < 100

/-- Whether a message about the track may have this payload. Most may have any;
    a key signature has two bytes at least, and a starting time of five bytes or
    more starts with a time. -/
def payloadFits (kind : UInt8) (payload : List UInt8) : Bool :=
  if kind = keySignature then 2 ≤ payload.length
  else if kind = startingTime then
    match payload with
    | hours :: minutes :: seconds :: frames :: hundredths :: _ =>
      isTime hours minutes seconds frames hundredths
    | _ => true
  else true

/-- The data bytes of a voice message, and the bytes behind them. -/
def decodeVoice? (status : UInt8) (bytes : List UInt8) : Option (Message × List UInt8) :=
  let data := bytes.take (dataSize status)
  if data.length = dataSize status ∧ data.all (· < 0x80) then
    some (.voice status data, bytes.drop (dataSize status))
  else none

/-- A payload with its length in front, and the bytes behind it. A payload that
    is announced longer than the bytes that are left is all of them. -/
def splitPayload (bytes : List UInt8) : List UInt8 × List UInt8 :=
  let (size, rest) := readVariable bytes
  (rest.take size, rest.drop size)

/-- The message at the head of the bytes, and the bytes behind it. -/
def decode? (running : Option UInt8) : List UInt8 → Option (Message × List UInt8)
  | [] => none
  | first :: rest =>
    if first < 0x80 then
      match running with
      | some status => decodeVoice? status (first :: rest)
      | none => none
    else if first < 0xF0 then decodeVoice? first rest
    else if first = 0xF0 ∨ first = 0xF7 then
      let (payload, behind) := splitPayload rest
      some (.exclusive first payload, behind)
    else if first = 0xFF then
      match rest with
      | [] => none
      | kind :: rest =>
        let (payload, behind) := splitPayload rest
        if payloadFits kind payload then some (.about kind payload, behind) else none
    else none

/-- The event that a message is when a track is read as a program. A message that starts a note
    does so whatever its velocity. -/
def toEvent (delta : UInt32) : Message → NoteEvent
  | .voice status (key :: _) =>
    if status / 16 = 0x9 then .start (Int32.ofNat key.toNat) delta
    else if status / 16 = 0x8 then .stop (Int32.ofNat key.toNat) delta
    else .rest delta
  | _ => .rest delta

theorem length_splitPayload_le (bytes : List UInt8) :
    (splitPayload bytes).2.length ≤ bytes.length := by
  simp only [splitPayload, List.length_drop]
  exact Nat.le_trans (Nat.sub_le _ _) (length_readVariable_le bytes)

theorem dataSize_pos (status : UInt8) : 0 < dataSize status := by
  unfold dataSize
  split <;> decide

theorem length_of_decodeVoice? {status : UInt8} {bytes rest : List UInt8} {m : Message}
    (h : decodeVoice? status bytes = some (m, rest)) : rest.length < bytes.length := by
  have hpos := dataSize_pos status
  simp only [decodeVoice?] at h
  split at h
  · rename_i hfit
    obtain ⟨_, rfl⟩ := Prod.mk.inj (Option.some.inj h)
    simp only [List.length_take, List.length_drop] at *
    omega
  · exact absurd h (by simp)

/-- Reading a message takes at least one byte. -/
theorem length_of_decode? {running : Option UInt8} {bytes rest : List UInt8} {m : Message}
    (h : decode? running bytes = some (m, rest)) : rest.length < bytes.length := by
  cases bytes with
  | nil => simp [decode?] at h
  | cons first bytes =>
    simp only [decode?] at h
    split at h
    · split at h
      · exact length_of_decodeVoice? h
      · simp at h
    · split at h
      · exact Nat.lt_succ_of_lt (length_of_decodeVoice? h)
      · split at h
        · obtain ⟨_, rfl⟩ := Prod.mk.inj (Option.some.inj h)
          exact Nat.lt_succ_of_le (length_splitPayload_le bytes)
        · split at h
          · cases bytes with
            | nil => simp at h
            | cons kind bytes =>
              simp only at h
              split at h
              · obtain ⟨_, rfl⟩ := Prod.mk.inj (Option.some.inj h)
                exact Nat.lt_succ_of_lt (Nat.lt_succ_of_le (length_splitPayload_le bytes))
              · simp at h
          · simp at h

end Message

namespace TimedMessage

/-- The time and the message at the head of the bytes, and the bytes behind. -/
def decode? (running : Option UInt8) (bytes : List UInt8) :
    Option (TimedMessage × List UInt8) :=
  let (delta, rest) := readVariable bytes
  match Message.decode? running rest with
  | some (message, behind) => some (⟨UInt32.ofNat delta, message⟩, behind)
  | none => none

/-- The event that a timed message is when a track is read as a program. -/
def toEvent (t : TimedMessage) : NoteEvent := t.message.toEvent t.delta

theorem length_of_decode? {running : Option UInt8} {bytes rest : List UInt8}
    {t : TimedMessage} (h : decode? running bytes = some (t, rest)) :
    rest.length < bytes.length := by
  simp only [decode?] at h
  split at h
  · rename_i heq
    obtain ⟨_, rfl⟩ := Prod.mk.inj (Option.some.inj h)
    exact Nat.lt_of_lt_of_le (Message.length_of_decode? heq) (length_readVariable_le bytes)
  · simp at h

end TimedMessage

/-- The messages of a track that goes on with the given bytes after a message
    that left the given status: all up to the first that cannot be read. -/
def decodeTrackOn (running : Option UInt8) (bytes : List UInt8) : List TimedMessage :=
  match _h : TimedMessage.decode? running bytes with
  | none => []
  | some (t, rest) => t :: decodeTrackOn t.message.runningStatus rest
termination_by bytes.length
decreasing_by exact TimedMessage.length_of_decode? _h

/-- The messages of a track, up to the first that cannot be read. -/
def decodeTrack (bytes : List UInt8) : List TimedMessage := decodeTrackOn none bytes

end NoteTape.TrackFile
