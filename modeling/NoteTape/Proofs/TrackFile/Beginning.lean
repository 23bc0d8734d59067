/-
  NoteTape.Proofs.TrackFile.Beginning

  Reading the beginning of a track. A reader that did not come to the end of its bytes
  reads the same when more bytes stand behind them (`readVariable_append`,
  `Message.decodeVoice?_append_of_some`). One that did come to the end stops, or has cut a
  payload short, and a payload is not heard: either way `decode?_beginning` finds a
  message in the whole bytes that is heard alike, and what is left of the beginning is
  a beginning of what is left of the whole. The starting time is kept out, since its
  payload may be refused when it is whole and taken when it is cut.
-/

import Mathlib.Data.List.Infix
import NoteTape.Proofs.TrackFile.Message

namespace NoteTape.TrackFile

variable {cut whole : List UInt8} {running : Option UInt8}

-- ============================================================================
-- Readers
-- ============================================================================

/-! ## Numbers -/

theorem readVariableOn_append {left value : Nat} {bytes : List UInt8}
    (inside : (readVariableOn left value bytes).2 ≠ []) (more : List UInt8) :
    readVariableOn left value (bytes ++ more) =
      ((readVariableOn left value bytes).1, (readVariableOn left value bytes).2 ++ more) := by
  fun_induction readVariableOn left value bytes with
  | case1 value bytes => rfl
  | case2 left value => exact absurd rfl inside
  | case3 left value byte bytes next low => rw [List.cons_append, readVariableOn, if_pos low]
  | case4 left value byte bytes next high ih =>
    rw [List.cons_append, readVariableOn, if_neg high]
    exact ih inside

theorem readVariable_append {bytes : List UInt8} (inside : (readVariable bytes).2 ≠ [])
    (more : List UInt8) :
    readVariable (bytes ++ more) = ((readVariable bytes).1, (readVariable bytes).2 ++ more) :=
  readVariableOn_append inside more

namespace Message

/-! ## Payloads -/

/-- The payload that is found, and what is behind it, are beginnings too: a number that
    ends with the bytes leaves nothing for either. -/
theorem splitPayload_beginning (beginning : cut <+: whole) :
    (splitPayload cut).1 <+: (splitPayload whole).1 ∧
      (splitPayload cut).2 <+: (splitPayload whole).2 := by
  obtain ⟨more, rfl⟩ := beginning
  by_cases inside : (readVariable cut).2 = []
  · simp only [splitPayload, inside, List.take_nil, List.drop_nil]
    exact ⟨List.nil_prefix, List.nil_prefix⟩
  · have left : (readVariable cut).2 <+: (readVariable cut).2 ++ more := List.prefix_append _ _
    simp only [splitPayload, readVariable_append inside more]
    exact ⟨left.take _, left.drop _⟩

theorem payloadFits_of_beginning {kind : UInt8} (untimed : kind ≠ startingTime)
    (beginning : cut <+: whole) (fits : payloadFits kind cut = true) :
    payloadFits kind whole = true := by
  by_cases signature : kind = keySignature
  · simp only [payloadFits, if_pos signature, decide_eq_true_eq] at fits ⊢
    exact Nat.le_trans fits beginning.length_le
  · simp only [payloadFits, if_neg signature, if_neg untimed]

/-! ## Messages -/

theorem decodeVoice?_append_of_some {status : UInt8} {bytes behind : List UInt8} {m : Message}
    (read : decodeVoice? status bytes = some (m, behind)) (more : List UInt8) :
    decodeVoice? status (bytes ++ more) = some (m, behind ++ more) := by
  simp only [decodeVoice?] at read
  split at read
  · rename_i fits
    obtain ⟨rfl, rfl⟩ := Prod.mk.inj (Option.some.inj read)
    have enough : dataSize status ≤ bytes.length := by
      rw [← fits.1]
      exact List.length_take_le' _ _
    simp only [decodeVoice?, List.take_append_of_le_length enough,
      List.drop_append_of_le_length enough]
    exact if_pos fits
  · cases read

/-- Messages that are heard as the same event, and leave the same status. -/
structure Alike (m m' : Message) : Prop where
  status : m.runningStatus = m'.runningStatus
  event : ∀ delta, m.toEvent delta = m'.toEvent delta

theorem Alike.refl (m : Message) : m.Alike m := ⟨rfl, fun _ => rfl⟩

/-- What is read of the beginning of some bytes is read of the whole alike, unless these
    are a starting time. -/
theorem decode?_beginning {behind : List UInt8} {m : Message} (beginning : cut <+: whole)
    (untimed : ∀ more, whole ≠ 0xFF :: startingTime :: more)
    (read : decode? running cut = some (m, behind)) :
    ∃ m' behind', decode? running whole = some (m', behind') ∧ m.Alike m' ∧
      behind <+: behind' := by
  obtain ⟨more, rfl⟩ := beginning
  cases stands_of_decode? read with
  | @data first status bytes _ _ low left read =>
    have same := decodeVoice?_append_of_some read more
    rw [List.cons_append, ← decode?_data low, ← left] at same
    exact ⟨m, behind ++ more, same, .refl m, List.prefix_append _ _⟩
  | status above below read =>
    have same := decodeVoice?_append_of_some read more
    rw [← decode?_status above below running] at same
    exact ⟨m, behind ++ more, same, .refl m, List.prefix_append _ _⟩
  | @exclusive status bytes kind =>
    have split := splitPayload_beginning (List.prefix_append bytes more)
    exact ⟨_, _, decode?_ofExclusive kind running (bytes ++ more), ⟨rfl, fun _ => rfl⟩, split.2⟩
  | @about kind bytes fits =>
    have split := splitPayload_beginning (List.prefix_append bytes more)
    have other : kind ≠ startingTime := by
      rintro rfl
      exact untimed (bytes ++ more) rfl
    have same := decode?_ofAbout running kind (bytes ++ more)
    rw [if_pos (payloadFits_of_beginning other split.1 fits)] at same
    exact ⟨_, _, same, ⟨rfl, fun _ => rfl⟩, split.2⟩

end Message

/-- A time that ends with the bytes leaves no message, so a message is never read at
    another time. -/
theorem TimedMessage.decode?_beginning {behind : List UInt8} {t : TimedMessage}
    (beginning : cut <+: whole)
    (untimed : ∀ more, (readVariable whole).2 ≠ 0xFF :: Message.startingTime :: more)
    (read : decode? running cut = some (t, behind)) :
    ∃ t' behind', decode? running whole = some (t', behind') ∧ t.delta = t'.delta ∧
      t.message.Alike t'.message ∧ behind <+: behind' := by
  obtain ⟨more, rfl⟩ := beginning
  simp only [decode?] at read
  split at read
  · rename_i message rest found
    cases read
    have inside : (readVariable cut).2 ≠ [] := by
      intro none
      rw [none] at found
      cases found
    have time := readVariable_append inside more
    rw [time] at untimed
    obtain ⟨m', behind', same, alike, left⟩ :=
      Message.decode?_beginning (List.prefix_append _ more) untimed found
    refine ⟨⟨UInt32.ofNat (readVariable cut).1, m'⟩, behind', ?_, rfl, alike, left⟩
    simp only [decode?, time, same]
  · cases read

-- ============================================================================
-- Tracks that were written
-- ============================================================================

/-- Whether a message is one of the format, with any payload, and not a starting time. -/
def Message.Shaped : Message → Prop
  | .voice status data => Valid (.voice status data)
  | .about kind _ => kind < 0x80 ∧ kind ≠ startingTime
  | .exclusive status _ => status = 0xF0 ∨ status = 0xF7

/-- Whether messages of the format can be written one after another, the first behind
    one that left the given status. -/
def TrackShaped : (running : Option UInt8) → List Written → Prop
  | _, [] => True
  | running, w :: ws =>
    w.timed.message.Shaped ∧ w.timed.message.Fits running w.manner ∧
      variableFits w.manner.leadingOfDelta w.timed.delta.toNat ∧
      TrackShaped w.timed.message.runningStatus ws

namespace Message

variable {m m' : Message} {manner : Manner} {rest behind : List UInt8}

theorem Shaped.encode_ne (shaped : m.Shaped) (manner : Manner) (rest more : List UInt8) :
    m.encode manner ++ rest ≠ 0xFF :: startingTime :: more := by
  cases m with
  | voice status data =>
    obtain ⟨-, below, size, low⟩ := shaped
    by_cases leftOut : manner.statusLeftOut = true
    · obtain ⟨first, data, rfl⟩ : ∃ first more, data = first :: more := by
        apply List.exists_cons_of_length_pos
        rw [size]
        exact dataSize_pos status
      rw [encode, if_pos leftOut]
      intro same
      obtain rfl := List.head_eq_of_cons_eq same
      exact absurd (low 0xFF List.mem_cons_self) (by decide)
    · rw [encode, if_neg leftOut]
      intro same
      obtain rfl := List.head_eq_of_cons_eq same
      exact absurd below (by decide)
  | about kind payload =>
    intro same
    exact shaped.2 (List.head_eq_of_cons_eq (List.tail_eq_of_cons_eq same))
  | exclusive status payload =>
    intro same
    obtain rfl := List.head_eq_of_cons_eq same
    have kind : (0xFF : UInt8) = 0xF0 ∨ (0xFF : UInt8) = 0xF7 := shaped
    exact absurd kind (by decide)

/-- If anything is read at the head of a message that was written, it is this message;
    nothing is read of a key signature that is too short. -/
theorem Shaped.eq_of_decode? (shaped : m.Shaped) (fits : m.Fits running manner)
    (read : decode? running (m.encode manner ++ rest) = some (m', behind)) :
    m' = m ∧ behind = rest := by
  cases m with
  | voice status data =>
    rw [decode?_voice shaped fits] at read
    cases read
    exact ⟨rfl, rfl⟩
  | about kind payload =>
    rw [encode, List.cons_append, List.cons_append, decode?_ofAbout,
      splitPayload_append fits] at read
    split at read
    · cases read
      exact ⟨rfl, rfl⟩
    · cases read
  | exclusive status payload =>
    rw [decode?_exclusive shaped fits] at read
    cases read
    exact ⟨rfl, rfl⟩

end Message

theorem Written.eq_of_decode? {w : Written} {t : TimedMessage} {rest behind : List UInt8}
    (shaped : w.timed.message.Shaped) (fits : w.timed.message.Fits running w.manner)
    (time : variableFits w.manner.leadingOfDelta w.timed.delta.toNat)
    (read : TimedMessage.decode? running (w.encode ++ rest) = some (t, behind)) :
    t = w.timed ∧ behind = rest := by
  rw [encode, List.append_assoc, TimedMessage.decode?, readVariable_writeVariable time] at read
  simp only at read
  split at read
  · rename_i message _ found
    cases read
    obtain ⟨rfl, same⟩ := shaped.eq_of_decode? fits found
    rw [UInt32.ofNat_toNat]
    exact ⟨rfl, same⟩
  · cases read

/-- The beginning of a track that was written is heard as a beginning of the track. -/
theorem decodeTrackOn_beginning {ws : List Written} (shaped : TrackShaped running ws)
    (beginning : cut <+: encodeTrack ws) :
    (decodeTrackOn running cut).map TimedMessage.toEvent <+:
      (decodeTrackOn running (encodeTrack ws)).map TimedMessage.toEvent := by
  induction ws generalizing running cut with
  | nil =>
    rw [List.prefix_nil.1 beginning]
    exact List.prefix_refl _
  | cons w ws ih =>
    obtain ⟨shape, fits, time, shaped⟩ := shaped
    rw [encodeTrack, List.flatMap_cons, ← encodeTrack] at beginning ⊢
    cases read : TimedMessage.decode? running cut with
    | none =>
      rw [decodeTrackOn_of_none read]
      exact List.nil_prefix
    | some found =>
      obtain ⟨t, behind⟩ := found
      have untimed : ∀ more, (readVariable (w.encode ++ encodeTrack ws)).2 ≠
          0xFF :: Message.startingTime :: more := by
        intro more
        rw [Written.encode, List.append_assoc, readVariable_writeVariable time]
        exact shape.encode_ne w.manner _ more
      obtain ⟨t', behind', read', delta, alike, left⟩ :=
        TimedMessage.decode?_beginning beginning untimed read
      obtain ⟨rfl, rfl⟩ := Written.eq_of_decode? shape fits time read'
      have event : t.toEvent = w.timed.toEvent := by
        rw [TimedMessage.toEvent, TimedMessage.toEvent, alike.event, delta]
      rw [decodeTrackOn_of_some read, decodeTrackOn_of_some read', List.map_cons, List.map_cons,
        event, alike.status]
      exact List.cons_prefix_cons.2 ⟨rfl, ih shaped left⟩

end NoteTape.TrackFile
