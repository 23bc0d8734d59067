/-
  NoteTape.Proofs.TrackFile.Message

  A track that was written is read back, message by message. A message in any
  manner that fits is read with its own length, so a payload may hold anything;
  a status byte that was left out is the one the message before left, and
  `statusBehind` carries it along the track. `decodeTrackOn_encodeTrack` lets any
  bytes stand behind the track.
-/

import NoteTape.Proofs.TrackFile.Number

namespace NoteTape.TrackFile

-- ============================================================================
-- One message
-- ============================================================================

namespace Message

variable {manner : Manner} {running : Option UInt8}

theorem decodeVoice?_append {status : UInt8} {data : List UInt8}
    (size : data.length = dataSize status) (low : ∀ b ∈ data, b < 0x80) (rest : List UInt8) :
    decodeVoice? status (data ++ rest) = some (.voice status data, rest) := by
  have htake : (data ++ rest).take (dataSize status) = data := by rw [← size, List.take_left]
  have hdrop : (data ++ rest).drop (dataSize status) = rest := by rw [← size, List.drop_left]
  have hlow : data.all (· < 0x80) = true := by
    rw [List.all_eq_true]
    intro b mem
    exact decide_eq_true (low b mem)
  simp only [decodeVoice?, htake, hdrop, size, hlow, and_self, if_true]

theorem splitPayload_append {payload : List UInt8}
    (fits : variableFits manner.leadingOfSize payload.length) (rest : List UInt8) :
    splitPayload (writeVariable manner.leadingOfSize payload.length ++ payload ++ rest) =
      (payload, rest) := by
  simp only [splitPayload, List.append_assoc, readVariable_writeVariable fits, List.take_left,
    List.drop_left]

/-! ## What the first byte decides -/

theorem decode?_data {first status : UInt8} (low : first < 0x80) (rest : List UInt8) :
    decode? (some status) (first :: rest) = decodeVoice? status (first :: rest) := by
  simp only [decode?, if_pos low]

theorem decode?_status {status : UInt8} (above : 0x80 ≤ status) (below : status < 0xF0)
    (running : Option UInt8) (rest : List UInt8) :
    decode? running (status :: rest) = decodeVoice? status rest := by
  have hstatus : ¬ status < 0x80 := UInt8.not_lt.2 above
  simp only [decode?, if_neg hstatus, if_pos below]

theorem decode?_ofExclusive {status : UInt8} (kind : status = 0xF0 ∨ status = 0xF7)
    (running : Option UInt8) (rest : List UInt8) :
    decode? running (status :: rest) =
      some (.exclusive status (splitPayload rest).1, (splitPayload rest).2) := by
  have hstatus : ¬ status < 0x80 ∧ ¬ status < 0xF0 := by
    rcases kind with rfl | rfl <;> decide
  simp only [decode?, if_neg hstatus.1, if_neg hstatus.2, if_pos kind]

theorem decode?_ofAbout (running : Option UInt8) (kind : UInt8) (rest : List UInt8) :
    decode? running (0xFF :: kind :: rest) =
      if payloadFits kind (splitPayload rest).1 then
        some (.about kind (splitPayload rest).1, (splitPayload rest).2)
      else none := by
  have hstatus : ¬ (0xFF : UInt8) < 0x80 := by decide
  have hvoice : ¬ (0xFF : UInt8) < 0xF0 := by decide
  have hexclusive : ¬ ((0xFF : UInt8) = 0xF0 ∨ (0xFF : UInt8) = 0xF7) := by decide
  simp only [decode?, if_neg hstatus, if_neg hvoice, if_neg hexclusive, if_true]

/-- Whether a message stands at the head of the bytes, with the given bytes behind it:
    a voice message with a status byte or without one, a payload for an instrument, or
    something about the track with a payload that fits. -/
inductive Stands (running : Option UInt8) : List UInt8 → Message → List UInt8 → Prop where
  | data {first status : UInt8} {bytes behind : List UInt8} {m : Message} (low : first < 0x80)
    (left : running = some status)
    (read : decodeVoice? status (first :: bytes) = some (m, behind)) :
    Stands running (first :: bytes) m behind
  | status {status : UInt8} {bytes behind : List UInt8} {m : Message} (above : 0x80 ≤ status)
    (below : status < 0xF0) (read : decodeVoice? status bytes = some (m, behind)) :
    Stands running (status :: bytes) m behind
  | exclusive {status : UInt8} {bytes : List UInt8} (kind : status = 0xF0 ∨ status = 0xF7) :
    Stands running (status :: bytes) (.exclusive status (splitPayload bytes).1)
      (splitPayload bytes).2
  | about {kind : UInt8} {bytes : List UInt8}
    (fits : payloadFits kind (splitPayload bytes).1 = true) :
    Stands running (0xFF :: kind :: bytes) (.about kind (splitPayload bytes).1)
      (splitPayload bytes).2

theorem stands_of_decode? {bytes behind : List UInt8} {m : Message}
    (read : decode? running bytes = some (m, behind)) : Stands running bytes m behind := by
  fun_cases decode? running bytes with
  | case1 => cases read
  | case2 first bytes low status =>
    rw [decode?_data low] at read
    exact .data low rfl read
  | case3 first bytes low => simp only [decode?, if_pos low, reduceCtorEq] at read
  | case4 _ first bytes high below =>
    have above : 0x80 ≤ first := UInt8.not_lt.1 high
    rw [decode?_status above below] at read
    exact .status above below read
  | case5 _ first bytes high above kind =>
    rw [decode?_ofExclusive kind] at read
    cases read
    exact .exclusive kind
  | case6 => cases read
  | case7 _ kind bytes payload _ split fits =>
    rw [decode?_ofAbout, split, if_pos fits] at read
    cases read
    have fits' : payloadFits kind (splitPayload bytes).1 = true := by
      rw [split]
      exact fits
    have stands : Stands running (0xFF :: kind :: bytes) _ _ := .about fits'
    rwa [split] at stands
  | case8 _ kind bytes payload _ split unfit =>
    rw [decode?_ofAbout, split, if_neg unfit] at read
    cases read
  | case9 _ first bytes high above noExclusive noAbout =>
    simp only [decode?, if_neg high, if_neg above, if_neg noExclusive, if_neg noAbout,
      reduceCtorEq] at read

/-! ## A message behind its bytes -/

theorem decode?_voice {status : UInt8} {data : List UInt8} (valid : Valid (.voice status data))
    (fits : Fits running manner (.voice status data)) (rest : List UInt8) :
    decode? running (encode manner (.voice status data) ++ rest) =
      some (.voice status data, rest) := by
  obtain ⟨above, below, size, low⟩ := valid
  have hread := decodeVoice?_append size low rest
  by_cases leftOut : manner.statusLeftOut = true
  · have hrunning : running = some status := fits leftOut
    -- The first byte is a data byte, so the status is taken from before.
    obtain ⟨first, more, rfl⟩ : ∃ first more, data = first :: more := by
      apply List.exists_cons_of_length_pos
      rw [size]
      exact dataSize_pos status
    have hfirst : first < 0x80 := low first List.mem_cons_self
    rw [encode, if_pos leftOut, hrunning, List.cons_append, decode?_data hfirst]
    exact hread
  · rw [encode, if_neg leftOut, List.cons_append, decode?_status above below, hread]

theorem decode?_about {kind : UInt8} {payload : List UInt8} (valid : Valid (.about kind payload))
    (fits : Fits running manner (.about kind payload)) (rest : List UInt8) :
    decode? running (encode manner (.about kind payload) ++ rest) =
      some (.about kind payload, rest) := by
  have hpayload : payloadFits kind payload = true := valid.2
  rw [encode, List.cons_append, List.cons_append, decode?_ofAbout, splitPayload_append fits,
    if_pos hpayload]

theorem decode?_exclusive {status : UInt8} {payload : List UInt8}
    (valid : Valid (.exclusive status payload))
    (fits : Fits running manner (.exclusive status payload)) (rest : List UInt8) :
    decode? running (encode manner (.exclusive status payload) ++ rest) =
      some (.exclusive status payload, rest) := by
  rw [encode, List.cons_append, decode?_ofExclusive valid, splitPayload_append fits]

theorem decode?_encode {m : Message} (valid : m.Valid) (fits : m.Fits running manner)
    (rest : List UInt8) : decode? running (m.encode manner ++ rest) = some (m, rest) := by
  cases m with
  | voice status data => exact decode?_voice valid fits rest
  | about kind payload => exact decode?_about valid fits rest
  | exclusive status payload => exact decode?_exclusive valid fits rest

end Message

-- ============================================================================
-- One message after another
-- ============================================================================

theorem TimedMessage.decode?_encode {running : Option UInt8} {w : Written}
    (valid : w.timed.message.Valid) (fits : w.timed.message.Fits running w.manner)
    (time : variableFits w.manner.leadingOfDelta w.timed.delta.toNat) (rest : List UInt8) :
    TimedMessage.decode? running (w.encode ++ rest) = some (w.timed, rest) := by
  have htime := readVariable_writeVariable time (w.timed.message.encode w.manner ++ rest)
  have hmessage := Message.decode?_encode valid fits rest
  rw [Written.encode, List.append_assoc, TimedMessage.decode?, htime]
  simp only [hmessage, UInt32.ofNat_toNat]

theorem decodeTrackOn_of_some {running : Option UInt8} {bytes rest : List UInt8}
    {t : TimedMessage} (h : TimedMessage.decode? running bytes = some (t, rest)) :
    decodeTrackOn running bytes = t :: decodeTrackOn t.message.runningStatus rest := by
  rw [decodeTrackOn]
  split
  · rename_i none
    rw [h] at none
    cases none
  · rename_i t' rest' some
    rw [h] at some
    cases some
    rfl

theorem decodeTrackOn_of_none {running : Option UInt8} {bytes : List UInt8}
    (h : TimedMessage.decode? running bytes = none) : decodeTrackOn running bytes = [] := by
  rw [decodeTrackOn]
  split
  · rfl
  · rename_i t' rest' some
    rw [h] at some
    cases some

theorem decodeTrackOn_nil (running : Option UInt8) : decodeTrackOn running [] = [] :=
  decodeTrackOn_of_none rfl

/-- The status that messages leave for one behind them, the first of which is
    behind one that left `running`. -/
def statusBehind (running : Option UInt8) (ws : List Written) : Option UInt8 :=
  ws.foldl (fun _ w => w.timed.message.runningStatus) running

/-- Messages are read back in order, and reading goes on behind them. -/
theorem decodeTrackOn_encodeTrack {running : Option UInt8} {ws : List Written}
    (fits : TrackFits running ws) (rest : List UInt8) :
    decodeTrackOn running (encodeTrack ws ++ rest) =
      ws.map Written.timed ++ decodeTrackOn (statusBehind running ws) rest := by
  induction ws generalizing running with
  | nil => rfl
  | cons w ws ih =>
    obtain ⟨valid, fit, time, behind⟩ := fits
    have hfirst := TimedMessage.decode?_encode valid fit time (encodeTrack ws ++ rest)
    rw [encodeTrack, List.flatMap_cons, List.append_assoc, ← encodeTrack,
      decodeTrackOn_of_some hfirst, ih behind]
    rfl

theorem decodeTrack_encodeTrack {ws : List Written} (fits : TrackFits none ws) :
    decodeTrack (encodeTrack ws) = ws.map Written.timed := by
  have h := decodeTrackOn_encodeTrack fits []
  rwa [List.append_nil, decodeTrackOn_nil, List.append_nil] at h

end NoteTape.TrackFile
