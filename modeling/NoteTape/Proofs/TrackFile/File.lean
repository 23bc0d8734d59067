/-
  NoteTape.Proofs.TrackFile.File

  A file of tracks that was written is read back as the events of its tracks. A
  timed message `Sounds` as one event: a note that starts or stops with its key,
  anything else as silence, each with the time of the message. The one message
  that a writer may not write with any payload it likes is a key signature
  without its two bytes: a reader drops it and all that is behind it in the track.
-/

import Mathlib.Data.List.Forall2
import NoteTape.Proofs.TrackFile.Chunk
import NoteTape.Proofs.TrackFile.Message

namespace NoteTape.TrackFile

/-! ## Events -/

/-- The event that a timed message is heard as. -/
inductive TimedMessage.Sounds : TimedMessage → NoteEvent → Prop where
  | starts {delta : UInt32} {status key : UInt8} {data : List UInt8} {pitch : Int32}
    (above : 0x90 ≤ status) (below : status < 0xA0) (same : pitch.toInt = key.toNat) :
    Sounds ⟨delta, .voice status (key :: data)⟩ ⟨pitch, delta, true⟩
  | stops {delta : UInt32} {status key : UInt8} {data : List UInt8} {pitch : Int32}
    (above : 0x80 ≤ status) (below : status < 0x90) (same : pitch.toInt = key.toNat) :
    Sounds ⟨delta, .voice status (key :: data)⟩ ⟨pitch, delta, false⟩
  | silent {delta : UInt32} {message : Message}
    (noNote : ∀ status data, message = .voice status data → 0xA0 ≤ status) :
    Sounds ⟨delta, message⟩ ⟨0, delta, false⟩

theorem toInt_ofNat_toNat (key : UInt8) : (Int32.ofNat key.toNat).toInt = key.toNat := by
  have hlt : key.toNat < 256 := key.toNat_lt
  exact Int32.toInt_ofNat_of_lt (by omega)

/-- The upper half of a status byte says in which of sixteen ranges it is. -/
theorem div_sixteen_eq_iff (status kind : UInt8) :
    status / 16 = kind ↔ 16 * kind.toNat ≤ status.toNat ∧ status.toNat < 16 * kind.toNat + 16 := by
  have hdiv : (status / 16).toNat = status.toNat / 16 := UInt8.toNat_div status 16
  rw [← UInt8.toNat_inj, hdiv]
  omega

theorem TimedMessage.sounds_toEvent {t : TimedMessage} (valid : t.message.Valid) :
    t.Sounds t.toEvent := by
  obtain ⟨delta, message⟩ := t
  cases message with
  | voice status data =>
    obtain ⟨above, -, size, -⟩ := valid
    obtain ⟨key, data, rfl⟩ : ∃ key more, data = key :: more := by
      apply List.exists_cons_of_length_pos
      rw [size]
      exact Message.dataSize_pos status
    have hstart : status / 16 = 0x9 ↔ 144 ≤ status.toNat ∧ status.toNat < 160 :=
      div_sixteen_eq_iff status _
    have hstop : status / 16 = 0x8 ↔ 128 ≤ status.toNat ∧ status.toNat < 144 :=
      div_sixteen_eq_iff status _
    by_cases starts : status / 16 = 0x9
    · have hrange := hstart.1 starts
      simp only [toEvent, Message.toEvent, if_pos starts]
      exact .starts (UInt8.le_iff_toNat_le.2 hrange.1) (UInt8.lt_iff_toNat_lt.2 hrange.2)
        (toInt_ofNat_toNat key)
    · by_cases stops : status / 16 = 0x8
      · have hrange := hstop.1 stops
        simp only [toEvent, Message.toEvent, if_neg starts, if_pos stops]
        exact .stops (UInt8.le_iff_toNat_le.2 hrange.1) (UInt8.lt_iff_toNat_lt.2 hrange.2)
          (toInt_ofNat_toNat key)
      · have habove : 128 ≤ status.toNat := UInt8.le_iff_toNat_le.1 above
        have hrange : 160 ≤ status.toNat := by
          rw [hstart] at starts
          rw [hstop] at stops
          omega
        simp only [toEvent, Message.toEvent, if_neg starts, if_neg stops]
        apply Sounds.silent
        rintro _ _ ⟨⟩
        exact UInt8.le_iff_toNat_le.2 hrange
  | about kind payload => exact .silent (by rintro _ _ ⟨⟩)
  | exclusive status payload => exact .silent (by rintro _ _ ⟨⟩)

theorem sounds_toEvents {running : Option UInt8} {track : List Written}
    (fits : TrackFits running track) :
    List.Forall₂ (fun w e => w.timed.Sounds e) track
      ((track.map Written.timed).map TimedMessage.toEvent) := by
  induction track generalizing running with
  | nil => exact .nil
  | cons w track ih =>
    obtain ⟨valid, -, -, behind⟩ := fits
    exact .cons (TimedMessage.sounds_toEvent valid) (ih behind)

/-! ## Files -/

/-- Whether tracks can be written as a file: each of them message by message, and in
    a chunk that is not too long. -/
def Writable (tracks : List (List Written)) : Prop :=
  ∀ track ∈ tracks, TrackFits none track ∧ (encodeTrack track).length < UInt32.size

theorem tracksAmong_trackChunks (data : List (List UInt8)) :
    tracksAmong (data.map trackChunk) = data := by
  have hall : Chunk.trackData? ∘ trackChunk = some := by
    funext data
    show (if trackId = trackId then some data else none) = some data
    rw [if_pos rfl]
  rw [tracksAmong, List.filterMap_map, hall, List.filterMap_some]

/-- Data that is written as tracks is read as what each of them is read as, whatever it
    is. -/
theorem decode_trackChunks {header : Header} (fits : header.Fits) {tracks : List (List UInt8)}
    (each : ∀ data ∈ tracks, data.length < UInt32.size) :
    decode (encodeChunks header (tracks.map trackChunk)) = .ok ⟨tracks.map decodeTrack⟩ := by
  have hchunks : ∀ c ∈ tracks.map trackChunk, c.Fits ∧ c.id ≠ headerId := by
    intro c mem
    obtain ⟨data, hdata, rfl⟩ := List.mem_map.1 mem
    have hid : trackId ≠ headerId := by decide
    exact ⟨⟨rfl, each data hdata⟩, hid⟩
  rw [decode_encodeChunks fits (fun c mem => (hchunks c mem).1) (fun c mem => (hchunks c mem).2),
    tracksAmong_trackChunks]

theorem encode_eq (header : Header) (tracks : List (List Written)) :
    encode header tracks = encodeChunks header ((tracks.map encodeTrack).map trackChunk) := by
  rw [encode, List.map_map]
  rfl

theorem decode_encode {header : Header} (fits : header.Fits) {tracks : List (List Written)}
    (writable : Writable tracks) :
    decode (encode header tracks) = .ok ⟨tracks.map (List.map Written.timed)⟩ := by
  have heach : ∀ data ∈ tracks.map encodeTrack, data.length < UInt32.size := by
    rw [List.forall_mem_map]
    exact fun track htrack => (writable track htrack).2
  have hread : (tracks.map encodeTrack).map decodeTrack = tracks.map (List.map Written.timed) := by
    rw [List.map_map]
    apply List.map_congr_left
    intro track htrack
    exact decodeTrack_encodeTrack (writable track htrack).1
  rw [encode_eq, decode_trackChunks fits heach, hread]

theorem load_of_decode {bytes : List UInt8} {file : TrackFile} (h : decode bytes = .ok file) :
    load bytes = .ok file := by
  rw [load, h]

theorem loadTrack_of_some {bytes : List UInt8} {file : TrackFile} {i : Nat}
    {events : List NoteEvent} (h : decode bytes = .ok file) (track : file.events? i = some events) :
    loadTrack bytes i = .ok events := by
  simp only [loadTrack, load_of_decode h, track]

theorem loadTrack_of_none {bytes : List UInt8} {file : TrackFile} {i : Nat}
    (h : decode bytes = .ok file) (none : file.events? i = none) :
    loadTrack bytes i = .error (outOfRange i file.count) := by
  simp only [loadTrack, load_of_decode h, none]

section

variable {bytes : List UInt8} {tracks : List (List UInt8)} {i : Nat}

theorem count_eq_length (tracks : List (List UInt8)) :
    count ⟨tracks.map decodeTrack⟩ = tracks.length := List.length_map ..

theorem load_count_of_data (h : decode bytes = .ok ⟨tracks.map decodeTrack⟩) :
    (load bytes).map count = .ok tracks.length := by
  rw [load_of_decode h, Except.map, count_eq_length]

/-- A track of a file is what its data is heard as. -/
theorem loadTrack_of_data {data : List UInt8} (h : decode bytes = .ok ⟨tracks.map decodeTrack⟩)
    (track : tracks[i]? = some data) :
    loadTrack bytes i = .ok ((decodeTrack data).map TimedMessage.toEvent) := by
  apply loadTrack_of_some h
  rw [events?, List.getElem?_map, track, Option.map_some, Option.map_some]

theorem loadTrack_of_missing (h : decode bytes = .ok ⟨tracks.map decodeTrack⟩)
    (missing : tracks[i]? = none) : loadTrack bytes i = .error (outOfRange i tracks.length) := by
  rw [← count_eq_length]
  apply loadTrack_of_none h
  rw [events?, List.getElem?_map, missing, Option.map_none, Option.map_none]

end

/-- A file that was written has as many tracks as were written, and no more. Each is
    read back as one event for every message, in order, and each event is what its
    message is heard as. -/
theorem loadTrack_encode {header : Header} {tracks : List (List Written)} (fits : header.Fits)
    (writable : Writable tracks) :
    (load (encode header tracks)).map count = .ok tracks.length ∧
    (∀ i track, tracks[i]? = some track → ∃ events,
      loadTrack (encode header tracks) i = .ok events ∧
        List.Forall₂ (fun w e => w.timed.Sounds e) track events) ∧
    ∀ i, tracks.length ≤ i →
      loadTrack (encode header tracks) i = .error (outOfRange i tracks.length) := by
  have hdecode := decode_encode fits writable
  have hcount : count ⟨tracks.map (List.map Written.timed)⟩ = tracks.length := by
    rw [count, List.length_map]
  refine ⟨?_, ?_, ?_⟩
  · rw [load_of_decode hdecode, Except.map, hcount]
  · intro i track here
    have hevents : events? ⟨tracks.map (List.map Written.timed)⟩ i =
        some ((track.map Written.timed).map TimedMessage.toEvent) := by
      rw [events?, List.getElem?_map, here, Option.map_some, Option.map_some]
    have hfits := (writable track (List.mem_of_getElem? here)).1
    exact ⟨_, loadTrack_of_some hdecode hevents, sounds_toEvents hfits⟩
  · intro i outside
    have hevents : events? ⟨tracks.map (List.map Written.timed)⟩ i = none := by
      rw [events?, List.getElem?_map, List.getElem?_eq_none outside, Option.map_none,
        Option.map_none]
    rw [loadTrack_of_none hdecode hevents, hcount]

/-- A note, the same again a while later without its status byte, and the end of the
    track; and a second track in which a payload looks like another note. -/
def twoTracks : List (List Written) :=
  [[⟨⟨0, .voice 0x90 [60, 64]⟩, ⟨0, 0, false⟩⟩, ⟨⟨480, .voice 0x90 [60, 0]⟩, ⟨2, 0, true⟩⟩,
      ⟨⟨0, .about 0x2F []⟩, ⟨0, 0, false⟩⟩],
    [⟨⟨5, .exclusive 0xF0 [0x90, 61, 64]⟩, ⟨0, 1, false⟩⟩,
      ⟨⟨0, .voice 0x80 [61, 0]⟩, ⟨0, 0, false⟩⟩]]

/-- Both tracks are read back, and there is no third. -/
theorem loadTrack_encode_omitted_status :
    Header.Fits ⟨1, 2, 480⟩ ∧ Writable twoTracks ∧
    (load (encode ⟨1, 2, 480⟩ twoTracks)).map count = .ok 2 ∧
    (∀ i track, twoTracks[i]? = some track → ∃ events,
      loadTrack (encode ⟨1, 2, 480⟩ twoTracks) i = .ok events ∧
        List.Forall₂ (fun w e => w.timed.Sounds e) track events) ∧
    loadTrack (encode ⟨1, 2, 480⟩ twoTracks) 2 = .error (outOfRange 2 2) := by
  have hheader : Header.Fits ⟨1, 2, 480⟩ := ⟨by decide, by decide, by decide⟩
  have hwritable : Writable twoTracks := by
    intro track mem
    simp only [twoTracks, List.mem_cons, List.not_mem_nil, or_false] at mem
    rcases mem with rfl | rfl
    · refine ⟨⟨⟨by decide, by decide, rfl, by simp⟩, nofun, ⟨by decide, by decide⟩,
        ⟨by decide, by decide, rfl, by simp⟩, fun _ => rfl, ⟨by decide, by decide⟩,
        ⟨by decide, rfl⟩, ⟨by decide, by decide⟩, ⟨by decide, by decide⟩, trivial⟩, by decide⟩
    · refine ⟨⟨.inl rfl, ⟨by decide, by decide⟩, ⟨by decide, by decide⟩,
        ⟨by decide, by decide, rfl, by simp⟩, nofun, ⟨by decide, by decide⟩, trivial⟩,
        by decide⟩
  obtain ⟨counts, reads, outside⟩ := loadTrack_encode hheader hwritable
  exact ⟨hheader, hwritable, counts, reads, outside 2 (Nat.le_refl 2)⟩

/-! ## A payload that may not be written -/

/-- A key signature with one byte, and a note behind it. -/
def cutSignature : List Written :=
  [⟨⟨0, .about Message.keySignature [0]⟩, ⟨0, 0, false⟩⟩,
    ⟨⟨0, .voice 0x90 [60, 64]⟩, ⟨0, 0, false⟩⟩]

/-- A key signature of one byte is a message about the track, of a kind below 0x80 that
    is not the starting time, and can be written like any other; but a track that
    starts with it is read back without any event. -/
theorem loadTrack_cutSignature :
    Header.Fits ⟨0, 1, 96⟩ ∧ Message.keySignature < 0x80 ∧
    Message.keySignature ≠ Message.startingTime ∧
    (∀ w ∈ cutSignature, w.timed.message.Fits none w.manner ∧
      variableFits w.manner.leadingOfDelta w.timed.delta.toNat) ∧
    (encodeTrack cutSignature).length < UInt32.size ∧
    loadTrack (encode ⟨0, 1, 96⟩ [cutSignature]) 0 = .ok [] ∧
    ¬ ∃ events, loadTrack (encode ⟨0, 1, 96⟩ [cutSignature]) 0 = .ok events ∧
      List.Forall₂ (fun w e => w.timed.Sounds e) cutSignature events := by
  have hheader : Header.Fits ⟨0, 1, 96⟩ := ⟨by decide, by decide, by decide⟩
  have hwritten : ∀ w ∈ cutSignature, w.timed.message.Fits none w.manner ∧
      variableFits w.manner.leadingOfDelta w.timed.delta.toNat := by
    intro w mem
    simp only [cutSignature, List.mem_cons, List.not_mem_nil, or_false] at mem
    rcases mem with rfl | rfl
    · exact ⟨⟨by decide, by decide⟩, by decide, by decide⟩
    · exact ⟨nofun, by decide, by decide⟩
  have htrack : decodeTrack (encodeTrack cutSignature) = [] := decodeTrackOn_of_none rfl
  have heach : ∀ c ∈ [trackChunk (encodeTrack cutSignature)], c.Fits ∧ c.id ≠ headerId := by
    intro c mem
    obtain rfl := List.mem_singleton.1 mem
    exact ⟨⟨rfl, by decide⟩, by decide⟩
  have hdecode : decode (encode ⟨0, 1, 96⟩ [cutSignature]) = .ok ⟨[[]]⟩ := by
    rw [← htrack]
    exact decode_encodeChunks hheader (fun c mem => (heach c mem).1) fun c mem => (heach c mem).2
  have hload : loadTrack (encode ⟨0, 1, 96⟩ [cutSignature]) 0 = .ok [] :=
    loadTrack_of_some hdecode rfl
  refine ⟨hheader, by decide, by decide, hwritten, by decide, hload, ?_⟩
  rintro ⟨events, loaded, sounds⟩
  rw [hload] at loaded
  cases loaded
  cases sounds

end NoteTape.TrackFile
