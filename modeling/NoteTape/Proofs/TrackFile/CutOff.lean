/-
  NoteTape.Proofs.TrackFile.CutOff

  A file of tracks that was cut off is read as the file that was written, as far as it
  goes. A cut inside the head of a chunk loses the chunk, and one inside its data leaves
  the data that there is (`Chunk.split?_beginning`), so the tracks of the cut file are
  those that were written, the last of them cut short (`CutShort`). That one is heard
  as a beginning of the track, by `decodeTrackOn_beginning`.
-/

import NoteTape.Proofs.TrackFile.Beginning
import NoteTape.Proofs.TrackFile.File
import NoteTape.Proofs.Transcription.Root

namespace NoteTape.TrackFile

-- ============================================================================
-- Tracks cut short
-- ============================================================================

/-- Tracks of which those at the end are gone, and the one before them is cut short. -/
inductive CutShort : List (List UInt8) → List (List UInt8) → Prop where
  | gone (tracks : List (List UInt8)) : CutShort [] tracks
  | last {part data : List UInt8} (tracks : List (List UInt8)) (beginning : part <+: data) :
    CutShort [part] (data :: tracks)
  | more {parts tracks : List (List UInt8)} (data : List UInt8) (behind : CutShort parts tracks) :
    CutShort (data :: parts) (data :: tracks)

namespace CutShort

variable {parts tracks : List (List UInt8)}

theorem length_le (short : CutShort parts tracks) : parts.length ≤ tracks.length := by
  induction short with
  | gone tracks => exact Nat.zero_le _
  | last tracks beginning => exact Nat.succ_le_succ (Nat.zero_le _)
  | more data behind ih => exact Nat.succ_le_succ ih

theorem getElem?_eq (short : CutShort parts tracks) {i : Nat} (inside : i + 1 < parts.length) :
    parts[i]? = tracks[i]? := by
  induction short generalizing i with
  | gone tracks => cases inside
  | last tracks beginning =>
    rw [List.length_singleton] at inside
    omega
  | more data behind ih =>
    cases i with
    | zero => rfl
    | succ i => exact ih (Nat.lt_of_succ_lt_succ inside)

theorem exists_beginning (short : CutShort parts tracks) {i : Nat} {part : List UInt8}
    (here : parts[i]? = some part) : ∃ data, tracks[i]? = some data ∧ part <+: data := by
  induction short generalizing i with
  | gone tracks => cases here
  | @last first data tracks beginning =>
    cases i with
    | zero =>
      obtain rfl : first = part := Option.some.inj here
      exact ⟨data, rfl, beginning⟩
    | succ i => cases here
  | more data behind ih =>
    cases i with
    | zero =>
      obtain rfl : data = part := Option.some.inj here
      exact ⟨data, rfl, List.prefix_refl data⟩
    | succ i => exact ih here

end CutShort

-- ============================================================================
-- Chunks
-- ============================================================================

/-- A cut at a chunk or behind it leaves nothing that is a chunk, or the chunk with a
    beginning of its data and nothing behind it, or all of the chunk. -/
theorem Chunk.split?_beginning {chunk : Chunk} (fits : chunk.Fits) {cut rest : List UInt8}
    (beginning : cut <+: chunk.encode ++ rest) :
    split? .plain cut = none ∨
    (∃ part, part <+: chunk.data ∧ split? .plain cut = some (⟨chunk.id, part⟩, [])) ∨
    ∃ behind, behind <+: rest ∧ split? .plain cut = some (chunk, behind) := by
  obtain ⟨a, b, c, d, s, t, u, v, hid, hsize, hbytes⟩ := fits.encode_eq
  rw [hbytes] at beginning
  fun_cases split? .plain cut with
  | case2 => exact .inl rfl
  | case1 a' b' c' d' s' t' u' v' left size =>
    simp only [List.cons_prefix_cons] at beginning
    obtain ⟨rfl, rfl, rfl, rfl, rfl, rfl, rfl, rfl, beginning⟩ := beginning
    have announced : size = chunk.data.length := hsize
    rw [show Layout.plain.stride size = size from rfl, announced, ← hid]
    by_cases enough : left.length ≤ chunk.data.length
    · refine .inr (.inl ⟨left, ?_, ?_⟩)
      · exact List.prefix_of_prefix_length_le beginning (List.prefix_append _ _) enough
      · rw [List.take_of_length_le enough, List.drop_eq_nil_of_le enough]
    · have all : chunk.data <+: left :=
        List.prefix_of_prefix_length_le (List.prefix_append _ _) beginning (by omega)
      obtain ⟨behind, rfl⟩ := all
      refine .inr (.inr ⟨behind, (List.prefix_append_right_inj _).1 beginning, ?_⟩)
      rw [List.take_left, List.drop_left]

theorem Chunk.splitAll_of_none {bytes : List UInt8} (none : split? .plain bytes = none) :
    splitAll .plain bytes = [] ∨ splitAll .plain bytes = [Option.none] := by
  rw [splitAll]
  split
  · exact .inl rfl
  · split
    · exact .inr rfl
    · rename_i some
      rw [none] at some
      cases some

/-! ## The tracks in chunks -/

/-- The data of the tracks in the bytes behind a header: those up to damage. -/
def tracksIn (bytes : List UInt8) : List (List UInt8) :=
  ((sections bytes).takeWhile (· ≠ .damage)).filterMap Section.track?

theorem tracksIn_nil : tracksIn [] = [] := by
  rw [tracksIn, sections, Chunk.splitAll_nil]
  rfl

theorem tracksIn_of_none {bytes : List UInt8} (none : Chunk.split? .plain bytes = none) :
    tracksIn bytes = [] := by
  rw [tracksIn, sections]
  rcases Chunk.splitAll_of_none none with nothing | missing
  · rw [nothing]
    rfl
  · rw [missing]
    rfl

theorem tracksIn_of_track {bytes data rest : List UInt8}
    (found : Chunk.split? .plain bytes = some (trackChunk data, rest)) :
    tracksIn bytes = data :: tracksIn rest := by
  rw [tracksIn, sections, Chunk.splitAll_of_some found]
  rfl

theorem cutShort_tracksIn {tracks : List (List UInt8)}
    (each : ∀ data ∈ tracks, data.length < UInt32.size) {cut : List UInt8}
    (beginning : cut <+: (tracks.map trackChunk).flatMap Chunk.encode) :
    CutShort (tracksIn cut) tracks := by
  induction tracks generalizing cut with
  | nil =>
    obtain rfl : cut = [] := List.prefix_nil.1 beginning
    rw [tracksIn_nil]
    exact .gone []
  | cons data tracks ih =>
    obtain ⟨first, others⟩ := List.forall_mem_cons.1 each
    rw [List.map_cons, List.flatMap_cons] at beginning
    have fits : (trackChunk data).Fits := ⟨rfl, first⟩
    rcases Chunk.split?_beginning fits beginning with none | ⟨part, short, found⟩ |
      ⟨behind, left, found⟩
    · rw [tracksIn_of_none none]
      exact .gone _
    · rw [tracksIn_of_track found, tracksIn_nil]
      exact .last tracks short
    · rw [tracksIn_of_track found]
      exact .more data (ih others left)

-- ============================================================================
-- Files
-- ============================================================================

theorem Header.length_encode (h : Header) : h.chunk.encode.length = 14 := rfl

/-- A file that was cut off behind its header is read as the tracks that are left. -/
theorem decode_cut {header : Header} (fits : header.Fits) {tracks : List (List UInt8)}
    (each : ∀ data ∈ tracks, data.length < UInt32.size) {cut : List UInt8}
    (beginning : cut <+: encodeChunks header (tracks.map trackChunk)) (long : 14 ≤ cut.length) :
    ∃ parts, CutShort parts tracks ∧ decode cut = .ok ⟨parts.map decodeTrack⟩ := by
  have headed : header.chunk.encode <+: cut := by
    rw [← header.length_encode] at long
    exact List.prefix_of_prefix_length_le (List.prefix_append _ _) beginning long
  obtain ⟨left, rfl⟩ := headed
  refine ⟨tracksIn left, cutShort_tracksIn each ((List.prefix_append_right_inj _).1 beginning), ?_⟩
  rw [decode_header header.chunk_fits rfl (headerFits_chunk fits) left]
  rfl

/-- Whether tracks of messages of the format can be written as a file, each in a chunk
    that is not too long. -/
def Shaped (tracks : List (List Written)) : Prop :=
  ∀ track ∈ tracks, TrackShaped none track ∧ (encodeTrack track).length < UInt32.size

/-- A file that was cut off anywhere behind its header is a file of no more tracks. All
    but its last one are read as before, and the last one is read as a beginning of what
    it was. If time passes in this beginning and it is read as a program, then what it
    was is read as a program that goes on from there. -/
theorem loadTrack_cut {header : Header} {tracks : List (List Written)} {cut : List UInt8}
    (fits : header.Fits) (shaped : Shaped tracks) (beginning : cut <+: encode header tracks)
    (long : 14 ≤ cut.length) :
    ∃ file' file, load cut = .ok file' ∧ load (encode header tracks) = .ok file ∧
      file'.count ≤ file.count ∧
      (∀ i, i + 1 < file'.count → ∃ events, loadTrack cut i = .ok events ∧
        loadTrack (encode header tracks) i = .ok events) ∧
      ∀ i, i < file'.count → ∃ events' events, loadTrack cut i = .ok events' ∧
        loadTrack (encode header tracks) i = .ok events ∧ events' <+: events ∧
        ∀ scale p', (∃ e ∈ events', 0 < e.delta) → transcribe scale events' = .ok p' →
          ∃ p, transcribe scale events = .ok p ∧ p'.toList <+: p.toList := by
  have each : ∀ data ∈ tracks.map encodeTrack, data.length < UInt32.size := by
    rw [List.forall_mem_map]
    exact fun track mem => (shaped track mem).2
  rw [encode_eq] at beginning ⊢
  have wholeRead := decode_trackChunks fits each
  obtain ⟨parts, short, cutRead⟩ := decode_cut fits each beginning long
  refine ⟨_, _, load_of_decode cutRead, load_of_decode wholeRead, ?_, ?_, ?_⟩
  · rw [count_eq_length, count_eq_length]
    exact short.length_le
  · intro i inside
    rw [count_eq_length] at inside
    have here : parts[i]? = some parts[i] := List.getElem?_eq_getElem (Nat.lt_of_succ_lt inside)
    have there := (short.getElem?_eq inside).symm.trans here
    exact ⟨_, loadTrack_of_data cutRead here, loadTrack_of_data wholeRead there⟩
  · intro i inside
    rw [count_eq_length] at inside
    have here : parts[i]? = some parts[i] := List.getElem?_eq_getElem inside
    obtain ⟨data, there, partly⟩ := short.exists_beginning here
    obtain ⟨track, mem, rfl⟩ := List.mem_map.1 (List.mem_of_getElem? there)
    obtain ⟨more, heard⟩ := decodeTrackOn_beginning (shaped track mem).1 partly
    refine ⟨_, _, loadTrack_of_data cutRead here, loadTrack_of_data wholeRead there,
      ⟨more, heard⟩, ?_⟩
    intro scale p' later read
    rw [decodeTrack, ← heard]
    exact transcribe_append_of_later later read more

/-- A header, and of two tracks only the notes at the head of the first: what ends it is
    gone, and so is the second track. -/
def cutTracks : List UInt8 :=
  (Header.chunk ⟨1, 2, 480⟩).encode ++
    (trackId ++ [0, 0, 0, 13, 0, 0x90, 60, 64, 0x80, 0x83, 0x60, 60, 0])

/-- The notes that are left are a track, and its program is how the program of the first
    track begins. -/
theorem loadTrack_cut_unfinished :
    Header.Fits ⟨1, 2, 480⟩ ∧ Shaped twoTracks ∧ cutTracks <+: encode ⟨1, 2, 480⟩ twoTracks ∧
    14 ≤ cutTracks.length ∧
    loadTrack cutTracks 0 = .ok [⟨60, 0, true⟩, ⟨60, 480, true⟩] ∧
    ∃ events p, loadTrack (encode ⟨1, 2, 480⟩ twoTracks) 0 = .ok events ∧
      [⟨60, 0, true⟩, ⟨60, 480, true⟩] <+: events ∧ transcribe .major events = .ok p ∧
      [.right] <+: p.toList := by
  have fits : Header.Fits ⟨1, 2, 480⟩ := ⟨by decide, by decide, by decide⟩
  have shaped : Shaped twoTracks := by
    intro track mem
    simp only [twoTracks, List.mem_cons, List.not_mem_nil, or_false] at mem
    rcases mem with rfl | rfl
    · refine ⟨⟨⟨by decide, by decide, rfl, by simp⟩, (absurd · Bool.false_ne_true),
        ⟨by decide, by decide⟩, ⟨by decide, by decide, rfl, by simp⟩, fun _ => rfl,
        ⟨by decide, by decide⟩, ⟨by decide, by decide⟩, ⟨by decide, by decide⟩,
        ⟨by decide, by decide⟩, trivial⟩, by decide⟩
    · refine ⟨⟨.inl rfl, ⟨by decide, by decide⟩, ⟨by decide, by decide⟩,
        ⟨by decide, by decide, rfl, by simp⟩, (absurd · Bool.false_ne_true),
        ⟨by decide, by decide⟩, trivial⟩, by decide⟩
  have beginning : cutTracks <+: encode ⟨1, 2, 480⟩ twoTracks := ⟨_, rfl⟩
  have notes : decodeTrack [0, 0x90, 60, 64, 0x80, 0x83, 0x60, 60, 0] =
      [⟨0, .voice 0x90 [60, 64]⟩, ⟨480, .voice 0x90 [60, 0]⟩] := by
    rw [decodeTrack, decodeTrackOn_of_some rfl, decodeTrackOn_of_some rfl]
    exact congrArg _ (congrArg _ (decodeTrackOn_nil _))
  have tracks : tracksIn (trackId ++ [0, 0, 0, 13, 0, 0x90, 60, 64, 0x80, 0x83, 0x60, 60, 0]) =
      [[0, 0x90, 60, 64, 0x80, 0x83, 0x60, 60, 0]] :=
    (tracksIn_of_track rfl).trans (congrArg _ tracksIn_nil)
  have read : decode cutTracks =
      .ok ⟨[[0, 0x90, 60, 64, 0x80, 0x83, 0x60, 60, 0]].map decodeTrack⟩ := by
    rw [cutTracks, decode_header (Header.chunk_fits _) rfl (headerFits_chunk fits), ← tracks]
    rfl
  have heard : loadTrack cutTracks 0 = .ok [⟨60, 0, true⟩, ⟨60, 480, true⟩] := by
    rw [loadTrack_of_data read rfl, notes]
    rfl
  obtain ⟨file', file, loaded, -, -, -, partly⟩ := loadTrack_cut fits shaped beginning (by decide)
  obtain rfl := Except.ok.inj (loaded.symm.trans (load_of_decode read))
  obtain ⟨events', events, heard', whole, begins, programs⟩ := partly 0 Nat.zero_lt_one
  obtain rfl := Except.ok.inj (heard'.symm.trans heard)
  obtain ⟨p, program, longer⟩ := programs .major (.ofList [.right]) (by decide) rfl
  exact ⟨fits, shaped, beginning, by decide, heard, events, p, whole, begins, program, longer⟩

end NoteTape.TrackFile
