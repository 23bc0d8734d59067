/-
  NoteTape.Proofs.TrackFile.Chunk

  A file that was written is taken apart into the chunks it was made of: each
  chunk announces its own length, so its data may hold anything
  (`Chunk.splitAll_encode`). Behind a header every chunk that is a track gives a
  track, every other one nothing, and nothing is damage (`decode_fileOf`).
-/

import Mathlib.Data.List.Basic
import Mathlib.Data.List.TakeWhile
import NoteTape.Proofs.TrackFile.Number

namespace NoteTape.TrackFile

namespace Chunk

/-! ## Chunks one after another -/

/-- A chunk is written as four bytes of identifier, four that say how long it is, and
    its data. -/
theorem Fits.encode_eq {chunk : Chunk} (fits : chunk.Fits) : ∃ a b c d s t u v,
    chunk.id = [a, b, c, d] ∧ bigEndian [s, t, u, v] = chunk.data.length ∧
    ∀ rest, chunk.encode ++ rest =
      a :: b :: c :: d :: s :: t :: u :: v :: (chunk.data ++ rest) := by
  obtain ⟨id, data⟩ := chunk
  obtain ⟨hid, hdata⟩ : id.length = 4 ∧ data.length < UInt32.size := fits
  obtain ⟨a, b, c, d, rfl⟩ : ∃ a b c d, id = [a, b, c, d] := by
    match id, hid with
    | [a, b, c, d], _ => exact ⟨a, b, c, d, rfl⟩
  obtain ⟨s, t, u, v, hsize⟩ : ∃ s t u v, write32 data.length = [s, t, u, v] := ⟨_, _, _, _, rfl⟩
  refine ⟨a, b, c, d, s, t, u, v, rfl, ?_, ?_⟩
  · rw [← hsize]
    exact bigEndian_write32 hdata
  · intro rest
    simp only [encode, hsize, List.cons_append, List.nil_append]

theorem split?_encode {chunk : Chunk} (fits : chunk.Fits) (rest : List UInt8) :
    split? .plain (chunk.encode ++ rest) = some (chunk, rest) := by
  obtain ⟨a, b, c, d, s, t, u, v, hid, hsize, hbytes⟩ := fits.encode_eq
  rw [hbytes, split?]
  simp only [Layout.size, Layout.stride, hsize, List.take_left, List.drop_left, ← hid]

theorem splitAll_nil : splitAll .plain [] = [] := by
  have hempty : ([] : List UInt8).isEmpty = true := rfl
  rw [splitAll, if_pos hempty]

theorem splitAll_of_some {bytes rest : List UInt8} {chunk : Chunk}
    (h : split? .plain bytes = some (chunk, rest)) :
    splitAll .plain bytes = some chunk :: splitAll .plain rest := by
  have hne : ¬ bytes.isEmpty = true := by
    cases bytes with
    | nil => cases h
    | cons => simp
  rw [splitAll, if_neg hne]
  split
  · rename_i none
    rw [h] at none
    cases none
  · rename_i chunk' rest' some
    rw [h] at some
    cases some
    rfl

/-- Chunks are read back in order, and reading goes on behind them. -/
theorem splitAll_encode {chunks : List Chunk} (fits : ∀ c ∈ chunks, c.Fits)
    (rest : List UInt8) :
    splitAll .plain (chunks.flatMap encode ++ rest) =
      chunks.map some ++ splitAll .plain rest := by
  induction chunks with
  | nil => rfl
  | cons chunk chunks ih =>
    have hfirst := split?_encode (fits chunk List.mem_cons_self) (chunks.flatMap encode ++ rest)
    have hbehind := ih fun c mem => fits c (List.mem_cons_of_mem chunk mem)
    rw [List.flatMap_cons, List.append_assoc, splitAll_of_some hfirst, hbehind]
    rfl

end Chunk

/-! ## Sections -/

/-- The data of a chunk that is a track. -/
def Chunk.trackData? (chunk : Chunk) : Option (List UInt8) :=
  if chunk.id = trackId then some chunk.data else none

theorem Section.ofChunk?_of_ne {chunk : Chunk} (foreign : chunk.id ≠ headerId) :
    Section.ofChunk? (some chunk) = chunk.trackData?.map Section.track := by
  by_cases isTrack : chunk.id = trackId
  · simp only [ofChunk?, if_neg foreign, if_pos isTrack, Chunk.trackData?, Option.map_some]
  · simp only [ofChunk?, if_neg foreign, if_neg isTrack, Chunk.trackData?, Option.map_none]

/-- The data of the tracks among chunks, in order. -/
def tracksAmong (chunks : List Chunk) : List (List UInt8) := chunks.filterMap Chunk.trackData?

/-- Chunks among which is no header are the tracks among them. -/
theorem filterMap_ofChunk? {chunks : List Chunk} (foreign : ∀ c ∈ chunks, c.id ≠ headerId) :
    (chunks.map some).filterMap Section.ofChunk? = (tracksAmong chunks).map Section.track := by
  rw [tracksAmong, List.filterMap_map, List.map_filterMap]
  apply List.filterMap_congr
  intro c mem
  exact Section.ofChunk?_of_ne (foreign c mem)

/-- Tracks behind a header are all taken: none of them is damage. -/
theorem ofSections_header (tracks : List (List UInt8)) :
    ofSections (.header :: tracks.map Section.track) = .ok ⟨tracks.map decodeTrack⟩ := by
  have hundamaged : (tracks.map Section.track).takeWhile (· ≠ .damage) =
      tracks.map Section.track := by
    rw [List.takeWhile_eq_self_iff]
    intro s mem
    obtain ⟨data, -, rfl⟩ := List.mem_map.1 mem
    rfl
  have hdata : (tracks.map Section.track).filterMap Section.track? = tracks := by
    rw [List.filterMap_map]
    exact List.filterMap_some
  rw [ofSections, hundamaged, hdata]

/-! ## Headers -/

/-- Whether a number is a known division: ticks in a quarter note, or a negated frame
    rate in the upper of its two bytes. -/
def DivisionKnown (division : Nat) : Prop :=
  division < 0x8000 ∨ ∃ rate ∈ Message.frameRates, division / 256 = 256 - rate

theorem divisionFits_iff {division : Nat} (lt : division < UInt16.size) :
    divisionFits (UInt8.ofNat (division / 256)) = true ↔ DivisionKnown division := by
  have size : UInt16.size = 65536 := rfl
  have upper : (UInt8.ofNat (division / 256)).toNat = division / 256 :=
    toNat_ofNat_of_lt (by omega)
  have ticks : UInt8.ofNat (division / 256) < 0x80 ↔ division < 0x8000 := by
    rw [UInt8.lt_iff_toNat_lt, upper]
    show division / 256 < 128 ↔ division < 32768
    omega
  have frames : 256 - division / 256 ∈ Message.frameRates ↔
      ∃ rate ∈ Message.frameRates, division / 256 = 256 - rate := by
    constructor
    · exact fun mem => ⟨_, mem, by omega⟩
    · rintro ⟨rate, mem, same⟩
      have small : rate ≤ 256 := by
        simp only [Message.frameRates, List.mem_cons, List.not_mem_nil, or_false] at mem
        omega
      rwa [same, Nat.sub_sub_self small]
  rw [divisionFits, Bool.or_eq_true, decide_eq_true_eq, List.contains_iff_mem, upper, ticks, frames,
    DivisionKnown]

/-- Data is that of a header if three numbers of two bytes stand at its head: a format,
    any number of tracks, and a known division. -/
theorem headerFits_iff {data : List UInt8} :
    headerFits data = true ↔ ∃ format declared division more,
      data = write16 format ++ write16 declared ++ write16 division ++ more ∧
      format ≤ 2 ∧ declared < UInt16.size ∧ division < UInt16.size ∧ DivisionKnown division := by
  constructor
  · intro fits
    fun_cases headerFits data with
    | case1 f g a b upper lower more =>
      obtain ⟨format, division⟩ := Bool.and_eq_true_iff.1 fits
      refine ⟨bigEndian [f, g], bigEndian [a, b], bigEndian [upper, lower], more, ?_,
        of_decide_eq_true format, bigEndian_pair_lt a b, bigEndian_pair_lt upper lower, ?_⟩
      · rw [write16_bigEndian, write16_bigEndian, write16_bigEndian]
        rfl
      · have same : UInt8.ofNat (bigEndian [upper, lower] / 256) = upper :=
          List.head_eq_of_cons_eq (write16_bigEndian upper lower)
        rwa [← divisionFits_iff (bigEndian_pair_lt upper lower), same]
    | case2 =>
      rw [headerFits] at fits
      · cases fits
      · assumption
  · rintro ⟨format, declared, division, more, rfl, small, -, lt, known⟩
    have format' : bigEndian (write16 format) = format :=
      bigEndian_write16 (by show format < 65536; omega)
    show (decide (bigEndian (write16 format) ≤ 2) &&
      divisionFits (UInt8.ofNat (division / 256))) = true
    rw [format', decide_eq_true small, (divisionFits_iff lt).2 known, Bool.and_self]

theorem ofChunk?_header {header : Chunk} (id : header.id = headerId)
    (fits : headerFits header.data = true) : Section.ofChunk? (some header) = some .header := by
  simp only [Section.ofChunk?, if_pos id, fits, if_true]

theorem Header.chunk_fits (h : Header) : h.chunk.Fits := ⟨rfl, by show 6 < 4294967296; decide⟩

theorem headerFits_chunk {h : Header} (fits : h.Fits) : headerFits h.chunk.data = true := by
  obtain ⟨hformat, htracks, hticks⟩ := fits
  have hsize : UInt16.size = 65536 := rfl
  exact headerFits_iff.2 ⟨h.format, h.declaredTracks, h.division, [], (List.append_nil _).symm,
    hformat, htracks, by omega, .inl hticks⟩

/-! ## Files -/

/-- The bytes of a file: a header chunk, then the other chunks. -/
def fileOf (header : Chunk) (chunks : List Chunk) : List UInt8 :=
  header.encode ++ chunks.flatMap Chunk.encode

/-- A file that starts with a header is the sections of what is behind it. -/
theorem decode_header {header : Chunk} (fits : header.Fits) (id : header.id = headerId)
    (known : headerFits header.data = true) (rest : List UInt8) :
    decode (header.encode ++ rest) = ofSections (.header :: sections rest) := by
  have hid : (header.encode ++ rest).take 4 = headerId := by
    rw [Chunk.encode, List.append_assoc, List.append_assoc, ← fits.1, List.take_left, id]
  have hplain : ¬ headerId = wrapperId := by decide
  have hsections : sections (header.encode ++ rest) = .header :: sections rest := by
    rw [sections, Chunk.splitAll_of_some (Chunk.split?_encode fits rest),
      List.filterMap_cons_some (ofChunk?_header id known), ← sections]
  rw [decode, hid, if_neg hplain, if_pos rfl, hsections]

/-- A header and chunks behind it, none of which is another header, are the file of
    the tracks among them. -/
theorem decode_fileOf {header : Chunk} (fits : header.Fits) (id : header.id = headerId)
    (known : headerFits header.data = true) {chunks : List Chunk} (each : ∀ c ∈ chunks, c.Fits)
    (foreign : ∀ c ∈ chunks, c.id ≠ headerId) :
    decode (fileOf header chunks) = .ok ⟨(tracksAmong chunks).map decodeTrack⟩ := by
  have hsplit := Chunk.splitAll_encode each []
  rw [List.append_nil, Chunk.splitAll_nil, List.append_nil] at hsplit
  have hsections : sections (chunks.flatMap Chunk.encode) =
      (tracksAmong chunks).map Section.track := by
    rw [sections, hsplit, filterMap_ofChunk? foreign]
  rw [fileOf, decode_header fits id known, hsections, ofSections_header]

theorem decode_encodeChunks {h : Header} (fits : h.Fits) {chunks : List Chunk}
    (each : ∀ c ∈ chunks, c.Fits) (foreign : ∀ c ∈ chunks, c.id ≠ headerId) :
    decode (encodeChunks h chunks) = .ok ⟨(tracksAmong chunks).map decodeTrack⟩ :=
  decode_fileOf h.chunk_fits rfl (headerFits_chunk fits) each foreign

end NoteTape.TrackFile
