/-
  NoteTape.Proofs.TrackFile.Isolation

  What a track is read as depends on the data of its own chunk only. The data may be
  anything: whatever goes wrong in it ends with the chunk, and what is read of it has
  keys below 128 and times below 2^28 (`within_of_mem_events`). So the other
  tracks of a file may be replaced, and foreign chunks may come and go, and none of
  it is heard in this one (`Spares`).
-/

import Mathlib.Algebra.Group.Nat.Defs
import Mathlib.Logic.Relation
import NoteTape.Proofs.TrackFile.File

namespace NoteTape.TrackFile

-- ============================================================================
-- What can be read
-- ============================================================================

/-! ## Times -/

theorem readVariableOn_lt (left value : Nat) (bytes : List UInt8) :
    (readVariableOn left value bytes).1 < (value + 1) * 128 ^ left := by
  fun_induction readVariableOn left value bytes with
  | case1 value bytes => omega
  | case2 left value =>
    have pos : 0 < 128 ^ (left + 1) := Nat.pow_pos (by decide)
    exact Nat.lt_of_lt_of_le (Nat.lt_succ_self value) (Nat.le_mul_of_pos_right _ pos)
  | case3 left value byte bytes next =>
    have digit : next < (value + 1) * 128 := by omega
    have pos : 0 < 128 ^ left := Nat.pow_pos (by decide)
    rw [Nat.pow_succ, Nat.mul_comm (128 ^ left), ← Nat.mul_assoc]
    exact Nat.lt_of_lt_of_le digit (Nat.le_mul_of_pos_right _ pos)
  | case4 left value byte bytes next _ ih =>
    have digit : next + 1 ≤ (value + 1) * 128 := by omega
    rw [Nat.pow_succ, Nat.mul_comm (128 ^ left), ← Nat.mul_assoc]
    exact Nat.lt_of_lt_of_le ih (Nat.mul_le_mul_right _ digit)

theorem readVariable_lt (bytes : List UInt8) : (readVariable bytes).1 < 2 ^ 28 :=
  readVariableOn_lt variableSize 0 bytes

/-! ## Messages -/

/-- Whether a message can be read from a track: its time has 28 bits, and the data of a
    voice message has bytes of seven bits. -/
structure TimedMessage.Within (t : TimedMessage) : Prop where
  time : t.delta.toNat < 2 ^ 28
  data : ∀ status data, t.message = .voice status data → ∀ b ∈ data, b < 0x80

theorem Message.data_of_decodeVoice? {status : UInt8} {bytes rest : List UInt8} {m : Message}
    (read : decodeVoice? status bytes = some (m, rest)) :
    ∀ status data, m = .voice status data → ∀ b ∈ data, b < 0x80 := by
  simp only [decodeVoice?] at read
  split at read
  · rename_i fits
    obtain ⟨rfl, -⟩ := Prod.mk.inj (Option.some.inj read)
    rintro _ _ ⟨⟩ b mem
    exact of_decide_eq_true (List.all_eq_true.1 fits.2 b mem)
  · cases read

theorem Message.data_of_decode? {running : Option UInt8} {bytes rest : List UInt8} {m : Message}
    (read : decode? running bytes = some (m, rest)) :
    ∀ status data, m = .voice status data → ∀ b ∈ data, b < 0x80 := by
  cases stands_of_decode? read with
  | data low left read => exact data_of_decodeVoice? read
  | status above below read => exact data_of_decodeVoice? read
  | exclusive kind => rintro _ _ ⟨⟩
  | about fits => rintro _ _ ⟨⟩

theorem TimedMessage.within_of_decode? {running : Option UInt8} {bytes rest : List UInt8}
    {t : TimedMessage} (read : decode? running bytes = some (t, rest)) : t.Within := by
  simp only [decode?] at read
  split at read
  · rename_i message behind decoded
    obtain ⟨rfl, -⟩ := Prod.mk.inj (Option.some.inj read)
    have small := readVariable_lt bytes
    refine ⟨?_, Message.data_of_decode? decoded⟩
    have size : UInt32.size = 4294967296 := rfl
    rw [UInt32.toNat_ofNat_of_lt' (by omega)]
    exact small
  · cases read

theorem within_of_mem_decodeTrackOn (running : Option UInt8) (bytes : List UInt8) :
    ∀ t ∈ decodeTrackOn running bytes, t.Within := by
  fun_induction decodeTrackOn running bytes with
  | case1 => exact List.forall_mem_nil _
  | case2 running bytes t rest read ih =>
    exact List.forall_mem_cons.2 ⟨TimedMessage.within_of_decode? read, ih⟩

/-! ## Events -/

theorem TimedMessage.delta_toEvent (t : TimedMessage) : t.toEvent.delta = t.delta := by
  obtain ⟨delta, message⟩ := t
  simp only [toEvent]
  fun_cases Message.toEvent delta message <;> rfl

theorem TimedMessage.Within.pitch_toEvent {t : TimedMessage} (within : t.Within) :
    0 ≤ t.toEvent.pitch.toInt ∧ t.toEvent.pitch.toInt ≤ 127 := by
  obtain ⟨delta, message⟩ := t
  have silence : 0 ≤ (0 : Int32).toInt ∧ (0 : Int32).toInt ≤ 127 := by decide
  cases message with
  | about kind payload => exact silence
  | exclusive status payload => exact silence
  | voice status data =>
    cases data with
    | nil => exact silence
    | cons key more =>
      have low : key.toNat < 128 :=
        UInt8.lt_iff_toNat_lt.1 (within.data status (key :: more) rfl key List.mem_cons_self)
      have sounding : 0 ≤ (Int32.ofNat key.toNat).toInt ∧ (Int32.ofNat key.toNat).toInt ≤ 127 := by
        rw [toInt_ofNat_toNat]
        omega
      simp only [toEvent, Message.toEvent]
      split
      · exact sounding
      · split
        · exact sounding
        · exact silence

theorem within_of_mem_events {data : List UInt8} {e : NoteEvent}
    (mem : e ∈ (decodeTrack data).map TimedMessage.toEvent) :
    0 ≤ e.pitch.toInt ∧ e.pitch.toInt ≤ 127 ∧ e.delta.toNat < 2 ^ 28 := by
  obtain ⟨t, read, rfl⟩ := List.mem_map.1 mem
  have within := within_of_mem_decodeTrackOn none data t read
  obtain ⟨low, high⟩ := within.pitch_toEvent
  have time := within.time
  rw [← t.delta_toEvent] at time
  exact ⟨low, high, time⟩

-- ============================================================================
-- What is in a file
-- ============================================================================

/-- Whether a chunk is a header that is understood: one of the three formats, any
    number of tracks and a known division, with anything behind them. -/
def Chunk.IsHeader (c : Chunk) : Prop :=
  c.id = headerId ∧ ∃ format declared division more,
    c.data = write16 format ++ write16 declared ++ write16 division ++ more ∧
    format ≤ 2 ∧ declared < UInt16.size ∧ division < UInt16.size ∧ DivisionKnown division

/-- Whether a chunk is neither a header nor a track. -/
def Chunk.Foreign (c : Chunk) : Prop := c.id ≠ headerId ∧ c.id ≠ trackId

/-- Whether chunks can be written behind a header, and none of them is another one. -/
def Follow (chunks : List Chunk) : Prop := ∀ c ∈ chunks, c.Fits ∧ c.id ≠ headerId

/-- One change of the chunks behind a header that spares the track at `i`: another
    track gets other data, or a foreign chunk comes or goes. -/
inductive Spares (i : Nat) : List Chunk → List Chunk → Prop where
  | replaced {before behind : List Chunk} {data data' : List UInt8}
    (other : (tracksAmong before).length ≠ i) (room : data'.length < UInt32.size) :
    Spares i (before ++ trackChunk data :: behind) (before ++ trackChunk data' :: behind)
  | inserted {before behind : List Chunk} {c : Chunk} (fits : c.Fits) (foreign : c.Foreign) :
    Spares i (before ++ behind) (before ++ c :: behind)
  | deleted {before behind : List Chunk} {c : Chunk} (foreign : c.Foreign) :
    Spares i (before ++ c :: behind) (before ++ behind)

section

variable {chunks chunks' before behind : List Chunk} {c : Chunk} {data : List UInt8} {i : Nat}

/-! ## Tracks among chunks -/

theorem length_tracksAmong (chunks : List Chunk) :
    (tracksAmong chunks).length = chunks.countP (·.id = trackId) := by
  rw [tracksAmong, List.length_filterMap_eq_countP]
  apply List.countP_congr
  intro c _
  by_cases isTrack : c.id = trackId
  · simp only [Chunk.trackData?, if_pos isTrack, Option.isSome_some, decide_eq_true isTrack]
  · simp only [Chunk.trackData?, if_neg isTrack, Option.isSome_none, decide_eq_false isTrack]

theorem tracksAmong_append (before behind : List Chunk) :
    tracksAmong (before ++ behind) = tracksAmong before ++ tracksAmong behind :=
  List.filterMap_append

theorem tracksAmong_trackChunk (data : List UInt8) (behind : List Chunk) :
    tracksAmong (trackChunk data :: behind) = data :: tracksAmong behind :=
  List.filterMap_cons_some (if_pos rfl)

theorem Chunk.Foreign.tracksAmong (foreign : c.Foreign) (behind : List Chunk) :
    tracksAmong (c :: behind) = TrackFile.tracksAmong behind :=
  List.filterMap_cons_none (if_neg foreign.2)

/-! ## What a change keeps -/

theorem follow_insert (fits : c.Fits ∧ c.id ≠ headerId) (follow : Follow (before ++ behind)) :
    Follow (before ++ c :: behind) := by
  obtain ⟨first, last⟩ := List.forall_mem_append.1 follow
  exact List.forall_mem_append.2 ⟨first, List.forall_mem_cons.2 ⟨fits, last⟩⟩

theorem Follow.remove (follow : Follow (before ++ c :: behind)) : Follow (before ++ behind) := by
  obtain ⟨first, last⟩ := List.forall_mem_append.1 follow
  exact List.forall_mem_append.2 ⟨first, (List.forall_mem_cons.1 last).2⟩

theorem Spares.follow (change : Spares i chunks chunks') (follow : Follow chunks) :
    Follow chunks' := by
  cases change with
  | replaced other room =>
    have isTrack : trackId ≠ headerId := by decide
    exact follow_insert ⟨⟨rfl, room⟩, isTrack⟩ follow.remove
  | inserted fits foreign => exact follow_insert ⟨fits, foreign.1⟩ follow
  | deleted foreign => exact follow.remove

theorem Spares.length_eq (change : Spares i chunks chunks') :
    (tracksAmong chunks').length = (tracksAmong chunks).length := by
  cases change with
  | replaced other room =>
    rw [tracksAmong_append, tracksAmong_append, tracksAmong_trackChunk, tracksAmong_trackChunk,
      List.length_append, List.length_append, List.length_cons, List.length_cons]
  | inserted fits foreign => rw [tracksAmong_append, foreign.tracksAmong, ← tracksAmong_append]
  | deleted foreign => rw [tracksAmong_append, tracksAmong_append, foreign.tracksAmong]

theorem Spares.track_eq (change : Spares i chunks chunks') :
    (tracksAmong chunks')[i]? = (tracksAmong chunks)[i]? := by
  cases change with
  | @replaced before behind data data' other room =>
    rw [tracksAmong_append, tracksAmong_append, tracksAmong_trackChunk, tracksAmong_trackChunk]
    rcases Nat.lt_or_gt_of_ne other with below | above
    · -- The track stands behind the one that is replaced.
      obtain ⟨n, rfl⟩ := Nat.exists_eq_add_of_lt below
      rw [List.getElem?_append_right (by omega), List.getElem?_append_right (by omega),
        show (tracksAmong before).length + n + 1 - (tracksAmong before).length = n + 1 by omega,
        List.getElem?_cons_succ, List.getElem?_cons_succ]
    · rw [List.getElem?_append_left above, List.getElem?_append_left above]
  | inserted fits foreign => rw [tracksAmong_append, foreign.tracksAmong, ← tracksAmong_append]
  | deleted foreign => rw [tracksAmong_append, tracksAmong_append, foreign.tracksAmong]

/-- Any number of changes that spare a track leave its data, and the number of tracks. -/
theorem spared (changes : Relation.ReflTransGen (Spares i) chunks chunks')
    (follow : Follow chunks) :
    Follow chunks' ∧ (tracksAmong chunks').length = (tracksAmong chunks).length ∧
      (tracksAmong chunks')[i]? = (tracksAmong chunks)[i]? := by
  induction changes with
  | refl => exact ⟨follow, rfl, rfl⟩
  | tail _ change ih =>
    obtain ⟨before, length, track⟩ := ih
    exact ⟨change.follow before, change.length_eq.trans length, change.track_eq.trans track⟩

-- ============================================================================
-- Reading a track
-- ============================================================================

variable {header : Chunk}

theorem Follow.decode (follow : Follow chunks) (fits : header.Fits) (isHeader : header.IsHeader) :
    decode (fileOf header chunks) = .ok ⟨(tracksAmong chunks).map decodeTrack⟩ :=
  decode_fileOf fits isHeader.1 (headerFits_iff.2 isHeader.2) (fun c mem => (follow c mem).1)
    fun c mem => (follow c mem).2

/-- Behind a header that is understood, whatever the data of the chunks: there are as
    many tracks as chunks of tracks, each is read as what its own data is, with keys
    below 128 and times below 2^28, and changes that spare a track do not change what
    it is read as, nor whether it can be read. -/
theorem loadTrack_isolated {header : Chunk} {chunks : List Chunk} (fits : header.Fits)
    (isHeader : header.IsHeader) (follow : Follow chunks) :
    (load (fileOf header chunks)).map count = .ok (chunks.countP (·.id = trackId)) ∧
    (∀ i data, (tracksAmong chunks)[i]? = some data →
      loadTrack (fileOf header chunks) i = .ok ((decodeTrack data).map TimedMessage.toEvent)) ∧
    (∀ i, (∃ events, loadTrack (fileOf header chunks) i = .ok events) ↔
      i < chunks.countP (·.id = trackId)) ∧
    (∀ i events, loadTrack (fileOf header chunks) i = .ok events → ∀ e ∈ events,
      0 ≤ e.pitch.toInt ∧ e.pitch.toInt ≤ 127 ∧ e.delta.toNat < 2 ^ 28) ∧
    ∀ i chunks', Relation.ReflTransGen (Spares i) chunks chunks' →
      loadTrack (fileOf header chunks') i = loadTrack (fileOf header chunks) i := by
  have read := follow.decode fits isHeader
  refine ⟨?_, ?_, ?_, ?_, ?_⟩
  · rw [load_count_of_data read, length_tracksAmong]
  · exact fun i data track => loadTrack_of_data read track
  · intro i
    rw [← length_tracksAmong]
    constructor
    · rintro ⟨events, loaded⟩
      by_contra outside
      rw [loadTrack_of_missing read (List.getElem?_eq_none (Nat.le_of_not_lt outside))] at loaded
      cases loaded
    · intro inside
      exact ⟨_, loadTrack_of_data read (List.getElem?_eq_getElem inside)⟩
  · intro i events loaded e mem
    cases track : (tracksAmong chunks)[i]? with
    | none =>
      rw [loadTrack_of_missing read track] at loaded
      cases loaded
    | some data =>
      rw [loadTrack_of_data read track] at loaded
      cases loaded
      exact within_of_mem_events mem
  · intro i chunks' changes
    obtain ⟨follow', length, same⟩ := spared changes follow
    have read' := follow'.decode fits isHeader
    cases track : (tracksAmong chunks)[i]? with
    | none =>
      rw [loadTrack_of_missing read track, loadTrack_of_missing read' (same.trans track), length]
    | some data =>
      rw [loadTrack_of_data read track, loadTrack_of_data read' (same.trans track)]

end

/-- A track that ends in the middle of a time, a foreign chunk, and a track of one note. -/
def brokenTrack : List Chunk :=
  [trackChunk [0, 0x90, 60, 64, 0x81], ⟨identifier "XFIH", [0x4D]⟩, trackChunk [5, 0x80, 61, 0]]

/-- The note is read whatever stands in place of the broken track, also without the
    foreign chunk. -/
theorem loadTrack_isolated_broken :
    Chunk.Fits ⟨headerId, [0, 1, 0, 9, 0xE8, 4]⟩ ∧
    Chunk.IsHeader ⟨headerId, [0, 1, 0, 9, 0xE8, 4]⟩ ∧ Follow brokenTrack ∧
    (load (fileOf ⟨headerId, [0, 1, 0, 9, 0xE8, 4]⟩ brokenTrack)).map count = .ok 2 ∧
    loadTrack (fileOf ⟨headerId, [0, 1, 0, 9, 0xE8, 4]⟩ brokenTrack) 1 = .ok [⟨61, 5, false⟩] ∧
    ∀ data, data.length < UInt32.size →
      loadTrack (fileOf ⟨headerId, [0, 1, 0, 9, 0xE8, 4]⟩
        [trackChunk data, trackChunk [5, 0x80, 61, 0]]) 1 = .ok [⟨61, 5, false⟩] := by
  have fits : Chunk.Fits ⟨headerId, [0, 1, 0, 9, 0xE8, 4]⟩ := ⟨rfl, by decide⟩
  have isHeader : Chunk.IsHeader ⟨headerId, [0, 1, 0, 9, 0xE8, 4]⟩ :=
    ⟨rfl, headerFits_iff.1 (by decide)⟩
  have foreign : Chunk.Foreign ⟨identifier "XFIH", [0x4D]⟩ := ⟨by decide, by decide⟩
  have follow : Follow brokenTrack := by
    intro c mem
    simp only [brokenTrack, List.mem_cons, List.not_mem_nil, or_false] at mem
    rcases mem with rfl | rfl | rfl
    · exact ⟨⟨rfl, by decide⟩, by decide⟩
    · exact ⟨⟨rfl, by decide⟩, foreign.1⟩
    · exact ⟨⟨rfl, by decide⟩, by decide⟩
  obtain ⟨counts, reads, -, -, spares⟩ := loadTrack_isolated fits isHeader follow
  have note : decodeTrack [5, 0x80, 61, 0] = [⟨5, .voice 0x80 [61, 0]⟩] :=
    (decodeTrackOn_of_some rfl).trans (congrArg _ (decodeTrackOn_nil _))
  have read : loadTrack (fileOf ⟨headerId, [0, 1, 0, 9, 0xE8, 4]⟩ brokenTrack) 1 =
      .ok [⟨61, 5, false⟩] := by
    rw [reads 1 [5, 0x80, 61, 0] rfl, note]
    rfl
  refine ⟨fits, isHeader, follow, counts, read, ?_⟩
  intro data room
  have without : Spares 1 brokenTrack
      [trackChunk [0, 0x90, 60, 64, 0x81], trackChunk [5, 0x80, 61, 0]] :=
    @Spares.deleted 1 [trackChunk [0, 0x90, 60, 64, 0x81]] [trackChunk [5, 0x80, 61, 0]] _ foreign
  have other : (tracksAmong []).length ≠ 1 := by decide
  have instead : Spares 1 [trackChunk [0, 0x90, 60, 64, 0x81], trackChunk [5, 0x80, 61, 0]]
      [trackChunk data, trackChunk [5, 0x80, 61, 0]] :=
    @Spares.replaced 1 [] _ _ _ other room
  exact (spares 1 _ (.tail (.single without) instead)).trans read

end NoteTape.TrackFile
