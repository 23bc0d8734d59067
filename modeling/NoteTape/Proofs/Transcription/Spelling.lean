/-
  NoteTape.Proofs.Transcription.Spelling

  Programs written as tracks. An opening sets the root (`Opens`), and the events behind
  it spell the instructions against that root (`Spells`): in any octave above or below
  it, with anything between them that is not read. Such a track is read back as the
  program it spells, and every program has one in every scale and on every root.
-/

import NoteTape.Proofs.Transcription.Interval
import NoteTape.Proofs.Transcription.Root
import NoteTape.Transcription.Spelling

namespace NoteTape

/-- Events between which no time passes, and the lowest note that starts among them. -/
structure Opens (root : Int32) (lead : List NoteEvent) : Prop where
  together : ∀ e ∈ lead, e.delta = 0
  attained : ∃ e ∈ lead, e.isStart = true ∧ e.pitch = root
  lowest : ∀ e ∈ lead, e.isStart = true → root ≤ e.pitch

variable {scale : Scale} {root : Int32} {lead rest : List NoteEvent} {is : List Instruction}

-- ============================================================================
-- The opening
-- ============================================================================

theorem Opens.lowestStart_eq (opens : Opens root lead) : lowestStart lead = some root :=
  lowestStart_eq_some_iff.2 ⟨opens.attained, opens.lowest⟩

/-- The body begins at the first event that takes time. -/
theorem opening_append (together : ∀ e ∈ lead, e.delta = 0)
    (later : ∀ e ∈ rest.head?, 0 < e.delta) :
    opening (lead ++ rest) = lead ∧ body (lead ++ rest) = rest := by
  rw [opening_append_of_together together, body_append_of_together together,
    opening_eq_nil later, body_eq_self later, List.append_nil]
  exact ⟨rfl, rfl⟩

-- ============================================================================
-- The body
-- ============================================================================

/-- Events that spell instructions are read as those. -/
theorem Spells.filterMap_eq (spells : Spells scale root.toInt rest is) :
    rest.filterMap (NoteEvent.instruction? scale root) = is := by
  induction spells with
  | done => rfl
  | silent silent _ ih =>
    rw [List.filterMap_cons_none, ih]
    rw [NoteEvent.instruction?, silent]
    rfl
  | unread starts slot _ ih =>
    rw [List.filterMap_cons_none, ih]
    rw [NoteEvent.instruction?, if_pos starts, interval_eq_residue, slot]
  | @note e es i is starts slot _ ih =>
    have read : e.instruction? scale root = some i := by
      rw [NoteEvent.instruction?, if_pos starts, interval_eq_residue, slot,
        scale.lookup_semitoneOf]
    rw [List.filterMap_cons_some read, ih]

theorem Scale.semitoneOf_lt (scale : Scale) (i : Instruction) : scale.semitoneOf i < octave := by
  cases scale <;> cases i <;> decide

/-- Instructions can be spelled against every root, with a tick before each note. -/
theorem exists_spells (scale : Scale) (root : Int32) (is : List Instruction) :
    ∃ rest, (∀ e ∈ rest.head?, 0 < e.delta) ∧ Spells scale root.toInt rest is := by
  induction is with
  | nil => exact ⟨[], by simp, .done⟩
  | cons i is ih =>
    obtain ⟨rest, -, spells⟩ := ih
    obtain ⟨pitch, slot⟩ := exists_residue_eq root (scale.semitoneOf_lt i)
    refine ⟨.start pitch 1 :: rest, ?_, .note rfl slot spells⟩
    rintro _ ⟨⟩
    show (0 : UInt32) < 1
    decide

/-- Every program can be spelled as a track in every scale on every root, and however
    it is spelled, the track is read back as the program. -/
theorem transcribe_spelled (scale : Scale) (root : Int32) (p : Program) :
    (∃ lead rest, Opens root lead ∧ (∀ e ∈ rest.head?, 0 < e.delta) ∧
      Spells scale root.toInt rest p.toList) ∧
    ∀ lead rest, Opens root lead → (∀ e ∈ rest.head?, 0 < e.delta) →
      Spells scale root.toInt rest p.toList → transcribe scale (lead ++ rest) = .ok p := by
  constructor
  · obtain ⟨rest, later, spells⟩ := exists_spells scale root p.toList
    refine ⟨[.start root 0], rest, ⟨?_, ?_, ?_⟩, later, spells⟩
    · simp [NoteEvent.start]
    · simp [NoteEvent.start]
    · simp [NoteEvent.start]
  · intro lead rest opens later spells
    obtain ⟨opening, body⟩ := opening_append opens.together later
    have lowest : lowestStart (NoteTape.opening (lead ++ rest)) = some root := by
      rw [opening, opens.lowestStart_eq]
    rw [transcribe_of_root scale lowest, body, spells.filterMap_eq]
    rfl

/-- A `-` below the root and a `.` two octaves above it, with a note between them that a
    minor scale does not have. -/
theorem transcribe_spelled_minor :
    transcribe .minor
      ([.start 67 0, .rest 0, .start 60 0] ++
        [.start 53 10, .stop 53 5, .start 61 0, .start 91 0]) =
      .ok (.ofList [.decrement, .output]) := by
  have opens : Opens 60 [.start 67 0, .rest 0, .start 60 0] := ⟨by decide, by decide, by decide⟩
  have spells : Spells .minor 60 [.start 53 10, .stop 53 5, .start 61 0, .start 91 0]
      [.decrement, .output] :=
    .note rfl (by decide) (.silent rfl (.unread rfl (by decide) (.note rfl (by decide) .done)))
  exact (transcribe_spelled .minor 60 (.ofList [.decrement, .output])).2 _ _ opens (by decide) spells

end NoteTape
