/-
  NoteTape.Proofs.Transcription.Streaming

  A track with more events behind it. Behind the first event that takes time nothing
  is taken back: the root stays, and the program only grows by what the new notes say
  against it (`findRoot_append_of_later`, `transcribe_append_of_root`). As long as no
  event takes time the opening goes on into the new events, and the root may sink to
  the lowest note that starts there (`findRoot_append_of_together`).
-/

import NoteTape.Proofs.Transcription.Hearing

namespace NoteTape

variable {events : List NoteEvent} {root : Root}

/-- The pitches of the notes that start, in order. -/
def startPitches (events : List NoteEvent) : List Int32 :=
  (events.filter (·.isStart)).map (·.pitch)

/-! ## The root -/

theorem findRoot_of_lowest {low : Int32} (lowest : lowestStart (opening events) = some low) :
    findRoot events = .ok ⟨low, (opening events).length⟩ := by
  rw [findRoot, lowest]

theorem lowest_of_findRoot (found : findRoot events = .ok root) :
    lowestStart (opening events) = some root.pitch := by
  cases lowest : lowestStart (opening events) with
  | some low =>
    rw [findRoot_of_lowest lowest] at found
    rw [← Except.ok.inj found]
  | none =>
    simp only [findRoot, lowest, reduceCtorEq] at found

/-- A track with a root is read, and no other. -/
theorem exists_transcribe_iff_findRoot {scale : Scale} :
    (∃ p, transcribe scale events = .ok p) ↔ ∃ root, findRoot events = .ok root := by
  constructor
  · rintro ⟨p, read⟩
    obtain ⟨low, lowest⟩ := exists_root_of_transcribe read
    exact ⟨_, findRoot_of_lowest lowest⟩
  · rintro ⟨root, found⟩
    exact ⟨_, transcribe_of_root scale (lowest_of_findRoot found)⟩

/-- More events only bring the lowest note down to the lowest among them. -/
theorem lowestStart_append {low : Int32} (lowest : lowestStart events = some low)
    (more : List NoteEvent) :
    lowestStart (events ++ more) = some ((startPitches more).foldl min low) := by
  have joined : startPitches (events ++ more) = startPitches events ++ startPitches more := by
    rw [startPitches, List.filter_append, List.map_append]
    rfl
  rw [lowestStart, ← startPitches] at lowest ⊢
  rw [joined]
  cases pitches : startPitches events with
  | nil =>
    rw [pitches] at lowest
    cases lowest
  | cons first others =>
    rw [pitches, List.min?_cons'] at lowest
    rw [List.cons_append, List.min?_cons', List.foldl_append, Option.some.inj lowest]

/-- Once time has passed the root is known. -/
theorem findRoot_append_of_later (later : ∃ e ∈ events, 0 < e.delta) (more : List NoteEvent) :
    findRoot (events ++ more) = findRoot events := by
  rw [findRoot, findRoot, opening_append_of_later later]

/-- While no time has passed the opening goes on. -/
theorem findRoot_append_of_together (together : ∀ e ∈ events, e.delta = 0)
    (found : findRoot events = .ok root) (more : List NoteEvent) :
    findRoot (events ++ more) =
      .ok ⟨(startPitches (opening more)).foldl min root.pitch,
        events.length + (opening more).length⟩ := by
  have lowest := lowest_of_findRoot found
  rw [opening_eq_self together] at lowest
  have longer := opening_append_of_together together more
  have lowest' : lowestStart (opening (events ++ more)) =
      some ((startPitches (opening more)).foldl min root.pitch) := by
    rw [longer, lowestStart_append lowest]
  rw [findRoot_of_lowest lowest', longer, List.length_append]

/-! ## The program -/

/-- Events are read one after another. -/
theorem filterMap_eq_flatMap_reading (scale : Scale) (pitch : Int32) (events : List NoteEvent) :
    events.filterMap (NoteEvent.instruction? scale pitch) =
      events.flatMap (Hearing.reading scale pitch.toInt) := by
  induction events with
  | nil => rfl
  | cons e events ih =>
    rw [← List.singleton_append, List.filterMap_append, filterMap_singleton, ih,
      List.singleton_append, List.flatMap_cons]

/-- Against a root that is known, what is read of the new events comes behind what was
    read of the old ones. -/
theorem transcribe_append_of_root {scale : Scale} {p : Program}
    (later : ∃ e ∈ events, 0 < e.delta) (found : findRoot events = .ok root)
    (read : transcribe scale events = .ok p) (more : List NoteEvent) :
    transcribe scale (events ++ more) =
      .ok (p ++ .ofList (more.flatMap (Hearing.reading scale root.pitch.toInt))) := by
  have lowest := lowest_of_findRoot found
  have lowest' : lowestStart (opening (events ++ more)) = some root.pitch := by
    rw [opening_append_of_later later, lowest]
  rw [transcribe_of_root scale lowest] at read
  rw [transcribe_of_root scale lowest', ← Except.ok.inj read, body_append_of_later later,
    List.filterMap_append, filterMap_eq_flatMap_reading scale root.pitch more,
    Program.ofList_append]

/-- A track goes on as a stream. Behind an event that takes time more events change
    nothing that was found or read: the root and the beginning of the body are the same,
    the longer track is read exactly if the shorter one is, and its program is that of
    the shorter one with the instructions of the new notes against its root behind. In
    front of such an event more events may belong to the opening: the body begins behind
    those of them that take no time, and the root is the lowest of the root so far and
    the notes that start among them. -/
theorem transcription_streams (scale : Scale) (a b : List NoteEvent) :
    ((∃ e ∈ a, 0 < e.delta) →
      findRoot (a ++ b) = findRoot a ∧
      ((∃ p, transcribe scale (a ++ b) = .ok p) ↔ ∃ p, transcribe scale a = .ok p) ∧
      ∀ p, transcribe scale a = .ok p → ∃ root, findRoot a = .ok root ∧
        transcribe scale (a ++ b) =
          .ok (p ++ .ofList (b.flatMap (Hearing.reading scale root.pitch.toInt)))) ∧
    ((∀ e ∈ a, e.delta = 0) → ∀ root, findRoot a = .ok root →
      findRoot (a ++ b) =
        .ok ⟨(startPitches (opening b)).foldl min root.pitch, a.length + (opening b).length⟩) := by
  constructor
  · intro later
    have same := findRoot_append_of_later later b
    refine ⟨same, ?_, ?_⟩
    · rw [exists_transcribe_iff_findRoot, exists_transcribe_iff_findRoot, same]
    · intro p read
      obtain ⟨root, found⟩ := exists_transcribe_iff_findRoot.1 ⟨p, read⟩
      exact ⟨root, found, transcribe_append_of_root later found read b⟩
  · intro together root found
    exact findRoot_append_of_together together found b

/-- Behind a note that takes time a lower one is read against the old root; before it a
    lower one in the opening becomes the root. -/
theorem transcription_streams_lower_note :
    transcribe .major ([.start 60 0, .start 64 10] ++ [.start 55 0, .stop 55 5]) =
      .ok (.ofList [.increment, .output]) ∧
    findRoot ([.start 60 0, .rest 0] ++ [.start 55 0, .start 50 10]) = .ok ⟨55, 3⟩ := by
  obtain ⟨later, -⟩ := transcription_streams .major [.start 60 0, .start 64 10]
    [.start 55 0, .stop 55 5]
  obtain ⟨-, together⟩ := transcription_streams .major [.start 60 0, .rest 0]
    [.start 55 0, .start 50 10]
  obtain ⟨-, -, grows⟩ := later (by decide)
  obtain ⟨root, found, longer⟩ := grows (.ofList [.increment]) (by decide)
  obtain rfl : root = ⟨60, 1⟩ := Except.ok.inj (found.symm.trans (by decide))
  exact ⟨longer.trans (by decide), (together (by decide) ⟨60, 2⟩ (by decide)).trans (by decide)⟩

end NoteTape
