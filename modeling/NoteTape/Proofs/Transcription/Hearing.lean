/-
  NoteTape.Proofs.Transcription.Hearing

  Hearing a track once comes to what reading it comes to. What is known after some
  events is a function of those events alone (`Heard`): while no time has passed, how
  many there were and the lowest note; then the root of the opening and the
  instructions of the body so far. One more event takes what is known of the events
  before it to what is known with it (`Heard.hear`), so at the end of a track what is
  known is its root and its program.
-/

import Mathlib.Data.List.Induction
import NoteTape.Proofs.Transcription.Interval
import NoteTape.Proofs.Transcription.Root

namespace NoteTape

variable {scale : Scale} {events : List NoteEvent}

/-! ## One more event -/

theorem toInt_min (a b : Int32) : (min a b).toInt = min a.toInt b.toInt := by
  show (if a ≤ b then a else b).toInt = min a.toInt b.toInt
  rw [Int.min_def]
  by_cases le : a ≤ b
  · rw [if_pos le, if_pos (Int32.le_iff_toInt_le.1 le)]
  · rw [if_neg le, if_neg fun h => le (Int32.le_iff_toInt_le.2 h)]

theorem min?_concat (pitches : List Int32) (pitch : Int32) :
    (pitches ++ [pitch]).min? = some (pitches.min?.elim pitch (min · pitch)) := by
  cases pitches with
  | nil => rfl
  | cons first more =>
    rw [List.cons_append, List.min?_cons', List.min?_cons', List.foldl_append]
    rfl

theorem lowestStart_concat_of_silent {e : NoteEvent} (silent : e.isStart = false) :
    lowestStart (events ++ [e]) = lowestStart events := by
  have nothing : [e].filter (·.isStart) = [] := by
    simp only [List.filter_cons, silent, Bool.false_eq_true, if_false, List.filter_nil]
  rw [lowestStart, List.filter_append, nothing, List.append_nil, ← lowestStart]

/-- A note that starts is the lowest, or does not change which is. -/
theorem lowestStart_concat_of_starts {e : NoteEvent} (starts : e.isStart = true) :
    (lowestStart (events ++ [e])).map Int32.toInt =
      some (Hearing.lower ((lowestStart events).map Int32.toInt) e.pitch.toInt) := by
  have kept : [e].filter (·.isStart) = [e] := by
    simp only [List.filter_cons, starts, if_true, List.filter_nil]
  rw [lowestStart, List.filter_append, kept, List.map_append, List.map_singleton, min?_concat,
    ← lowestStart]
  cases lowestStart events with
  | none => rfl
  | some low => exact congrArg some (toInt_min low e.pitch)

theorem filterMap_singleton (root : Int32) (e : NoteEvent) :
    [e].filterMap (NoteEvent.instruction? scale root) = Hearing.reading scale root.toInt e := by
  have read : e.instruction? scale root =
      if e.isStart then scale.lookup (residue e.pitch.toInt root.toInt) else none := by
    rw [NoteEvent.instruction?, interval_eq_residue]
  rw [Hearing.reading, List.filterMap_cons, List.filterMap_nil, read]
  cases e.isStart with
  | false => rfl
  | true => cases scale.lookup (residue e.pitch.toInt root.toInt) <;> rfl

/-! ## What is known -/

/-- What is known after some events, by those events alone. -/
inductive Heard (scale : Scale) (events : List NoteEvent) : Hearing → Prop where
  /-- No time has passed. -/
  | gathered (together : ∀ e ∈ events, e.delta = 0) :
    Heard scale events (.opening events.length ((lowestStart events).map Int32.toInt))
  /-- The opening had a note, and the body was read against it. -/
  | rooted {root : Int32} (later : ∃ e ∈ events, 0 < e.delta)
    (lowest : lowestStart (opening events) = some root) :
    Heard scale events (.body (opening events).length root.toInt
      ((body events).filterMap (NoteEvent.instruction? scale root)))
  /-- The opening had no note. -/
  | rootless (later : ∃ e ∈ events, 0 < e.delta)
    (lowest : lowestStart (opening events) = none) :
    Heard scale events (.rootless (opening events).length)

theorem heard_together {e : NoteEvent} (together : ∀ x ∈ events, x.delta = 0)
    (now : e.delta = 0) :
    Heard scale (events ++ [e])
      (.hear scale (.opening events.length ((lowestStart events).map Int32.toInt)) e) := by
  have all : ∀ x ∈ events ++ [e], x.delta = 0 :=
    List.forall_mem_append.2 ⟨together, List.forall_mem_singleton.2 now⟩
  have heard : Heard scale (events ++ [e]) _ := .gathered all
  rw [List.length_append, List.length_singleton] at heard
  simp only [Hearing.hear, if_pos now]
  by_cases starts : e.isStart = true
  · rw [if_pos starts]
    rwa [lowestStart_concat_of_starts starts] at heard
  · rw [if_neg starts]
    rwa [lowestStart_concat_of_silent (Bool.not_eq_true _ ▸ starts)] at heard

/-- The first event that takes time ends the opening and is read itself. -/
theorem heard_first {e : NoteEvent} (together : ∀ x ∈ events, x.delta = 0)
    (takesTime : ¬ e.delta = 0) :
    Heard scale (events ++ [e])
      (.hear scale (.opening events.length ((lowestStart events).map Int32.toInt)) e) := by
  have later : ∃ x ∈ events ++ [e], 0 < x.delta :=
    ⟨e, List.mem_append_right events List.mem_cons_self, UInt32.pos_iff_ne_zero.2 takesTime⟩
  have hopening : opening (events ++ [e]) = events := by
    rw [opening_append_of_together together, opening_cons_of_later takesTime, List.append_nil]
  have hbody : body (events ++ [e]) = [e] := by
    rw [body_append_of_together together, body_cons_of_later takesTime]
  simp only [Hearing.hear, if_neg takesTime]
  cases lowest : lowestStart events with
  | none =>
    have heard : Heard scale (events ++ [e]) _ := .rootless later (by rw [hopening, lowest])
    rwa [hopening] at heard
  | some root =>
    have heard : Heard scale (events ++ [e]) _ := .rooted later (by rw [hopening, lowest])
    rw [hopening, hbody, filterMap_singleton] at heard
    exact heard

/-- What is known with one more event. -/
theorem Heard.hear {known : Hearing} (heard : Heard scale events known) (e : NoteEvent) :
    Heard scale (events ++ [e]) (known.hear scale e) := by
  cases heard with
  | gathered together =>
    by_cases now : e.delta = 0
    · exact heard_together together now
    · exact heard_first together now
  | rooted later lowest =>
    have longer := later_append later [e]
    have hopening := opening_append_of_later later [e]
    have next : Heard scale (events ++ [e]) _ := .rooted longer (by rw [hopening, lowest])
    rw [hopening, body_append_of_later later, List.filterMap_append, filterMap_singleton] at next
    exact next
  | rootless later lowest =>
    have longer := later_append later [e]
    have hopening := opening_append_of_later later [e]
    have next : Heard scale (events ++ [e]) _ := .rootless longer (by rw [hopening, lowest])
    rwa [hopening] at next

/-- What is known at the end of a track. -/
theorem heard_ofEvents (scale : Scale) (events : List NoteEvent) :
    Heard scale events (.ofEvents scale events) := by
  -- From the end: what was heard before the last event is one event shorter.
  induction events using List.reverseRecOn with
  | nil => exact .gathered (List.forall_mem_nil _)
  | append_singleton events e ih =>
    rw [Hearing.ofEvents, List.foldl_append, ← Hearing.ofEvents]
    exact ih.hear e

/-! ## A track heard once -/

theorem Heard.program_eq {known : Hearing} (heard : Heard scale events known) :
    known.program = transcribe scale events := by
  cases heard with
  | gathered together =>
    have hopening := opening_eq_self together
    cases lowest : lowestStart events with
    | none =>
      have silent : ∀ e ∈ opening events, e.isStart = false := by
        rw [hopening]
        exact lowestStart_eq_none_iff.1 lowest
      rw [transcribe_of_silent scale silent, hopening]
      rfl
    | some root =>
      have rooted : lowestStart (opening events) = some root := by rw [hopening, lowest]
      rw [transcribe_of_root scale rooted, body_eq_nil together]
      rfl
  | rooted later lowest => exact (transcribe_of_root scale lowest).symm
  | rootless later lowest =>
    exact (transcribe_of_silent scale (lowestStart_eq_none_iff.1 lowest)).symm

theorem Heard.root_eq {known : Hearing} (heard : Heard scale events known) :
    known.root = (findRoot events).map fun root => (root.pitch.toInt, root.bodyStart) := by
  cases heard with
  | gathered together =>
    rw [findRoot, opening_eq_self together]
    cases lowestStart events <;> rfl
  | rooted later lowest =>
    rw [findRoot, lowest]
    rfl
  | rootless later lowest =>
    rw [findRoot, lowest]
    rfl

theorem bodyStart_of_findRoot {root : Root} (found : findRoot events = .ok root) :
    root.bodyStart = events.findIdx (0 < ·.delta) := by
  rw [findRoot, length_opening] at found
  cases lowest : lowestStart (opening events) with
  | none => simp only [lowest, reduceCtorEq] at found
  | some pitch =>
    simp only [lowest, Except.ok.injEq] at found
    rw [← found]

theorem findRoot_of_transcribe {fault : Fault} (fails : transcribe scale events = .error fault) :
    findRoot events = .error fault := by
  rw [transcribe] at fails
  cases found : findRoot events with
  | error other =>
    rw [found] at fails
    rw [Except.error.inj fails]
  | ok root => simp only [found, reduceCtorEq] at fails

theorem report_of_findRoot {fault : Fault} (fails : findRoot events = .error fault) :
    fault.report = ⟨.noRootNote,
      s!"no note starts among the {events.findIdx (0 < ·.delta)} leading simultaneous events",
      none⟩ := by
  rw [findRoot, length_opening] at fails
  cases lowest : lowestStart (opening events) with
  | none =>
    simp only [lowest, Except.error.injEq] at fails
    rw [← fails]
    rfl
  | some pitch => simp only [lowest, reduceCtorEq] at fails

/-- A track heard once, event by event, comes to the program that it is read as, and to
    the root and the beginning of the body that are found. The body begins at the first
    event that takes time, or at the end. Whoever fails says how many events there are
    before it, and gives no position. -/
theorem transcribe_heard_once (scale : Scale) (events : List NoteEvent) :
    transcribe scale events = (Hearing.ofEvents scale events).program ∧
    (findRoot events).map (fun root => (root.pitch.toInt, root.bodyStart)) =
      (Hearing.ofEvents scale events).root ∧
    (∀ root, findRoot events = .ok root → root.bodyStart = events.findIdx (0 < ·.delta)) ∧
    ∀ fault, transcribe scale events = .error fault ∨ findRoot events = .error fault →
      fault.report = ⟨.noRootNote,
        s!"no note starts among the {events.findIdx (0 < ·.delta)} leading simultaneous events",
        none⟩ := by
  have heard := heard_ofEvents scale events
  refine ⟨heard.program_eq.symm, heard.root_eq.symm, fun _ => bodyStart_of_findRoot, ?_⟩
  rintro fault (fails | fails)
  · exact report_of_findRoot (findRoot_of_transcribe fails)
  · exact report_of_findRoot fails

/-- Two notes together, then a `-` below the lower one, a stop, a note that the scale does
    not have and a `.` far above; and a track whose only note comes too late. -/
theorem transcribe_heard_once_far_and_late :
    (Hearing.ofEvents .minor [.start 67 0, .rest 0, .start 60 0, .start 53 10, .stop 53 5,
      .start 61 0, .start 91 0]).program = .ok (.ofList [.decrement, .output]) ∧
    transcribe .major [.rest 0, .start 60 3] = .error (.noRoot 1) ∧
    (Fault.noRoot 1).report =
      ⟨.noRootNote, "no note starts among the 1 leading simultaneous events", none⟩ := by
  obtain ⟨program, -, -, -⟩ := transcribe_heard_once .minor [.start 67 0, .rest 0, .start 60 0,
    .start 53 10, .stop 53 5, .start 61 0, .start 91 0]
  obtain ⟨-, -, -, reports⟩ := transcribe_heard_once .major [.rest 0, .start 60 3]
  have fails : transcribe .major [.rest 0, .start 60 3] = .error (.noRoot 1) := by decide
  exact ⟨program.symm.trans (by decide), fails, reports _ (.inl fails)⟩

end NoteTape
