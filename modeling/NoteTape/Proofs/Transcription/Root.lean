/-
  NoteTape.Proofs.Transcription.Root

  When a track has a root, and so a program: exactly if a note starts in its
  opening. The opening is over with the first event that takes time, so what comes
  behind such an event is body and has no part in the root
  (`opening_append_of_later`, `body_append_of_later`).
-/

import Mathlib.Data.List.TakeWhile
import NoteTape.Transcription.Basic

namespace NoteTape

variable {events : List NoteEvent}

/-! ## The lowest note -/

theorem lowestStart_eq_none_iff :
    lowestStart events = none ↔ ∀ e ∈ events, e.isStart = false := by
  rw [lowestStart, List.min?_eq_none_iff, List.map_eq_nil_iff, List.filter_eq_nil_iff]
  simp only [Bool.not_eq_true]

theorem lowestStart_eq_some_iff {root : Int32} :
    lowestStart events = some root ↔
      (∃ e ∈ events, e.isStart = true ∧ e.pitch = root) ∧
        ∀ e ∈ events, e.isStart = true → root ≤ e.pitch := by
  rw [lowestStart, List.min?_eq_some_iff]
  constructor
  · rintro ⟨mem, lowest⟩
    obtain ⟨e, kept, pitch⟩ := List.mem_map.1 mem
    obtain ⟨mem, starts⟩ := List.mem_filter.1 kept
    refine ⟨⟨e, mem, starts, pitch⟩, fun x mem starts => lowest x.pitch ?_⟩
    exact List.mem_map_of_mem (List.mem_filter.2 ⟨mem, starts⟩)
  · rintro ⟨⟨e, mem, starts, pitch⟩, lowest⟩
    refine ⟨List.mem_map.2 ⟨e, List.mem_filter.2 ⟨mem, starts⟩, pitch⟩, fun p mem => ?_⟩
    obtain ⟨x, kept, rfl⟩ := List.mem_map.1 mem
    obtain ⟨mem, starts⟩ := List.mem_filter.1 kept
    exact lowest x mem starts

/-! ## Where the body begins -/

theorem opening_eq_self (together : ∀ e ∈ events, e.delta = 0) : opening events = events :=
  List.takeWhile_eq_self_iff.2 fun e mem => decide_eq_true (together e mem)

theorem body_eq_nil (together : ∀ e ∈ events, e.delta = 0) : body events = [] :=
  List.dropWhile_eq_nil_iff.2 fun e mem => decide_eq_true (together e mem)

/-- The body begins at the first event that takes time, or at the end. -/
theorem length_opening (events : List NoteEvent) :
    (opening events).length = events.findIdx (0 < ·.delta) := by
  have takesTime : (fun e : NoteEvent => !decide (e.delta = 0)) =
      fun e => decide (0 < e.delta) := by
    funext e
    rw [← decide_not, decide_eq_decide]
    exact UInt32.pos_iff_ne_zero.symm
  rw [opening, List.takeWhile_eq_take_findIdx_not, takesTime, List.length_take,
    Nat.min_eq_left List.findIdx_le_length]

theorem opening_append_of_together (together : ∀ e ∈ events, e.delta = 0)
    (more : List NoteEvent) : opening (events ++ more) = events ++ opening more :=
  List.takeWhile_append_of_pos fun e mem => decide_eq_true (together e mem)

theorem body_append_of_together (together : ∀ e ∈ events, e.delta = 0)
    (more : List NoteEvent) : body (events ++ more) = body more :=
  List.dropWhile_append_of_pos fun e mem => decide_eq_true (together e mem)

theorem opening_cons_of_now {e : NoteEvent} (now : e.delta = 0) :
    opening (e :: events) = e :: opening events :=
  List.takeWhile_cons_of_pos (decide_eq_true now)

theorem body_cons_of_now {e : NoteEvent} (now : e.delta = 0) :
    body (e :: events) = body events :=
  List.dropWhile_cons_of_pos (decide_eq_true now)

theorem opening_cons_of_later {e : NoteEvent} (takesTime : ¬ e.delta = 0) :
    opening (e :: events) = [] :=
  List.takeWhile_cons_of_neg (by simpa using takesTime)

theorem body_cons_of_later {e : NoteEvent} (takesTime : ¬ e.delta = 0) :
    body (e :: events) = e :: events :=
  List.dropWhile_cons_of_neg (by simpa using takesTime)

theorem opening_eq_nil (later : ∀ e ∈ events.head?, 0 < e.delta) : opening events = [] := by
  cases events with
  | nil => rfl
  | cons e _ => exact opening_cons_of_later (UInt32.pos_iff_ne_zero.1 (later e rfl))

theorem body_eq_self (later : ∀ e ∈ events.head?, 0 < e.delta) : body events = events := by
  cases events with
  | nil => rfl
  | cons e _ => exact body_cons_of_later (UInt32.pos_iff_ne_zero.1 (later e rfl))

theorem opening_append_body (events : List NoteEvent) : opening events ++ body events = events :=
  List.takeWhile_append_dropWhile

theorem later_append (later : ∃ e ∈ events, 0 < e.delta) (more : List NoteEvent) :
    ∃ e ∈ events ++ more, 0 < e.delta := by
  obtain ⟨e, mem, takesTime⟩ := later
  exact ⟨e, List.mem_append_left more mem, takesTime⟩

theorem body_ne_nil_of_later (later : ∃ e ∈ events, 0 < e.delta) : body events ≠ [] := by
  obtain ⟨e, mem, takesTime⟩ := later
  intro none
  have now : decide (e.delta = 0) = true := List.dropWhile_eq_nil_iff.1 none e mem
  rw [of_decide_eq_true now] at takesTime
  exact absurd takesTime (by decide)

theorem opening_append_of_later (later : ∃ e ∈ events, 0 < e.delta) (more : List NoteEvent) :
    opening (events ++ more) = opening events := by
  have shorter : (opening events).length ≠ events.length := by
    have positive : 0 < (body events).length :=
      List.length_pos_iff.2 (body_ne_nil_of_later later)
    have sum := congrArg List.length (opening_append_body events)
    rw [List.length_append] at sum
    omega
  rw [opening, List.takeWhile_append, ← opening, if_neg shorter]

theorem body_append_of_later (later : ∃ e ∈ events, 0 < e.delta) (more : List NoteEvent) :
    body (events ++ more) = body events ++ more := by
  have some : (body events).isEmpty = false := by
    rw [List.isEmpty_eq_false_iff]
    exact body_ne_nil_of_later later
  rw [body, List.dropWhile_append, ← body, some]
  rfl

/-! ## Reading -/

/-- Without a note start in its opening a track has no root, and that is all that
    is wrong with it. -/
theorem transcribe_of_silent (scale : Scale) (silent : ∀ e ∈ opening events, e.isStart = false) :
    transcribe scale events = .error (.noRoot (opening events).length) := by
  have rootless := lowestStart_eq_none_iff.2 silent
  simp only [transcribe, findRoot, rootless]

theorem drop_length_opening (events : List NoteEvent) :
    events.drop (opening events).length = body events := by
  calc events.drop (opening events).length
      = (opening events ++ body events).drop (opening events).length := by
        rw [opening_append_body]
    _ = body events := List.drop_left

/-- With a root a track is read as the program of its body. -/
theorem transcribe_of_root {root : Int32} (scale : Scale)
    (lowest : lowestStart (opening events) = some root) :
    transcribe scale events =
      .ok (.ofList ((body events).filterMap (NoteEvent.instruction? scale root))) := by
  simp only [transcribe, findRoot, lowest, drop_length_opening]

/-- With a note start in its opening a track has a root. -/
theorem exists_transcribe_eq_ok (scale : Scale) (starts : ∃ e ∈ opening events, e.isStart = true) :
    ∃ p, transcribe scale events = .ok p := by
  obtain ⟨e, mem, start⟩ := starts
  cases root : lowestStart (opening events) with
  | none =>
    have silent := lowestStart_eq_none_iff.1 root e mem
    rw [start] at silent
    cases silent
  | some pitch => exact ⟨_, transcribe_of_root scale root⟩

/-- Only a track with a root is read. -/
theorem exists_root_of_transcribe {scale : Scale} {p : Program}
    (read : transcribe scale events = .ok p) :
    ∃ root, lowestStart (opening events) = some root := by
  cases lowest : lowestStart (opening events) with
  | some root => exact ⟨root, rfl⟩
  | none =>
    rw [transcribe_of_silent scale (lowestStart_eq_none_iff.1 lowest)] at read
    cases read

/-- Once time has passed the root is known, and more events only add instructions. -/
theorem transcribe_append_of_later {scale : Scale} {p : Program}
    (later : ∃ e ∈ events, 0 < e.delta) (read : transcribe scale events = .ok p)
    (more : List NoteEvent) :
    ∃ longer, transcribe scale (events ++ more) = .ok longer ∧ p.toList <+: longer.toList := by
  obtain ⟨root, lowest⟩ := exists_root_of_transcribe read
  rw [transcribe_of_root scale lowest] at read
  rw [← opening_append_of_later later more] at lowest
  refine ⟨_, transcribe_of_root scale lowest, ?_⟩
  rw [body_append_of_later later, List.filterMap_append, ← Except.ok.inj read,
    Program.toList_ofList, Program.toList_ofList]
  exact List.prefix_append _ _

end NoteTape
