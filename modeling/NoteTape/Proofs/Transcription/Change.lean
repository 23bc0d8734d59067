/-
  NoteTape.Proofs.Transcription.Change

  Changes of a track that are not heard. What is read of a track is the semitones
  above the root on which the notes of its body stand, and nothing else
  (`transcribe_eq_map_intervals`). A `Change` moves all pitches together, reorders
  the opening or adds to it a note that is not lower, moves notes of the body by
  octaves, or alters times and silent events of the body; none of them touches these
  semitones (`Change.intervals_eq`), so no number of them touches the program.
-/

import Mathlib.Data.List.Forall2
import Mathlib.Logic.Relation
import NoteTape.Proofs.Transcription.Interval
import NoteTape.Proofs.Transcription.Root

namespace NoteTape

-- ============================================================================
-- Changes
-- ============================================================================

/-- One pitch is the other, moved by a distance, and the events are alike otherwise. -/
structure MovedBy (distance : Int) (e e' : NoteEvent) : Prop where
  time : e'.delta = e.delta
  start : e'.isStart = e.isStart
  pitch : e'.pitch.toInt = e.pitch.toInt + distance

/-- The pitches are some octaves apart, and the events are alike otherwise. -/
structure OctavesApart (e e' : NoteEvent) : Prop where
  time : e'.delta = e.delta
  start : e'.isStart = e.isStart
  pitch : (octave : Int) ∣ e'.pitch.toInt - e.pitch.toInt

/-- The events are alike except for their times. -/
structure Retimed (e e' : NoteEvent) : Prop where
  start : e'.isStart = e.isStart
  pitch : e'.pitch = e.pitch

/-- A change of a track that is not heard. -/
inductive Change : List NoteEvent → List NoteEvent → Prop where
  /-- All pitches are moved by the same distance. -/
  | transpose {events events' : List NoteEvent} (distance : Int)
    (moved : List.Forall₂ (MovedBy distance) events events') :
    Change events events'
  /-- Events of the opening change places. -/
  | reorder {lead lead' rest : List NoteEvent} (together : ∀ e ∈ lead, e.delta = 0)
    (same : lead.Perm lead') :
    Change (lead ++ rest) (lead' ++ rest)
  /-- A note joins the opening that is not below its lowest. -/
  | join {lead lead' rest : List NoteEvent} {e : NoteEvent}
    (together : ∀ x ∈ lead ++ lead', x.delta = 0) (now : e.delta = 0) (starts : e.isStart = true)
    (notBelow : ∃ x ∈ lead ++ lead', x.isStart = true ∧ x.pitch ≤ e.pitch) :
    Change (lead ++ lead' ++ rest) (lead ++ e :: lead' ++ rest)
  /-- Notes of the body move by octaves, each by as many as it likes. -/
  | octaves {lead rest rest' : List NoteEvent} (together : ∀ e ∈ lead, e.delta = 0)
    (later : ∀ e ∈ rest.head?, 0 < e.delta) (moved : List.Forall₂ OctavesApart rest rest') :
    Change (lead ++ rest) (lead ++ rest')
  /-- Times change behind the first event that takes time. -/
  | retime {lead rest rest' : List NoteEvent} (later : ∃ e ∈ lead, 0 < e.delta)
    (retimed : List.Forall₂ Retimed rest rest') :
    Change (lead ++ rest) (lead ++ rest')
  /-- An event that starts no note comes in behind the first event that takes time. -/
  | insert {lead rest : List NoteEvent} {e : NoteEvent} (later : ∃ x ∈ lead, 0 < x.delta)
    (silent : e.isStart = false) :
    Change (lead ++ rest) (lead ++ e :: rest)
  /-- An event that starts no note goes out behind the first event that takes time. -/
  | delete {lead rest : List NoteEvent} {e : NoteEvent} (later : ∃ x ∈ lead, 0 < x.delta)
    (silent : e.isStart = false) :
    Change (lead ++ e :: rest) (lead ++ rest)

variable {events events' lead lead' rest rest' : List NoteEvent}

-- ============================================================================
-- What is read of a track
-- ============================================================================

/-- The semitone above a root on which an event starts a note. -/
def NoteEvent.semitone? (root : Int) (e : NoteEvent) : Option Nat :=
  if e.isStart then some (residue e.pitch.toInt root) else none

/-- The semitones above the root on which the notes of the body stand. -/
def intervals (events : List NoteEvent) : Except Fault (List Nat) :=
  (findRoot events).map fun root => (body events).filterMap (NoteEvent.semitone? root.pitch.toInt)

theorem intervals_of_root {root : Int32} (lowest : lowestStart (opening events) = some root) :
    intervals events = .ok ((body events).filterMap (NoteEvent.semitone? root.toInt)) := by
  rw [intervals, findRoot, lowest]
  rfl

theorem intervals_of_rootless (lowest : lowestStart (opening events) = none) :
    intervals events = .error (.noRoot (opening events).length) := by
  rw [intervals, findRoot, lowest]
  rfl

theorem instruction?_eq_bind (scale : Scale) (root : Int32) (e : NoteEvent) :
    e.instruction? scale root = (e.semitone? root.toInt).bind scale.lookup := by
  rw [NoteEvent.instruction?, NoteEvent.semitone?, interval_eq_residue]
  cases e.isStart <;> rfl

/-- A track is read by its intervals only. -/
theorem transcribe_eq_map_intervals (scale : Scale) (events : List NoteEvent) :
    transcribe scale events =
      (intervals events).map fun semitones => .ofList (semitones.filterMap scale.lookup) := by
  cases lowest : lowestStart (opening events) with
  | none =>
    rw [transcribe_of_silent scale (lowestStart_eq_none_iff.1 lowest), intervals_of_rootless lowest]
    rfl
  | some root =>
    have read : NoteEvent.instruction? scale root =
        fun e => (e.semitone? root.toInt).bind scale.lookup :=
      funext (instruction?_eq_bind scale root)
    rw [transcribe_of_root scale lowest, intervals_of_root lowest, read, ← List.filterMap_filterMap]
    rfl

-- ============================================================================
-- Related events
-- ============================================================================

section Related

variable {R : NoteEvent → NoteEvent → Prop}

theorem exists_related (related : List.Forall₂ R events events') {e' : NoteEvent}
    (mem : e' ∈ events') : ∃ e ∈ events, R e e' := by
  induction related with
  | nil => cases mem
  | @cons e _ _ _ first _ ih =>
    rcases List.mem_cons.1 mem with rfl | mem
    · exact ⟨e, List.mem_cons_self, first⟩
    · obtain ⟨x, mem, related⟩ := ih mem
      exact ⟨x, List.mem_cons_of_mem e mem, related⟩

theorem filterMap_related {α : Type} {f g : NoteEvent → Option α}
    (related : List.Forall₂ R events events') (alike : ∀ e e', R e e' → g e' = f e) :
    events'.filterMap g = events.filterMap f := by
  induction related with
  | nil => rfl
  | cons first _ ih => rw [List.filterMap_cons, List.filterMap_cons, alike _ _ first, ih]

/-- Where no time is changed, the openings are related, and so are the bodies. -/
theorem opening_body_related (related : List.Forall₂ R events events')
    (time : ∀ e e', R e e' → e'.delta = e.delta) :
    List.Forall₂ R (opening events) (opening events') ∧
      List.Forall₂ R (body events) (body events') := by
  induction related with
  | nil => exact ⟨.nil, .nil⟩
  | @cons e e' _ _ first more ih =>
    have same := time e e' first
    by_cases now : e.delta = 0
    · have now' : e'.delta = 0 := same.trans now
      rw [opening_cons_of_now now, opening_cons_of_now now', body_cons_of_now now,
        body_cons_of_now now']
      exact ⟨.cons first ih.1, ih.2⟩
    · have later' : ¬ e'.delta = 0 := fun now' => now (same.symm.trans now')
      rw [opening_cons_of_later now, opening_cons_of_later later', body_cons_of_later now,
        body_cons_of_later later']
      exact ⟨.nil, .cons first more⟩

end Related

theorem semitone?_movedBy {distance : Int} {e e' : NoteEvent} {root root' : Int}
    (moved : MovedBy distance e e') (rootMoved : root' = root + distance) :
    e'.semitone? root' = e.semitone? root := by
  have same : e'.pitch.toInt - root' = e.pitch.toInt - root := by
    rw [moved.pitch, rootMoved]
    omega
  rw [NoteEvent.semitone?, NoteEvent.semitone?, moved.start, residue, residue, same]

theorem semitone?_octavesApart {e e' : NoteEvent} (apart : OctavesApart e e') (root : Int) :
    e'.semitone? root = e.semitone? root := by
  obtain ⟨octaves, distance⟩ := apart.pitch
  have sum : e'.pitch.toInt - root = e.pitch.toInt - root + octave * octaves := by omega
  have same : (e'.pitch.toInt - root) % octave = (e.pitch.toInt - root) % octave := by
    rw [sum, Int.add_mul_emod_self_left]
  rw [NoteEvent.semitone?, NoteEvent.semitone?, apart.start, residue, residue, same]

theorem semitone?_retimed {e e' : NoteEvent} (retimed : Retimed e e') (root : Int) :
    e'.semitone? root = e.semitone? root := by
  rw [NoteEvent.semitone?, NoteEvent.semitone?, retimed.start, retimed.pitch]

theorem semitone?_of_silent {e : NoteEvent} (silent : e.isStart = false) (root : Int) :
    e.semitone? root = none := by
  rw [NoteEvent.semitone?, silent]
  rfl

-- ============================================================================
-- The lowest note of a changed opening
-- ============================================================================

/-- The lowest note does not depend on the order of the events. -/
theorem lowestStart_of_perm (same : lead.Perm lead') : lowestStart lead' = lowestStart lead := by
  ext root
  rw [lowestStart_eq_some_iff, lowestStart_eq_some_iff]
  simp only [same.mem_iff]

theorem lowestStart_of_moved {distance : Int} {root : Int32}
    (moved : List.Forall₂ (MovedBy distance) lead lead') (lowest : lowestStart lead = some root) :
    ∃ root', lowestStart lead' = some root' ∧ root'.toInt = root.toInt + distance := by
  obtain ⟨⟨e, mem, starts, pitch⟩, lowest⟩ := lowestStart_eq_some_iff.1 lowest
  have flipped : List.Forall₂ (fun e' e => MovedBy distance e e') lead' lead := moved.flip
  obtain ⟨e', mem', related⟩ := exists_related flipped mem
  have sum : e'.pitch.toInt = root.toInt + distance := by rw [related.pitch, pitch]
  refine ⟨e'.pitch, lowestStart_eq_some_iff.2 ⟨⟨e', mem', related.start.trans starts, rfl⟩, ?_⟩, sum⟩
  intro x' mem' starts'
  obtain ⟨x, mem, moved⟩ := exists_related moved mem'
  have below := Int32.le_iff_toInt_le.1 (lowest x mem (moved.start.symm.trans starts'))
  have apart := moved.pitch
  rw [Int32.le_iff_toInt_le]
  omega

theorem lowestStart_of_moved_silent {distance : Int}
    (moved : List.Forall₂ (MovedBy distance) lead lead') (silent : lowestStart lead = none) :
    lowestStart lead' = none := by
  rw [lowestStart_eq_none_iff] at silent ⊢
  intro e' mem
  obtain ⟨e, mem, related⟩ := exists_related moved mem
  rw [related.start, silent e mem]

/-- A note that is not below another one does not change the lowest. -/
theorem lowestStart_cons_of_notBelow {e : NoteEvent}
    (notBelow : ∃ x ∈ lead, x.isStart = true ∧ x.pitch ≤ e.pitch) :
    lowestStart (e :: lead) = lowestStart lead := by
  obtain ⟨x, mem, starts, below⟩ := notBelow
  ext root
  rw [lowestStart_eq_some_iff, lowestStart_eq_some_iff, List.forall_mem_cons,
    List.exists_mem_cons_iff]
  constructor
  · rintro ⟨(⟨_, pitch⟩ | attained), -, lowest⟩
    · have same : x.pitch = root :=
        Int32.le_antisymm (pitch ▸ below) (lowest x mem starts)
      exact ⟨⟨x, mem, starts, same⟩, lowest⟩
    · exact ⟨attained, lowest⟩
  · rintro ⟨attained, lowest⟩
    exact ⟨.inr attained, fun _ => Int32.le_trans (lowest x mem starts) below, lowest⟩

-- ============================================================================
-- Changed tracks
-- ============================================================================

theorem intervals_transpose {distance : Int}
    (moved : List.Forall₂ (MovedBy distance) events events') :
    intervals events' = intervals events := by
  obtain ⟨openings, bodies⟩ := opening_body_related moved fun _ _ related => related.time
  cases lowest : lowestStart (opening events) with
  | none =>
    rw [intervals_of_rootless lowest,
      intervals_of_rootless (lowestStart_of_moved_silent openings lowest), openings.length_eq]
  | some root =>
    obtain ⟨root', lowest', sum⟩ := lowestStart_of_moved openings lowest
    have read := filterMap_related bodies fun _ _ related => semitone?_movedBy related sum
    rw [intervals_of_root lowest, intervals_of_root lowest', read]

/-- What is read of a track: the lowest note of its opening, how long the opening is if
    it has none, and the body against any root. -/
theorem intervals_congr (lowest : lowestStart (opening events') = lowestStart (opening events))
    (size : lowestStart (opening events) = none →
      (opening events').length = (opening events).length)
    (alike : ∀ root, (body events').filterMap (NoteEvent.semitone? root) =
      (body events).filterMap (NoteEvent.semitone? root)) :
    intervals events' = intervals events := by
  cases here : lowestStart (opening events) with
  | none => rw [intervals_of_rootless here, intervals_of_rootless (lowest.trans here), size here]
  | some root => rw [intervals_of_root here, intervals_of_root (lowest.trans here), alike]

theorem intervals_reorder (together : ∀ e ∈ lead, e.delta = 0) (same : lead.Perm lead') :
    intervals (lead' ++ rest) = intervals (lead ++ rest) := by
  have together' : ∀ e ∈ lead', e.delta = 0 := fun e mem => together e (same.mem_iff.2 mem)
  have openings : (lead ++ opening rest).Perm (lead' ++ opening rest) := same.append_right _
  apply intervals_congr
  · rw [opening_append_of_together together, opening_append_of_together together']
    exact lowestStart_of_perm openings
  · intro _
    rw [opening_append_of_together together, opening_append_of_together together']
    exact openings.length_eq.symm
  · intro root
    rw [body_append_of_together together, body_append_of_together together']

theorem intervals_join {e : NoteEvent} (together : ∀ x ∈ lead ++ lead', x.delta = 0)
    (now : e.delta = 0) (notBelow : ∃ x ∈ lead ++ lead', x.isStart = true ∧ x.pitch ≤ e.pitch) :
    intervals (lead ++ e :: lead' ++ rest) = intervals (lead ++ lead' ++ rest) := by
  have moved : (e :: (lead ++ lead')).Perm (lead ++ e :: lead') := List.perm_middle.symm
  have together' : ∀ x ∈ e :: (lead ++ lead'), x.delta = 0 :=
    List.forall_mem_cons.2 ⟨now, together⟩
  have hopening : opening (e :: (lead ++ lead') ++ rest) = e :: (lead ++ lead' ++ opening rest) :=
    opening_append_of_together together' rest
  have notBelow' : ∃ x ∈ lead ++ lead' ++ opening rest, x.isStart = true ∧ x.pitch ≤ e.pitch := by
    obtain ⟨x, mem, heard⟩ := notBelow
    exact ⟨x, List.mem_append_left _ mem, heard⟩
  rw [intervals_reorder together' moved]
  apply intervals_congr
  · rw [hopening, opening_append_of_together together]
    exact lowestStart_cons_of_notBelow notBelow'
  · -- There is a root: the note that the new one is not below.
    intro none
    rw [opening_append_of_together together, lowestStart_eq_none_iff] at none
    obtain ⟨x, mem, starts, -⟩ := notBelow'
    rw [none x mem] at starts
    cases starts
  · intro root
    rw [body_append_of_together together', body_append_of_together together]

theorem intervals_octaves (together : ∀ e ∈ lead, e.delta = 0)
    (later : ∀ e ∈ rest.head?, 0 < e.delta) (moved : List.Forall₂ OctavesApart rest rest') :
    intervals (lead ++ rest') = intervals (lead ++ rest) := by
  obtain ⟨openings, bodies⟩ := opening_body_related moved fun _ _ apart => apart.time
  have none := opening_eq_nil later
  have none' : opening rest' = [] := by rwa [none, List.forall₂_nil_left_iff] at openings
  have same : opening (lead ++ rest') = opening (lead ++ rest) := by
    rw [opening_append_of_together together, opening_append_of_together together, none, none']
  apply intervals_congr
  · rw [same]
  · intro _
    rw [same]
  · intro root
    rw [body_append_of_together together, body_append_of_together together]
    exact filterMap_related bodies fun _ _ apart => semitone?_octavesApart apart root

/-- Behind the first event that takes time only the semitones of notes are read. -/
theorem intervals_behind (later : ∃ e ∈ lead, 0 < e.delta)
    (alike : ∀ root, rest'.filterMap (NoteEvent.semitone? root) =
      rest.filterMap (NoteEvent.semitone? root)) :
    intervals (lead ++ rest') = intervals (lead ++ rest) := by
  have same : opening (lead ++ rest') = opening (lead ++ rest) := by
    rw [opening_append_of_later later, opening_append_of_later later]
  apply intervals_congr
  · rw [same]
  · intro _
    rw [same]
  · intro root
    rw [body_append_of_later later, body_append_of_later later, List.filterMap_append,
      List.filterMap_append, alike]

/-- No change is heard. -/
theorem Change.intervals_eq (change : Change events events') :
    intervals events' = intervals events := by
  cases change with
  | transpose distance moved => exact intervals_transpose moved
  | reorder together same => exact intervals_reorder together same
  | join together now _ notBelow => exact intervals_join together now notBelow
  | octaves together later moved => exact intervals_octaves together later moved
  | retime later retimed =>
    apply intervals_behind later
    intro root
    exact filterMap_related retimed fun _ _ related => semitone?_retimed related root
  | insert later silent =>
    apply intervals_behind later
    intro root
    rw [List.filterMap_cons, semitone?_of_silent silent]
  | delete later silent =>
    apply intervals_behind later
    intro root
    rw [List.filterMap_cons, semitone?_of_silent silent]

/-- However many such changes are made to a track, it is read as the same program in every
    scale, or fails in the same way. -/
theorem transcribe_of_changes (changes : Relation.ReflTransGen Change events events')
    (scale : Scale) : transcribe scale events' = transcribe scale events := by
  have same : intervals events' = intervals events := by
    induction changes with
    | refl => rfl
    | tail _ change ih => exact change.intervals_eq.trans ih
  rw [transcribe_eq_map_intervals, transcribe_eq_map_intervals, same]

/-- The opening in another order and with a higher note, the body an octave or two away
    and with a note that stops, and all of it three semitones up. -/
theorem transcribe_of_changes_chained :
    transcribe .major [.start 70 0, .start 75 0, .start 63 0, .start 43 10, .stop 43 0,
      .start 82 5] = .ok (.ofList [.increment, .output]) := by
  have reorder : Change [.start 60 0, .start 67 0, .start 64 10, .start 55 5]
      [.start 67 0, .start 60 0, .start 64 10, .start 55 5] :=
    @Change.reorder [.start 60 0, .start 67 0] [.start 67 0, .start 60 0] _ (by decide)
      (.swap ..)
  have join : Change [.start 67 0, .start 60 0, .start 64 10, .start 55 5]
      [.start 67 0, .start 72 0, .start 60 0, .start 64 10, .start 55 5] :=
    @Change.join [.start 67 0] [.start 60 0] _ (.start 72 0) (by decide) rfl rfl (by decide)
  have octaves : Change [.start 67 0, .start 72 0, .start 60 0, .start 64 10, .start 55 5]
      [.start 67 0, .start 72 0, .start 60 0, .start 40 10, .start 79 5] :=
    @Change.octaves [.start 67 0, .start 72 0, .start 60 0] _ _ (by decide) (by decide)
      (.cons ⟨rfl, rfl, by decide⟩ (.cons ⟨rfl, rfl, by decide⟩ .nil))
  have insert : Change [.start 67 0, .start 72 0, .start 60 0, .start 40 10, .start 79 5]
      [.start 67 0, .start 72 0, .start 60 0, .start 40 10, .stop 40 0, .start 79 5] :=
    @Change.insert [.start 67 0, .start 72 0, .start 60 0, .start 40 10] _ _ (by decide) rfl
  have transpose : Change [.start 67 0, .start 72 0, .start 60 0, .start 40 10, .stop 40 0,
        .start 79 5]
      [.start 70 0, .start 75 0, .start 63 0, .start 43 10, .stop 43 0, .start 82 5] :=
    .transpose 3 (.cons ⟨rfl, rfl, rfl⟩ (.cons ⟨rfl, rfl, rfl⟩ (.cons ⟨rfl, rfl, rfl⟩
      (.cons ⟨rfl, rfl, rfl⟩ (.cons ⟨rfl, rfl, rfl⟩ (.cons ⟨rfl, rfl, rfl⟩ .nil))))))
  have changes := Relation.ReflTransGen.refl.tail reorder |>.tail join |>.tail octaves
    |>.tail insert |>.tail transpose
  rw [transcribe_of_changes changes]
  decide

end NoteTape
