/-
  NoteTape.Proofs.Machine.FullSink

  A machine on a sink that takes a limited number of bytes, beside the same machine
  on a recorder, which takes everything. As long as the recorder holds no more than
  the sink takes, both make the same steps (`Machine.step_follows`). So a run that
  writes no more is the same on both, and any other run ends at the first output
  instruction for which the sink has no room, with what the recorder held before it.
-/

import NoteTape.Proofs.Device.Outlet
import NoteTape.Proofs.Machine.Alike
import NoteTape.Proofs.Machine.Ending
import NoteTape.Device.Store

namespace NoteTape

variable {σ : Type} [Source σ]

namespace Machine

variable {p : Program} {map : BracketMap} {m m' m₁ m₂ : Machine} {w w' w₁ w₂ : Wired σ Recorder}
  {n k most : Nat}

-- ============================================================================
-- What is written
-- ============================================================================

/-- How many output instructions are among so many that are carried out. -/
def outputs {δ : Type} [Device δ] (p : Program) (map : BracketMap) : Nat → Machine → δ → Nat
  | 0, _, _ => 0
  | n + 1, m, d =>
    let turn := step p map m d
    (if p.get? m.ip = some .output then 1 else 0) + outputs p map n turn.machine turn.device

/-- A recorder holds what it held and what the instruction writes. -/
theorem step_written (p : Program) (map : BracketMap) (m : Machine) (w : Wired σ Recorder) :
    (step p map m w).device.sink.written.toList = w.sink.written.toList ++ emitted p m := by
  rw [step_device, consulted, emitted]
  by_cases output : p.get? m.ip = some .output
  · rw [if_pos output, if_pos output]
    exact Array.toList_appendList
  · rw [if_neg output, if_neg output, List.append_nil]
    split <;> rfl

theorem Advances.written (advances : Advances p map n m w m' w') :
    ∃ bytes, w'.sink.written.toList = w.sink.written.toList ++ bytes ∧
      bytes.length = outputs p map n m w := by
  induction advances with
  | none => exact ⟨[], (List.append_nil _).symm, rfl⟩
  | @more n m m₁ m' w w₁ w' status inside first rest ih =>
    obtain ⟨bytes, written, length⟩ := ih
    have one := step_written p map m w
    rw [first] at one
    refine ⟨emitted p m ++ bytes, ?_, ?_⟩
    · rw [written, one, List.append_assoc]
    · rw [List.length_append, length, length_emitted, outputs, first]

theorem Advances.size_written (advances : Advances p map n m w m' w') :
    w'.sink.written.size = w.sink.written.size + outputs p map n m w := by
  obtain ⟨bytes, written, length⟩ := advances.written
  rw [← Array.length_toList, written, List.length_append, length, Array.length_toList]

end Machine

-- ============================================================================
-- A sink beside a recorder
-- ============================================================================

/-- The sources are the same, and the same was written. -/
structure Wired.SameSoFar (w : Wired σ Recorder) (v : Wired σ Outlet) : Prop where
  source : v.source = w.source
  written : v.sink.written = w.sink.written

omit [Source σ] in
theorem Wired.SameSoFar.unique {w w' : Wired σ Recorder} {v : Wired σ Outlet}
    (same : w.SameSoFar v) (same' : w'.SameSoFar v) : w = w' := by
  obtain ⟨source, written⟩ := w
  obtain ⟨source', written'⟩ := w'
  obtain rfl : v.source = source := same.source
  obtain rfl : v.source = source' := same'.source
  have equal : written.written = written'.written := same.written.symm.trans same'.written
  obtain rfl : written = written' := congrArg Recorder.mk equal
  rfl

/-- A sink that takes `most` bytes in all has taken what the recorder holds. -/
structure Wired.Follows (most : Nat) (refusal : Option DeviceError) (w : Wired σ Recorder)
    (v : Wired σ Outlet) : Prop where
  same : w.SameSoFar v
  within : w.sink.written.size ≤ most
  takes : v.sink.TakesOnly (most - w.sink.written.size) refusal

namespace Wired.Follows

variable {most : Nat} {refusal : Option DeviceError} {w : Wired σ Recorder} {v : Wired σ Outlet}

theorem read (h : w.Follows most refusal v) :
    (Device.read w).1 = (Device.read v).1 ∧
      (Device.read w).2.Follows most refusal (Device.read v).2 := by
  have answer : (Device.read w).1 = (Device.read v).1 := by
    show (Source.read w.source).1 = (Source.read v.source).1
    rw [h.same.source]
  have source : (Device.read v).2.source = (Device.read w).2.source := by
    show (Source.read v.source).2 = (Source.read w.source).2
    rw [h.same.source]
  exact ⟨answer, ⟨source, h.same.written⟩, h.within, h.takes⟩

theorem write_outlet (byte : UInt8) {answer : Except DeviceError Unit} {o : Outlet}
    (called : v.sink.writeAll [byte] = (answer, o)) :
    Device.write byte v = (answer, { v with sink := o }) := by
  show ((v.sink.writeAll [byte]).1, { v with sink := (v.sink.writeAll [byte]).2 }) = _
  rw [called]

theorem write (h : w.Follows most refusal v) (byte : UInt8) (room : w.sink.written.size < most) :
    (Device.write byte w).1 = (Device.write byte v).1 ∧
      (Device.write byte w).2.Follows most refusal (Device.write byte v).2 := by
  obtain ⟨o, called, written, takes⟩ := Outlet.writeAll_of_takesOnly [byte] h.takes
  have fits : [byte].length ≤ most - w.sink.written.size := by
    rw [List.length_singleton]
    omega
  have size : (w.sink.written ++ [byte]).size = w.sink.written.size + 1 := by
    rw [← Array.length_toList, Array.toList_appendList, List.length_append]
    rfl
  rw [List.take_of_length_le fits] at written
  rw [write_outlet byte called, Outlet.answerFor, if_pos fits]
  refine ⟨rfl, ⟨h.same.source, ?_⟩, ?_, ?_⟩
  · show o.written = w.sink.written ++ [byte]
    rw [← Array.toList_inj, written, h.same.written, Array.toList_appendList]
  · show (w.sink.written ++ [byte]).size ≤ most
    omega
  · show o.TakesOnly (most - (w.sink.written ++ [byte]).size) refusal
    rw [size, ← Nat.sub_sub]
    exact takes

theorem write_full (h : w.Follows most refusal v) (byte : UInt8)
    (full : w.sink.written.size = most) :
    ∃ v', Device.write byte v = (.error (Outlet.answerFull refusal), v') ∧ w.SameSoFar v' := by
  obtain ⟨o, called, written, -⟩ := Outlet.writeAll_of_takesOnly [byte] h.takes
  have tooMany : ¬ [byte].length ≤ most - w.sink.written.size := by
    rw [List.length_singleton]
    omega
  rw [full, Nat.sub_self, List.take_zero, List.append_nil, h.same.written] at written
  refine ⟨{ v with sink := o }, ?_, h.same.source, Array.toList_inj.1 written⟩
  rw [write_outlet byte called, Outlet.answerFor, if_neg tooMany]

theorem flush (h : w.Follows most refusal v) :
    (Device.flush w).1 = (Device.flush v).1 ∧
      (Device.flush w).2.Follows most refusal (Device.flush v).2 := by
  have flushed : v.sink.flush = (.ok (), v.sink) := by rw [Outlet.flush, h.takes.onFlush]
  have here : Device.flush v = (.ok (), v) := by
    show (v.sink.flush.1, { v with sink := v.sink.flush.2 }) = _
    rw [flushed]
  rw [here]
  exact ⟨rfl, h⟩

end Wired.Follows

namespace Machine

variable {p : Program} {map : BracketMap} {m m' m₁ m₂ : Machine} {w w' w₁ w₂ : Wired σ Recorder}
  {v v' : Wired σ Outlet} {n k most : Nat} {refusal : Option DeviceError}

theorem step_follows (h : w.Follows most refusal v) (map : BracketMap)
    (room : p.get? m.ip = some .output → w.sink.written.size < most) :
    Turn.Alike (Wired.Follows most refusal) (step p map m w) (step p map m v) :=
  step_alike_of p map m h (fun _ => h.read) (fun here => h.write _ (room here))

theorem step_full (h : w.Follows most refusal v) (map : BracketMap)
    (here : p.get? m.ip = some .output) (full : w.sink.written.size = most) :
    ∃ v', step p map m v = ⟨.error (.device (Outlet.answerFull refusal) m.ip), m, v'⟩ ∧
      w.SameSoFar v' := by
  obtain ⟨v', refused, same⟩ := h.write_full m.tape.current full
  exact ⟨v', by simp only [step, here, refused], same⟩

theorem step_output (map : BracketMap) (w : Wired σ Recorder) (here : p.get? m.ip = some .output) :
    step p map m w = succeed p m m.ip (Device.write m.tape.current w).2 := by
  simp only [step, here]
  rfl

theorem size_of_step {status : Status} (inside : m.ip < p.size)
    (first : step p map m w = ⟨.ok status, m₁, w₁⟩) :
    w₁.sink.written.size =
      w.sink.written.size + if p.get? m.ip = some .output then 1 else 0 := by
  have size := (Advances.one inside first).size_written
  rwa [outputs, outputs, Nat.add_zero] at size

/-- Up to where the recorder holds at most `most` bytes, the sink keeps up. -/
theorem Advances.followed (advances : Advances p map n m w m' w') (h : w.Follows most refusal v)
    (within : w'.sink.written.size ≤ most) :
    ∃ v', Advances p map n m v m' v' ∧ w'.Follows most refusal v' := by
  induction advances generalizing v with
  | none m w => exact ⟨v, .none m v, h⟩
  | @more n m m₁ m' w w₁ w' status inside first rest ih =>
    have one := size_of_step inside first
    have later := rest.size_written
    have room (here : p.get? m.ip = some .output) : w.sink.written.size < most := by
      rw [if_pos here] at one
      omega
    have same := step_follows h map room
    rw [first] at same
    cases first' : step p map m v with
    | mk answer m₁' v₁ =>
      rw [first'] at same
      obtain ⟨rfl, rfl, h₁⟩ := same
      obtain ⟨v', rest', h'⟩ := ih h₁ within
      exact ⟨v', .more inside first' rest', h'⟩

/-- Where the recorder comes to hold more than `most` bytes, there is an output
    instruction before which it holds just so many. -/
theorem Advances.exists_full (advances : Advances p map n m w m' w')
    (start : w.sink.written.size ≤ most) (more : most < w'.sink.written.size) :
    ∃ k m₁ w₁, Advances p map k m w m₁ w₁ ∧ w₁.sink.written.size = most ∧
      p.get? m₁.ip = some .output := by
  induction advances with
  | none => omega
  | @more n m m₁ m' w w₁ w' status inside first rest ih =>
    by_cases within : w₁.sink.written.size ≤ most
    · obtain ⟨k, m₂, w₂, advances, full, here⟩ := ih within more
      exact ⟨k + 1, m₂, w₂, .more inside first advances, full, here⟩
    · have one := size_of_step inside first
      by_cases here : p.get? m.ip = some .output
      · rw [if_pos here] at one
        exact ⟨0, m, w, .none m w, by omega, here⟩
      · rw [if_neg here] at one
        omega

/-- The recorder never holds more than `most` bytes. -/
def Suffices (most : Nat) (p : Program) (map : BracketMap) (m : Machine)
    (w : Wired σ Recorder) : Prop :=
  ∀ n m' w', Advances p map n m w m' w' → w'.sink.written.size ≤ most

theorem Suffices.room (enough : Suffices most p map m w) (here : p.get? m.ip = some .output) :
    w.sink.written.size < most := by
  have inside := Program.lt_size_of_get? here
  have first := step_output map w here
  have within := enough 1 _ _ (.one inside first)
  have one := size_of_step inside first
  rw [if_pos here] at one
  omega

theorem Suffices.after_step {status : Status} (enough : Suffices most p map m w)
    (inside : m.ip < p.size) (first : step p map m w = ⟨.ok status, m₁, w₁⟩) :
    Suffices most p map m₁ w₁ :=
  fun n m' w' rest => enough (n + 1) m' w' (.more inside first rest)

theorem run_follows (enough : Suffices most p map m w) (h : w.Follows most refusal v) (n : Nat) :
    Run.Alike (Wired.Follows most refusal) (run p map n m w) (run p map n m v) := by
  apply run_alike_of (I := Suffices most p map)
  · intro m w v enough h
    exact step_follows h map enough.room
  · intro m m₁ w w₁ enough first
    exact enough.after_step (inside_of_running first) first
  · exact fun h => h.flush
  · exact enough
  · exact h

variable {answer : Except Fault Unit}

theorem ends_iff_of_suffices (enough : Suffices most p map m w) (h : w.Follows most refusal v) :
    Ends p map m w answer m' w' ↔ ∃ v', Ends p map m v answer m' v' ∧ w'.SameSoFar v' := by
  have alike := run_follows enough h
  constructor
  · intro ends
    obtain ⟨v', ends', h'⟩ := ends.alike alike
    exact ⟨v', ends', h'.same⟩
  · rintro ⟨v', ends, same⟩
    obtain ⟨w'', ends', h'⟩ := ends.of_alike alike
    rwa [same.unique h'.same]

theorem Ends.written (ends : Ends p map m w answer m' w') :
    w.sink.written.toList <+: w'.sink.written.toList := by
  obtain ⟨n, m₁, w₁, advances, stops⟩ := ends_iff_stops.1 ends
  obtain ⟨bytes, written, -⟩ := advances.written
  have before : w.sink.written.toList <+: w₁.sink.written.toList := ⟨bytes, written.symm⟩
  cases stops with
  | outside _ finished =>
    cases finished
    exact before
  | fails fails =>
    have last := step_written p map m₁ w₁
    rw [fails] at last
    exact before.trans ⟨_, last.symm⟩

-- ============================================================================
-- A run on a sink
-- ============================================================================

/-- A source and a recorder that holds nothing. -/
def recording (source : σ) : Wired σ Recorder := ⟨source, {}⟩

/-- Of the instructions that the machine carries out, at most so many are outputs. -/
def OutputsAtMost {δ : Type} [Device δ] (most : Nat) (p : Program) (map : BracketMap)
    (m : Machine) (d : δ) : Prop :=
  ∀ n m' d', Advances p map n m d m' d' → outputs p map n m d ≤ most

/-- On a recorder the machine `m₁` is about to carry out the output instruction behind
    `most` others. On the sink the run stops there: its fault has the message of the
    sink and the position of that instruction, machine and source are what they are on
    the recorder, and what was written is the first `most` bytes of what a recorder
    ever holds. -/
structure StopsFull (p : Program) (map : BracketMap) (m : Machine) (w : Wired σ Recorder)
    (v : Wired σ Outlet) (most : Nat) (refusal : Option DeviceError) (n : Nat) (m₁ : Machine)
    (w₁ : Wired σ Recorder) (v₁ : Wired σ Outlet) : Prop where
  advances : Advances p map n m w m₁ w₁
  outputs : outputs p map n m w = most
  here : p.get? m₁.ip = some .output
  ends : ∃ fault, Ends p map m v (.error fault) m₁ v₁ ∧ fault.report =
    ⟨.device, refusal.elim "failed to write whole buffer" DeviceError.message, some m₁.ip⟩
  same : w₁.SameSoFar v₁
  size : v₁.sink.written.size = most
  first : ∀ k m₂ w₂, Advances p map (n + k) m w m₂ w₂ →
    v₁.sink.written.toList = w₂.sink.written.toList.take most
  first_of_ends : ∀ answer m₂ w₂, Ends p map m w answer m₂ w₂ →
    v₁.sink.written.toList = w₂.sink.written.toList.take most

omit [Source σ] in
theorem follows_recording {o : Outlet} (source : σ) (empty : o.written = #[])
    (takes : o.TakesOnly most refusal) : (recording source).Follows most refusal ⟨source, o⟩ :=
  ⟨⟨rfl, empty⟩, Nat.zero_le most, takes⟩

theorem suffices_recording {source : σ} (few : OutputsAtMost most p map m (recording source)) :
    Suffices most p map m (recording source) := by
  intro n m' w' advances
  have size := advances.size_written
  have outputs := few n m' w' advances
  have start : (recording source).sink.written.size = 0 := rfl
  omega

theorem exists_stopsFull {o : Outlet} {source : σ} (empty : o.written = #[])
    (takes : o.TakesOnly most refusal)
    (many : ¬ OutputsAtMost most p map m (recording source)) :
    ∃ n m₁ w₁ v₁, StopsFull p map m (recording source) (.mk source o) most refusal n m₁ w₁ v₁ := by
  simp only [OutputsAtMost, Classical.not_forall, Nat.not_le] at many
  obtain ⟨n', m', w', advances', more⟩ := many
  have start : (recording source).sink.written.size = 0 := rfl
  have more' : most < w'.sink.written.size := by
    rw [advances'.size_written]
    omega
  obtain ⟨n, m₁, w₁, advances, full, here⟩ := advances'.exists_full (Nat.zero_le most) more'
  have size := advances.size_written
  have h := follows_recording source empty takes
  obtain ⟨v', kept, h'⟩ := advances.followed h (Nat.le_of_eq full)
  obtain ⟨v₁, stopped, same⟩ := step_full h' map here full
  have begins {w₂ : Wired σ Recorder}
      (more : w₁.sink.written.toList <+: w₂.sink.written.toList) :
      v₁.sink.written.toList = w₂.sink.written.toList.take most := by
    rw [same.written, ← full, ← Array.length_toList]
    exact List.prefix_iff_eq_take.1 more
  refine ⟨n, m₁, w₁, v₁, advances, by omega, here, ?_, same, ?_, ?_, ?_⟩
  · refine ⟨.device (Outlet.answerFull refusal) m₁.ip, ?_, ?_⟩
    · exact kept.ends_iff.2 (Stops.fails stopped).ends
    · cases refusal with
      | none => rfl
      | some e => rfl
  · rw [same.written, full]
  · intro k m₂ w₂ whole
    obtain ⟨bytes, written, -⟩ := (advances.rest whole).written
    exact begins ⟨bytes, written.symm⟩
  · intro answer m₂ w₂ ends
    exact begins (advances.ends_iff.1 ends).written

/-- A sink that takes `most` bytes in all, in whatever portions and however often its
    calls are interrupted first, gets the first `most` bytes of the output. If the
    machine carries out no more output instructions than that, its run is the same as
    on a recorder; otherwise the run stops at the output instruction behind them. -/
theorem sink_gets_first_bytes (p : Program) (map : BracketMap) (m : Machine) (source : σ)
    {o : Outlet} (empty : o.written = #[]) (takes : o.TakesOnly most refusal) :
    (OutputsAtMost most p map m (recording source) →
      (∀ answer m' w', Ends p map m (recording source) answer m' w' ↔
        ∃ v', Ends p map m (Wired.mk source o) answer m' v' ∧ w'.SameSoFar v') ∧
      (Diverges p map m (recording source) ↔ Diverges p map m (Wired.mk source o))) ∧
    (¬ OutputsAtMost most p map m (recording source) →
      ∃ n m₁ w₁ v₁,
        StopsFull p map m (recording source) (.mk source o) most refusal n m₁ w₁ v₁) := by
  constructor
  · intro few
    have enough := suffices_recording few
    have h := follows_recording source empty takes
    refine ⟨?_, diverges_iff_of_alike (run_follows enough h)⟩
    intro answer m' w'
    exact ends_iff_of_suffices enough h
  · exact exists_stopsFull empty takes

/-- A sink whose first two calls are interrupted and that takes one byte. -/
def oneByte : Outlet := { interrupts := 2, perCall := some 1, room := some 1 }

theorem takesOnly_oneByte : oneByte.TakesOnly 1 none where
  room := rfl
  perCall := by decide
  onFlush := rfl
  whenFull := rfl
  final := by
    rintro e ⟨⟩

/-- Of two output instructions, the second finds no room. -/
theorem sink_gets_first_bytes_full :
    ∃ n m₁ w₁ v₁, StopsFull (.ofList [.output, .output]) .empty .fresh
      (recording (Slice.ofList [])) (.mk (Slice.ofList []) oneByte) 1 none n m₁ w₁ v₁ := by
  have many : ¬ OutputsAtMost 1 (.ofList [.output, .output]) .empty .fresh
      (recording (Slice.ofList [])) := by
    intro few
    have two : (2 : Nat) ≤ 1 :=
      few 2 _ _ (.more (by decide) rfl (.more (by decide) rfl (.none _ _)))
    omega
  exact (sink_gets_first_bytes _ _ _ _ rfl takesOnly_oneByte).2 many

end Machine

end NoteTape
