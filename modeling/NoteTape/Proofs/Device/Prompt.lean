/-
  NoteTape.Proofs.Device.Prompt

  Lines read behind a prompt, on a display that may refuse it. A call shows the whole
  prompt and then reads a line, or it shows a first part of it and leaves the lines
  unread (`PromptedCall.Kept`). So a call that is refused loses no line and repeats
  none, and the calls that are not refused answer what a reader without a prompt
  answers (`PromptingReader.reads_shown`).
-/

import NoteTape.Device.Feed
import NoteTape.Device.Reads
import NoteTape.Proofs.Device.Holding

namespace NoteTape

variable {κ : Type}

/-- The bytes of the prompt. -/
def PromptingReader.promptBytes (r : PromptingReader κ) : List UInt8 := r.prompt.toUTF8.toList

/-- One read of a prompting reader, with the reader before and after it. -/
structure PromptedCall (κ : Type) where
  before : PromptingReader κ
  answer : Except DeviceError (Option UInt8)
  after : PromptingReader κ

variable [Sink κ]

namespace PromptedCall

/-- What the display answers to the prompt. -/
def written (c : PromptedCall κ) : Except DeviceError Unit × κ :=
  Sink.writeAll c.before.promptBytes c.before.display

/-- What the display answers to the flush behind the prompt. -/
def flushed (c : PromptedCall κ) : Except DeviceError Unit × κ := Sink.flush c.written.2

/-- Whether the display takes the prompt and the flush. -/
def shown (c : PromptedCall κ) : Bool := c.written.1.isOk && c.flushed.1.isOk

/-- What a call leaves, where `held` tells the bytes that a display holds. If the write
    or the flush fails, the call answers just that and reads no line; otherwise it
    answers what the lines answer. The display gains the whole prompt, or a first part
    of it where the write fails. -/
structure Kept (held : κ → List UInt8) (c : PromptedCall κ) : Prop where
  unwritten : ∀ e, c.written.1 = .error e → c.answer = .error e ∧
    c.after.lines = c.before.lines ∧
    ∃ part, part <+: c.before.promptBytes ∧ held c.after.display = held c.before.display ++ part
  unflushed : ∀ e, c.written.1 = .ok () → c.flushed.1 = .error e → c.answer = .error e ∧
    c.after.lines = c.before.lines ∧
    held c.after.display = held c.before.display ++ c.before.promptBytes
  answered : c.written.1 = .ok () → c.flushed.1 = .ok () →
    Source.read c.before.lines = (c.answer, c.after.lines) ∧
    held c.after.display = held c.before.display ++ c.before.promptBytes

end PromptedCall

namespace PromptingReader

/-- One read. -/
def call (r : PromptingReader κ) : PromptedCall κ := ⟨r, (Source.read r).1, (Source.read r).2⟩

/-- So many reads, one after another. -/
def calls : Nat → PromptingReader κ → List (PromptedCall κ)
  | 0, _ => []
  | n + 1, r => r.call :: calls n r.call.after

variable {held : κ → List UInt8}

-- ============================================================================
-- One call
-- ============================================================================

/-- What one call does, case by case. -/
inductive CallCase (r : PromptingReader κ) : PromptedCall κ → Prop where
  /-- The prompt is not written to its end. -/
  | unwritten (e : DeviceError) (display : κ)
    (writes : Sink.writeAll r.promptBytes r.display = (.error e, display)) :
    CallCase r ⟨r, .error e, { r with display }⟩
  /-- The flush behind the prompt fails. -/
  | unflushed (e : DeviceError) (display display' : κ)
    (writes : Sink.writeAll r.promptBytes r.display = (.ok (), display))
    (flushes : Sink.flush display = (.error e, display')) :
    CallCase r ⟨r, .error e, { r with display := display' }⟩
  /-- The prompt is shown and a line is read. -/
  | answered (display display' : κ)
    (writes : Sink.writeAll r.promptBytes r.display = (.ok (), display))
    (flushes : Sink.flush display = (.ok (), display')) :
    CallCase r ⟨r, (Source.read r.lines).1,
      { r with lines := (Source.read r.lines).2, display := display' }⟩

theorem call_case (r : PromptingReader κ) : CallCase r r.call := by
  show CallCase r ⟨r, r.readUnit.1, r.readUnit.2⟩
  rw [readUnit, showPrompt, ← promptBytes]
  cases writes : Sink.writeAll r.promptBytes r.display with
  | mk answer display =>
    cases answer with
    | error e => exact .unwritten e display writes
    | ok =>
      cases flushes : Sink.flush display with
      | mk answer' display' =>
        simp only [flushes]
        cases answer' with
        | error e => exact .unflushed e display display' writes flushes
        | ok => exact .answered display display' writes flushes

theorem prompt_after (r : PromptingReader κ) : r.call.after.prompt = r.prompt := by
  have done := call_case r
  generalize r.call = c at done ⊢
  cases done with
  | unwritten | unflushed | answered => rfl

theorem kept_call (holds : Sink.Holds held) (r : PromptingReader κ) : r.call.Kept held := by
  have done := call_case r
  generalize r.call = c at done ⊢
  have whole {display display' : κ} {answer : Except DeviceError Unit}
      (writes : Sink.writeAll r.promptBytes r.display = (.ok (), display))
      (flushes : Sink.flush display = (answer, display')) :
      held display' = held r.display ++ r.promptBytes := by
    have written := holds.written (congrArg Prod.fst writes)
    have flushed := holds.flush display
    rw [writes] at written
    rw [flushes] at flushed
    rw [flushed, written]
  cases done with
  | unwritten e display writes =>
    have written := congrArg Prod.fst writes
    obtain ⟨part, first, added⟩ := holds.exists_part r.promptBytes r.display
    rw [writes] at added
    refine ⟨fun e' refused => ?_, fun e' done => ?_, fun done => ?_⟩
    · cases written.symm.trans refused
      exact ⟨rfl, rfl, part, first, added⟩
    · cases written.symm.trans done
    · cases written.symm.trans done
  | unflushed e display display' writes flushes =>
    have written := congrArg Prod.fst writes
    have flushed : (Sink.flush (Sink.writeAll r.promptBytes r.display).2).1 = .error e := by
      rw [writes, flushes]
    refine ⟨fun e' refused => ?_, fun e' _ refused => ?_, fun _ done => ?_⟩
    · cases written.symm.trans refused
    · cases flushed.symm.trans refused
      exact ⟨rfl, rfl, whole writes flushes⟩
    · cases flushed.symm.trans done
  | answered display display' writes flushes =>
    have written := congrArg Prod.fst writes
    have flushed : (Sink.flush (Sink.writeAll r.promptBytes r.display).2).1 = .ok () := by
      rw [writes, flushes]
    refine ⟨fun e' refused => ?_, fun e' _ refused => ?_, fun _ _ => ?_⟩
    · cases written.symm.trans refused
    · cases flushed.symm.trans refused
    · exact ⟨rfl, whole writes flushes⟩

theorem read_of_shown {r : PromptingReader κ} (shown : r.call.shown = true) :
    Source.read r.lines = (r.call.answer, r.call.after.lines) := by
  have done := call_case r
  generalize r.call = c at done shown ⊢
  cases done with
  | unwritten e display writes =>
    rw [PromptedCall.shown, PromptedCall.written, writes] at shown
    cases shown
  | unflushed e display display' writes flushes =>
    rw [PromptedCall.shown, PromptedCall.flushed, PromptedCall.written, writes, flushes] at shown
    cases shown
  | answered => rfl

theorem lines_of_unshown {r : PromptingReader κ} (unshown : r.call.shown = false) :
    r.call.after.lines = r.lines := by
  have done := call_case r
  generalize r.call = c at done unshown ⊢
  cases done with
  | unwritten | unflushed => rfl
  | answered display display' writes flushes =>
    rw [PromptedCall.shown, PromptedCall.flushed, PromptedCall.written, writes, flushes] at unshown
    cases unshown

-- ============================================================================
-- Calls in a row
-- ============================================================================

theorem map_answer_calls (n : Nat) (r : PromptingReader κ) :
    (r.calls n).map PromptedCall.answer = (Source.reads n r).1 := by
  induction n generalizing r with
  | zero => rfl
  | succ n ih =>
    rw [calls, List.map_cons, ih]
    rfl

theorem kept_calls (holds : Sink.Holds held) (n : Nat) (r : PromptingReader κ) :
    ∀ c ∈ r.calls n, c.before.prompt = r.prompt ∧ c.Kept held := by
  induction n generalizing r with
  | zero => exact fun c none => nomatch none
  | succ n ih =>
    intro c member
    obtain rfl | later := List.mem_cons.1 member
    · exact ⟨rfl, kept_call holds r⟩
    · obtain ⟨same, kept⟩ := ih r.call.after c later
      exact ⟨same.trans r.prompt_after, kept⟩

/-- The calls that are not refused answer what the lines answer, and no other call
    reads them. -/
theorem reads_shown (n : Nat) (r : PromptingReader κ) :
    Source.reads ((r.calls n).filter PromptedCall.shown).length r.lines =
      (((r.calls n).filter PromptedCall.shown).map PromptedCall.answer,
        (Source.reads n r).2.lines) := by
  induction n generalizing r with
  | zero => rfl
  | succ n ih =>
    have later := ih r.call.after
    have last : (Source.reads (n + 1) r).2 = (Source.reads n r.call.after).2 := rfl
    rw [calls, last]
    cases shown : r.call.shown with
    | true =>
      rw [List.filter_cons_of_pos shown, List.length_cons, List.map_cons, Source.reads,
        read_of_shown shown]
      simp only [later]
    | false =>
      -- The lines are where they were, so the calls behind this one read on from there.
      rw [List.filter_cons_of_neg (by simp [shown]), ← lines_of_unshown shown]
      exact later

end PromptingReader

/-- However the display refuses prompts, no line is lost or read twice. -/
theorem prompts_lose_no_line (r : PromptingReader Outlet) (n : Nat) :
    (r.calls n).map PromptedCall.answer = (Source.reads n r).1 ∧
    (∀ c ∈ r.calls n, c.before.prompt = r.prompt ∧ c.Kept Outlet.held) ∧
    Source.reads ((r.calls n).filter PromptedCall.shown).length r.lines =
      (((r.calls n).filter PromptedCall.shown).map PromptedCall.answer,
        (Source.reads n r).2.lines) :=
  ⟨r.map_answer_calls n, r.kept_calls Outlet.holds n, r.reads_shown n⟩

/-- Two lines behind a prompt of two bytes, on a display that is interrupted once and
    has room for three bytes. -/
def crampedReader : PromptingReader Outlet where
  lines := { feed := [.data [97, 10, 98, 10]] }
  prompt := "> "
  display := { interrupts := 1, perCall := some 1, room := some 3 }

theorem prompts_lose_no_line_cramped : crampedReader.call ∈ crampedReader.calls 2 ∧
    crampedReader.call.before.prompt = "> " ∧ crampedReader.call.Kept Outlet.held :=
  ⟨List.mem_cons_self, (prompts_lose_no_line crampedReader 2).2.1 _ List.mem_cons_self⟩

end NoteTape
