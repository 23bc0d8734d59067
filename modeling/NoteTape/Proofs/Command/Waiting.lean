/-
  NoteTape.Proofs.Command.Waiting

  The loop of the command asks for input with nothing in its buffer. Which instruction
  is next is looked up in front of the step that carries it out, and a step reads only
  where that instruction reads (`step_orderly`), so a flush in front of it is enough,
  whatever jumped there and whatever becomes of the step. Beside the log the loop is
  followed on a source and a recorder (`Traced`): what the log says was put is what the
  instructions wrote, and however the loop ends, the last flush brings it to standard
  output.
-/

import NoteTape.Proofs.Command.Limit
import NoteTape.Proofs.Console.Log
import NoteTape.Proofs.Machine.Ending
import NoteTape.Proofs.Machine.FullSink

namespace NoteTape.Command

-- ============================================================================
-- A console beside a source and a recorder
-- ============================================================================

instance : Source Keyboard where
  read := Keyboard.readUnit

/-- A console with the input of a source, on which the bytes recorded were put. -/
structure Echoes (c : Console) (w : Wired Keyboard Recorder) : Prop where
  keyboard : c.keyboard = w.source
  bytes : c.bytes = w.sink.written.toList

variable {p : Program} {map : BracketMap} {limit : Option Nat} {k : Keyboard} {m m' : Machine}
  {c c' : Console} {w : Wired Keyboard Recorder} {ending : Ending}

theorem Echoes.flush (h : Echoes c w) : Echoes c.flush w where
  keyboard := (Console.keyboard_flush c).trans h.keyboard
  bytes := (Console.bytes_flush c).trans h.bytes

theorem Echoes.put (h : Echoes c w) (byte : UInt8) :
    Echoes (c.put byte) (Device.write byte w).2 where
  keyboard := (Console.keyboard_put c byte).trans h.keyboard
  bytes := by
    rw [Console.bytes_put, h.bytes]
    exact Array.toList_append.symm

theorem Echoes.readUnit (h : Echoes c w) :
    c.readUnit.1 = (Device.read w).1 ∧ Echoes c.readUnit.2 (Device.read w).2 := by
  have same : c.keyboard.readUnit = Source.read w.source := congrArg Keyboard.readUnit h.keyboard
  refine ⟨congrArg Prod.fst same, congrArg Prod.snd same, ?_⟩
  rw [Console.bytes_readUnit]
  exact h.bytes

theorem alike_echoes : Device.Alike Echoes where
  read h := h.readUnit
  write byte _ _ h := ⟨rfl, h.put byte⟩

-- ============================================================================
-- One step
-- ============================================================================

/-- The machine carried out its steps on a source and a recorder, and the console
    echoes them. -/
def Traced (p : Program) (map : BracketMap) (k : Keyboard) (m : Machine) (c : Console) : Prop :=
  ∃ w, Machine.Advances p map m.steps .fresh ⟨k, {}⟩ m w ∧ Echoes c w

/-- The machine carried out its steps on a source and a recorder, and the bytes
    recorded are those that were put. -/
def Wrote (p : Program) (map : BracketMap) (k : Keyboard) (m : Machine) (c : Console) : Prop :=
  ∃ w : Wired Keyboard Recorder, Machine.Advances p map m.steps .fresh ⟨k, {}⟩ m w ∧
    c.bytes = w.sink.written.toList

theorem Traced.wrote (h : Traced p map k m c) : Wrote p map k m c := by
  obtain ⟨w, advances, echoes⟩ := h
  exact ⟨w, advances, echoes.bytes⟩

theorem traced_start (p : Program) (map : BracketMap) (k : Keyboard) :
    Traced p map k .fresh { keyboard := k } :=
  ⟨⟨k, {}⟩, .none _ _, rfl, rfl⟩

/-- What is carried out without a fault is traced. -/
theorem Traced.step {status : Status} (h : Traced p map k m c)
    (done : Machine.step p map m c = ⟨.ok status, m', c'⟩) : Traced p map k m' c' := by
  rcases Nat.lt_or_ge m.ip p.size with inside | outside
  · obtain ⟨w, advances, echoes⟩ := h
    have counted := (Machine.step_ok inside done).2
    have same := Machine.step_alike alike_echoes p map m echoes
    rw [done] at same
    cases done' : Machine.step p map m w with
    | mk answer m₁ w₁ =>
      rw [done'] at same
      obtain ⟨rfl, rfl, echoes'⟩ := same
      refine ⟨w₁, ?_, echoes'⟩
      rw [counted]
      exact advances.trans (.one inside done')
  · rw [Machine.step_of_outside outside] at done
    cases done
    exact h

/-- What meets a fault has written nothing. -/
theorem Traced.fault {f : Fault} (h : Traced p map k m c)
    (fails : Machine.step p map m c = ⟨.error f, m', c'⟩) : Wrote p map k m' c' := by
  have stays := (Machine.step_error fails).1
  obtain ⟨w, advances, echoes⟩ := h
  have same := Machine.step_alike alike_echoes p map m echoes
  have grown := Machine.step_written p map m w
  rw [fails] at same
  obtain ⟨failed, -, echoes'⟩ := same
  have silent : Machine.emitted p m = [] := by
    unfold Machine.emitted
    split
    · next output =>
      -- A recorder refuses nothing, so a `.` does not fail.
      rw [Machine.step_output map w output] at failed
      cases failed
    · rfl
  rw [stays]
  refine ⟨w, advances, ?_⟩
  rw [echoes'.bytes, grown, silent, List.append_nil]

/-- A step keeps a console in order if the buffer is empty where it reads. -/
theorem step_orderly (h : c.Orderly) (map : BracketMap)
    (empty : p.get? m.ip = some .input → c.buffered = #[]) :
    (Machine.step p map m c).device.Orderly := by
  rw [Machine.step_device, Machine.consulted]
  split
  · exact h.put m.tape.current
  · split
    · next input => exact h.readUnit (empty input)
    · exact h

-- ============================================================================
-- One round
-- ============================================================================

/-- The console in front of a step: its buffer is delivered if the step reads. -/
def ready (p : Program) (m : Machine) (c : Console) : Console :=
  if readsNext p m then c.flush else c

theorem round_console (limit : Option Nat) (p : Program) (map : BracketMap) (m : Machine)
    (c : Console) : round limit p map m c =
      if limitReached limit m then .over (.stepLimit (limit.getD 0) m.ip) m c
      else .ofTurn (Machine.step p map m (ready p m c)) := by
  have flushed : flushBeforeRead p m c = (.ok (), ready p m c) := by
    unfold flushBeforeRead ready
    split <;> rfl
  rw [round, flushed]
  rfl

theorem ready_buffered (input : p.get? m.ip = some .input) : (ready p m c).buffered = #[] := by
  have reads : readsNext p m = true := decide_eq_true input
  rw [ready, reads]
  rfl

theorem Traced.ready (h : Traced p map k m c) : Traced p map k m (ready p m c) := by
  obtain ⟨w, advances, echoes⟩ := h
  refine ⟨w, advances, ?_⟩
  unfold Command.ready
  split
  · exact echoes.flush
  · exact echoes

theorem ready_orderly (h : c.Orderly) (p : Program) (m : Machine) : (ready p m c).Orderly := by
  unfold ready
  split
  · exact h.flush
  · exact h

/-- What a round leaves is in order, with what was written so far; and if the loop goes
    on it is traced. -/
inductive Kept (p : Program) (map : BracketMap) (k : Keyboard) : Round Console → Prop where
  | more {m : Machine} {c : Console} (traced : Traced p map k m c) (orderly : c.Orderly) :
    Kept p map k (.more m c)
  | ended {m : Machine} {c : Console} (ending : Ending) (wrote : Wrote p map k m c)
    (orderly : c.Orderly) : Kept p map k (.over ending m c)

/-- A round keeps this whether no step is left, the program goes on or halts, or a fault
    stops it. -/
theorem Traced.round (h : Traced p map k m c) (orderly : c.Orderly) (limit : Option Nat) :
    Kept p map k (round limit p map m c) := by
  have kept := step_orderly (ready_orderly orderly p m) map (m := m) ready_buffered
  rw [round_console]
  split
  · exact .ended _ h.wrote orderly
  · cases done : Machine.step p map m (Command.ready p m c) with
    | mk answer m₁ c₁ =>
      rw [done] at kept
      cases answer with
      | error f => exact .ended (.fault f) (h.ready.fault done) kept
      | ok status =>
        have traced := h.ready.step done
        cases status with
        | running => exact .more traced kept
        | halted => exact .ended .halted traced.wrote kept

-- ============================================================================
-- The loop
-- ============================================================================

/-- The machine that the loop leaves. -/
def Played.machine {δ : Type} : Played δ → Machine
  | .ended _ m _ => m
  | .unfinished m _ => m

/-- The device that the loop leaves. -/
def Played.device {δ : Type} : Played δ → δ
  | .ended _ _ d => d
  | .unfinished _ d => d

/-- What the loop leaves of a console that is in order is in order, with what was
    written; and where the loop ended the buffer is empty. -/
theorem Traced.play (h : Traced p map k m c) (orderly : c.Orderly) (limit : Option Nat)
    (rounds : Nat) : Wrote p map k (play limit p map rounds m c).machine
        (play limit p map rounds m c).device ∧
      (play limit p map rounds m c).device.Orderly ∧
      ∀ ending m' c', play limit p map rounds m c = .ended ending m' c' → c'.buffered = #[] := by
  induction rounds generalizing m c with
  | zero => exact ⟨h.wrote, orderly, nofun⟩
  | succ rounds ih =>
    have kept := h.round orderly limit
    rw [Command.play]
    generalize Command.round limit p map m c = r at kept ⊢
    cases kept with
    | more traced orderly₁ => exact ih traced orderly₁
    | @ended m₁ c₁ ending wrote orderly₁ =>
      obtain ⟨w, advances, bytes⟩ := wrote
      simp only [close_console]
      refine ⟨⟨w, advances, ?_⟩, orderly₁.flush, ?_⟩
      · exact (Console.bytes_flush c₁).trans bytes
      · rintro ending' m' c' closed
        obtain ⟨-, -, rfl⟩ := Played.ended.inj closed
        rfl

namespace Prepared

/-- What the loop leaves of a fresh machine and a console on which nothing happened. -/
def played (r : Prepared) (rounds : Nat) (stdin : Feed) : Played Console :=
  play r.limit r.program r.map rounds .fresh (r.console stdin)

end Prepared

theorem Prepared.stdout_outcome (ending : Ending) (c : Console) :
    (Prepared.outcome ending c).stdout = c.stdout := by
  unfold Prepared.outcome
  split <;> rfl

/-- The command never waits for input with output in its buffer. After any number of
    rounds, each prompt and each read in the log comes when all bytes put before it stand
    on standard output, in order. The bytes put are those that the instructions carried
    out so far write to a recorder; and however the loop ends, they are what the command
    leaves on standard output, each of them once. -/
theorem input_waits_for_output (r : Prepared) (stdin : Feed) (rounds : Nat) :
    Console.Settled (r.played rounds stdin).device.log.toList ∧
    (∃ w : Wired Keyboard Recorder,
      Machine.Advances r.program r.map (r.played rounds stdin).machine.steps .fresh
        ⟨(r.console stdin).keyboard, {}⟩ (r.played rounds stdin).machine w ∧
      (r.played rounds stdin).device.bytesPut = w.sink.written.toList) ∧
    ∀ outcome, r.run rounds stdin = some outcome →
      outcome.stdout = (r.played rounds stdin).device.bytesPut := by
  have start := traced_start r.program r.map (r.console stdin).keyboard
  obtain ⟨⟨w, advances, bytes⟩, orderly, empty⟩ :=
    start.play (Console.orderly_of_unused _) r.limit rounds
  refine ⟨orderly.settled, ⟨w, advances, orderly.bytes.trans bytes⟩, ?_⟩
  intro outcome left
  rw [Prepared.run_eq_ofPlayed] at left
  change ofPlayed (r.played rounds stdin) = some outcome at left
  cases ended : r.played rounds stdin with
  | unfinished m c =>
    rw [ended] at left
    cases left
  | ended ending m c =>
    rw [ended] at left
    change (r.played rounds stdin).device.Orderly at orderly
    rw [ended] at orderly
    rw [← Option.some.inj left, Prepared.stdout_outcome]
    exact orderly.delivered (empty ending m c ended)

/-- A program that writes the cell, reads a line into it and writes it again. -/
def writeAndEcho : Prepared where
  program := .ofList [.output, .input, .output]
  map := ⟨#[none, none, none]⟩
  limit := some 3
  inputMode := .line
  prompt := "> "

/-- The zero stands on standard output before the prompt is shown, and at the limit of
    three steps the byte that was read stands behind it. -/
theorem input_waits_for_output_echo :
    (writeAndEcho.played 4 [.data [65, newline]]).device.log.toList =
      [.put 0, .deliver [0], .prompt "> ", .read, .put 65, .deliver [65]] ∧
    ∃ outcome, writeAndEcho.run 4 [.data [65, newline]] = some outcome ∧
      outcome.stdout = [0, 65] := by
  have log : (writeAndEcho.played 4 [.data [65, newline]]).device.log.toList =
      [.put 0, .deliver [0], .prompt "> ", .read, .put 65, .deliver [65]] := by
    rfl
  obtain ⟨-, -, all⟩ := input_waits_for_output writeAndEcho [.data [65, newline]] 4
  refine ⟨log, _, rfl, (all _ rfl).trans ?_⟩
  rw [Console.bytesPut, log]
  rfl

end NoteTape.Command
