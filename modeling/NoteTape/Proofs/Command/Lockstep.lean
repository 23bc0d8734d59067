/-
  NoteTape.Proofs.Command.Lockstep

  The loop of the command beside a run that records. The console of the command is
  set against a source and a recorder: the same input is left, the bytes put into
  the buffer or delivered are those recorded, and standard error shows one text for
  each read. One step keeps this, and so does a flush at any time, so that without
  a step limit the loop and the run go through the same machines.

  - `Mirrors`: a console beside a source and a recorder
  - `Reflects`: what the loop leaves beside what a run leaves
  - `ReadsLike`: standard input that answers like a source and shows a text
-/

import NoteTape.Command.Play
import NoteTape.Device.Reads
import NoteTape.Device.Store
import NoteTape.Machine.Run
import NoteTape.Proofs.Console.Views
import NoteTape.Proofs.Machine.Alike

namespace NoteTape.Command

/-- A text so many times over. -/
def repeated (text : String) (n : Nat) : String := String.join (List.replicate n text)

theorem repeated_succ (text : String) (n : Nat) :
    repeated text (n + 1) = repeated text n ++ text := by
  simp [repeated, List.replicate_succ']

theorem repeated_empty (n : Nat) : repeated "" n = "" := by
  induction n with
  | zero => rfl
  | succ n ih => rw [repeated_succ, ih, String.append_empty]

-- ============================================================================
-- A console beside a source and a recorder
-- ============================================================================

variable {σ : Type} {keyboard : σ → Keyboard} {text : String}

/-- A console on which the input that is left is that of the source, the bytes put
    are those recorded, and the text was shown once for each read. -/
structure Mirrors (keyboard : σ → Keyboard) (text : String) (c : Console)
    (w : Wired (Counted σ) Recorder) : Prop where
  keyboard : c.keyboard = keyboard w.source.source
  bytes : c.bytes = w.sink.written.toList
  stderr : c.stderr = repeated text w.source.reads

variable {c : Console} {w : Wired (Counted σ) Recorder}

theorem Mirrors.flush (h : Mirrors keyboard text c w) : Mirrors keyboard text c.flush w where
  keyboard := (Console.keyboard_flush c).trans h.keyboard
  bytes := (Console.bytes_flush c).trans h.bytes
  stderr := (Console.stderr_flush c).trans h.stderr

/-- Before a step the loop flushes or does nothing; the run does nothing. -/
theorem Mirrors.flushBeforeRead (h : Mirrors keyboard text c w) (p : Program) (m : Machine) :
    ∃ c', Command.flushBeforeRead p m c = (.ok (), c') ∧ Mirrors keyboard text c' w := by
  unfold Command.flushBeforeRead
  split
  · exact ⟨c.flush, rfl, h.flush⟩
  · exact ⟨c, rfl, h⟩

/-- How the loop ends where a run gives this answer. -/
def Ending.ofAnswer : Except Fault Unit → Ending
  | .ok () => .halted
  | .error f => .fault f

/-- The loop left what the run left: the same machine, and all that was recorded
    stands on standard output; or both are unfinished. -/
inductive Reflects (keyboard : σ → Keyboard) (text : String) :
    Played Console → Run (Wired (Counted σ) Recorder) → Prop where
  | ended {c : Console} {w : Wired (Counted σ) Recorder} (answer : Except Fault Unit)
    (m : Machine) (mirrors : Mirrors keyboard text c w) (delivered : c.stdout = c.bytes) :
    Reflects keyboard text (.ended (.ofAnswer answer) m c) (.ended answer m w)
  | unfinished (c : Console) (w : Wired (Counted σ) Recorder) (m : Machine) :
    Reflects keyboard text (.unfinished m c) (.unfinished m w)

/-- A console takes every flush, so the loop always closes with the ending it
    reached and with everything delivered. -/
theorem Mirrors.close (h : Mirrors keyboard text c w) (answer : Except Fault Unit) (m : Machine) :
    Reflects keyboard text (Command.close (.ofAnswer answer) m c) (.ended answer m w) := by
  have delivered : c.flush.stdout = c.flush.bytes := by
    rw [Console.stdout_flush, Console.bytes_flush]
  cases answer with
  | ok => exact .ended (.ok ()) m h.flush delivered
  | error f => exact .ended (.error f) m h.flush delivered

-- ============================================================================
-- Reads and writes
-- ============================================================================

variable [Source σ]

/-- Standard input that gives the units of a source, and shows one text before each
    of them. -/
structure ReadsLike (keyboard : σ → Keyboard) (text : String) : Prop where
  readUnit : ∀ s, (keyboard s).readUnit = ((Source.read s).1, keyboard (Source.read s).2)
  prompted : ∀ s, (keyboard s).prompted = text

theorem readsLike_lines (prompt : String) : ReadsLike (Keyboard.lines · prompt) prompt where
  readUnit _ := rfl
  prompted _ := by simp [Keyboard.prompted, Keyboard.prompts, Effect.textShown]

theorem readsLike_bytes : ReadsLike Keyboard.bytes "" where
  readUnit _ := rfl
  prompted _ := by simp [Keyboard.prompted, Keyboard.prompts]

theorem Mirrors.put (h : Mirrors keyboard text c w) (byte : UInt8) :
    Mirrors keyboard text (c.put byte) (Device.write byte w).2 where
  keyboard := (Console.keyboard_put c byte).trans h.keyboard
  bytes := by
    rw [Console.bytes_put, h.bytes]
    exact Array.toList_append.symm
  stderr := (Console.stderr_put c byte).trans h.stderr

theorem Mirrors.readUnit (like : ReadsLike keyboard text) (h : Mirrors keyboard text c w) :
    c.readUnit.1 = (Device.read w).1 ∧ Mirrors keyboard text c.readUnit.2 (Device.read w).2 := by
  have reply : c.keyboard.readUnit =
      ((Source.read w.source.source).1, keyboard (Source.read w.source.source).2) := by
    rw [h.keyboard, like.readUnit]
  refine ⟨congrArg Prod.fst reply, ⟨congrArg Prod.snd reply, ?_, ?_⟩⟩
  · rw [Console.bytes_readUnit]
    exact h.bytes
  · rw [Console.stderr_readUnit, h.keyboard, like.prompted, h.stderr]
    exact (repeated_succ text w.source.reads).symm

theorem alike_mirrors (like : ReadsLike keyboard text) :
    Device.Alike (Mirrors keyboard text) where
  read h := h.readUnit like
  write byte _ _ h := ⟨rfl, h.put byte⟩

-- ============================================================================
-- The loop beside a run
-- ============================================================================

/-- What a round leaves where a step leaves this. -/
def Round.ofTurn {δ : Type} : Turn δ → Round δ
  | ⟨.ok .running, m, d⟩ => .more m d
  | ⟨.ok .halted, m, d⟩ => .over .halted m d
  | ⟨.error f, m, d⟩ => .over (.fault f) m d

/-- Without a step limit, and where the flush before a read succeeds, a round is one
    step. -/
theorem round_of_flushed {δ : Type} [Device δ] {p : Program} {m : Machine} {d d' : δ}
    (flushed : flushBeforeRead p m d = (.ok (), d')) (map : BracketMap) :
    round none p map m d = .ofTurn (Machine.step p map m d') := by
  have unlimited : limitReached none m = false := rfl
  rw [round, unlimited, flushed]
  rfl

/-- Without a step limit the loop and a run that is given as many steps go through
    the same machines. -/
theorem play_reflects_run (like : ReadsLike keyboard text) (h : Mirrors keyboard text c w)
    (p : Program) (map : BracketMap) (n : Nat) (m : Machine) :
    Reflects keyboard text (play none p map n m c) (Machine.run p map n m w) := by
  -- Each round may flush first, which the run does not notice; then both take a step.
  induction n generalizing m c w with
  | zero => exact .unfinished c w m
  | succ n ih =>
    obtain ⟨c', flushed, before⟩ := h.flushBeforeRead p m
    have same := Machine.step_alike (alike_mirrors like) p map m before
    rw [play, round_of_flushed flushed, Machine.run]
    generalize Machine.step p map m c' = turn at same ⊢
    generalize Machine.step p map m w = turn' at same ⊢
    obtain ⟨answer, m₁, c₁⟩ := turn
    obtain ⟨answer', m₁', w₁⟩ := turn'
    obtain ⟨rfl, rfl, after⟩ := same
    cases answer with
    | error f => exact after.close (.error f) m₁
    | ok status =>
      cases status with
      | running => exact ih after m₁
      | halted => exact after.close (.ok ()) m₁

end NoteTape.Command
