/-
  NoteTape.Proofs.Command.Limit

  A step limit bounds a run and changes nothing else. Without a limit the loop takes
  some rounds that go on and, if it ends, a last one; with the limit it takes the same
  rounds as long as it has steps left. So it ends in the same way if the last round
  comes while a step is left, and otherwise after as many instructions as the limit
  allows, with what they wrote on standard output and no more than they read taken from
  standard input.
-/

import NoteTape.Proofs.Command.Agreement
import NoteTape.Proofs.Command.Rounds

namespace NoteTape.Command

variable {p : Program} {map : BracketMap} {N : Nat} {m m' : Machine} {c c' : Console}
  {ending : Ending}

-- ============================================================================
-- Rounds on a console
-- ============================================================================

/-- A console takes every flush, so the loop ends as it closes. -/
theorem close_console (ending : Ending) (m : Machine) (c : Console) :
    close ending m c = .ended ending m c.flush := by
  cases ending with
  | halted | fault | refused | stepLimit => rfl

/-- A last round finds the machine halted, or carries out the last instruction, or
    meets a fault. -/
theorem ending_of_over (last : round none p map m c = .over ending m' c') :
    (ending = .halted ∧ (p.size ≤ m.ip ∧ m' = m ∨ m.ip < p.size ∧ m'.steps = m.steps + 1)) ∨
    ∃ f, ending = .fault f ∧ m' = m := by
  obtain ⟨c₁, flushed⟩ : ∃ c₁, flushBeforeRead p m c = (.ok (), c₁) := by
    unfold flushBeforeRead
    split
    · exact ⟨c.flush, rfl⟩
    · exact ⟨c, rfl⟩
  rw [round_of_flushed flushed map] at last
  cases step : Machine.step p map m c₁ with
  | mk answer m₁ c₂ =>
    rw [step] at last
    cases answer with
    | error f =>
      obtain ⟨rfl, -, -⟩ := Machine.step_error step
      cases last
      exact .inr ⟨f, rfl, rfl⟩
    | ok status =>
      cases status with
      | running => cases last
      | halted =>
        cases last
        refine .inl ⟨rfl, ?_⟩
        rcases Nat.lt_or_ge m.ip p.size with inside | outside
        · exact .inr ⟨inside, (Machine.step_ok inside step).2⟩
        · rw [Machine.step_of_outside outside] at step
          cases step
          exact .inl ⟨outside, rfl⟩

/-- Rounds that go on are instructions carried out on a source and a recorder that the
    console mirrors. -/
theorem Continues.advances {σ : Type} [Source σ] {keyboard : σ → Keyboard} {text : String}
    (like : ReadsLike keyboard text) {n : Nat} (h : Continues none p map n m c m' c')
    {w : Wired (Counted σ) Recorder} (mirrors : Mirrors keyboard text c w) :
    ∃ w', Machine.Advances p map n m w m' w' ∧ Mirrors keyboard text c' w' := by
  induction h generalizing w with
  | start => exact ⟨w, .none _ w, mirrors⟩
  | @more n m m₁ _ c c₂ _ first _ ih =>
    obtain ⟨c₁, flushed, step⟩ := step_of_more first
    obtain ⟨c₁', flushed', before⟩ := mirrors.flushBeforeRead p m
    obtain rfl : c₁ = c₁' := congrArg Prod.snd (flushed.symm.trans flushed')
    have same := Machine.step_alike (alike_mirrors like) p map m before
    rw [step] at same
    cases step' : Machine.step p map m w with
    | mk answer m₁' w₁ =>
      rw [step'] at same
      obtain ⟨rfl, rfl, after⟩ := same
      obtain ⟨w', rest, mirrors'⟩ := ih after
      exact ⟨w', .more (Machine.inside_of_running step) step' rest, mirrors'⟩

-- ============================================================================
-- The loop with a limit and without
-- ============================================================================

theorem Continues.closes_stepLimit {n : Nat} (h : Continues none p map n m c m' c')
    (reached : m.steps + n = N) :
    Closes (some N) p map m c (.stepLimit N m'.ip) m' c'.flush :=
  h.closes_at_limit reached (close_console _ _ _)

/-- The limit shows exactly where no step is left for the last round. -/
theorem Continues.closes_limited_iff {n : Nat} {m₁ m₂ : Machine} {c₁ c₂ : Console}
    {ending' : Ending} (h : Continues none p map n m c m₁ c₁) (start : m.steps ≤ N)
    (last : round none p map m₁ c₁ = .over ending m₂ c₂)
    (closed : close ending m₂ c₂ = .ended ending' m' c')
    (unlimited : ∀ most pos, ending' ≠ .stepLimit most pos) :
    Closes (some N) p map m c ending' m' c' ↔ m.steps + n < N := by
  constructor
  · intro limited
    rcases Nat.lt_or_ge (m.steps + n) N with left | used
    · exact left
    · -- The loop with the limit has ended before, and not so.
      obtain ⟨m₃, c₃, first⟩ := h.take (by omega : N - m.steps ≤ n)
      have stops := first.closes_stepLimit (by omega : m.steps + (N - m.steps) = N)
      exact absurd (limited.unique stops).1 (unlimited N m₃.ip)
  · intro left
    exact h.closes_limited left last closed

/-- A loop that ends has a last round, and with a limit it ends in the same way exactly
    if a step is left for that round. -/
theorem Closes.exists_last_round (h : Closes none p map m c ending m' c') (start : m.steps ≤ N)
    (unlimited : ∀ most pos, ending ≠ .stepLimit most pos) :
    ∃ n m₁ c₁ c₂, Continues none p map n m c m₁ c₁ ∧
      round none p map m₁ c₁ = .over ending m' c₂ ∧
      (Closes (some N) p map m c ending m' c' ↔ m₁.steps < N) := by
  obtain ⟨n, m₁, c₁, _, _, c₂, goes, last, closed⟩ := h.exists_over
  have limited := goes.closes_limited_iff start last closed unlimited
  rw [close_console] at closed
  obtain ⟨rfl, rfl, rfl⟩ := Played.ended.inj closed
  rw [← goes.steps_eq] at limited
  exact ⟨n, m₁, c₁, c₂, goes, last, limited⟩

/-- The instructions that were carried out are within the limit. Where there was none
    the limit must still allow one. -/
def Within (N k : Nat) : Prop := (1 ≤ k ∧ k ≤ N) ∨ (k = 0 ∧ 1 ≤ N)

theorem closes_halted_iff (h : Closes none p map m c .halted m' c') (start : m.steps = 0) :
    Closes (some N) p map m c .halted m' c' ↔ Within N m'.steps := by
  obtain ⟨n, m₁, c₁, c₂, goes, last, limited⟩ :=
    h.exists_last_round (by omega : m.steps ≤ N) nofun
  have steps := goes.steps_eq
  rw [limited, Within]
  rcases ending_of_over last with ⟨-, ⟨outside, rfl⟩ | ⟨-, counted⟩⟩ | ⟨f, ⟨⟩, -⟩
  · -- No instruction is next, so no round has gone on.
    cases n with
    | zero => omega
    | succ n =>
      have inside := goes.inside
      omega
  · omega

theorem closes_fault_iff {f : Fault} (h : Closes none p map m c (.fault f) m' c')
    (start : m.steps = 0) :
    Closes (some N) p map m c (.fault f) m' c' ↔ m'.steps < N := by
  obtain ⟨n, m₁, c₁, c₂, goes, last, limited⟩ :=
    h.exists_last_round (by omega : m.steps ≤ N) nofun
  rcases ending_of_over last with ⟨⟨⟩, -⟩ | ⟨f, -, rfl⟩
  exact limited

/-- In every other case the loop goes on until no step is left. -/
theorem continues_of_neither (start : m.steps = 0)
    (notHalted : ¬ ∃ m' c', Closes none p map m c .halted m' c' ∧ Within N m'.steps)
    (notFaulty : ¬ ∃ f m' c', Closes none p map m c (.fault f) m' c' ∧ m'.steps < N) :
    ∃ m' c', Continues none p map N m c m' c' := by
  rcases continues_or_over p map N m c with goes | ⟨k, m₁, c₁, ending, m₂, c₂, lt, goes, last⟩
  · exact goes
  · -- The last round comes too early: the loop ends, and within the limit.
    exfalso
    have closed := close_console ending m₂ c₂
    have ends : Closes none p map m c ending m₂ c₂.flush := goes.closes last closed
    have limited (unlimited : ∀ most pos, ending ≠ .stepLimit most pos) :
        Closes (some N) p map m c ending m₂ c₂.flush :=
      (goes.closes_limited_iff (by omega) last closed unlimited).2 (by omega)
    rcases ending_of_over last with ⟨rfl, -⟩ | ⟨f, rfl, -⟩
    · exact notHalted ⟨m₂, c₂.flush, ends, (closes_halted_iff ends start).1 (limited nofun)⟩
    · exact notFaulty ⟨f, m₂, c₂.flush, ends, (closes_fault_iff ends start).1 (limited nofun)⟩

-- ============================================================================
-- A prepared program with a limit and without
-- ============================================================================

namespace Prepared

/-- The same program with another step limit, or with none. -/
def within (r : Prepared) (limit : Option Nat) : Prepared := { r with limit }

/-- Given enough rounds, the loop in which a prepared program is run ends so, and the
    outcome is the one of this ending. -/
def Finishes (r : Prepared) (stdin : Feed) (ending : Ending) (m : Machine) (c : Console) : Prop :=
  ∃ rounds, play r.limit r.program r.map rounds .fresh (r.console stdin) = .ended ending m c ∧
    r.run rounds stdin = some (outcome ending c)

theorem finishes_iff_closes {r : Prepared} {stdin : Feed} :
    r.Finishes stdin ending m c ↔
      Closes r.limit r.program r.map .fresh (r.console stdin) ending m c := by
  constructor
  · rintro ⟨rounds, ended, -⟩
    exact ⟨rounds, ended⟩
  · rintro ⟨rounds, ended⟩
    refine ⟨rounds, ended, ?_⟩
    rw [Prepared.run, ended]

end Prepared

/-- With a limit of `N` the loop ends for lack of steps: `N` instructions are carried
    out, and what they do to the source and a recorder is all that was done. All they
    wrote is on standard output, standard input is left where they leave it, and the
    command fails with the limit and the position of the next instruction. -/
def StopsAtLimit {σ : Type} [Source σ] (r : Prepared) (stdin : Feed) (N : Nat)
    (keyboard : σ → Keyboard) (source : σ) (shown : Nat → String) : Prop :=
  ∃ m c w, Machine.Advances r.program r.map N .fresh (recording source) m w ∧
    (r.within (some N)).Finishes stdin (.stepLimit N m.ip) m c ∧
    c.keyboard = keyboard w.source.source ∧
    Prepared.outcome (.stepLimit N m.ip) c =
      ⟨1, w.sink.written.toList, shown w.source.reads ++
        s!"bebop: stopped after {N} steps at instruction {m.ip}\n"⟩

/-- A console on which the loop goes on for as many rounds as the limit allows. -/
theorem Continues.stopsAtLimit {σ : Type} [Source σ] {keyboard : σ → Keyboard} {text : String}
    (like : ReadsLike keyboard text) {source : σ} {r : Prepared} {stdin : Feed}
    (input : r.console stdin = { keyboard := keyboard source })
    (h : Continues none r.program r.map N .fresh (r.console stdin) m c) :
    StopsAtLimit r stdin N keyboard source (repeated text) := by
  have stops : Closes (some N) r.program r.map .fresh (r.console stdin) (.stepLimit N m.ip) m
      c.flush := h.closes_stepLimit (Nat.zero_add N)
  rw [input] at h
  obtain ⟨w, advances, mirrors⟩ := h.advances like (mirrors_recording text source)
  have flushed := mirrors.flush
  have stdout : c.flush.stdout = w.sink.written.toList := by
    rw [Console.stdout_flush, mirrors.bytes]
  refine ⟨m, c.flush, w, advances, Prepared.finishes_iff_closes.2 stops, flushed.keyboard, ?_⟩
  simp only [Prepared.outcome, Ending.message?, stdout, flushed.stderr]
  rfl

/-- A step limit of `N` bounds the run and changes nothing else. A loop that halts
    without it halts in the same way with it exactly if the instructions carried out
    are within the limit; one that meets a fault does so exactly if a step is left for
    the instruction that fails; and in every other case, if the loop never ends too, it
    stops after `N` instructions. -/
theorem limit_bounds_run (r : Prepared) (stdin : Feed) (N : Nat) :
    (∀ m c, (r.within none).Finishes stdin .halted m c →
      ((r.within (some N)).Finishes stdin .halted m c ↔ Within N m.steps)) ∧
    (∀ f m c, (r.within none).Finishes stdin (.fault f) m c →
      ((r.within (some N)).Finishes stdin (.fault f) m c ↔ m.steps < N)) ∧
    ((¬ ∃ m c, (r.within none).Finishes stdin .halted m c ∧ Within N m.steps) →
      (¬ ∃ f m c, (r.within none).Finishes stdin (.fault f) m c ∧ m.steps < N) →
      (r.inputMode = .line → StopsAtLimit r stdin N (Keyboard.lines · r.prompt)
        ({ feed := stdin } : LineReader) (repeated r.prompt)) ∧
      (r.inputMode = .stream → StopsAtLimit r stdin N Keyboard.bytes
        (⟨stdin⟩ : ByteReader) fun _ => "")) := by
  simp only [Prepared.finishes_iff_closes]
  refine ⟨?_, ?_, ?_⟩
  · intro m c halts
    exact closes_halted_iff halts rfl
  · intro f m c fails
    exact closes_fault_iff fails rfl
  · intro notHalted notFaulty
    obtain ⟨m, c, goes⟩ := continues_of_neither rfl notHalted notFaulty
    constructor
    · intro mode
      have input : r.console stdin = { keyboard := .lines { feed := stdin } r.prompt } := by
        rw [Prepared.console, mode]
        rfl
      exact goes.stopsAtLimit (readsLike_lines r.prompt) input
    · intro mode
      have input : r.console stdin = { keyboard := .bytes ⟨stdin⟩ } := by
        rw [Prepared.console, mode]
        rfl
      have nothing : repeated "" = fun _ => "" := funext repeated_empty
      rw [← nothing]
      exact goes.stopsAtLimit readsLike_bytes input

/-- A program that adds one and writes the cell, with nothing on standard input. -/
def addAndWrite : Prepared where
  program := .ofList [.increment, .output]
  map := ⟨#[none, none]⟩
  limit := none
  inputMode := .stream
  prompt := ""

/-- Two steps are enough for two instructions, and with one step the loop stops before
    the second. -/
theorem limit_bounds_run_one_step_short :
    BracketMap.ofProgram addAndWrite.program = .ok addAndWrite.map ∧
    ∃ m c, (addAndWrite.within none).Finishes [] .halted m c ∧
      (addAndWrite.within (some 2)).Finishes [] .halted m c ∧
      StopsAtLimit addAndWrite [] 1 Keyboard.bytes (⟨[]⟩ : ByteReader) fun _ => "" := by
  obtain ⟨m, c, halts, steps⟩ : ∃ m c,
      (addAndWrite.within none).Finishes [] .halted m c ∧ m.steps = 2 :=
    ⟨_, _, ⟨2, rfl, rfl⟩, rfl⟩
  have two := ((limit_bounds_run addAndWrite [] 2).1 m c halts).2 (.inl (by omega))
  have notHalted : ¬ ∃ m c, (addAndWrite.within none).Finishes [] .halted m c ∧
      Within 1 m.steps := by
    rintro ⟨m', c', halts', within⟩
    obtain ⟨-, rfl, -⟩ := (Prepared.finishes_iff_closes.1 halts).unique
      (Prepared.finishes_iff_closes.1 halts')
    rw [Within] at within
    omega
  have notFaulty : ¬ ∃ f m c, (addAndWrite.within none).Finishes [] (.fault f) m c ∧
      m.steps < 1 := by
    rintro ⟨f, m', c', fails, -⟩
    obtain ⟨⟨⟩, -⟩ := (Prepared.finishes_iff_closes.1 halts).unique
      (Prepared.finishes_iff_closes.1 fails)
  have one := ((limit_bounds_run addAndWrite [] 1).2.2 notHalted notFaulty).2 rfl
  exact ⟨rfl, m, c, halts, two, one⟩

end NoteTape.Command
