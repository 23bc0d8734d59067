/-
  NoteTape.Proofs.Block.Simulation

  The machine carries a program out as if its loops were nested. A phase that
  stands in the program from some position on (`Phase.Lies`) has an entry, where
  the machine is when the phase begins, and an exit behind it; the entry of a
  test is already behind one of the two brackets, since both make the test and
  both jump past their partner.

    * `Phase.Ends.follows` — what a phase comes to, the machine comes to: by
      induction on how the phase ends.
    * `Phase.split` — a run that stops has come through the phase or stops in it:
      by induction on the number of instructions carried out, and for as many on
      the size of the phase.
-/

import NoteTape.Block.Run
import NoteTape.Proofs.Block.Layout
import NoteTape.Proofs.Machine.Ending

namespace NoteTape

variable {δ : Type}

/-- The machine in a state, with its next instruction at a position. -/
def State.machineAt (s : State δ) (pos : Nat) : Machine :=
  { ip := pos, tape := s.tape, steps := s.steps }

namespace Phase

/-- Where the machine is when a phase begins in a state. -/
def entry : Phase → (pos : Nat) → State δ → Nat
  | .start _, pos, _ => pos
  | .test body _, pos, s => if s.tape.current = 0 then pos + body.size + 2 else pos + 1

/-- Where the machine is when a phase has come to its end. -/
def exit : Phase → (pos : Nat) → Nat
  | .start b, pos => pos + b.size
  | .test body next, pos => pos + body.size + next.size + 2

/-- The machine when a phase begins in a state. -/
def machine (ph : Phase) (pos : Nat) (s : State δ) : Machine := s.machineAt (ph.entry pos s)

/-- The phase stands in the program, and the map pairs its brackets. -/
def Lies (p : Program) (map : BracketMap) : Phase → (pos : Nat) → Prop
  | .start b, pos => b.Lies p map pos
  | .test body next, pos => (Block.loop body next).Lies p map pos

/-- How much there is to be carried out once. -/
def size : Phase → Nat
  | .start b => b.size
  | .test body next => body.size + next.size + 1

theorem exit_act (a : Action) (next : Block) (pos : Nat) :
    (start next).exit (pos + 1) = (start (.act a next)).exit pos := by
  simp only [exit, Block.size]
  omega

theorem exit_loop (body next : Block) (pos : Nat) :
    (test body next).exit pos = (start (.loop body next)).exit pos := by
  simp only [exit, Block.size]
  omega

theorem exit_leave (body next : Block) (pos : Nat) :
    (start next).exit (pos + body.size + 2) = (test body next).exit pos := by
  simp only [exit]
  omega

/-- Where the body of a loop ends stands the bracket that closes the loop. -/
theorem exit_body (body : Block) (pos : Nat) :
    (start body).exit (pos + 1) = pos + body.size + 1 := by
  simp only [exit]
  omega

theorem machine_test_of_zero {s : State δ} (zero : s.tape.current = 0) (body next : Block)
    (pos : Nat) :
    (test body next).machine pos s = (start next).machine (pos + body.size + 2) s := by
  simp only [machine, entry, zero, if_true]

theorem machine_test_of_nonzero {s : State δ} (nonzero : s.tape.current ≠ 0) (body next : Block)
    (pos : Nat) : (test body next).machine pos s = (start body).machine (pos + 1) s := by
  simp only [machine, entry, nonzero, if_false]

end Phase

variable [Device δ] {p : Program} {map : BracketMap} {pos : Nat} {s s' t : State δ}

-- ============================================================================
-- Single instructions
-- ============================================================================

theorem Action.Acts.step {a : Action} (acts : a.Acts s s') (here : p.get? pos = some a.instruction)
    (map : BracketMap) : ∃ status,
      Machine.step p map (s.machineAt pos) s.device =
        ⟨.ok status, s'.machineAt (pos + 1), s'.device⟩ := by
  refine ⟨(s'.machineAt (pos + 1)).status p, ?_⟩
  cases acts with
  | right | left | increment | decrement =>
    simp only [Machine.step, State.machineAt, here, instruction]
    rfl
  | output s d written =>
    simp only [Machine.step, State.machineAt, here, instruction, written]
    rfl
  | input s unit d answered =>
    simp only [Machine.step, State.machineAt, here, instruction, answered]
    rfl

theorem Action.Fails.step {a : Action} {fault : Fault} (fails : a.Fails pos s fault t)
    (here : p.get? pos = some a.instruction) (map : BracketMap) :
    Machine.step p map (s.machineAt pos) s.device = ⟨.error fault, t.machineAt pos, t.device⟩ := by
  cases fails with
  | output pos s e d refused =>
    simp only [Machine.step, State.machineAt, here, instruction, refused]
  | noInput pos s d nothing =>
    simp only [Machine.step, State.machineAt, here, instruction, nothing]
  | input pos s e d refused =>
    simp only [Machine.step, State.machineAt, here, instruction, refused]

/-- An action succeeds or fails. -/
theorem Action.acts_or_fails (a : Action) (pos : Nat) (s : State δ) :
    (∃ s', a.Acts s s') ∨ ∃ fault t, a.Fails pos s fault t := by
  cases a with
  | right => exact .inl ⟨_, .right s⟩
  | left => exact .inl ⟨_, .left s⟩
  | increment => exact .inl ⟨_, .increment s⟩
  | decrement => exact .inl ⟨_, .decrement s⟩
  | output =>
    cases h : Device.write s.tape.current s.device with
    | mk answer d =>
      cases answer with
      | ok => exact .inl ⟨_, .output s d h⟩
      | error e => exact .inr ⟨_, _, .output pos s e d h⟩
  | input =>
    cases h : Device.read s.device with
    | mk answer d =>
      cases answer with
      | ok unit =>
        cases unit with
        | none => exact .inr ⟨_, _, .noInput pos s d h⟩
        | some unit => exact .inl ⟨_, .input s unit d h⟩
      | error e => exact .inr ⟨_, _, .input pos s e d h⟩

section Loop

variable {body next : Block}

omit [Device δ] in
/-- A bracket behind which the entry of a test stands leads to that test. -/
theorem succeed_test {bracket : Nat} (lands : bracket + 1 = (Phase.test body next).entry pos s.tick)
    (k : Nat) : ∃ status, Machine.succeed p (s.machineAt k) bracket s.device =
      ⟨.ok status, (Phase.test body next).machine pos s.tick, s.device⟩ := by
  refine ⟨((Phase.test body next).machine pos s.tick).status p, ?_⟩
  rw [Machine.succeed, Phase.machine, ← lands]
  rfl

variable (lies : (Block.loop body next).Lies p map pos)

include lies

/-- The bracket that opens a loop makes the test. -/
theorem step_loopOpen (s : State δ) : ∃ status,
    Machine.step p map (s.machineAt pos) s.device =
      ⟨.ok status, (Phase.test body next).machine pos s.tick, s.device⟩ := by
  obtain ⟨here, partner, -⟩ := lies
  by_cases zero : s.tape.current = 0
  · have jumps : Machine.step p map (s.machineAt pos) s.device =
        Machine.succeed p (s.machineAt pos) (pos + body.size + 1) s.device := by
      simp only [Machine.step, State.machineAt, here, zero, if_true, Machine.jump, partner]
    rw [jumps]
    exact succeed_test (by simp only [Phase.entry, State.tick, zero, if_true]) pos
  · have passes : Machine.step p map (s.machineAt pos) s.device =
        Machine.succeed p (s.machineAt pos) pos s.device := by
      simp only [Machine.step, State.machineAt, here, zero, if_false]
    rw [passes]
    exact succeed_test (by simp only [Phase.entry, State.tick, zero, if_false]) pos

/-- The bracket that closes a loop makes the test again. -/
theorem step_loopClose (s : State δ) : ∃ status,
    Machine.step p map (s.machineAt (pos + body.size + 1)) s.device =
      ⟨.ok status, (Phase.test body next).machine pos s.tick, s.device⟩ := by
  obtain ⟨-, -, -, here, partner, -⟩ := lies
  by_cases zero : s.tape.current = 0
  · have passes : Machine.step p map (s.machineAt (pos + body.size + 1)) s.device =
        Machine.succeed p (s.machineAt (pos + body.size + 1)) (pos + body.size + 1) s.device := by
      simp only [Machine.step, State.machineAt, here, zero, if_true]
    rw [passes]
    exact succeed_test (by simp only [Phase.entry, State.tick, zero, if_true]) _
  · have jumps : Machine.step p map (s.machineAt (pos + body.size + 1)) s.device =
        Machine.succeed p (s.machineAt (pos + body.size + 1)) pos s.device := by
      simp only [Machine.step, State.machineAt, here, zero, if_false, Machine.jump, partner]
    rw [jumps]
    exact succeed_test (by simp only [Phase.entry, State.tick, zero, if_false]) _

end Loop

-- ============================================================================
-- What a phase comes to, the machine comes to
-- ============================================================================

/-- From the entry of a phase the machine comes to its exit, or to an instruction
    that fails with the fault that ends the phase. -/
def Phase.Follows (p : Program) (map : BracketMap) (ph : Phase) (pos : Nat) (s : State δ) :
    Except Fault Unit → State δ → Prop
  | .ok (), t => ∃ n, Machine.Advances p map n (ph.machine pos s) s.device
      (t.machineAt (ph.exit pos)) t.device
  | .error fault, t => ∃ n m d ip, Machine.Advances p map n (ph.machine pos s) s.device m d ∧
      Machine.step p map m d = ⟨.error fault, t.machineAt ip, t.device⟩

/-- A phase follows what comes before it, if it does not change the exit. -/
theorem Phase.Follows.after {ph ph' : Phase} {pos' n : Nat} {answer : Except Fault Unit}
    (h : ph'.Follows p map pos' s' answer t)
    (before : Machine.Advances p map n (ph.machine pos s) s.device (ph'.machine pos' s') s'.device)
    (same : ph'.exit pos' = ph.exit pos) : ph.Follows p map pos s answer t := by
  cases answer with
  | ok =>
    obtain ⟨k, advances⟩ := h
    exact ⟨n + k, same ▸ before.trans advances⟩
  | error fault =>
    obtain ⟨k, m, d, ip, advances, fails⟩ := h
    exact ⟨n + k, m, d, ip, before.trans advances, fails⟩

theorem Phase.Ends.follows {ph : Phase} {answer : Except Fault Unit}
    (h : Phase.Ends ph pos s answer t) (lies : ph.Lies p map pos) :
    ph.Follows p map pos s answer t := by
  induction h with
  | done pos s => exact ⟨0, .none _ _⟩
  | act acts rest ih =>
    obtain ⟨here, -, behind⟩ := lies
    obtain ⟨status, first⟩ := acts.step here map
    exact (ih behind).after (.one (Program.lt_size_of_get? here) first) (exit_act ..)
  | fail fails => exact ⟨0, _, _, _, .none _ _, fails.step lies.1 map⟩
  | @loop body next pos s t answer entered ih =>
    obtain ⟨status, first⟩ := step_loopOpen lies s
    exact Phase.Follows.after (ih lies) (.one (Program.lt_size_of_get? lies.1) first)
      (exit_loop ..)
  | @leave body next pos s t answer zero rest ih =>
    obtain ⟨-, -, -, -, -, behind⟩ := lies
    -- The bracket before made the test, so no instruction is carried out.
    apply (ih behind).after (n := 0)
    · rw [machine_test_of_zero zero]
      exact .none _ _
    · exact exit_leave ..
  | @again body next pos s s' t answer nonzero round rest ihRound ihRest =>
    obtain ⟨-, -, inside, close, -⟩ := id lies
    -- Through the body, over the closing bracket, and on with the next test.
    obtain ⟨n, carried⟩ := ihRound inside
    rw [← machine_test_of_nonzero nonzero body next, exit_body] at carried
    obtain ⟨status, last⟩ := step_loopClose lies s'
    exact (ihRest lies).after (carried.trans (.one (Program.lt_size_of_get? close) last)) rfl
  | @stop body next pos s t fault nonzero round ih =>
    obtain ⟨-, -, inside, -⟩ := lies
    obtain ⟨n, m, d, ip, advances, fails⟩ := ih inside
    rw [← machine_test_of_nonzero nonzero body next] at advances
    exact ⟨n, m, d, ip, advances, fails⟩

-- ============================================================================
-- A run that stops comes through the phase or stops in it
-- ============================================================================

/-- Of a machine that is to stop after `n` instructions, the first of them at the
    entry of a phase: it has left the phase after some of them, or a fault of the
    phase has stopped it. -/
def Phase.Splits (p : Program) (map : BracketMap) (n : Nat) (ph : Phase) (pos : Nat) (s : State δ)
    (m : Machine) (d : δ) (answer : Except Fault Unit) (m' : Machine) (d' : δ) : Prop :=
  (∃ k t, k ≤ n ∧ Phase.Ends ph pos s (.ok ()) t ∧
    Machine.Advances p map k (t.machineAt (ph.exit pos)) t.device m d) ∨
  ∃ fault t, Phase.Ends ph pos s (.error fault) t ∧ answer = .error fault ∧
    fault.report.position? = some m'.ip ∧ m' = t.machineAt m'.ip ∧ d' = t.device

section Split

variable {m m' : Machine} {d d' : δ} {answer : Except Fault Unit}

/-- A phase that goes on as another one splits the run where the other one does. -/
theorem Phase.Splits.of_rest {ph ph' : Phase} {pos' k n : Nat}
    (h : ph'.Splits p map k pos' s' m d answer m' d') (le : k ≤ n)
    (same : ph'.exit pos' = ph.exit pos)
    (ends : ∀ {answer t}, Phase.Ends ph' pos' s' answer t → Phase.Ends ph pos s answer t) :
    ph.Splits p map n pos s m d answer m' d' := by
  obtain ⟨k', t, le', rest, left⟩ | ⟨fault, t, rest, stopped⟩ := h
  · exact .inl ⟨k', t, Nat.le_trans le' le, ends rest, same ▸ left⟩
  · exact .inr ⟨fault, t, ends rest, stopped⟩

theorem Phase.split (ph : Phase) (pos : Nat) (s : State δ) {n : Nat} (lies : ph.Lies p map pos)
    (advances : Machine.Advances p map n (ph.machine pos s) s.device m d)
    (stops : Machine.Stops p map m d answer m' d') :
    ph.Splits p map n pos s m d answer m' d' := by
  match ph with
  | .start .done => exact .inl ⟨n, s, Nat.le_refl n, .done pos s, advances⟩
  | .start (.act a next) =>
    obtain ⟨here, -, behind⟩ := lies
    obtain ⟨s', acts⟩ | ⟨fault, t, fails⟩ := a.acts_or_fails pos s
    · obtain ⟨status, first⟩ := acts.step here map
      -- A machine that stops later has carried this instruction out.
      obtain ⟨k, rfl, rest⟩ := advances.uncons stops (Program.lt_size_of_get? here) first
      have later := Phase.split (.start next) (pos + 1) s' behind rest stops
      exact later.of_rest (by omega) (exit_act ..) (.act acts)
    · have failing := fails.step here map
      obtain ⟨rfl, rfl, rfl⟩ := advances.stops_of_fails stops failing
      exact .inr ⟨fault, t, .fail fails, rfl, (Machine.step_error failing).2.2, rfl, rfl⟩
  | .start (.loop body next) =>
    obtain ⟨status, first⟩ := step_loopOpen lies s
    obtain ⟨k, rfl, rest⟩ := advances.uncons stops (Program.lt_size_of_get? lies.1) first
    have later := Phase.split (.test body next) pos s.tick lies rest stops
    exact later.of_rest (by omega) (exit_loop ..) .loop
  | .test body next =>
    obtain ⟨-, -, inside, close, -, behind⟩ := id lies
    by_cases zero : s.tape.current = 0
    · rw [machine_test_of_zero zero] at advances
      have later := Phase.split (.start next) (pos + body.size + 2) s behind advances stops
      exact later.of_rest (Nat.le_refl n) (exit_leave ..) (.leave zero)
    · rw [machine_test_of_nonzero zero] at advances
      obtain ⟨k', s', le, round, left⟩ | ⟨fault, t, round, stopped⟩ :=
        Phase.split (.start body) (pos + 1) s inside advances stops
      · -- The body was left, and the closing bracket is the next instruction.
        rw [exit_body] at left
        obtain ⟨status, first⟩ := step_loopClose lies s'
        obtain ⟨k, rfl, rest⟩ := left.uncons stops (Program.lt_size_of_get? close) first
        have later := Phase.split (.test body next) pos s'.tick lies rest stops
        exact later.of_rest (by omega) rfl (.again zero round)
      · exact .inr ⟨fault, t, .stop zero round, stopped⟩
-- A test is passed without an instruction, and then what is left is smaller.
termination_by (n, ph.size)
decreasing_by
  · exact Prod.Lex.left _ _ (by omega)
  · exact Prod.Lex.left _ _ (by omega)
  · exact Prod.Lex.right _ (by simp only [Phase.size]; omega)
  · exact Prod.Lex.right _ (by simp only [Phase.size]; omega)
  · exact Prod.Lex.left _ _ (by omega)

end Split

end NoteTape
