/-
  NoteTape.Proofs.Machine.Step

  Everything one step of a machine can do, whatever the program, the map and the
  device: `Machine.step_case` is the one place where the instructions are taken
  apart, and `Machine.StepCase` says of each case what was asked of the device and
  what it answered. Where that does not matter, `Machine.step_stepped` tells fewer
  cases apart. A step that fails leaves the machine alone and its fault names the
  instruction; a step that succeeds counts one more instruction and answers
  whether there is a next one.
-/

import NoteTape.Machine.Basic
import NoteTape.Program
import NoteTape.Tape.StraightLine

namespace NoteTape

/-- What an instruction does to a tape that neither jumps nor asks the device for
    anything. -/
def Instruction.work : Instruction → Tape → Tape
  | .right, t => t.moveRight
  | .left, t => t.moveLeft
  | .increment, t => t.store (t.current + 1)
  | .decrement, t => t.store (t.current - 1)
  | _, t => t

theorem Instruction.cell_work (i : Instruction) {t : Tape} {place : Place}
    (other : place ≠ t.head) : (i.work t).cell place = t.cell place := by
  cases i with
  | increment | decrement => rw [work, Tape.cell_store, if_neg other]
  | right | left | output | input | loopOpen | loopClose => rfl

theorem Instruction.head_work (i : Instruction) (t : Tape) :
    (i.work t).head = t.head ∨ (i.work t).head = t.head.right ∨ (i.work t).head = t.head.left := by
  cases i with
  | right => exact .inr (.inl rfl)
  | left => exact .inr (.inr rfl)
  | increment | decrement | output | input | loopOpen | loopClose => exact .inl rfl

namespace Machine

/-- The next instruction is a bracket that jumps: `[` on a zero, `]` on anything else. -/
def Jumps (p : Program) (m : Machine) : Prop :=
  (p.get? m.ip = some .loopOpen ∧ m.tape.current = 0) ∨
    (p.get? m.ip = some .loopClose ∧ m.tape.current ≠ 0)

theorem Jumps.exists_bracket {p : Program} {m : Machine} (jumps : Jumps p m) :
    ∃ i, p.get? m.ip = some i ∧ i.isBracket = true := by
  obtain ⟨here, -⟩ | ⟨here, -⟩ := jumps
  · exact ⟨.loopOpen, here, rfl⟩
  · exact ⟨.loopClose, here, rfl⟩

variable {δ : Type} [Device δ]

/-- What a step of a machine does, case by case. -/
inductive StepCase (p : Program) (map : BracketMap) (m : Machine) (d : δ) : Turn δ → Prop where
  /-- There is no instruction. -/
  | halted (outside : p.size ≤ m.ip) : StepCase p map m d ⟨.ok .halted, m, d⟩
  /-- The head moves, or the current cell goes up or down. -/
  | worked (i : Instruction) (here : p.get? m.ip = some i) (plain : i.isArithmetic = true) :
    StepCase p map m d (succeed p { m with tape := i.work m.tape } m.ip d)
  /-- The current cell is written. -/
  | wrote (here : p.get? m.ip = some .output) (d' : δ)
    (written : Device.write m.tape.current d = (.ok (), d')) :
    StepCase p map m d (succeed p m m.ip d')
  /-- The device refuses to be written to. -/
  | unwritten (here : p.get? m.ip = some .output) (e : DeviceError) (d' : δ)
    (refused : Device.write m.tape.current d = (.error e, d')) :
    StepCase p map m d ⟨.error (.device e m.ip), m, d'⟩
  /-- A unit of input is stored. -/
  | took (here : p.get? m.ip = some .input) (unit : UInt8) (d' : δ)
    (given : Device.read d = (.ok (some unit), d')) :
    StepCase p map m d (succeed p { m with tape := m.tape.store unit } m.ip d')
  /-- There is no input. -/
  | starved (here : p.get? m.ip = some .input) (d' : δ)
    (nothing : Device.read d = (.ok none, d')) :
    StepCase p map m d ⟨.error (.noInput m.ip), m, d'⟩
  /-- The device refuses to be read. -/
  | unread (here : p.get? m.ip = some .input) (e : DeviceError) (d' : δ)
    (refused : Device.read d = (.error e, d')) :
    StepCase p map m d ⟨.error (.device e m.ip), m, d'⟩
  /-- A bracket does not jump. -/
  | passed (i : Instruction) (here : p.get? m.ip = some i) (bracket : i.isBracket = true)
    (stays : ¬ Jumps p m) : StepCase p map m d (succeed p m m.ip d)
  /-- A bracket jumps to its partner, and the one behind that follows. -/
  | jumped (jumps : Jumps p m) (partner : Nat) (paired : map.partner? m.ip = some partner) :
    StepCase p map m d (succeed p m partner d)
  /-- A bracket that jumps has no partner in the map. -/
  | lost (jumps : Jumps p m) (unpaired : map.partner? m.ip = none) :
    StepCase p map m d ⟨.error (.noPartner m.ip), m, d⟩

variable {p : Program} {map : BracketMap} {m m' : Machine} {d d' : δ}

theorem not_jumps_of_open (here : p.get? m.ip = some .loopOpen) (full : m.tape.current ≠ 0) :
    ¬ Jumps p m := by
  rintro (⟨-, zero⟩ | ⟨here', -⟩)
  · exact full zero
  · rw [here] at here'
    cases here'

theorem not_jumps_of_close (here : p.get? m.ip = some .loopClose) (zero : m.tape.current = 0) :
    ¬ Jumps p m := by
  rintro (⟨here', -⟩ | ⟨-, full⟩)
  · rw [here] at here'
    cases here'
  · exact full zero

theorem step_of_jumps (jumps : Jumps p m) (map : BracketMap) (d : δ) :
    step p map m d = jump p map m d := by
  obtain ⟨here, zero⟩ | ⟨here, full⟩ := jumps
  · simp only [step, here, if_pos zero]
  · simp only [step, here, if_neg full]

theorem jump_case (jumps : Jumps p m) (map : BracketMap) (d : δ) :
    StepCase p map m d (jump p map m d) := by
  unfold jump
  cases h : map.partner? m.ip with
  | none => exact .lost jumps h
  | some partner => exact .jumped jumps partner h

theorem step_case (p : Program) (map : BracketMap) (m : Machine) (d : δ) :
    StepCase p map m d (step p map m d) := by
  unfold step
  cases here : p.get? m.ip with
  | none =>
    apply StepCase.halted
    rw [Program.get?, Array.getElem?_eq_none_iff] at here
    exact here
  | some i =>
    cases i with
    | right | left | increment | decrement => exact .worked _ here rfl
    | output =>
      cases h : Device.write m.tape.current d with
      | mk answer d' =>
        cases answer with
        | ok => exact .wrote here d' h
        | error e => exact .unwritten here e d' h
    | input =>
      cases h : Device.read d with
      | mk answer d' =>
        cases answer with
        | ok unit =>
          cases unit with
          | none => exact .starved here d' h
          | some unit => exact .took here unit d' h
        | error e => exact .unread here e d' h
    | loopOpen =>
      by_cases zero : m.tape.current = 0
      · simp only [zero, if_true]
        exact jump_case (.inl ⟨here, zero⟩) map d
      · simp only [zero, if_false]
        exact .passed _ here rfl (not_jumps_of_open here zero)
    | loopClose =>
      by_cases zero : m.tape.current = 0
      · simp only [zero, if_true]
        exact .passed _ here rfl (not_jumps_of_close here zero)
      · simp only [zero, if_false]
        exact jump_case (.inr ⟨here, zero⟩) map d

-- ============================================================================
-- What a step does to the tape
-- ============================================================================

/-- A step changes no cell but the current one. -/
theorem step_cell (p : Program) (map : BracketMap) (d : δ) {place : Place}
    (other : place ≠ m.tape.head) :
    (step p map m d).machine.tape.cell place = m.tape.cell place := by
  have done := step_case p map m d
  generalize step p map m d = turn at done ⊢
  cases done with
  | worked i => exact i.cell_work other
  | took here unit => exact (m.tape.cell_store unit place).trans (if_neg other)
  | halted | wrote | unwritten | starved | unread | passed | jumped | lost => rfl

/-- A step moves the head by at most one place. -/
theorem step_head (p : Program) (map : BracketMap) (m : Machine) (d : δ) :
    (step p map m d).machine.tape.head = m.tape.head ∨
      (step p map m d).machine.tape.head = m.tape.head.right ∨
      (step p map m d).machine.tape.head = m.tape.head.left := by
  have done := step_case p map m d
  generalize step p map m d = turn at done ⊢
  cases done with
  | worked i => exact i.head_work m.tape
  | took | halted | wrote | unwritten | starved | unread | passed | jumped | lost => exact .inl rfl

-- ============================================================================
-- What is asked of the device
-- ============================================================================

/-- The device after the next instruction: written to once by `.`, read once by `,`,
    and left alone by every other. -/
def consulted (p : Program) (m : Machine) (d : δ) : δ :=
  if p.get? m.ip = some .output then (Device.write m.tape.current d).2
  else if p.get? m.ip = some .input then (Device.read d).2
  else d

theorem consulted_of_output (here : p.get? m.ip = some .output) (d : δ) :
    consulted p m d = (Device.write m.tape.current d).2 :=
  if_pos here

theorem consulted_of_input (here : p.get? m.ip = some .input) (d : δ) :
    consulted p m d = (Device.read d).2 := by
  rw [consulted, here]
  rfl

theorem consulted_of_outside (outside : p.size ≤ m.ip) (d : δ) : consulted p m d = d := by
  rw [consulted, Program.get?_eq_none_of_le outside]
  rfl

/-- An instruction that works on the tape or is a bracket asks for nothing. -/
theorem consulted_of_quiet {i : Instruction} (here : p.get? m.ip = some i)
    (quiet : i.isArithmetic = true ∨ i.isBracket = true) (d : δ) : consulted p m d = d := by
  have silent : i ≠ .output := by
    rintro rfl
    obtain plain | bracket := quiet
    · cases plain
    · cases bracket
  have deaf : i ≠ .input := by
    rintro rfl
    obtain plain | bracket := quiet
    · cases plain
    · cases bracket
  rw [consulted, here, if_neg (mt Option.some.inj silent), if_neg (mt Option.some.inj deaf)]

theorem consulted_of_jumps (jumps : Jumps p m) (d : δ) : consulted p m d = d := by
  obtain ⟨i, here, bracket⟩ := jumps.exists_bracket
  exact consulted_of_quiet here (.inr bracket) d

theorem StepCase.device_eq {turn : Turn δ} (done : StepCase p map m d turn) :
    turn.device = consulted p m d := by
  cases done with
  | halted outside => exact (consulted_of_outside outside d).symm
  | worked i here plain => exact (consulted_of_quiet here (.inl plain) d).symm
  | wrote here d' written =>
    rw [consulted_of_output here, written]
    rfl
  | unwritten here e d' refused => rw [consulted_of_output here, refused]
  | took here unit d' given =>
    rw [consulted_of_input here, given]
    rfl
  | starved here d' nothing => rw [consulted_of_input here, nothing]
  | unread here e d' refused => rw [consulted_of_input here, refused]
  | passed i here bracket => exact (consulted_of_quiet here (.inr bracket) d).symm
  | jumped jumps => exact (consulted_of_jumps jumps d).symm
  | lost jumps => exact (consulted_of_jumps jumps d).symm

theorem step_device (p : Program) (map : BracketMap) (m : Machine) (d : δ) :
    (step p map m d).device = consulted p m d :=
  (step_case p map m d).device_eq

/-- What the next instruction writes. -/
def emitted (p : Program) (m : Machine) : List UInt8 :=
  if p.get? m.ip = some .output then [m.tape.current] else []

theorem length_emitted (p : Program) (m : Machine) :
    (emitted p m).length = if p.get? m.ip = some .output then 1 else 0 := by
  unfold emitted
  by_cases here : p.get? m.ip = some .output
  · simp only [here, if_true, List.length_singleton]
  · simp only [here, if_false, List.length_nil]

-- ============================================================================
-- Fewer cases
-- ============================================================================

/-- What a step of a machine can leave. -/
inductive Stepped (p : Program) (map : BracketMap) (m : Machine) (d : δ) : Turn δ → Prop where
  /-- There is no instruction. -/
  | halted (outside : p.size ≤ m.ip) : Stepped p map m d ⟨.ok .halted, m, d⟩
  /-- The instruction is carried out and the next one follows. -/
  | carried (inside : m.ip < p.size) (tape : Tape) (d' : δ) :
    Stepped p map m d (succeed p { m with tape } m.ip d')
  /-- A bracket jumps to its partner, and the one behind that follows. -/
  | jumped (inside : m.ip < p.size) (partner : Nat) (paired : map.partner? m.ip = some partner) :
    Stepped p map m d (succeed p m partner d)
  /-- A bracket has no partner in the map. -/
  | lost (i : Instruction) (here : p.get? m.ip = some i) (bracket : i.isBracket = true)
    (unpaired : map.partner? m.ip = none) : Stepped p map m d ⟨.error (.noPartner m.ip), m, d⟩
  /-- There is no input. -/
  | starved (here : p.get? m.ip = some .input) (d' : δ)
    (nothing : Device.read d = (.ok none, d')) :
    Stepped p map m d ⟨.error (.noInput m.ip), m, d'⟩
  /-- The device refuses. -/
  | refused (inside : m.ip < p.size) (e : DeviceError) (d' : δ) :
    Stepped p map m d ⟨.error (.device e m.ip), m, d'⟩

theorem StepCase.stepped {turn : Turn δ} (done : StepCase p map m d turn) :
    Stepped p map m d turn := by
  cases done with
  | halted outside => exact .halted outside
  | worked i here => exact .carried (Program.lt_size_of_get? here) _ d
  | wrote here d' => exact .carried (Program.lt_size_of_get? here) m.tape d'
  | unwritten here e d' => exact .refused (Program.lt_size_of_get? here) e d'
  | took here unit d' => exact .carried (Program.lt_size_of_get? here) (m.tape.store unit) d'
  | starved here d' nothing => exact .starved here d' nothing
  | unread here e d' => exact .refused (Program.lt_size_of_get? here) e d'
  | passed i here => exact .carried (Program.lt_size_of_get? here) m.tape d
  | jumped jumps partner paired =>
    obtain ⟨i, here, -⟩ := jumps.exists_bracket
    exact .jumped (Program.lt_size_of_get? here) partner paired
  | lost jumps unpaired =>
    obtain ⟨i, here, bracket⟩ := jumps.exists_bracket
    exact .lost i here bracket unpaired

theorem step_stepped (p : Program) (map : BracketMap) (m : Machine) (d : δ) :
    Stepped p map m d (step p map m d) :=
  (step_case p map m d).stepped

omit [Device δ] in
theorem status_eq_halted_iff (m : Machine) (p : Program) :
    m.status p = .halted ↔ p.size ≤ m.ip := by
  by_cases inside : m.ip < p.size
  · simp [status, inside]
  · simp [status, inside, Nat.le_of_not_lt inside]

theorem step_of_outside (outside : p.size ≤ m.ip) : step p map m d = ⟨.ok .halted, m, d⟩ := by
  simp only [step, Program.get?_eq_none_of_le outside]

/-- An instruction that was carried out is counted, and the answer says whether
    there is one to go on with. -/
theorem step_ok {status : Status} (inside : m.ip < p.size)
    (h : step p map m d = ⟨.ok status, m', d'⟩) :
    status = m'.status p ∧ m'.steps = m.steps + 1 := by
  have stepped := step_stepped p map m d
  rw [h] at stepped
  cases stepped with
  | halted outside => omega
  | carried => exact ⟨rfl, rfl⟩
  | jumped => exact ⟨rfl, rfl⟩

/-- A step that fails leaves the machine as it was. -/
theorem step_error {fault : Fault} (h : step p map m d = ⟨.error fault, m', d'⟩) :
    m' = m ∧ m.ip < p.size ∧ fault.report.position? = some m.ip := by
  have stepped := step_stepped p map m d
  rw [h] at stepped
  cases stepped with
  | lost i here => exact ⟨rfl, Program.lt_size_of_get? here, rfl⟩
  | starved here => exact ⟨rfl, Program.lt_size_of_get? here, rfl⟩
  | refused inside => exact ⟨rfl, inside, rfl⟩

/-- Only inside the program a step leaves a machine that goes on. -/
theorem inside_of_running (h : step p map m d = ⟨.ok .running, m', d'⟩) : m.ip < p.size := by
  rcases Nat.lt_or_ge m.ip p.size with inside | outside
  · exact inside
  · rw [step_of_outside outside] at h
    cases h

/-- A step lacks input only where the instruction asks for it and there is none. -/
theorem step_noInput {pos : Nat} (h : step p map m d = ⟨.error (.noInput pos), m', d'⟩) :
    p.get? m.ip = some .input ∧ Device.read d = (.ok none, d') := by
  have stepped := step_stepped p map m d
  rw [h] at stepped
  cases stepped with
  | starved here _ nothing => exact ⟨here, nothing⟩

end Machine

end NoteTape
