/-
  NoteTape.Machine.Basic

  The tape machine: a tape and the position of the next instruction.
  `Machine.step` carries out one instruction; when it fails, the machine is as it
  was before.
-/

import NoteTape.Brackets.Basic
import NoteTape.Device.Basic
import NoteTape.Tape.Basic

namespace NoteTape

/-- The state of a run. -/
structure Machine where
  /-- The position of the next instruction. -/
  ip : Nat
  tape : Tape
  /-- How many instructions were carried out. -/
  steps : Nat
  deriving DecidableEq

/-- Whether there is an instruction to go on with. -/
inductive Status where
  | running
  | halted
  deriving DecidableEq, Repr, Inhabited

/-- What one step of a machine leaves. -/
structure Turn (δ : Type) where
  answer : Except Fault Status
  machine : Machine
  device : δ

namespace Machine

/-- A machine before its first instruction, on a tape of zeros. -/
def fresh : Machine := { ip := 0, tape := .blank, steps := 0 }

instance : Inhabited Machine := ⟨fresh⟩

/-- The machine whose next instruction is the one behind position `pos`, with one
    more instruction carried out. -/
def goPast (m : Machine) (pos : Nat) : Machine :=
  { m with ip := pos + 1, steps := m.steps + 1 }

/-- Whether the program has an instruction for the machine. -/
def status (m : Machine) (p : Program) : Status :=
  if m.ip < p.size then .running else .halted

variable {δ : Type}

/-- An instruction was carried out, and the one behind position `pos` is next. -/
def succeed (p : Program) (m : Machine) (pos : Nat) (d : δ) : Turn δ :=
  let m := m.goPast pos
  ⟨.ok (m.status p), m, d⟩

/-- Goes on behind the partner of the current bracket. -/
def jump (p : Program) (map : BracketMap) (m : Machine) (d : δ) : Turn δ :=
  match map.partner? m.ip with
  | some partner => succeed p m partner d
  | none => ⟨.error (.noPartner m.ip), m, d⟩

/-- Carries out the next instruction. A machine without one is halted and stays
    as it is, and so does a machine whose instruction fails. -/
def step [Device δ] (p : Program) (map : BracketMap) (m : Machine) (d : δ) : Turn δ :=
  match p.get? m.ip with
  | none => ⟨.ok .halted, m, d⟩
  | some .right => succeed p { m with tape := m.tape.moveRight } m.ip d
  | some .left => succeed p { m with tape := m.tape.moveLeft } m.ip d
  | some .increment => succeed p { m with tape := m.tape.store (m.tape.current + 1) } m.ip d
  | some .decrement => succeed p { m with tape := m.tape.store (m.tape.current - 1) } m.ip d
  | some .output =>
    match Device.write m.tape.current d with
    | (.ok (), d) => succeed p m m.ip d
    | (.error e, d) => ⟨.error (.device e m.ip), m, d⟩
  | some .input =>
    match Device.read d with
    | (.ok (some unit), d) => succeed p { m with tape := m.tape.store unit } m.ip d
    | (.ok none, d) => ⟨.error (.noInput m.ip), m, d⟩
    | (.error e, d) => ⟨.error (.device e m.ip), m, d⟩
  | some .loopOpen => if m.tape.current = 0 then jump p map m d else succeed p m m.ip d
  | some .loopClose => if m.tape.current = 0 then succeed p m m.ip d else jump p map m d

end Machine

end NoteTape
