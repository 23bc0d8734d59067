/-
  NoteTape.Machine.Advance

  A machine after a number of steps. `Machine.Advances` follows steps that all
  carry out an instruction; `Machine.turns` is what a number of calls of
  `Machine.step` answer, whatever they answer, and `Machine.after` what they leave.
-/

import NoteTape.Machine.Basic

namespace NoteTape.Machine

variable {δ : Type} [Device δ]

/-- So many instructions are carried out one after another, which leads from one
    machine and device to another. -/
inductive Advances (p : Program) (map : BracketMap) : Nat → Machine → δ → Machine → δ → Prop where
  | none (m : Machine) (d : δ) : Advances p map 0 m d m d
  | more {n : Nat} {m m' m'' : Machine} {d d' d'' : δ} {status : Status}
    (inside : m.ip < p.size) (first : step p map m d = ⟨.ok status, m', d'⟩)
    (rest : Advances p map n m' d' m'' d'') : Advances p map (n + 1) m d m'' d''

/-- What so many calls of `Machine.step` leave, each made on what the one before
    left. -/
def turns (p : Program) (map : BracketMap) : Nat → Machine → δ → List (Turn δ)
  | 0, _, _ => []
  | n + 1, m, d =>
    let turn := step p map m d
    turn :: turns p map n turn.machine turn.device

/-- The machine and the device behind so many calls. -/
def after (p : Program) (map : BracketMap) : Nat → Machine → δ → Machine × δ
  | 0, m, d => (m, d)
  | n + 1, m, d =>
    let turn := step p map m d
    after p map n turn.machine turn.device

/-- The places under the head before each of so many calls. -/
def visited (p : Program) (map : BracketMap) : Nat → Machine → δ → List Place
  | 0, _, _ => []
  | n + 1, m, d =>
    let turn := step p map m d
    m.tape.head :: visited p map n turn.machine turn.device

end NoteTape.Machine
