/-
  NoteTape.Machine.Run

  A machine run until it halts or fails. A run that halts ends with a flush of
  the device. There is no bound on the number of steps a program takes, so a run
  is given a number of steps it may take at most, and being unfinished is an
  outcome of its own; `Machine.Ends` and `Machine.Diverges` say what becomes of a
  run that is given as many steps as it wants.
-/

import NoteTape.Machine.Basic

namespace NoteTape

/-- What becomes of a run. -/
inductive Run (δ : Type) where
  /-- The program halted, or a fault stopped it. -/
  | ended (answer : Except Fault Unit) (machine : Machine) (device : δ)
  /-- The steps that were allowed are used up. -/
  | unfinished (machine : Machine) (device : δ)

namespace Machine

variable {δ : Type} [Device δ]

/-- The end of a run that halts: a flush. -/
def finish (m : Machine) (d : δ) : Run δ :=
  match Device.flush d with
  | (.ok (), d) => .ended (.ok ()) m d
  | (.error e, d) => .ended (.error (.device e m.ip)) m d

/-- Runs for at most the given number of steps. -/
def run (p : Program) (map : BracketMap) : Nat → Machine → δ → Run δ
  | 0, m, d => .unfinished m d
  | most + 1, m, d =>
    match step p map m d with
    | ⟨.ok .running, m, d⟩ => run p map most m d
    | ⟨.ok .halted, m, d⟩ => finish m d
    | ⟨.error fault, m, d⟩ => .ended (.error fault) m d

/-- Given enough steps, the run ends so. -/
def Ends (p : Program) (map : BracketMap) (m : Machine) (d : δ)
    (answer : Except Fault Unit) (m' : Machine) (d' : δ) : Prop :=
  ∃ most, run p map most m d = .ended answer m' d'

/-- However many steps it is given, the run does not end. -/
def Diverges (p : Program) (map : BracketMap) (m : Machine) (d : δ) : Prop :=
  ∀ most, ∃ m' d', run p map most m d = .unfinished m' d'

end Machine

end NoteTape
