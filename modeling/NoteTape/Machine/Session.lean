/-
  NoteTape.Machine.Session

  The machines that can come about when one machine is used again and again, by
  single steps and by runs, with changing programs, bracket maps and devices, and
  whether or not the calls succeed.
-/

import NoteTape.Machine.Run

namespace NoteTape.Machine

/-- A bracket map that was made from a program of at most so many instructions,
    or from none. -/
def MadeWithin (most : Nat) (map : BracketMap) : Prop :=
  map = .empty ∨ ∃ p : Program, p.size ≤ most ∧ BracketMap.ofProgram p = .ok map

/-- A machine that comes about from a fresh one by calls with programs and
    bracket maps of which all are allowed. -/
inductive Reached (allowed : Program → BracketMap → Prop) : Machine → Prop where
  | fresh : Reached allowed .fresh
  | step {δ : Type} [Device δ] {p : Program} {map : BracketMap} {m : Machine}
    (use : allowed p map) (before : Reached allowed m) (d : δ) :
    Reached allowed (Machine.step p map m d).machine
  | run {δ : Type} [Device δ] {p : Program} {map : BracketMap} {m m' : Machine} {d d' : δ}
    {most : Nat} {answer : Except Fault Unit} (use : allowed p map) (before : Reached allowed m)
    (ended : Machine.run p map most m d = .ended answer m' d') : Reached allowed m'

end NoteTape.Machine
