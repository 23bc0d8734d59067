/-
  NoteTape.Machine.Walk

  A machine followed step by step: up to a number of calls of `Machine.step`, of
  which only the last may halt or fail, with a view of the machine after each.
-/

import NoteTape.Machine.Basic

namespace NoteTape

/-- What can be seen of a machine from outside after a step. -/
structure Glimpse where
  ip : Nat
  head : Place
  cell : UInt8
  deriving DecidableEq

/-- What a number of calls of `Machine.step` leave. -/
structure Walk (δ : Type) where
  /-- What the last call answered, if there was a call. -/
  last : Option (Except Fault Status)
  /-- The machine after each call, a failing one included. -/
  trail : Array Glimpse
  machine : Machine
  device : δ

namespace Machine

/-- What can be seen of the machine from outside. -/
def glimpse (m : Machine) : Glimpse := ⟨m.ip, m.tape.head, m.tape.current⟩

variable {δ : Type} [Device δ]

/-- Goes on with a walk for at most `calls` more calls, as long as the machine
    is running. -/
def walkOn (p : Program) (map : BracketMap) : (calls : Nat) → Walk δ → Walk δ
  | 0, w => w
  | calls + 1, ⟨_, trail, m, d⟩ =>
    match step p map m d with
    | ⟨answer, m, d⟩ =>
      let w := ⟨some answer, trail.push m.glimpse, m, d⟩
      match answer with
      | .ok .running => walkOn p map calls w
      | _ => w

/-- At most `calls` calls of `Machine.step`, up to the first that halts or
    fails. -/
def walk (p : Program) (map : BracketMap) (calls : Nat) (m : Machine) (d : δ) : Walk δ :=
  walkOn p map calls ⟨none, #[], m, d⟩

end Machine

end NoteTape
