/-
  NoteTape.Command.Play

  The loop in which the command line runs a program. It looks at the step limit
  before each instruction and flushes the output before each read, so that nobody
  is asked for input with output still in the buffer; however it ends, what is in
  the buffer is flushed.
-/

import NoteTape.Machine.Basic

namespace NoteTape.Command

/-- Why the loop ended. -/
inductive Ending where
  /-- The program halted. -/
  | halted
  /-- A fault stopped the program. -/
  | fault (f : Fault)
  /-- The output could not be flushed. -/
  | refused (e : DeviceError)
  /-- So many steps were allowed, and the instruction at this position is next. -/
  | stepLimit (limit position : Nat)
  deriving DecidableEq, Repr, Inhabited

/-- What one round of the loop leaves. -/
inductive Round (δ : Type) where
  | more (machine : Machine) (device : δ)
  | over (ending : Ending) (machine : Machine) (device : δ)

/-- What the loop leaves. -/
inductive Played (δ : Type) where
  | ended (ending : Ending) (machine : Machine) (device : δ)
  /-- The rounds that were allowed are used up. -/
  | unfinished (machine : Machine) (device : δ)

variable {δ : Type} [Device δ]

/-- Whether no step is left. -/
def limitReached (limit : Option Nat) (m : Machine) : Bool :=
  match limit with
  | some most => most ≤ m.steps
  | none => false

/-- Whether the next instruction is going to read input. -/
def readsNext (p : Program) (m : Machine) : Bool := p.get? m.ip = some .input

/-- A flush where the next instruction is going to read, and nothing elsewhere. -/
def flushBeforeRead (p : Program) (m : Machine) (d : δ) : Except DeviceError Unit × δ :=
  if readsNext p m then Device.flush d else (.ok (), d)

/-- One round: the step limit, the flush before a read, one instruction. -/
def round (limit : Option Nat) (p : Program) (map : BracketMap) (m : Machine) (d : δ) :
    Round δ :=
  if limitReached limit m then .over (.stepLimit (limit.getD 0) m.ip) m d
  else match flushBeforeRead p m d with
    | (.error e, d) => .over (.refused e) m d
    | (.ok (), d) =>
      match Machine.step p map m d with
      | ⟨.ok .running, m, d⟩ => .more m d
      | ⟨.ok .halted, m, d⟩ => .over .halted m d
      | ⟨.error f, m, d⟩ => .over (.fault f) m d

/-- The last flush. A loop that ended well has not if it fails. -/
def close (ending : Ending) (m : Machine) (d : δ) : Played δ :=
  match Device.flush d, ending with
  | (.error e, d), .halted | (.error e, d), .stepLimit _ _ => .ended (.refused e) m d
  | (_, d), ending => .ended ending m d

/-- The loop, for at most the given number of rounds. -/
def play (limit : Option Nat) (p : Program) (map : BracketMap) :
    (rounds : Nat) → Machine → δ → Played δ
  | 0, m, d => .unfinished m d
  | rounds + 1, m, d =>
    match round limit p map m d with
    | .more m d => play limit p map rounds m d
    | .over ending m d => close ending m d

end NoteTape.Command
