/-
  NoteTape.Block.Run

  What it means to carry out a block: a loop carries out its body as long as the
  current cell is not zero, and there are no jumps. `Phase.Ends` says how a phase
  that begins at some position ends; `Block.Performs` adds the flush with which a
  program that comes to its end is completed. A block for which there is no end
  goes on forever.

  Every action counts as one step, and so does every entry into a loop and every
  arrival at the end of a body.
-/

import NoteTape.Block.Basic
import NoteTape.Device.Basic
import NoteTape.Fault
import NoteTape.Tape.Basic

namespace NoteTape

/-- The tape, the steps so far, and what the program is wired to. -/
structure State (δ : Type) where
  tape : Tape
  steps : Nat
  device : δ

/-- A state after one more step. -/
def State.tick {δ : Type} (s : State δ) : State δ := { s with steps := s.steps + 1 }

variable {δ : Type} [Device δ]

/-- An action succeeds and leads from one state to another. -/
inductive Action.Acts : Action → State δ → State δ → Prop where
  | right (s : State δ) : Acts .right s { s.tick with tape := s.tape.moveRight }
  | left (s : State δ) : Acts .left s { s.tick with tape := s.tape.moveLeft }
  | increment (s : State δ) :
    Acts .increment s { s.tick with tape := s.tape.store (s.tape.current + 1) }
  | decrement (s : State δ) :
    Acts .decrement s { s.tick with tape := s.tape.store (s.tape.current - 1) }
  | output (s : State δ) (d : δ) (written : Device.write s.tape.current s.device = (.ok (), d)) :
    Acts .output s { s.tick with device := d }
  | input (s : State δ) (unit : UInt8) (d : δ)
    (answered : Device.read s.device = (.ok (some unit), d)) :
    Acts .input s { s.tick with tape := s.tape.store unit, device := d }

/-- An action at a position fails with a fault, which leaves a state. -/
inductive Action.Fails : Action → (pos : Nat) → State δ → Fault → State δ → Prop where
  | output (pos : Nat) (s : State δ) (e : DeviceError) (d : δ)
    (refused : Device.write s.tape.current s.device = (.error e, d)) :
    Fails .output pos s (.device e pos) { s with device := d }
  | noInput (pos : Nat) (s : State δ) (d : δ)
    (nothing : Device.read s.device = (.ok none, d)) :
    Fails .input pos s (.noInput pos) { s with device := d }
  | input (pos : Nat) (s : State δ) (e : DeviceError) (d : δ)
    (refused : Device.read s.device = (.error e, d)) :
    Fails .input pos s (.device e pos) { s with device := d }

/-- What is to be carried out next. -/
inductive Phase where
  /-- A block from its beginning. -/
  | start (block : Block)
  /-- A loop that was entered, from the test whether its body is carried out, and
      what follows the loop. -/
  | test (body next : Block)
  deriving DecidableEq, Repr, Inhabited

/-- A phase at a position, begun in one state, ends with an answer in another. The
    position of a test is that of the bracket that opens the loop. -/
inductive Phase.Ends : Phase → (pos : Nat) → State δ → Except Fault Unit → State δ → Prop where
  /-- Where nothing is to be done nothing happens. -/
  | done (pos : Nat) (s : State δ) : Ends (.start .done) pos s (.ok ()) s
  /-- An action succeeds and the rest is carried out. -/
  | act {a : Action} {next : Block} {pos : Nat} {s s' t : State δ} {answer : Except Fault Unit}
    (acts : a.Acts s s') (rest : Ends (.start next) (pos + 1) s' answer t) :
    Ends (.start (.act a next)) pos s answer t
  /-- An action fails and the rest is left. -/
  | fail {a : Action} {next : Block} {pos : Nat} {s t : State δ} {fault : Fault}
    (fails : a.Fails pos s fault t) : Ends (.start (.act a next)) pos s (.error fault) t
  /-- A loop is entered, which counts as a step. -/
  | loop {body next : Block} {pos : Nat} {s t : State δ} {answer : Except Fault Unit}
    (entered : Ends (.test body next) pos s.tick answer t) :
    Ends (.start (.loop body next)) pos s answer t
  /-- The current cell is zero and the loop is left. -/
  | leave {body next : Block} {pos : Nat} {s t : State δ} {answer : Except Fault Unit}
    (zero : s.tape.current = 0) (rest : Ends (.start next) (pos + body.size + 2) s answer t) :
    Ends (.test body next) pos s answer t
  /-- The current cell is not zero: the body is carried out, which counts as a
      step when its end is reached, and the test is made again. -/
  | again {body next : Block} {pos : Nat} {s s' t : State δ} {answer : Except Fault Unit}
    (nonzero : s.tape.current ≠ 0) (round : Ends (.start body) (pos + 1) s (.ok ()) s')
    (rest : Ends (.test body next) pos s'.tick answer t) :
    Ends (.test body next) pos s answer t
  /-- The current cell is not zero, and a fault stops the body. -/
  | stop {body next : Block} {pos : Nat} {s t : State δ} {fault : Fault}
    (nonzero : s.tape.current ≠ 0) (round : Ends (.start body) (pos + 1) s (.error fault) t) :
    Ends (.test body next) pos s (.error fault) t

/-- A program, begun in one state, ends with an answer in another. -/
inductive Block.Performs (b : Block) (s : State δ) : Except Fault Unit → State δ → Prop where
  /-- The end is reached and the output is flushed. -/
  | finished {t : State δ} {d : δ} (ends : Phase.Ends (.start b) 0 s (.ok ()) t)
    (flushed : Device.flush t.device = (.ok (), d)) : Performs b s (.ok ()) { t with device := d }
  /-- The end is reached and the flush is refused. -/
  | unflushed {t : State δ} {e : DeviceError} {d : δ}
    (ends : Phase.Ends (.start b) 0 s (.ok ()) t) (refused : Device.flush t.device = (.error e, d)) :
    Performs b s (.error (.device e b.size)) { t with device := d }
  /-- A fault stops the program. -/
  | stopped {t : State δ} {fault : Fault} (ends : Phase.Ends (.start b) 0 s (.error fault) t) :
    Performs b s (.error fault) t

end NoteTape
