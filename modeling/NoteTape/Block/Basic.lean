/-
  NoteTape.Block.Basic

  Programs with their loops nested. A `Block` is a sequence of actions and loops,
  a loop being a block again; `Block.flatten` writes it as a sequence of
  instructions, a loop as its body between two brackets.
-/

import NoteTape.Instruction

namespace NoteTape

/-- The instructions that are no brackets. -/
inductive Action where
  | right
  | left
  | increment
  | decrement
  | output
  | input
  deriving DecidableEq, Repr, Inhabited

/-- The instruction an action is written as. -/
def Action.instruction : Action → Instruction
  | .right => .right
  | .left => .left
  | .increment => .increment
  | .decrement => .decrement
  | .output => .output
  | .input => .input

@[simp] theorem Action.isBracket_instruction (a : Action) : a.instruction.isBracket = false := by
  cases a <;> rfl

/-- A sequence of actions and loops. -/
inductive Block where
  /-- Nothing more is done. -/
  | done
  /-- An action, then the rest. -/
  | act (action : Action) (next : Block)
  /-- A loop around a body, then the rest. -/
  | loop (body next : Block)
  deriving DecidableEq, Repr, Inhabited

namespace Block

/-- The instructions a block is written as. -/
def flatten : Block → List Instruction
  | .done => []
  | .act a next => a.instruction :: next.flatten
  | .loop body next => .loopOpen :: (body.flatten ++ .loopClose :: next.flatten)

/-- How many instructions a block is written as. -/
def size : Block → Nat
  | .done => 0
  | .act _ next => next.size + 1
  | .loop body next => body.size + next.size + 2

@[simp] theorem length_flatten (b : Block) : b.flatten.length = b.size := by
  induction b with
  | done => rfl
  | act a next ih => simp [flatten, size, ih]
  | loop body next ihBody ihNext =>
    simp only [flatten, size, List.length_cons, List.length_append, ihBody, ihNext]
    omega

end Block

end NoteTape
