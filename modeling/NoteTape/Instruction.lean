/-
  NoteTape.Instruction

  The instruction set of the tape machine: eight instructions, each written as
  one character. `Instruction.symbol` and `Instruction.ofSymbol?` are inverse to
  each other; every other character is no instruction.
-/

namespace NoteTape

/-- One instruction of the tape machine. Operands are implicit: an instruction
    works on the cell under the head, and a bracket jumps to its partner. -/
inductive Instruction where
  /-- `>` moves the head one cell to the right. -/
  | right
  /-- `<` moves the head one cell to the left. -/
  | left
  /-- `+` adds one to the current cell. -/
  | increment
  /-- `-` takes one from the current cell. -/
  | decrement
  /-- `.` writes the current cell to the output. -/
  | output
  /-- `,` reads one unit of input into the current cell. -/
  | input
  /-- `[` jumps past its partner if the current cell is zero. -/
  | loopOpen
  /-- `]` jumps back past its partner if the current cell is not zero. -/
  | loopClose
  deriving DecidableEq, Repr, Inhabited

namespace Instruction

/-- The eight instructions, in the order of their symbols `><+-.,[]`. -/
def all : List Instruction :=
  [.right, .left, .increment, .decrement, .output, .input, .loopOpen, .loopClose]

/-- The character an instruction is written as. -/
def symbol : Instruction → Char
  | .right => '>'
  | .left => '<'
  | .increment => '+'
  | .decrement => '-'
  | .output => '.'
  | .input => ','
  | .loopOpen => '['
  | .loopClose => ']'

/-- The instruction a character stands for, if it stands for one. -/
def ofSymbol? (c : Char) : Option Instruction :=
  all.find? fun i => i.symbol = c

/-- The two instructions that take part in bracket pairing. -/
def isBracket : Instruction → Bool
  | .loopOpen | .loopClose => true
  | _ => false

@[simp] theorem ofSymbol?_symbol (i : Instruction) : ofSymbol? i.symbol = some i := by
  cases i <;> rfl

theorem symbol_of_ofSymbol? {c : Char} {i : Instruction} (h : ofSymbol? c = some i) :
    i.symbol = c := by
  simpa using List.find?_some h

end Instruction

end NoteTape
