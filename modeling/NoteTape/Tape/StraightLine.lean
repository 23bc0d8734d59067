/-
  NoteTape.Tape.StraightLine

  Where the head goes and what the cells gain under instructions that are carried
  out one after another, said by counting. The `drift` of instructions is how far
  they move the head; a change counts for the cell whose place is the drift of
  the instructions before it, around the tape.
-/

import NoteTape.Instruction
import NoteTape.Tape.Basic

namespace NoteTape

/-- Whether an instruction only moves the head or changes a cell. -/
def Instruction.isArithmetic : Instruction → Bool
  | .right | .left | .increment | .decrement => true
  | _ => false

/-- How far instructions move the head to the right. -/
def drift (is : List Instruction) : Int := is.count .right - is.count .left

@[simp] theorem drift_nil : drift [] = 0 := rfl

theorem drift_append (is js : List Instruction) : drift (is ++ js) = drift is + drift js := by
  simp only [drift, List.count_append]
  omega

/-- How often an instruction stands where the head is at a place. -/
def countAt (is : List Instruction) (i : Instruction) (place : Place) : Nat :=
  (List.range is.length).countP fun n =>
    is[n]? = some i && drift (is.take n) % tapeSize = (place.val : Int)

/-- What the cell at a place gains. -/
def gain (is : List Instruction) (place : Place) : Int :=
  countAt is .increment place - countAt is .decrement place

end NoteTape
