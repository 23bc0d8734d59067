/-
  NoteTape.Program

  A program is a finite sequence of instructions. Its text is the sequence of
  their symbols; a text is read by skipping every character that is no symbol,
  so anything else in it is a comment.
-/

import NoteTape.Instruction

namespace NoteTape

/-- A finite sequence of instructions, addressed by position from zero. -/
structure Program where
  instructions : Array Instruction
  deriving DecidableEq, Repr, Inhabited

namespace Program

/-- The program without instructions. -/
def empty : Program := ⟨#[]⟩

/-- The program that holds the given instructions in order. -/
def ofList (is : List Instruction) : Program := ⟨is.toArray⟩

/-- The instructions in order. -/
def toList (p : Program) : List Instruction := p.instructions.toList

/-- The number of instructions. -/
def size (p : Program) : Nat := p.instructions.size

/-- Whether there is no instruction. -/
def isEmpty (p : Program) : Bool := p.instructions.isEmpty

/-- The instruction at a position, if the position is inside the program. -/
def get? (p : Program) (pos : Nat) : Option Instruction := p.instructions[pos]?

/-- The program with one more instruction at its end. -/
def push (p : Program) (i : Instruction) : Program := ⟨p.instructions.push i⟩

/-- The instructions of `p`, then those of `q`. -/
def append (p q : Program) : Program := ⟨p.instructions ++ q.instructions⟩

instance : Append Program := ⟨append⟩

/-- The instructions that satisfy a test, in order. -/
def filter (keep : Instruction → Bool) (p : Program) : Program := ⟨p.instructions.filter keep⟩

/-- Reads a text: each symbol is an instruction, every other character is
    skipped. -/
def ofText (text : String) : Program :=
  ofList (text.toList.filterMap Instruction.ofSymbol?)

/-- The symbols of the instructions in order. -/
def toText (p : Program) : String :=
  String.ofList (p.toList.map Instruction.symbol)

@[simp] theorem toList_ofList (is : List Instruction) : (ofList is).toList = is := rfl

@[simp] theorem toList_empty : empty.toList = [] := rfl

@[simp] theorem toList_push (p : Program) (i : Instruction) :
    (p.push i).toList = p.toList ++ [i] := by
  simp [toList, push]

@[simp] theorem toList_append (p q : Program) : (p ++ q).toList = p.toList ++ q.toList := by
  show (p.instructions ++ q.instructions).toList = _
  simp [toList]

@[simp] theorem toList_filter (keep : Instruction → Bool) (p : Program) :
    (p.filter keep).toList = p.toList.filter keep := by
  simp [toList, filter]

theorem ofList_append (front behind : List Instruction) :
    ofList (front ++ behind) = ofList front ++ ofList behind := by
  show Program.mk (front ++ behind).toArray = Program.mk (front.toArray ++ behind.toArray)
  rw [List.append_toArray]

theorem length_toList (p : Program) : p.toList.length = p.size := rfl

theorem get?_eq_getElem? (p : Program) (pos : Nat) : p.get? pos = p.toList[pos]? := by
  simp [get?, toList]

theorem lt_size_of_get? {p : Program} {pos : Nat} {i : Instruction}
    (h : p.get? pos = some i) : pos < p.size := by
  rw [get?, Array.getElem?_eq_some_iff] at h
  exact h.1

theorem get?_eq_none_of_le {p : Program} {pos : Nat} (h : p.size ≤ pos) : p.get? pos = none :=
  Array.getElem?_eq_none h

/-- A program is determined by its list of instructions. -/
theorem ext_toList {p q : Program} (h : p.toList = q.toList) : p = q := by
  cases p
  cases q
  exact congrArg Program.mk (Array.toList_inj.mp h)

end Program

end NoteTape
