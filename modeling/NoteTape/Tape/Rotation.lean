/-
  NoteTape.Tape.Rotation

  A tape turned around by a number of cells. The tape has no seam, so nothing
  that a program does can tell a tape from a turned one.
-/

import NoteTape.Tape.Basic

namespace NoteTape

/-- The place so many cells to the right, or to the left for a negative number. -/
def Place.shift (p : Place) (k : Int) : Place := Place.around ((p.val + k) % tapeSize).toNat

/-- The tape with its head and every cell moved so many cells to the right. -/
def Tape.rotate (t : Tape) (k : Int) : Tape :=
  { head := t.head.shift k, cells := Vector.ofFn fun p => t.cell (Place.shift p (-k)) }

@[simp] theorem Tape.head_rotate (t : Tape) (k : Int) : (t.rotate k).head = t.head.shift k := rfl

@[simp] theorem Tape.cell_rotate (t : Tape) (k : Int) (p : Place) :
    (t.rotate k).cell p = t.cell (p.shift (-k)) := by
  simp [rotate, cell]

end NoteTape
