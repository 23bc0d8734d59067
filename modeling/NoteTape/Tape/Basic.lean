/-
  NoteTape.Tape.Basic

  The circular tape of byte cells and the head that stands on one of them. A
  tape is read through `Tape.cell`; what each operation does to the cells and to
  the head is said by the lemmas beside it.
-/

namespace NoteTape

/-- The number of cells on the tape. -/
def tapeSize : Nat := 30000

theorem tapeSize_pos : 0 < tapeSize := by decide

/-- A place on the tape. -/
abbrev Place := Fin tapeSize

namespace Place

/-- The place at a number, counted around the tape. -/
def around (n : Nat) : Place := ⟨n % tapeSize, Nat.mod_lt n tapeSize_pos⟩

/-- The next place to the right; the first follows the last. -/
def right (p : Place) : Place := around (p.val + 1)

/-- The next place to the left, which is also reached by going right past all
    other places; the last precedes the first. -/
def left (p : Place) : Place := around (tapeSize - 1 + p.val)

theorem val_around (n : Nat) : (around n).val = n % tapeSize := rfl

theorem val_right (p : Place) : p.right.val = (p.val + 1) % tapeSize := rfl

theorem val_left (p : Place) : p.left.val = (tapeSize - 1 + p.val) % tapeSize := rfl

theorem left_right (p : Place) : p.right.left = p := by
  have hpos := tapeSize_pos
  apply Fin.ext
  rw [val_left, val_right, Nat.add_mod_mod,
    show tapeSize - 1 + (p.val + 1) = p.val + tapeSize by omega, Nat.add_mod_right]
  exact Nat.mod_eq_of_lt p.isLt

end Place

/-- A tape and the place of its head. -/
structure Tape where
  head : Place
  cells : Vector UInt8 tapeSize
  deriving DecidableEq

namespace Tape

/-- A tape of zeros with its head on the first cell. -/
def blank : Tape := { head := Place.around 0, cells := Vector.replicate tapeSize 0 }

instance : Inhabited Tape := ⟨blank⟩

/-- The value of the cell at a place. -/
def cell (t : Tape) (p : Place) : UInt8 := t.cells[p]

/-- The value of the cell under the head. -/
def current (t : Tape) : UInt8 := t.cell t.head

/-- The tape with another value in the cell under the head. -/
def store (t : Tape) (value : UInt8) : Tape := { t with cells := t.cells.set t.head value }

/-- The tape with its head one cell further to the right. -/
def moveRight (t : Tape) : Tape := { t with head := t.head.right }

/-- The tape with its head one cell further to the left. -/
def moveLeft (t : Tape) : Tape := { t with head := t.head.left }

@[simp] theorem cell_blank (p : Place) : blank.cell p = 0 := by
  simp [blank, cell]

@[simp] theorem head_store (t : Tape) (value : UInt8) : (t.store value).head = t.head := rfl

@[simp] theorem head_moveRight (t : Tape) : t.moveRight.head = t.head.right := rfl

@[simp] theorem head_moveLeft (t : Tape) : t.moveLeft.head = t.head.left := rfl

@[simp] theorem cell_moveRight (t : Tape) (p : Place) : t.moveRight.cell p = t.cell p := rfl

@[simp] theorem cell_moveLeft (t : Tape) (p : Place) : t.moveLeft.cell p = t.cell p := rfl

/-- Storing changes the cell under the head and no other. -/
theorem cell_store (t : Tape) (value : UInt8) (p : Place) :
    (t.store value).cell p = if p = t.head then value else t.cell p := by
  simp only [cell, store, Fin.getElem_fin, Vector.getElem_set, Fin.ext_iff, eq_comm]

@[simp] theorem current_store (t : Tape) (value : UInt8) : (t.store value).current = value := by
  simp [current, cell_store]

/-- A tape is determined by its head and its cells. -/
theorem ext_cell {t u : Tape} (head : t.head = u.head) (cells : ∀ p, t.cell p = u.cell p) :
    t = u := by
  obtain ⟨_, tc⟩ := t
  obtain ⟨_, uc⟩ := u
  obtain rfl : tc = uc := Vector.ext fun i h => cells ⟨i, h⟩
  exact congrArg (Tape.mk · tc) head

end Tape

end NoteTape
