/-
  NoteTape.Proofs.Tape.Rotation

  Every operation on a tape commutes with turning it: the head moves over the place
  where the last cell meets the first as it does anywhere else. A tape of zeros
  that is turned is the same tape with its head elsewhere.
-/

import NoteTape.Tape.Rotation

namespace NoteTape

namespace Place

theorem val_shift (p : Place) (k : Int) : ((p.shift k).val : Int) = (p.val + k) % tapeSize := by
  have pos : (0 : Int) < tapeSize := Int.natCast_pos.2 tapeSize_pos
  have nonneg := Int.emod_nonneg (p.val + k) (Int.ne_of_gt pos)
  rw [shift, val_around, Int.natCast_emod, Int.toNat_of_nonneg nonneg, Int.emod_emod]

theorem ext_val {p q : Place} (same : (p.val : Int) = q.val) : p = q :=
  Fin.ext (Int.ofNat_inj.1 same)

theorem shift_shift (p : Place) (k l : Int) : (p.shift k).shift l = p.shift (k + l) := by
  apply ext_val
  rw [val_shift, val_shift, val_shift, Int.emod_add_emod, Int.add_assoc]

theorem shift_zero (p : Place) : p.shift 0 = p := by
  have inside : (p.val : Int) < tapeSize := Int.ofNat_lt.2 p.isLt
  apply ext_val
  rw [val_shift, Int.add_zero, Int.emod_eq_of_lt (Int.natCast_nonneg _) inside]

theorem right_eq_shift (p : Place) : p.right = p.shift 1 := by
  apply ext_val
  rw [val_shift, val_right, Int.natCast_emod, Int.natCast_add, Int.natCast_one]

/-- Going left is undone by going right, so it is a shift by one as well. -/
theorem left_eq_shift (p : Place) : p.left = p.shift (-1) := by
  have back : (p.shift (-1)).right = p := by
    rw [right_eq_shift, shift_shift, Int.add_left_neg, shift_zero]
  rw [← left_right (p.shift (-1)), back]

theorem shift_eq_iff (p q : Place) (k : Int) : p = q.shift k ↔ p.shift (-k) = q := by
  constructor
  · rintro rfl
    rw [shift_shift, Int.add_right_neg, shift_zero]
  · rintro rfl
    rw [shift_shift, Int.add_left_neg, shift_zero]

end Place

namespace Tape

variable {t : Tape} {k : Int}

/-- The cell that stood at a place stands as many places further on. -/
theorem cell_rotate_shift (t : Tape) (k : Int) (p : Place) :
    (t.rotate k).cell (p.shift k) = t.cell p := by
  rw [cell_rotate, Place.shift_shift, Int.add_right_neg, Place.shift_zero]

theorem current_rotate (t : Tape) (k : Int) : (t.rotate k).current = t.current :=
  cell_rotate_shift t k t.head

theorem moveRight_rotate (t : Tape) (k : Int) :
    (t.rotate k).moveRight = t.moveRight.rotate k := by
  apply ext_cell
  · show (t.head.shift k).right = t.head.right.shift k
    rw [Place.right_eq_shift, Place.right_eq_shift, Place.shift_shift, Place.shift_shift,
      Int.add_comm]
  · intro p
    rw [cell_moveRight, cell_rotate, cell_rotate, cell_moveRight]

theorem moveLeft_rotate (t : Tape) (k : Int) : (t.rotate k).moveLeft = t.moveLeft.rotate k := by
  apply ext_cell
  · show (t.head.shift k).left = t.head.left.shift k
    rw [Place.left_eq_shift, Place.left_eq_shift, Place.shift_shift, Place.shift_shift,
      Int.add_comm]
  · intro p
    rw [cell_moveLeft, cell_rotate, cell_rotate, cell_moveLeft]

theorem store_rotate (t : Tape) (k : Int) (value : UInt8) :
    (t.rotate k).store value = (t.store value).rotate k := by
  apply ext_cell
  · rfl
  · intro p
    simp only [cell_store, cell_rotate, head_rotate, Place.shift_eq_iff]

theorem rotate_zero (t : Tape) : t.rotate 0 = t := by
  apply ext_cell
  · exact Place.shift_zero t.head
  · intro p
    rw [cell_rotate, Int.neg_zero, Place.shift_zero]

/-- On a tape of zeros a move of the head cannot be told from a turn of the tape. -/
theorem moveRight_rotate_blank (k : Int) : (blank.rotate k).moveRight = blank.rotate (k + 1) := by
  apply ext_cell
  · show (blank.head.shift k).right = blank.head.shift (k + 1)
    rw [Place.right_eq_shift, Place.shift_shift]
  · intro p
    rw [cell_moveRight, cell_rotate, cell_rotate, cell_blank, cell_blank]

theorem moveLeft_rotate_blank (k : Int) : (blank.rotate k).moveLeft = blank.rotate (k - 1) := by
  apply ext_cell
  · show (blank.head.shift k).left = blank.head.shift (k - 1)
    rw [Place.left_eq_shift, Place.shift_shift, ← Int.sub_eq_add_neg]
  · intro p
    rw [cell_moveLeft, cell_rotate, cell_rotate, cell_blank, cell_blank]

end Tape

end NoteTape
