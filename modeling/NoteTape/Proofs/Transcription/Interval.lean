/-
  NoteTape.Proofs.Transcription.Interval

  Intervals in unbounded integers. The difference of two pitches may leave the range
  of a pitch, but the smaller taken from the larger, read as an unsigned word, is the
  difference all the same (`toNat_distance`). So the interval of a pitch above a root
  is the residue of their difference, whichever of the two is higher and however far
  apart they are (`interval_eq_residue`). Residues add up along any third pitch
  (`residue_add_residue`), and so do intervals; and every residue is the interval of
  some pitch (`exists_residue_eq`).
-/

import NoteTape.Transcription.OnePass

namespace NoteTape

/-! ## Residues -/

theorem residue_eq_emod (pitch root : Int) :
    (residue pitch root : Int) = (pitch - root) % octave :=
  Int.toNat_of_nonneg (Int.emod_nonneg (pitch - root) (by decide))

theorem residue_lt (pitch root : Int) : residue pitch root < octave := by
  have lt : (pitch - root) % octave < octave := Int.emod_lt_of_pos (pitch - root) (by decide)
  rw [← residue_eq_emod] at lt
  exact Int.ofNat_lt.1 lt

/-- The way up to a pitch may go by any other, above, between or below the two. -/
theorem residue_add_residue (a b c : Int) :
    (residue a b + residue b c) % octave = residue a c := by
  have through : (a - b) + (b - c) = a - c := by omega
  apply Int.ofNat_inj.1
  calc (((residue a b + residue b c) % octave : Nat) : Int)
      = ((a - b) % octave + (b - c) % octave) % octave := by
        rw [Int.natCast_emod, Int.natCast_add, residue_eq_emod, residue_eq_emod]
    _ = ((a - b) + (b - c)) % octave := (Int.add_emod (a - b) (b - c) octave).symm
    _ = (a - c) % octave := by rw [through]
    _ = residue a c := (residue_eq_emod a c).symm

/-! ## Intervals -/

theorem toNat_sub_of_toInt_le {x y : BitVec 32} (le : x.toInt ≤ y.toInt) :
    ((y - x).toNat : Int) = y.toInt - x.toInt := by
  have hx := x.isLt
  have hy := y.isLt
  rw [BitVec.toInt_eq_toNat_cond, BitVec.toInt_eq_toNat_cond] at *
  rw [BitVec.toNat_sub]
  omega

/-- The lower of two pitches taken from the higher is their difference, also where it
    does not fit a pitch. -/
theorem toNat_toUInt32_sub {a b : Int32} (le : a.toInt ≤ b.toInt) :
    ((b - a).toUInt32.toNat : Int) = b.toInt - a.toInt := by
  show ((b - a).toBitVec.toNat : Int) = b.toBitVec.toInt - a.toBitVec.toInt
  rw [Int32.toBitVec_sub]
  exact toNat_sub_of_toInt_le le

/-- The distance of two pitches is the size of their difference. -/
theorem toNat_distance (a b : Int32) : (distance a b).toNat = (a.toInt - b.toInt).natAbs := by
  rw [distance]
  by_cases below : a < b
  · have lt := Int32.lt_iff_toInt_lt.1 below
    have apart := toNat_toUInt32_sub (Int.le_of_lt lt)
    rw [if_pos below]
    omega
  · have le := Int.not_lt.1 fun lt => below (Int32.lt_iff_toInt_lt.2 lt)
    have apart := toNat_toUInt32_sub le
    rw [if_neg below]
    omega

theorem interval_eq_residue (pitch root : Int32) :
    interval pitch root = residue pitch.toInt root.toInt := by
  rw [interval, toNat_distance, residue, octave]
  by_cases below : pitch < root
  · have lt := Int32.lt_iff_toInt_lt.1 below
    rw [if_pos below]
    omega
  · have le := Int.not_lt.1 fun lt => below (Int32.lt_iff_toInt_lt.2 lt)
    rw [if_neg below]
    omega

-- The two pitches that are farthest apart.
example : interval Int32.minValue Int32.maxValue = 9 := by decide

/-- On every semitone of the octave above a root there is a pitch, if not there then an
    octave below. -/
theorem exists_residue_eq (root : Int32) {n : Nat} (lt : n < octave) :
    ∃ pitch : Int32, residue pitch.toInt root.toInt = n := by
  have low := root.le_toInt
  have high := root.toInt_lt
  rw [octave] at lt
  by_cases room : root.toInt + n < 2 ^ 31
  · refine ⟨Int32.ofInt (root.toInt + n), ?_⟩
    rw [residue, octave, Int32.toInt_ofInt_of_le (by omega) room]
    omega
  · refine ⟨Int32.ofInt (root.toInt + n - 12), ?_⟩
    rw [residue, octave, Int32.toInt_ofInt_of_le (by omega) (by omega)]
    omega

/-- An interval is the difference of its two pitches with the twelve semitones of every
    octave dropped, however far apart they are, and intervals add up in any order of the
    pitches. -/
theorem intervals_add_up (a b : Int32) :
    (interval a b : Int) = (a.toInt - b.toInt) % 12 ∧ interval a b < 12 ∧
      ∀ c : Int32, interval a c = (interval a b + interval b c) % 12 := by
  refine ⟨?_, ?_, fun c => ?_⟩
  · rw [interval_eq_residue]
    exact residue_eq_emod a.toInt b.toInt
  · rw [interval_eq_residue]
    exact residue_lt a.toInt b.toInt
  · rw [interval_eq_residue, interval_eq_residue, interval_eq_residue]
    exact (residue_add_residue a.toInt b.toInt c.toInt).symm

end NoteTape
