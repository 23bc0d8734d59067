/-
  NoteTape.Proofs.Machine.StraightLine

  Programs of moves and changes only. Such a program is carried out from its first
  instruction to its last, one step each, and every instruction shifts the head by its
  drift and adds its change to the current cell. So in the end the head stands at the
  drift of the whole, counted around the tape (`Tape.head_worked`), and a cell holds what
  it gained, counted around a byte (`Tape.cell_worked`).
-/

import Mathlib.Data.List.Induction
import NoteTape.Device.Store
import NoteTape.Proofs.Machine.Ending
import NoteTape.Proofs.Tape.Rotation

namespace NoteTape

-- ============================================================================
-- Counting with one more instruction
-- ============================================================================

/-- What an instruction adds to the current cell. -/
def Instruction.change : Instruction → Int
  | .increment => 1
  | .decrement => -1
  | _ => 0

theorem countAt_concat (is : List Instruction) (i x : Instruction) (place : Place) :
    countAt (is ++ [i]) x place =
      countAt is x place + if i = x ∧ drift is % tapeSize = (place.val : Int) then 1 else 0 := by
  -- The positions in front see the same instruction and the same beginning.
  have front : (List.range is.length).countP (fun n => (is ++ [i])[n]? = some x &&
        drift ((is ++ [i]).take n) % tapeSize = (place.val : Int)) = countAt is x place := by
    apply List.countP_congr
    intro n inside
    rw [List.mem_range] at inside
    rw [List.getElem?_append_left inside, List.take_append_of_le_length (Nat.le_of_lt inside)]
  rw [countAt, List.length_append, List.length_singleton, List.range_succ, List.countP_append,
    front, List.countP_singleton, List.take_left, List.getElem?_concat_length]
  simp

theorem gain_concat (is : List Instruction) (i : Instruction) (place : Place) :
    gain (is ++ [i]) place =
      gain is place + if drift is % tapeSize = (place.val : Int) then i.change else 0 := by
  rw [gain, gain, countAt_concat, countAt_concat]
  by_cases here : drift is % tapeSize = (place.val : Int)
  · cases i <;> simp [here, Instruction.change] <;> omega
  · simp [here]

-- ============================================================================
-- What instructions do to a tape
-- ============================================================================

theorem val_shift_zero (k : Int) : (((Place.around 0).shift k).val : Int) = k % tapeSize := by
  rw [Place.val_shift]
  exact congrArg (· % (tapeSize : Int)) (Int.zero_add k)

theorem toNat_ofInt (k : Int) : ((UInt8.ofInt k).toNat : Int) = k % 256 := by
  have nonneg := Int.emod_nonneg k (b := 256) (by decide)
  have below := Int.emod_lt_of_pos k (b := 256) (by decide)
  rw [UInt8.ofInt, UInt8.toNat_ofNat']
  omega

theorem Instruction.head_work_eq_shift (i : Instruction) (t : Tape) :
    (i.work t).head = t.head.shift (drift [i]) := by
  cases i with
  | right => exact t.head.right_eq_shift
  | left => exact t.head.left_eq_shift
  | increment | decrement | output | input | loopOpen | loopClose =>
    exact (t.head.shift_zero).symm

theorem Instruction.cell_work_eq_add (i : Instruction) (t : Tape) (place : Place) :
    (i.work t).cell place =
      t.cell place + UInt8.ofInt (if place = t.head then i.change else 0) := by
  by_cases here : place = t.head
  · rw [if_pos here, here]
    cases i with
    | increment => rw [work, Tape.cell_store, if_pos rfl]; rfl
    | decrement => rw [work, Tape.cell_store, if_pos rfl]; exact UInt8.sub_eq_add_neg _ _
    | right | left | output | input | loopOpen | loopClose => exact (UInt8.add_zero _).symm
  · rw [if_neg here, i.cell_work here]
    exact (UInt8.add_zero _).symm

namespace Tape

/-- The tape after instructions that neither jump nor ask for anything. -/
def worked (t : Tape) (is : List Instruction) : Tape := is.foldl (fun t i => i.work t) t

theorem worked_concat (t : Tape) (is : List Instruction) (i : Instruction) :
    t.worked (is ++ [i]) = i.work (t.worked is) := by
  rw [worked, List.foldl_append]
  rfl

theorem head_worked (is : List Instruction) :
    (blank.worked is).head = (Place.around 0).shift (drift is) := by
  induction is using List.reverseRecOn with
  | nil => exact (Place.shift_zero _).symm
  | append_singleton is i ih =>
    rw [worked_concat, i.head_work_eq_shift, ih, Place.shift_shift, drift_append]

theorem cell_worked (is : List Instruction) (place : Place) :
    (blank.worked is).cell place = UInt8.ofInt (gain is place) := by
  induction is using List.reverseRecOn with
  | nil => exact cell_blank place
  | append_singleton is i ih =>
    -- The head is at the place exactly if the instruction counts for it.
    have here : place = (blank.worked is).head ↔ drift is % tapeSize = (place.val : Int) := by
      rw [head_worked, ← val_shift_zero]
      exact ⟨fun at_ => by rw [at_], fun same => Place.ext_val same.symm⟩
    rw [worked_concat, i.cell_work_eq_add, ih, gain_concat, UInt8.ofInt_add]
    simp only [here]

end Tape

-- ============================================================================
-- Runs
-- ============================================================================

namespace Machine

variable {δ : Type} [Device δ] {p : Program}

theorem step_of_arithmetic {m : Machine} {i : Instruction} (here : p.get? m.ip = some i)
    (plain : i.isArithmetic = true) (map : BracketMap) (d : δ) :
    step p map m d = succeed p { m with tape := i.work m.tape } m.ip d := by
  cases i with
  | right | left | increment | decrement =>
    simp only [step, here]
    rfl
  | output | input | loopOpen | loopClose => cases plain

theorem advances_arithmetic (plain : ∀ i ∈ p.toList, i.isArithmetic = true) (map : BracketMap)
    (d : δ) {n : Nat} (le : n ≤ p.size) :
    Advances p map n .fresh d ⟨n, Tape.blank.worked (p.toList.take n), n⟩ d := by
  induction n with
  | zero => exact .none _ d
  | succ n ih =>
    have inside : n < p.toList.length := le
    have there : p.toList[n]? = some p.toList[n] := List.getElem?_eq_getElem inside
    rw [List.take_add_one, there, Option.toList_some, Tape.worked_concat]
    have here : p.get? n = some p.toList[n] := (p.get?_eq_getElem? n).trans there
    have step := step_of_arithmetic (m := ⟨n, Tape.blank.worked (p.toList.take n), n⟩) here
      (plain _ (List.getElem_mem inside)) map d
    exact (ih (Nat.le_of_lt inside)).trans (.one inside step)

/-- A program of moves and changes ends after one step for each instruction, behind the
    last of them. The head is at the moves to the right less those to the left, modulo the
    size of the tape, and every cell holds the increments less the decrements that stand
    where the head is at its place, modulo 256. -/
theorem straight_line_counted (plain : ∀ i ∈ p.toList, i.isArithmetic = true) (map : BracketMap)
    {d d' : δ} (flushes : Device.flush d = (.ok (), d')) :
    ∃ m, Advances p map p.size .fresh d m d ∧ Ends p map .fresh d (.ok ()) m d' ∧
      m.steps = p.size ∧ m.ip = p.size ∧
      (m.tape.head.val : Int) = drift p.toList % 30000 ∧
      ∀ place, ((m.tape.cell place).toNat : Int) = gain p.toList place % 256 := by
  have advances := advances_arithmetic plain map d (Nat.le_refl p.size)
  rw [← p.length_toList, List.take_length, p.length_toList] at advances
  have finished (m : Machine) : finish m d = .ended (.ok ()) m d' := by
    rw [finish, flushes]
  refine ⟨_, advances, ?_, rfl, rfl, ?_, fun place => ?_⟩
  · exact advances.ends_iff.2 (Stops.outside (Nat.le_refl _) (finished _)).ends
  · rw [Tape.head_worked, val_shift_zero]
    rfl
  · rw [Tape.cell_worked, toNat_ofInt]

/-- A move to the left leads from the first cell to the last, and one less than zero
    is 255. -/
theorem straight_line_counted_seam :
    ∃ m, Ends (.ofList [.left, .decrement]) .empty .fresh
        (Wired.mk (Slice.ofList []) ({} : Recorder)) (.ok ()) m (.mk (.ofList []) {}) ∧
      (m.tape.head.val : Int) = 29999 ∧
      ((m.tape.cell (Place.around 29999)).toNat : Int) = 255 := by
  obtain ⟨m, -, ends, -, -, head, cells⟩ := straight_line_counted (p := .ofList [.left, .decrement])
    (by decide) .empty (d := Wired.mk (Slice.ofList []) ({} : Recorder)) rfl
  exact ⟨m, ends, head, (cells (Place.around 29999)).trans (by decide)⟩

end Machine

end NoteTape
