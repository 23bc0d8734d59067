/-
  NoteTape.Proofs.Machine.Unvisited

  Cells that the head does not come to. A step changes no cell but the one under the
  head (`Machine.step_cell`), so what is never visited is never changed, and since a
  step moves the head by at most one place, nothing is visited that is further away
  than there are steps. Nor does a step look at any other cell: two machines that differ
  in some cells, none of them under the head, do the same and differ in the same cells
  afterwards (`Machine.step_differAt`).
-/

import Mathlib.Data.List.Forall2
import NoteTape.Device.Store
import NoteTape.Machine.Advance
import NoteTape.Proofs.Machine.Step

namespace NoteTape

-- ============================================================================
-- How far the head gets
-- ============================================================================

/-- How many moves it takes from one place to another, on the shorter way around. -/
def Place.distance (p q : Place) : Nat :=
  min ((q.val + tapeSize - p.val) % tapeSize) ((p.val + tapeSize - q.val) % tapeSize)

/-- One move changes the distance by at most one. -/
theorem Place.distance_le_succ {p p' : Place} (q : Place)
    (move : p' = p ∨ p' = p.right ∨ p' = p.left) : p.distance q ≤ p'.distance q + 1 := by
  have inside : p.val < 30000 := p.isLt
  have inside' : q.val < 30000 := q.isLt
  rcases move with rfl | rfl | rfl
  · exact Nat.le_succ _
  · simp only [distance, val_right, tapeSize]
    omega
  · simp only [distance, val_left, tapeSize]
    omega

namespace Machine

variable {δ : Type} [Device δ] {p : Program} {map : BracketMap} {m m' : Machine} {d : δ} {n : Nat}
  {place : Place} {turn : Turn δ}

theorem distance_lt_of_visited (seen : place ∈ visited p map n m d) :
    m.tape.head.distance place < n := by
  induction n generalizing m d with
  | zero => cases seen
  | succ n ih =>
    rcases List.mem_cons.1 seen with rfl | later
    · have here : m.tape.head.distance m.tape.head = 0 := by
        rw [Place.distance, Nat.add_sub_cancel_left, Nat.mod_self]
        rfl
      omega
    · have := ih later
      have := Place.distance_le_succ place (step_head p map m d)
      omega

theorem cell_of_not_visited (unseen : place ∉ visited p map n m d)
    (left : turn ∈ turns p map n m d) : turn.machine.tape.cell place = m.tape.cell place := by
  induction n generalizing m d with
  | zero => cases left
  | succ n ih =>
    rw [visited, List.mem_cons, not_or] at unseen
    have first := step_cell p map d unseen.1
    rcases List.mem_cons.1 left with rfl | later
    · exact first
    · exact (ih unseen.2 later).trans first

end Machine

-- ============================================================================
-- Machines that differ in some cells
-- ============================================================================

variable {away : Place → Prop}

/-- The tapes have their heads at one place and differ in exactly the cells at some
    places. -/
structure Tape.DifferAt (away : Place → Prop) (t t' : Tape) : Prop where
  head : t'.head = t.head
  cells : ∀ place, t'.cell place ≠ t.cell place ↔ away place

namespace Tape.DifferAt

variable {t t' : Tape}

theorem current (h : DifferAt away t t') (here : ¬ away t.head) : t'.current = t.current := by
  rw [Tape.current, Tape.current, h.head]
  exact Classical.not_not.1 (mt (h.cells t.head).1 here)

theorem store (h : DifferAt away t t') (here : ¬ away t.head) (value : UInt8) :
    DifferAt away (t.store value) (t'.store value) := by
  refine ⟨h.head, fun place => ?_⟩
  rw [cell_store, cell_store, h.head]
  by_cases at_ : place = t.head
  · rw [if_pos at_, if_pos at_, at_]
    exact ⟨fun ne => absurd rfl ne, fun there => absurd there here⟩
  · rw [if_neg at_, if_neg at_]
    exact h.cells place

theorem moveRight (h : DifferAt away t t') : DifferAt away t.moveRight t'.moveRight :=
  ⟨congrArg Place.right h.head, h.cells⟩

theorem moveLeft (h : DifferAt away t t') : DifferAt away t.moveLeft t'.moveLeft :=
  ⟨congrArg Place.left h.head, h.cells⟩

end Tape.DifferAt

/-- The machines differ in exactly the cells at some places and in nothing else. -/
structure Machine.DifferAt (away : Place → Prop) (m m' : Machine) : Prop where
  ip : m'.ip = m.ip
  steps : m'.steps = m.steps
  tape : Tape.DifferAt away m.tape m'.tape

/-- The same answer and the same device, and machines that differ in exactly the cells at
    some places. -/
structure Turn.DifferAt {δ : Type} (away : Place → Prop) (t t' : Turn δ) : Prop where
  answer : t'.answer = t.answer
  device : t'.device = t.device
  machine : Machine.DifferAt away t.machine t'.machine

namespace Machine

variable {δ : Type} {p : Program} {map : BracketMap} {m m' : Machine} {d : δ} {n : Nat}

theorem succeed_differAt (p : Program) (pos : Nat) (d : δ) (differ : DifferAt away m m') :
    Turn.DifferAt away (succeed p m pos d) (succeed p m' pos d) :=
  ⟨rfl, rfl, rfl, congrArg (· + 1) differ.steps, differ.tape⟩

theorem jump_differAt (p : Program) (map : BracketMap) (d : δ) (differ : DifferAt away m m') :
    Turn.DifferAt away (jump p map m d) (jump p map m' d) := by
  rw [jump, jump, differ.ip]
  cases map.partner? m.ip with
  | none => exact ⟨rfl, rfl, differ⟩
  | some partner => exact succeed_differAt p partner d differ

variable [Device δ]

/-- One step does the same on both machines, if they do not differ under the head. -/
theorem step_differAt (p : Program) (map : BracketMap) (d : δ) (differ : DifferAt away m m')
    (here : ¬ away m.tape.head) :
    Turn.DifferAt away (step p map m d) (step p map m' d) := by
  have work {t t' : Tape} (tape : Tape.DifferAt away t t') (d : δ) :
      Turn.DifferAt away (succeed p { m with tape := t } m.ip d)
        (succeed p { m' with tape := t' } m.ip d) :=
    succeed_differAt p m.ip d ⟨differ.ip, differ.steps, tape⟩
  unfold step
  rw [differ.ip, differ.tape.current here]
  cases p.get? m.ip with
  | none => exact ⟨rfl, rfl, differ⟩
  | some i =>
    cases i with
    | right => exact work differ.tape.moveRight d
    | left => exact work differ.tape.moveLeft d
    | increment | decrement => exact work (differ.tape.store here _) d
    | output =>
      dsimp only
      obtain ⟨answer, d'⟩ := Device.write m.tape.current d
      cases answer with
      | ok => exact succeed_differAt p m.ip d' differ
      | error e => exact ⟨rfl, rfl, differ⟩
    | input =>
      dsimp only
      obtain ⟨answer, d'⟩ := Device.read d
      cases answer with
      | ok unit =>
        cases unit with
        | none => exact ⟨rfl, rfl, differ⟩
        | some unit => exact work (differ.tape.store here unit) d'
      | error e => exact ⟨rfl, rfl, differ⟩
    | loopOpen =>
      by_cases zero : m.tape.current = 0
      · simp only [zero, if_true]
        exact jump_differAt p map d differ
      · simp only [zero, if_false]
        exact succeed_differAt p m.ip d differ
    | loopClose =>
      by_cases zero : m.tape.current = 0
      · simp only [zero, if_true]
        exact succeed_differAt p m.ip d differ
      · simp only [zero, if_false]
        exact jump_differAt p map d differ

theorem turns_differAt (differ : DifferAt away m m')
    (unseen : ∀ place ∈ visited p map n m d, ¬ away place) :
    visited p map n m' d = visited p map n m d ∧
      List.Forall₂ (Turn.DifferAt away) (turns p map n m d) (turns p map n m' d) := by
  induction n generalizing m m' d with
  | zero => exact ⟨rfl, .nil⟩
  | succ n ih =>
    have first := step_differAt p map d differ (unseen _ List.mem_cons_self)
    obtain ⟨places, rest⟩ := ih first.machine fun place later =>
      unseen place (List.mem_cons_of_mem _ later)
    rw [visited, visited, turns, turns, first.device, differ.tape.head, places]
    exact ⟨rfl, .cons first rest⟩

/-- Cells that are not visited neither change nor matter, whatever the program, the map
    and the device. A cell that is under the head before none of `n` calls keeps its value,
    and so do all that are `n` places away or more. If another machine differs in such
    cells only, the calls give the same answers and leave the same device, the head takes
    the same way, and the machines go on to differ in the same cells and in nothing else. -/
theorem unvisited_cells_apart (p : Program) (map : BracketMap) (n : Nat) (m : Machine) (d : δ) :
    (∀ place, place ∉ visited p map n m d →
      ∀ turn ∈ turns p map n m d, turn.machine.tape.cell place = m.tape.cell place) ∧
    (∀ place, n ≤ m.tape.head.distance place →
      ∀ turn ∈ turns p map n m d, turn.machine.tape.cell place = m.tape.cell place) ∧
    ∀ (away : Place → Prop) (m' : Machine), DifferAt away m m' →
      (∀ place ∈ visited p map n m d, ¬ away place) →
      visited p map n m' d = visited p map n m d ∧
        List.Forall₂ (Turn.DifferAt away) (turns p map n m d) (turns p map n m' d) := by
  refine ⟨fun place unseen turn => cell_of_not_visited unseen, ?_, ?_⟩
  · intro place far turn
    apply cell_of_not_visited
    intro seen
    have := distance_lt_of_visited seen
    omega
  · intro away m' differ unseen
    exact turns_differAt differ unseen

/-- While `>+` goes over the first two cells it makes no difference that the sixth is one. -/
theorem unvisited_cells_apart_far_cell :
    ∃ m', m'.tape.cell (Place.around 5) = 1 ∧
      List.Forall₂ (Turn.DifferAt (· = Place.around 5))
        (turns (.ofList [.right, .increment]) .empty 2 .fresh
          (Wired.mk (Slice.ofList []) ({} : Recorder)))
        (turns (.ofList [.right, .increment]) .empty 2 m' (.mk (.ofList []) {})) := by
  let there : Tape := { Tape.blank with head := Place.around 5 }
  let other : Machine := { fresh with tape := { Tape.blank with cells := (there.store 1).cells } }
  have cell (place : Place) :
      other.tape.cell place = if place = Place.around 5 then 1 else there.cell place :=
    there.cell_store 1 place
  have differ : DifferAt (· = Place.around 5) fresh other := by
    refine ⟨rfl, rfl, rfl, fun place => ?_⟩
    have zero : fresh.tape.cell place = 0 := Tape.cell_blank place
    have zero' : there.cell place = 0 := Tape.cell_blank place
    rw [cell, zero, zero']
    by_cases here : place = Place.around 5
    · simp [here]
    · simp [here]
  have places : visited (.ofList [.right, .increment]) .empty 2 .fresh
      (Wired.mk (Slice.ofList []) ({} : Recorder)) = [Place.around 0, Place.around 1] := rfl
  refine ⟨other, (cell _).trans (if_pos rfl), ?_⟩
  refine ((unvisited_cells_apart _ .empty 2 .fresh _).2.2 _ other differ ?_).2
  rw [places]
  intro place seen
  rcases List.mem_pair.1 seen with rfl | rfl
  · decide
  · decide

end Machine

end NoteTape
