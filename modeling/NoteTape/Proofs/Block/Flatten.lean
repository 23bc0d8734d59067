/-
  NoteTape.Proofs.Block.Flatten

  Blocks as sequences of instructions. Every block is written with balanced
  brackets (`Block.balanced_flatten`), blocks joined are written one behind the
  other (`Block.flatten_append`), and no two blocks are written alike
  (`Block.flatten_injective`).
-/

import NoteTape.Block.Basic
import NoteTape.Proofs.Brackets.Surplus

namespace NoteTape

theorem Action.instruction_injective {a b : Action} (h : a.instruction = b.instruction) :
    a = b := by
  cases a <;> cases b <;> first | rfl | cases h

/-- An instruction that is no bracket is written by an action. -/
theorem Action.exists_instruction {i : Instruction} (h : i.isBracket = false) :
    ∃ a : Action, a.instruction = i := by
  cases i with
  | right => exact ⟨.right, rfl⟩
  | left => exact ⟨.left, rfl⟩
  | increment => exact ⟨.increment, rfl⟩
  | decrement => exact ⟨.decrement, rfl⟩
  | output => exact ⟨.output, rfl⟩
  | input => exact ⟨.input, rfl⟩
  | loopOpen => cases h
  | loopClose => cases h

namespace Block

/-- The block `c` behind the block `b`. -/
def append : Block → Block → Block
  | .done, c => c
  | .act a next, c => .act a (next.append c)
  | .loop body next, c => .loop body (next.append c)

@[simp] theorem flatten_append (b c : Block) : (b.append c).flatten = b.flatten ++ c.flatten := by
  induction b with
  | done => rfl
  | act a next ih => simp only [append, flatten, ih, List.cons_append]
  | loop body next _ ih => simp only [append, flatten, ih, List.cons_append, List.append_assoc]

theorem balanced_flatten (b : Block) : Balanced b.flatten := by
  induction b with
  | done => exact .nil
  | act a next ih => exact Balanced.append (.singleton a.isBracket_instruction) ih
  | loop body next ihBody ihNext =>
    have h := ihBody.enclose.append ihNext
    rwa [List.cons_append, List.append_assoc, List.singleton_append] at h

/-! ## No two blocks are written alike -/

/-- What stands behind a block: nothing, or the bracket that closes the loop
    around it. -/
def Closed (rest : List Instruction) : Prop := ∀ i ∈ rest.head?, i = .loopClose

theorem Closed.ne_act {a : Action} {is : List Instruction} : ¬ Closed (a.instruction :: is) := by
  intro h
  have := h a.instruction rfl
  cases a <;> cases this

theorem Closed.ne_open {is : List Instruction} : ¬ Closed (.loopOpen :: is) := by
  intro h
  cases h .loopOpen rfl

theorem Closed.close (is : List Instruction) : Closed (.loopClose :: is) := by
  rintro _ ⟨⟩
  rfl

/-- A block can be told apart from what stands behind it. -/
theorem flatten_append_inj {b c : Block} {r s : List Instruction} (hr : Closed r) (hs : Closed s)
    (h : b.flatten ++ r = c.flatten ++ s) : b = c ∧ r = s := by
  -- Where one block ends the other does, since no block begins with a closing bracket.
  induction b generalizing c r s with
  | done =>
    cases c with
    | done => exact ⟨rfl, h⟩
    | act a next =>
      obtain rfl : r = _ := h
      exact absurd hr Closed.ne_act
    | loop body next =>
      obtain rfl : r = _ := h
      exact absurd hr Closed.ne_open
  | act a next ih =>
    cases c with
    | done =>
      obtain rfl : _ = s := h
      exact absurd hs Closed.ne_act
    | act a' next' =>
      obtain ⟨same, tails⟩ := List.cons.inj h
      obtain ⟨rfl, rest⟩ := ih hr hs tails
      exact ⟨by rw [a.instruction_injective same], rest⟩
    | loop body next' => cases a <;> cases (List.cons.inj h).1
  | loop body next ihBody ihNext =>
    cases c with
    | done =>
      obtain rfl : _ = s := h
      exact absurd hs Closed.ne_open
    | act a next' => cases a <;> cases (List.cons.inj h).1
    | loop body' next' =>
      have tails : (body.flatten ++ .loopClose :: next.flatten) ++ r
          = (body'.flatten ++ .loopClose :: next'.flatten) ++ s := (List.cons.inj h).2
      rw [List.append_assoc, List.append_assoc, List.cons_append, List.cons_append] at tails
      -- The closing bracket behind a body tells the body apart from the rest.
      obtain ⟨rfl, behind⟩ := ihBody (.close _) (.close _) tails
      obtain ⟨rfl, rest⟩ := ihNext hr hs (List.cons.inj behind).2
      exact ⟨rfl, rest⟩

theorem flatten_injective {b c : Block} (h : b.flatten = c.flatten) : b = c := by
  have nothing : Closed [] := by rintro _ ⟨⟩
  exact (flatten_append_inj nothing nothing (by rw [h])).1

end Block

end NoteTape
