/-
  NoteTape.Proofs.Brackets.Outermost

  The outermost pair around a bracket. In a block it is the loop of the block itself
  that the bracket belongs to or stands in (`Block.exists_loop_around`), so there is
  one, and in front of it no bracket is open. `Encloses is opened closed pos` says this
  by counting: from the opening to the closing of the pair one bracket is open all the
  time, and behind it none is.
-/

import NoteTape.Proofs.Brackets.Pairing

namespace NoteTape

variable {is : List Instruction} {opened closed opened' closed' pos n : Nat}

/-- A beginning is cut in two at an earlier position. -/
theorem surplus_take_succ_stretch (is : List Instruction) (first last : Nat)
    (le : first ≤ last + 1) :
    surplus (is.take (last + 1)) = surplus (is.take first) + surplus (stretch is first last) := by
  have cut : last + 1 = first + (last + 1 - first) := by omega
  rw [stretch, ← surplus_append, ← List.take_add, ← cut]

theorem Outermost.unique (h : Outermost is opened closed) (h' : Outermost is opened' closed')
    (above : opened ≤ pos) (below : pos ≤ closed) (above' : opened' ≤ pos)
    (below' : pos ≤ closed') : opened = opened' ∧ closed = closed' := by
  obtain ⟨pair, most⟩ := h
  obtain ⟨pair', most'⟩ := h'
  rcases pair.apart_or_inside pair' with same | apart | apart | inside | inside
  · exact same
  · omega
  · omega
  · exact absurd inside (most' opened closed pair)
  · exact absurd inside (most opened' closed' pair')

/-- The brackets are balanced, a pair of them stands around a position, and no bracket is
    open in front of that pair. -/
structure Encloses (is : List Instruction) (opened closed pos : Nat) : Prop where
  balanced : Balanced is
  pair : Partners is opened closed
  front : surplus (is.take opened) = 0
  above : opened ≤ pos
  below : pos ≤ closed

namespace Encloses

theorem pos_surplus_take (h : Encloses is opened closed pos) (lt : opened < n) (le : n ≤ closed) :
    1 ≤ surplus (is.take n) := by
  obtain ⟨last, rfl⟩ : ∃ last, n = last + 1 := ⟨n - 1, by omega⟩
  have := h.pair.pos_surplus_stretch (Nat.le_of_lt_succ lt) le
  rw [surplus_take_succ_stretch is opened last (by omega), h.front]
  omega

theorem surplus_take_closed (h : Encloses is opened closed pos) :
    surplus (is.take (closed + 1)) = 0 := by
  obtain ⟨lt, -, -, balanced, -⟩ := h.pair
  rw [surplus_take_succ_stretch is opened closed (by omega), h.front, balanced]
  rfl

theorem outermost (h : Encloses is opened closed pos) : Outermost is opened closed := by
  refine ⟨h.pair, fun o c around => ?_⟩
  rintro ⟨before, behind⟩
  -- Behind the opening of a pair around the two a bracket would be open.
  have := h.pair.1
  have positive : 1 ≤ surplus (stretch is o (opened - 1)) :=
    around.pos_surplus_stretch (by omega) (by omega)
  have cut := surplus_take_succ_stretch is o (opened - 1) (by omega)
  rw [show opened - 1 + 1 = opened by omega, h.front] at cut
  have := h.balanced.1 o
  omega

end Encloses

namespace Block

/-- The loop of a block that a bracket belongs to or stands in. -/
theorem exists_loop_around {b : Block} {x : Instruction} (here : b.flatten[pos]? = some x)
    (bracket : x.isBracket = true) :
    ∃ before body after : Block,
      b.flatten = before.flatten ++ .loopOpen :: (body.flatten ++ .loopClose :: after.flatten) ∧
      before.size ≤ pos ∧ pos ≤ before.size + body.size + 1 := by
  induction b generalizing pos with
  | done => cases here
  | act a next ih =>
    cases pos with
    | zero =>
      obtain rfl := Option.some.inj here
      rw [a.isBracket_instruction] at bracket
      cases bracket
    | succ pos =>
      obtain ⟨before, body, after, whole, above, below⟩ := ih here
      refine ⟨.act a before, body, after, ?_, Nat.succ_le_succ above, ?_⟩
      · rw [flatten, flatten, whole, List.cons_append]
      · rw [size]
        omega
  | loop body next _ ihNext =>
    by_cases within : pos ≤ body.size + 1
    · refine ⟨.done, body, next, rfl, Nat.zero_le pos, ?_⟩
      rwa [size, Nat.zero_add]
    · -- Behind the loop the rest of the block follows.
      obtain ⟨k, rfl⟩ : ∃ k, pos = body.size + 1 + (k + 1) := ⟨pos - body.size - 2, by omega⟩
      have there : next.flatten[k]? = some x := by
        rw [flatten, ← List.cons_append, List.getElem?_append_right (by simp)] at here
        rw [← here, List.length_cons, length_flatten, Nat.add_sub_cancel_left,
          List.getElem?_cons_succ]
      obtain ⟨before, inner, after, whole, above, below⟩ := ihNext there
      refine ⟨.loop body before, inner, after, ?_, ?_, ?_⟩
      · simp only [flatten, whole, List.cons_append, List.append_assoc]
      · rw [size]
        omega
      · rw [size]
        omega

theorem exists_encloses (b : Block) {x : Instruction} (here : b.flatten[pos]? = some x)
    (bracket : x.isBracket = true) : ∃ opened closed, Encloses b.flatten opened closed pos := by
  obtain ⟨before, body, after, whole, above, below⟩ := exists_loop_around here bracket
  refine ⟨before.size, before.size + body.size + 1, b.balanced_flatten, ?_, ?_, above, below⟩
  · rw [whole, ← before.length_flatten]
    exact partners_of_loop before.flatten after.flatten body
  · rw [whole, ← before.length_flatten, List.take_left, before.balanced_flatten.2]

end Block

end NoteTape
