/-
  NoteTape.Proofs.Brackets.Behind

  Brackets with other instructions behind them. Partners are found by counting up to
  the closing bracket, so what stands behind it makes no difference
  (`Partners.append`). Where all brackets of a program have partners, they keep them
  when instructions are added at its end, and no added bracket is paired with one of
  them.
-/

import NoteTape.Proofs.Brackets.Pairing

namespace NoteTape

variable {is : List Instruction} {i j first last opened closed : Nat}

theorem stretch_append_of_lt (js : List Instruction) (lt : last < is.length) :
    stretch (is ++ js) first last = stretch is first last := by
  rcases Nat.lt_or_ge last first with none | some
  · rw [stretch, stretch, Nat.sub_eq_zero_of_le none, List.take_zero, List.take_zero]
  · rw [stretch, stretch, List.drop_append_of_le_length (by omega),
      List.take_append_of_le_length (by rw [List.length_drop]; omega)]

theorem Partners.lt_length (h : Partners is opened closed) : closed < is.length := by
  obtain ⟨-, -, closes, -⟩ := h
  exact (List.getElem?_eq_some_iff.1 closes).1

/-- Partners are partners still when instructions are added behind. -/
theorem Partners.append (h : Partners is opened closed) (js : List Instruction) :
    Partners (is ++ js) opened closed := by
  have inside := h.lt_length
  obtain ⟨lt, opens, closes, balanced, never⟩ := h
  refine ⟨lt, ?_, ?_, ?_, ?_⟩
  · rwa [List.getElem?_append_left (by omega)]
  · rwa [List.getElem?_append_left inside]
  · rwa [stretch_append_of_lt js inside]
  · intro last above below
    rw [stretch_append_of_lt js (by omega)]
    exact never last above below

theorem Linked.append (h : Linked is i j) (js : List Instruction) : Linked (is ++ js) i j :=
  h.imp (·.append js) (·.append js)

namespace BracketMap

variable {p q : Program} {map map' : BracketMap}

section Added

variable (paired : ofProgram p = .ok map) (paired' : ofProgram (p ++ q) = .ok map')

include paired paired'

theorem partner?_of_partner? (partner : map.partner? i = some j) : map'.partner? i = some j := by
  rw [partner?_eq_some_iff paired', Program.toList_append]
  exact ((partner?_eq_some_iff paired i j).1 partner).append q.toList

/-- Inside a program the partners are the same with instructions added at its end. -/
theorem partner?_added (inside : i < p.size) : map.partner? i = map'.partner? i := by
  cases partner : map.partner? i with
  | some j => exact (partner?_of_partner? paired paired' partner).symm
  | none =>
    -- What is no bracket in the program is none in the longer one.
    have same : (p ++ q).toList[i]? = p.toList[i]? := by
      rw [Program.toList_append, List.getElem?_append_left (by rwa [p.length_toList])]
    have none : ¬ (map'.partner? i).isSome := by
      rw [bracket_iff paired' i, same, ← bracket_iff paired i, partner]
      decide
    exact (Option.not_isSome_iff_eq_none.1 none).symm

end Added

end BracketMap

end NoteTape
