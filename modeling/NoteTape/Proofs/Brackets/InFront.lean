/-
  NoteTape.Proofs.Brackets.InFront

  Brackets behind other instructions. Partners are found by counting from the
  opening bracket on, so what stands in front of them makes no difference but to
  their positions (`linked_append_iff`). In front of a program, instructions that
  are no brackets shift every entry of its bracket map, and have none themselves.
-/

import NoteTape.Proofs.Brackets.Pairing
import NoteTape.Proofs.Brackets.Verdict

namespace NoteTape

variable {front is : List Instruction} {i j : Nat}

theorem getElem?_append_add (front is : List Instruction) (i : Nat) :
    (front ++ is)[front.length + i]? = is[i]? := by
  rw [List.getElem?_append_right (by omega), Nat.add_sub_cancel_left]

theorem stretch_append (front is : List Instruction) (first last : Nat) :
    stretch (front ++ is) (front.length + first) (front.length + last) =
      stretch is first last := by
  rw [stretch, stretch, List.drop_append, List.drop_of_length_le (by omega), List.nil_append,
    Nat.add_sub_cancel_left]
  congr 1
  omega

theorem partners_append_iff (front is : List Instruction) (opened closed : Nat) :
    Partners (front ++ is) (front.length + opened) (front.length + closed) ↔
      Partners is opened closed := by
  simp only [Partners, getElem?_append_add, stretch_append, Nat.add_lt_add_iff_left]
  -- A position between the two is one behind what stands in front.
  have between : (∀ last, front.length + opened ≤ last → last < front.length + closed →
        surplus (stretch (front ++ is) (front.length + opened) last) ≠ 0) ↔
      ∀ last, opened ≤ last → last < closed → surplus (stretch is opened last) ≠ 0 := by
    constructor
    · intro never last above below
      have := never (front.length + last) (by omega) (by omega)
      rwa [stretch_append] at this
    · intro never last above below
      obtain ⟨last, rfl⟩ : ∃ k, last = front.length + k := ⟨last - front.length, by omega⟩
      rw [stretch_append]
      exact never last (by omega) (by omega)
  rw [between]

theorem linked_append_iff (front is : List Instruction) (i j : Nat) :
    Linked (front ++ is) (front.length + i) (front.length + j) ↔ Linked is i j := by
  simp only [Linked, partners_append_iff]

theorem Linked.symm (h : Linked is i j) : Linked is j i := Or.symm h

theorem Linked.behind (noBracket : ∀ x ∈ front, x.isBracket = false)
    (h : Linked (front ++ is) i j) : front.length ≤ i := by
  obtain ⟨x, here, bracket⟩ := h.exists_bracket
  rcases Nat.lt_or_ge i front.length with inside | behind
  · rw [List.getElem?_append_left inside] at here
    have other := noBracket x (List.mem_of_getElem? here)
    rw [bracket] at other
    cases other
  · exact behind

theorem Balanced.of_no_bracket (noBracket : ∀ x ∈ is, x.isBracket = false) : Balanced is := by
  induction is with
  | nil => exact .nil
  | cons i is ih =>
    have first : Balanced [i] := .singleton (noBracket i List.mem_cons_self)
    have rest := ih fun x mem => noBracket x (List.mem_cons_of_mem i mem)
    exact first.append rest

namespace BracketMap

variable {p : Program} {map map' : BracketMap}

theorem exists_ofProgram_append (noBracket : ∀ x ∈ front, x.isBracket = false)
    (paired : ofProgram p = .ok map) : ∃ map', ofProgram (.ofList front ++ p) = .ok map' := by
  have inner : Balanced p.toList := (ofProgram_scanned p).ok_iff_balanced.1 ⟨map, paired⟩
  apply (ofProgram_scanned (.ofList front ++ p)).ok_iff_balanced.2
  rw [Program.toList_append, Program.toList_ofList]
  exact (Balanced.of_no_bracket noBracket).append inner

section InFront

variable (noBracket : ∀ x ∈ front, x.isBracket = false)
  (paired' : ofProgram (.ofList front ++ p) = .ok map')

include noBracket paired'

theorem partner?_in_front (inside : i < front.length) : map'.partner? i = none := by
  cases partner : map'.partner? i with
  | none => rfl
  | some j =>
    have linked := linked_of_partner? paired' i j partner
    rw [Program.toList_append, Program.toList_ofList] at linked
    have behind := linked.behind noBracket
    omega

/-- Behind instructions that are no brackets the partners are the same, as many
    positions further on. -/
theorem partner?_behind (paired : ofProgram p = .ok map) (i : Nat) :
    map'.partner? (front.length + i) = (map.partner? i).map (front.length + ·) := by
  have linked (j : Nat) : map'.partner? (front.length + i) = some j ↔
      Linked (front ++ p.toList) (front.length + i) j := by
    rw [partner?_eq_some_iff paired', Program.toList_append, Program.toList_ofList]
  apply Option.ext
  intro j
  rw [linked, Option.map_eq_some_iff]
  constructor
  · intro h
    obtain ⟨j, rfl⟩ := Nat.exists_eq_add_of_le (h.symm.behind noBracket)
    exact ⟨j, (partner?_eq_some_iff paired i j).2 ((linked_append_iff _ _ i j).1 h), rfl⟩
  · rintro ⟨j, partner, rfl⟩
    exact (linked_append_iff _ _ i j).2 ((partner?_eq_some_iff paired i j).1 partner)

end InFront

end BracketMap

end NoteTape
