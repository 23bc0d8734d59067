/-
  NoteTape.Proofs.Block.Layout

  Where the parts of a block stand in a program and in its bracket map.

    * `Program.Holds p pos is` — the instructions `is` stand in `p` from `pos` on.
    * `Block.links b pos map` — `map` with the partners of all loops of a block
      that begins at `pos`; it is what the scan makes of the block.
    * `Block.Lies p map b pos` — `b` stands in `p` from `pos` on, `map` pairs the
      brackets of its loops, and has no partner for its actions.

  A program with a bracket map is a block that lies at its beginning
  (`BracketMap.lies_of_ofProgram`), so a run needs no other fact about the map.
-/

import NoteTape.Proofs.Brackets.Scan

namespace NoteTape

-- ============================================================================
-- Instructions in a program
-- ============================================================================

/-- The instructions `is` stand in the program from position `pos` on. -/
def Program.Holds (p : Program) (pos : Nat) (is : List Instruction) : Prop :=
  ∀ k, k < is.length → p.get? (pos + k) = is[k]?

namespace Program.Holds

variable {p : Program} {pos : Nat} {i : Instruction} {is js : List Instruction}

theorem whole (p : Program) : p.Holds 0 p.toList := by
  intro k _
  rw [Nat.zero_add, get?_eq_getElem?]

theorem head (h : p.Holds pos (i :: is)) : p.get? pos = some i :=
  h 0 (by simp)

theorem tail (h : p.Holds pos (i :: is)) : p.Holds (pos + 1) is := by
  intro k lt
  have := h (k + 1) (by rw [List.length_cons]; omega)
  rwa [List.getElem?_cons_succ, show pos + (k + 1) = pos + 1 + k by omega] at this

theorem left (h : p.Holds pos (is ++ js)) : p.Holds pos is := by
  intro k lt
  rw [h k (by rw [List.length_append]; omega), List.getElem?_append_left lt]

theorem right (h : p.Holds pos (is ++ js)) : p.Holds (pos + is.length) js := by
  intro k lt
  have := h (is.length + k) (by rw [List.length_append]; omega)
  rwa [List.getElem?_append_right (by omega), Nat.add_sub_cancel_left, ← Nat.add_assoc] at this

end Program.Holds

-- ============================================================================
-- Partners made by the scan
-- ============================================================================

namespace BracketMap

variable {map : BracketMap} {opened closed pos : Nat}

@[simp] theorem size_partners_link :
    (map.link opened closed).partners.size = map.partners.size := by
  simp [link]

theorem partner?_link_opened (apart : opened < closed) (room : closed < map.partners.size) :
    (map.link opened closed).partner? opened = some closed := by
  rw [partner?, link, Array.getElem?_setIfInBounds_ne (by omega),
    Array.getElem?_setIfInBounds_self_of_lt (by omega)]
  rfl

theorem partner?_link_closed (room : closed < map.partners.size) :
    (map.link opened closed).partner? closed = some opened := by
  rw [partner?, link, Array.getElem?_setIfInBounds_self_of_lt (by simpa using room)]
  rfl

theorem partner?_link_of_ne (notOpened : pos ≠ opened) (notClosed : pos ≠ closed) :
    (map.link opened closed).partner? pos = map.partner? pos := by
  rw [partner?, link, Array.getElem?_setIfInBounds_ne (Ne.symm notClosed),
    Array.getElem?_setIfInBounds_ne (Ne.symm notOpened), partner?]

end BracketMap

namespace Block

/-- The map with the partners of all loops of a block that begins at `pos`. -/
def links : Block → (pos : Nat) → BracketMap → BracketMap
  | .done, _, map => map
  | .act _ next, pos, map => next.links (pos + 1) map
  | .loop body next, pos, map =>
    next.links (pos + body.size + 2) ((body.links (pos + 1) map).link pos (pos + body.size + 1))

@[simp] theorem size_partners_links (b : Block) (pos : Nat) (map : BracketMap) :
    (b.links pos map).partners.size = map.partners.size := by
  induction b generalizing pos map with
  | done => rfl
  | act a next ih => rw [links, ih]
  | loop body next ihBody ihNext => rw [links, ihNext, BracketMap.size_partners_link, ihBody]

/-- The scan reads a block over and is left with its partners. -/
theorem scan_flatten (b : Block) (rest : List Instruction) (pos : Nat) (opened : List Nat)
    (map : BracketMap) :
    BracketMap.scan (b.flatten ++ rest) pos opened map =
      BracketMap.scan rest (pos + b.size) opened (b.links pos map) := by
  induction b generalizing rest pos opened map with
  | done => rfl
  | act a next ih =>
    have skip : BracketMap.scan (a.instruction :: (next.flatten ++ rest)) pos opened map =
        BracketMap.scan (next.flatten ++ rest) (pos + 1) opened map := by
      cases a <;> rfl
    rw [flatten, List.cons_append, skip, ih, size, links, Nat.add_right_comm, Nat.add_assoc]
  | loop body next ihBody ihNext =>
    rw [flatten, List.cons_append, List.append_assoc, List.cons_append, BracketMap.scan, ihBody,
      BracketMap.scan, ihNext, links, size,
      show pos + 1 + body.size + 1 + next.size = pos + (body.size + next.size + 2) by omega,
      show pos + 1 + body.size + 1 = pos + body.size + 2 by omega,
      show pos + 1 + body.size = pos + body.size + 1 by omega]

/-- A block makes no partners outside itself. -/
theorem partner?_links_of_outside (b : Block) {pos i : Nat} (outside : i < pos ∨ pos + b.size ≤ i)
    (map : BracketMap) : (b.links pos map).partner? i = map.partner? i := by
  induction b generalizing pos map with
  | done => rfl
  | act a next ih =>
    rw [size] at outside
    exact ih (by omega) map
  | loop body next ihBody ihNext =>
    rw [size] at outside
    rw [links, ihNext (by omega), BracketMap.partner?_link_of_ne (by omega) (by omega),
      ihBody (by omega)]

-- ============================================================================
-- Blocks in a program with a bracket map
-- ============================================================================

/-- The block stands in the program from position `pos` on, and the map has a
    partner for each bracket in it and for nothing else. -/
def Lies (p : Program) (map : BracketMap) : Block → (pos : Nat) → Prop
  | .done, _ => True
  | .act a next, pos =>
    p.get? pos = some a.instruction ∧ map.partner? pos = none ∧ next.Lies p map (pos + 1)
  | .loop body next, pos =>
    p.get? pos = some .loopOpen ∧ map.partner? pos = some (pos + body.size + 1) ∧
    body.Lies p map (pos + 1) ∧
    p.get? (pos + body.size + 1) = some .loopClose ∧
    map.partner? (pos + body.size + 1) = some pos ∧
    next.Lies p map (pos + body.size + 2)

/-- A block lies where it is written, in a map that has its partners. `start` is
    the map to which they were added. -/
theorem lies_of_links {p : Program} {map : BracketMap} (b : Block) {pos : Nat}
    (start : BracketMap) (holds : p.Holds pos b.flatten) (room : pos + b.size ≤ start.partners.size)
    (blank : ∀ i, pos ≤ i → start.partner? i = none)
    (agree : ∀ i, pos ≤ i → i < pos + b.size → map.partner? i = (b.links pos start).partner? i) :
    b.Lies p map pos := by
  -- A part is read into the map that the parts before it left, and later parts add
  -- nothing to its positions.
  induction b generalizing pos start with
  | done => trivial
  | act a next ih =>
    rw [size] at room agree
    refine ⟨holds.head, ?_, ih start holds.tail (by omega) (fun i le => blank i (by omega)) ?_⟩
    · rw [agree pos (by omega) (by omega), links, partner?_links_of_outside next (by omega)]
      exact blank pos (by omega)
    · intro i le lt
      exact agree i (by omega) (by omega)
  | loop body next ihBody ihNext =>
    rw [size] at room
    simp only [size, links] at agree
    have close : p.Holds (pos + body.size + 1) (.loopClose :: next.flatten) := by
      have h := holds.tail.right
      rwa [length_flatten, Nat.add_right_comm] at h
    have roomBody : pos + body.size + 1 < (body.links (pos + 1) start).partners.size := by
      rw [size_partners_links]
      omega
    refine ⟨holds.head, ?_, ihBody start holds.tail.left (by omega) ?_ ?_, close.head,
      ?_, ihNext ((body.links (pos + 1) start).link pos (pos + body.size + 1)) close.tail ?_ ?_ ?_⟩
    · rw [agree pos (by omega) (by omega), partner?_links_of_outside next (by omega),
        BracketMap.partner?_link_opened (by omega) roomBody]
    · intro i le
      exact blank i (by omega)
    · intro i le lt
      rw [agree i (by omega) (by omega), partner?_links_of_outside next (by omega),
        BracketMap.partner?_link_of_ne (by omega) (by omega)]
    · rw [agree _ (by omega) (by omega), partner?_links_of_outside next (by omega),
        BracketMap.partner?_link_closed roomBody]
    · rw [BracketMap.size_partners_link, size_partners_links]
      omega
    · intro i le
      rw [BracketMap.partner?_link_of_ne (by omega) (by omega),
        partner?_links_of_outside body (by omega)]
      exact blank i (by omega)
    · intro i le lt
      exact agree i (by omega) (by omega)

/-- Inside a block the positions with a partner are those of its brackets. -/
theorem Lies.isSome_partner?_iff {p : Program} {map : BracketMap} {b : Block} {pos i : Nat}
    (h : b.Lies p map pos) (above : pos ≤ i) (below : i < pos + b.size) :
    (map.partner? i).isSome ↔ ∃ x, p.get? i = some x ∧ x.isBracket = true := by
  induction b generalizing pos with
  | done =>
    rw [size] at below
    omega
  | act a next ih =>
    obtain ⟨here, unpaired, rest⟩ := h
    rw [size] at below
    by_cases first : i = pos
    · subst first
      simp [here, unpaired]
    · exact ih rest (by omega) (by omega)
  | loop body next ihBody ihNext =>
    obtain ⟨opens, partner, inside, closes, partner', rest⟩ := h
    rw [size] at below
    by_cases first : i = pos
    · subst first
      simp [opens, partner, Instruction.isBracket]
    · by_cases last : i = pos + body.size + 1
      · subst last
        simp [closes, partner', Instruction.isBracket]
      · -- Neither bracket of the loop: the body or what follows it.
        by_cases within : i < pos + 1 + body.size
        · exact ihBody inside (by omega) within
        · exact ihNext rest (by omega) (by omega)

end Block

namespace BracketMap

/-- The scan of a block that is a whole program makes the partners of its loops. -/
theorem ofProgram_of_flatten {p : Program} {b : Block} (h : b.flatten = p.toList) :
    ofProgram p = .ok (b.links 0 ⟨Array.replicate p.size none⟩) := by
  rw [ofProgram, ← h, ← List.append_nil b.flatten, b.scan_flatten, scan]

/-- A program with its bracket map is a block that lies at its beginning. -/
theorem lies_of_ofProgram {p : Program} {map : BracketMap} (paired : ofProgram p = .ok map)
    {b : Block} (h : b.flatten = p.toList) : b.Lies p map 0 := by
  have size : b.size = p.size := by rw [← b.length_flatten, h, p.length_toList]
  rw [ofProgram_of_flatten h] at paired
  obtain rfl := Except.ok.inj paired
  apply b.lies_of_links ⟨Array.replicate p.size none⟩
  · rw [h]
    exact .whole p
  · rw [Array.size_replicate]
    omega
  · intro i _
    rw [partner?, Array.getElem?_replicate]
    split <;> rfl
  · intro i _ _
    rfl

/-- In the map of a program exactly the positions of brackets have a partner. -/
theorem isSome_partner?_iff {p : Program} {map : BracketMap} (paired : ofProgram p = .ok map)
    {i : Nat} (inside : i < p.size) :
    (map.partner? i).isSome ↔ ∃ x, p.get? i = some x ∧ x.isBracket = true := by
  obtain ⟨b, h⟩ := exists_flatten_of_ofProgram paired
  have size : b.size = p.size := by rw [← b.length_flatten, h, p.length_toList]
  exact (lies_of_ofProgram paired h).isSome_partner?_iff (Nat.zero_le i) (by omega)

end BracketMap

end NoteTape
