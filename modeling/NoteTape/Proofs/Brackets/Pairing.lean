/-
  NoteTape.Proofs.Brackets.Pairing

  The bracket map of a program is the one nesting of its brackets. A loop of a
  block stands between two partners (`Block.partners_of_loop`), so the partners in
  the map of a block are those that counting finds
  (`BracketMap.partner?_eq_some_iff`), and what holds of linked positions in any
  sequence of instructions holds of the map.
-/

import NoteTape.Proofs.Block.Layout
import NoteTape.Proofs.Brackets.Nesting

namespace NoteTape

/-- Counting elements is counting their positions. -/
theorem countP_range_getElem? {α : Type} (q : α → Bool) (l : List α) :
    (List.range l.length).countP (fun i => l[i]?.any q) = l.countP q := by
  induction l with
  | nil => rfl
  | cons x l ih =>
    have tail : ((List.range l.length).map Nat.succ).countP (fun i => (x :: l)[i]?.any q) =
        l.countP q := by
      rw [List.countP_map, ← ih]
      rfl
    rw [List.length_cons, List.range_succ_eq_map, List.countP_cons, tail, List.countP_cons]
    rfl

namespace Block

-- ============================================================================
-- The brackets around a body are partners
-- ============================================================================

/-- Two brackets around a body, with anything before and behind them. -/
theorem partners_of_loop (before after : List Instruction) (body : Block) :
    Partners (before ++ .loopOpen :: (body.flatten ++ .loopClose :: after))
      before.length (before.length + body.size + 1) := by
  have tail : (before ++ .loopOpen :: (body.flatten ++ .loopClose :: after)).drop before.length =
      .loopOpen :: (body.flatten ++ .loopClose :: after) := List.drop_left
  refine ⟨by omega, by simp, ?_, ?_, ?_⟩
  · rw [List.getElem?_append_right (by omega),
      show before.length + body.size + 1 - before.length = body.size + 1 by omega,
      List.getElem?_cons_succ, List.getElem?_append_right (by simp),
      length_flatten, Nat.sub_self, List.getElem?_cons_zero]
  · have whole : (body.flatten ++ .loopClose :: after).take (body.size + 1) =
        body.flatten ++ [.loopClose] := by
      rw [← length_flatten, List.take_length_add_append, List.take_succ_cons, List.take_zero]
    rw [stretch, tail,
      show before.length + body.size + 1 + 1 - before.length = body.size + 1 + 1 by omega,
      List.take_succ_cons, whole, surplus_cons_loopOpen, surplus_append, body.balanced_flatten.2]
    decide
  · intro last above below
    -- Up to the end of the body a beginning of the body stands behind the bracket.
    have inner := body.balanced_flatten.1 (last - before.length)
    rw [stretch, tail, show last + 1 - before.length = last - before.length + 1 by omega,
      List.take_succ_cons, surplus_cons_loopOpen,
      List.take_append_of_le_length (by rw [length_flatten]; omega)]
    omega

/-- In a block that lies in a program the map gives linked positions as partners. -/
theorem Lies.linked {p : Program} {map : BracketMap} {b : Block} {pos : Nat}
    (lies : b.Lies p map pos) {before after : List Instruction} (at_ : before.length = pos)
    (whole : p.toList = before ++ (b.flatten ++ after)) {i j : Nat} (above : pos ≤ i)
    (below : i < pos + b.size) (partner : map.partner? i = some j) : Linked p.toList i j := by
  induction b generalizing pos before after with
  | done =>
    rw [size] at below
    omega
  | act a next ih =>
    obtain ⟨-, unpaired, behind⟩ := lies
    rw [size] at below
    by_cases first : i = pos
    · rw [first, unpaired] at partner
      cases partner
    · have whole' : p.toList = before ++ [a.instruction] ++ (next.flatten ++ after) := by
        rw [whole, flatten, List.append_assoc, List.cons_append, List.singleton_append]
      exact ih behind (by simp [at_]) whole' (by omega) (by omega)
  | loop body next ihBody ihNext =>
    obtain ⟨-, opened, inside, -, closed, behind⟩ := lies
    rw [size] at below
    have loop : p.toList =
        before ++ .loopOpen :: (body.flatten ++ .loopClose :: (next.flatten ++ after)) := by
      rw [whole, flatten, List.cons_append, List.append_assoc, List.cons_append]
    have pair : Partners p.toList pos (pos + body.size + 1) := by
      rw [loop, ← at_]
      exact partners_of_loop before (next.flatten ++ after) body
    by_cases first : i = pos
    · rw [first, opened] at partner
      rw [first, ← Option.some.inj partner]
      exact .inl pair
    · by_cases last : i = pos + body.size + 1
      · rw [last, closed] at partner
        rw [last, ← Option.some.inj partner]
        exact .inr pair
      · by_cases within : i < pos + 1 + body.size
        · have whole' : p.toList = before ++ [.loopOpen] ++
              (body.flatten ++ .loopClose :: (next.flatten ++ after)) := by
            rw [loop, List.append_assoc, List.singleton_append]
          exact ihBody inside (by simp [at_]) whole' (by omega) within
        · have whole' : p.toList = before ++ .loopOpen :: (body.flatten ++ [.loopClose]) ++
              (next.flatten ++ after) := by
            rw [loop, List.append_assoc, List.cons_append, List.append_assoc,
              List.singleton_append]
          exact ihNext behind (by simp [at_]; omega) whole' (by omega) (by omega)

end Block

-- ============================================================================
-- The map of a program
-- ============================================================================

namespace BracketMap

variable {p : Program} {map : BracketMap}

section Paired

variable (paired : ofProgram p = .ok map)

include paired

theorem size_partners_of_ofProgram : map.partners.size = p.size := by
  obtain ⟨b, h⟩ := exists_flatten_of_ofProgram paired
  rw [ofProgram_of_flatten h] at paired
  obtain rfl := Except.ok.inj paired
  rw [Block.size_partners_links, Array.size_replicate]

theorem partner?_of_outside {i : Nat} (outside : p.size ≤ i) : map.partner? i = none := by
  have room : map.partners.size ≤ i := by rwa [size_partners_of_ofProgram paired]
  rw [partner?, Array.getElem?_eq_none room, Option.join_none]

theorem bracket_iff (i : Nat) :
    (map.partner? i).isSome ↔ ∃ x, p.toList[i]? = some x ∧ x.isBracket = true := by
  rw [← p.get?_eq_getElem?]
  by_cases inside : i < p.size
  · exact isSome_partner?_iff paired inside
  · have outside := Nat.le_of_not_lt inside
    simp [partner?_of_outside paired outside, Program.get?_eq_none_of_le outside]

theorem linked_of_partner? (i j : Nat) (partner : map.partner? i = some j) :
    Linked p.toList i j := by
  obtain ⟨b, h⟩ := exists_flatten_of_ofProgram paired
  have size : b.size = p.size := by rw [← b.length_flatten, h, p.length_toList]
  have inside : i < p.size := by
    rcases Nat.lt_or_ge i p.size with lt | ge
    · exact lt
    · rw [partner?_of_outside paired ge] at partner
      cases partner
  have whole : p.toList = [] ++ (b.flatten ++ []) := by
    rw [h, List.append_nil, List.nil_append]
  exact (lies_of_ofProgram paired h).linked rfl whole (Nat.zero_le i) (by omega) partner

/-- The map gives as partners the positions that counting links, and no others. -/
theorem partner?_eq_some_iff (i j : Nat) : map.partner? i = some j ↔ Linked p.toList i j :=
  eq_some_iff_linked (bracket_iff paired) (linked_of_partner? paired) i j

theorem nests_partner? : Nests p.toList map.partner? :=
  .of_linked (bracket_iff paired) (partner?_eq_some_iff paired)

theorem partner_lt {i j : Nat} (partner : map.partner? i = some j) : j < p.size := by
  have back := (nests_partner? paired).symm i j partner
  rcases Nat.lt_or_ge j p.size with lt | ge
  · exact lt
  · rw [partner?_of_outside paired ge] at back
    cases back

/-- The map has as many entries as the program has brackets. -/
theorem size_of_ofProgram : map.size = p.toList.countP Instruction.isBracket := by
  rw [size, entries, List.length_filterMap_eq_countP, size_partners_of_ofProgram paired,
    ← p.length_toList, ← countP_range_getElem? Instruction.isBracket p.toList]
  apply List.countP_congr
  intro i _
  rw [Option.isSome_map, bracket_iff paired i, Option.any_eq_true]

end Paired

/-- The bracket map of a program is the one nesting of its brackets. Exactly the
    brackets have a partner, each inside the program; the partner of a `[` is the
    first position at which balance is reached again, and there stands a `]`;
    partners are partners of each other, and no bracket is its own; two pairs are
    never crossed; and nothing else nests the brackets. -/
theorem ofProgram_nests (paired : ofProgram p = .ok map) :
    (∀ i, (map.partner? i).isSome ↔ ∃ x, p.get? i = some x ∧ x.isBracket = true) ∧
    map.size = p.toList.countP Instruction.isBracket ∧
    (∀ i j, map.partner? i = some j → j < p.size) ∧
    (∀ i, p.get? i = some .loopOpen →
      ∃ j, map.partner? i = some j ∧ Partners p.toList i j) ∧
    (∀ i j, map.partner? i = some j ↔ map.partner? j = some i) ∧
    (∀ i, map.partner? i ≠ some i) ∧
    (∀ a b c d, map.partner? a = some b → a < b → map.partner? c = some d → c < d →
      (a = c ∧ b = d) ∨ b < c ∨ d < a ∨ (a < c ∧ d < b) ∨ (c < a ∧ b < d)) ∧
    ∀ partner?, Nests p.toList partner? → partner? = map.partner? := by
  have nests := nests_partner? paired
  have pair {i j : Nat} (partner : map.partner? i = some j) (lt : i < j) :
      Partners p.toList i j := nests.partners partner lt
  refine ⟨?_, size_of_ofProgram paired, fun i j => partner_lt paired, ?_, ?_, ?_, ?_, ?_⟩
  · intro i
    rw [p.get?_eq_getElem?]
    exact bracket_iff paired i
  · intro i opens
    rw [p.get?_eq_getElem?] at opens
    obtain ⟨j, partner⟩ := nests.exists_partner opens rfl
    refine ⟨j, partner, ?_⟩
    rcases nests.ordered i j partner with ⟨lt, -⟩ | ⟨-, -, closes⟩
    · exact pair partner lt
    · rw [opens] at closes
      cases closes
  · intro i j
    exact ⟨nests.symm i j, nests.symm j i⟩
  · intro i partner
    rcases nests.ordered i i partner with ⟨lt, -⟩ | ⟨lt, -⟩ <;> omega
  · intro a b c d partner ab partner' cd
    exact (pair partner ab).apart_or_inside (pair partner' cd)
  · intro partner? nests'
    exact nests'.unique nests

/-- In `[[]]+[]` there are six brackets, and the first closes at position 3. -/
theorem ofProgram_nests_inside_and_beside :
    ∃ map, BracketMap.ofProgram
        (.ofList [.loopOpen, .loopOpen, .loopClose, .loopClose, .increment, .loopOpen,
          .loopClose]) = .ok map ∧
      map.size = 6 ∧ map.partner? 0 = some 3 ∧ map.partner? 3 = some 0 := by
  have paired : BracketMap.ofProgram
      (.ofList [.loopOpen, .loopOpen, .loopClose, .loopClose, .increment, .loopOpen,
        .loopClose]) =
      .ok ⟨#[some 3, some 2, some 1, some 0, none, some 6, some 5]⟩ := rfl
  obtain ⟨-, size, -, opens, symm, -⟩ := ofProgram_nests paired
  obtain ⟨j, partner, -⟩ := opens 0 rfl
  obtain rfl : 3 = j := Option.some.inj partner
  exact ⟨_, paired, size, partner, (symm 0 3).1 partner⟩

end BracketMap

end NoteTape
