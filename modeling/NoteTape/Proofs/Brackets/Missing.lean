/-
  NoteTape.Proofs.Brackets.Missing

  A balanced program with one bracket taken out. From where it stood the surplus of
  every beginning is one less, if it opened, or one more, if it closed, and around it
  the surplus was positive up to the end of the outermost pair. So without a `[` the
  closing bracket of that pair is the first stray, and without a `]` its opening bracket
  is the last that stays open.
-/

import NoteTape.Proofs.Brackets.Outermost
import NoteTape.Proofs.Brackets.Verdict

namespace NoteTape

variable {is : List Instruction} {opened closed pos n : Nat} {x : Instruction}

-- ============================================================================
-- Beginnings without one instruction
-- ============================================================================

/-- A sequence is cut in three at a position. -/
theorem exists_eq_append_cons (here : is[pos]? = some x) :
    ∃ before after, is = before ++ x :: after ∧ before.length = pos := by
  obtain ⟨inside, there⟩ := List.getElem?_eq_some_iff.1 here
  refine ⟨is.take pos, is.drop (pos + 1), ?_, List.length_take_of_le (Nat.le_of_lt inside)⟩
  rw [← there, List.getElem_cons_drop, List.take_append_drop]

theorem surplus_take_eraseIdx_of_le (le : n ≤ pos) :
    surplus ((is.eraseIdx pos).take n) = surplus (is.take n) := by
  rw [List.take_eraseIdx_eq_take_of_le is n pos le]

theorem surplus_take_eraseIdx_of_ge (here : is[pos]? = some x) (ge : pos ≤ n) :
    surplus ((is.eraseIdx pos).take n) + surplus [x] = surplus (is.take (n + 1)) := by
  obtain ⟨before, after, rfl, rfl⟩ := exists_eq_append_cons here
  obtain ⟨k, rfl⟩ := Nat.exists_eq_add_of_le ge
  have first : surplus (x :: after.take k) = surplus [x] + surplus (after.take k) :=
    surplus_append [x] (after.take k)
  rw [List.eraseIdx_append_of_length_le (Nat.le_refl _), Nat.sub_self, List.eraseIdx_cons_zero,
    List.take_length_add_append, Nat.add_assoc, List.take_length_add_append, List.take_succ_cons,
    surplus_append, surplus_append, first]
  omega

theorem surplus_eraseIdx (here : is[pos]? = some x) :
    surplus (is.eraseIdx pos) + surplus [x] = surplus is := by
  have inside : pos < is.length := (List.getElem?_eq_some_iff.1 here).1
  have all := surplus_take_eraseIdx_of_ge here (Nat.le_of_lt inside)
  rwa [List.take_of_length_le (Nat.le_succ _), List.take_of_length_le] at all
  rw [List.length_eraseIdx_of_lt inside]
  omega

-- ============================================================================
-- Which bracket is blamed
-- ============================================================================

theorem StrayAt.unique {pos' : Nat} (h : StrayAt is pos) (h' : StrayAt is pos') : pos = pos' := by
  obtain ⟨negative, nonneg⟩ := h
  obtain ⟨negative', nonneg'⟩ := h'
  rcases Nat.lt_trichotomy pos pos' with less | same | more
  · have := nonneg' (pos + 1) less
    omega
  · exact same
  · have := nonneg (pos' + 1) more
    omega

theorem LeftOpenAt.unique {pos' : Nat} (h : LeftOpenAt is pos) (h' : LeftOpenAt is pos') :
    pos = pos' := by
  rcases Nat.lt_trichotomy pos pos' with less | same | more
  · exact absurd h'.1 (h.2 pos' less)
  · exact same
  · exact absurd h.1 (h'.2 pos more)

namespace Encloses

variable (h : Encloses is opened closed pos)

include h

/-- Without an opening bracket the closing bracket of the pair around it is a stray. -/
theorem strayAt_of_missing_open (opens : is[pos]? = some .loopOpen) :
    StrayAt (is.eraseIdx pos) (closed - 1) := by
  have lt := h.pair.1
  have less {n : Nat} (ge : pos ≤ n) :
      surplus ((is.eraseIdx pos).take n) = surplus (is.take (n + 1)) - 1 := by
    rw [← surplus_take_eraseIdx_of_ge opens ge]
    exact (Int.add_sub_cancel _ 1).symm
  constructor
  · rw [show closed - 1 + 1 = closed by omega, less h.below, h.surplus_take_closed]
    decide
  · intro n le
    rcases Nat.lt_or_ge pos n with behind | front
    · have above := h.above
      have := h.pos_surplus_take (n := n + 1) (by omega) (by omega)
      rw [less (Nat.le_of_lt behind)]
      omega
    · rw [surplus_take_eraseIdx_of_le front]
      exact h.balanced.1 n

/-- Without a closing bracket something is open all the way behind the opening bracket
    of the pair around it. -/
theorem pos_surplus_take_of_missing_close (closes : is[pos]? = some .loopClose)
    (behind : opened < n) : 1 ≤ surplus ((is.eraseIdx pos).take n) := by
  rcases Nat.lt_or_ge pos n with gt | le
  · have more : surplus ((is.eraseIdx pos).take n) - 1 = surplus (is.take (n + 1)) :=
      surplus_take_eraseIdx_of_ge closes (Nat.le_of_lt gt)
    have := h.balanced.1 (n + 1)
    omega
  · rw [surplus_take_eraseIdx_of_le le]
    exact h.pos_surplus_take behind (Nat.le_trans le h.below)

/-- Without a closing bracket the opening bracket of the pair around it is the last that
    stays open. -/
theorem leftOpenAt_of_missing_close (closes : is[pos]? = some .loopClose) :
    LeftOpenAt (is.eraseIdx pos) opened := by
  have opens := h.pair.2.1
  have front : opened < pos := by
    rcases Nat.lt_or_eq_of_le h.above with lt | rfl
    · exact lt
    · rw [opens] at closes
      cases closes
  have positive {n : Nat} (behind : opened < n) : 1 ≤ surplus ((is.eraseIdx pos).take n) :=
    h.pos_surplus_take_of_missing_close closes behind
  have zero : surplus ((is.eraseIdx pos).take opened) = 0 := by
    rw [surplus_take_eraseIdx_of_le h.above, h.front]
  refine ⟨⟨?_, ?_⟩, ?_⟩
  · rw [List.getElem?_eraseIdx_of_lt front, opens]
  · intro last le
    have cut := surplus_take_succ_stretch (is.eraseIdx pos) opened last (by omega)
    have := positive (n := last + 1) (by omega)
    omega
  · intro later behind stays
    -- One bracket is left open in all, and it is open already in front of `later`.
    have one : surplus (is.eraseIdx pos) - 1 = surplus is := surplus_eraseIdx closes
    have := surplus_take_add_drop (is.eraseIdx pos) later
    have := positive behind
    have := stays.pos_surplus_drop
    rw [h.balanced.2] at one
    omega

variable {answer : Except Fault BracketMap} (scanned : Scanned (is.eraseIdx pos) answer)

include scanned

theorem answer_of_missing_open (opens : is[pos]? = some .loopOpen) :
    answer = .error (.strayClose (closed - 1)) := by
  have stray := h.strayAt_of_missing_open opens
  obtain ⟨pos', stray', rfl⟩ := scanned.stray_of_negative ⟨_, stray.1⟩
  rw [stray.unique stray']

theorem answer_of_missing_close (closes : is[pos]? = some .loopClose) :
    answer = .error (.leftOpen 1 opened) := by
  have left := h.leftOpenAt_of_missing_close closes
  have one : surplus (is.eraseIdx pos) - 1 = surplus is := surplus_eraseIdx closes
  rw [h.balanced.2, surplus] at one
  have nonneg (n : Nat) : 0 ≤ surplus ((is.eraseIdx pos).take n) := by
    rcases Nat.lt_or_ge opened n with behind | front
    · have := h.pos_surplus_take_of_missing_close closes behind
      omega
    · rw [surplus_take_eraseIdx_of_le (Nat.le_trans front h.above)]
      exact h.balanced.1 n
  obtain ⟨pos', left', rfl⟩ := scanned.leftOpen_of_positive nonneg (by omega)
  rw [left.unique left', show (is.eraseIdx pos).count .loopOpen -
    (is.eraseIdx pos).count .loopClose = 1 by omega]

end Encloses

/-- A bracket that is taken out of a balanced program is always noticed, and the pair
    that is blamed is the outermost one around it: without a `[` its `]` is a stray, now
    one position further in front, and without a `]` its `[` is left open. -/
theorem missing_bracket_blamed {p : Program} {map : BracketMap}
    (paired : BracketMap.ofProgram p = .ok map) (here : p.get? pos = some x)
    (bracket : x.isBracket = true) :
    ∃ opened closed, Outermost p.toList opened closed ∧ opened ≤ pos ∧ pos ≤ closed ∧
      (∀ opened' closed', Outermost p.toList opened' closed' → opened' ≤ pos → pos ≤ closed' →
        opened' = opened ∧ closed' = closed) ∧
      (x = .loopOpen →
        (BracketMap.ofProgram (.ofList (p.toList.eraseIdx pos))).mapError Fault.report =
          .error (.unbalanced "']' has no matching '['" (closed - 1))) ∧
      (x = .loopClose →
        (BracketMap.ofProgram (.ofList (p.toList.eraseIdx pos))).mapError Fault.report =
          .error (.unbalanced "1 '[' left without a matching ']'" opened)) := by
  obtain ⟨b, flat⟩ := BracketMap.exists_flatten_of_ofProgram paired
  rw [p.get?_eq_getElem?] at here
  have scanned := BracketMap.ofProgram_scanned (.ofList (p.toList.eraseIdx pos))
  rw [Program.toList_ofList] at scanned
  rw [← flat] at here scanned ⊢
  obtain ⟨opened, closed, h⟩ := b.exists_encloses here bracket
  refine ⟨opened, closed, h.outermost, h.above, h.below, ?_, ?_, ?_⟩
  · intro opened' closed' outermost' above' below'
    exact outermost'.unique h.outermost above' below' h.above h.below
  · rintro rfl
    rw [h.answer_of_missing_open scanned here]
    rfl
  · rintro rfl
    rw [h.answer_of_missing_close scanned here]
    rfl

/-- In `+[>[-]]` the inner loop loses its `[`, and the `]` of the outer one is a stray; or
    it loses its `]`, and the `[` of the outer one is left open. -/
theorem missing_bracket_blamed_inner :
    (∃ opened closed, opened ≤ 3 ∧ 3 ≤ closed ∧
      Outermost [.increment, .loopOpen, .right, .loopOpen, .decrement, .loopClose, .loopClose]
        opened closed ∧
      (BracketMap.ofProgram
          (.ofList [.increment, .loopOpen, .right, .decrement, .loopClose, .loopClose])).mapError
        Fault.report = .error (.unbalanced "']' has no matching '['" (closed - 1))) ∧
    ∃ opened closed, opened ≤ 5 ∧ 5 ≤ closed ∧
      Outermost [.increment, .loopOpen, .right, .loopOpen, .decrement, .loopClose, .loopClose]
        opened closed ∧
      (BracketMap.ofProgram
          (.ofList [.increment, .loopOpen, .right, .loopOpen, .decrement, .loopClose])).mapError
        Fault.report = .error (.unbalanced "1 '[' left without a matching ']'" opened) := by
  let p : Program := .ofList [.increment, .loopOpen, .right, .loopOpen, .decrement, .loopClose,
    .loopClose]
  have paired : BracketMap.ofProgram p =
      .ok ⟨#[none, some 6, none, some 5, none, some 3, some 1]⟩ := rfl
  have opens : p.get? 3 = some .loopOpen := rfl
  have closes : p.get? 5 = some .loopClose := rfl
  obtain ⟨opened, closed, outermost, above, below, -, stray, -⟩ :=
    missing_bracket_blamed paired opens rfl
  obtain ⟨opened', closed', outermost', above', below', -, -, left⟩ :=
    missing_bracket_blamed paired closes rfl
  exact ⟨⟨opened, closed, above, below, outermost, stray rfl⟩,
    opened', closed', above', below', outermost', left rfl⟩

end NoteTape
