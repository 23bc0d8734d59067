/-
  NoteTape.Proofs.Brackets.Verdict

  When the brackets of a program have partners, and which bracket is blamed where
  they have none, said by counting: a scan accepts the balanced sequences and no
  others, it blames the first `]` that closes nothing, and of the brackets left
  open the last one that never comes back to balance.
-/

import NoteTape.Proofs.Brackets.Scan

namespace NoteTape

/-- Where all brackets are closed, a further `]` is the first that closes
    nothing. -/
theorem Unclosed.strayAt {before : List Instruction} (closed : Unclosed before [])
    (after : List Instruction) : StrayAt (before ++ .loopClose :: after) before.length := by
  constructor
  · have h := closed.surplus_eq
    rw [List.take_append, List.take_of_length_le (by omega),
      show before.length + 1 - before.length = 0 + 1 by omega, List.take_succ_cons, List.take_zero,
      surplus_append, surplus_cons_loopClose, h]
    decide
  · intro n le
    rw [List.take_append_of_le_length le]
    exact closed.surplus_take_nonneg n

namespace Scanned

variable {is : List Instruction} {answer : Except Fault BracketMap}

theorem ok_iff_balanced (h : Scanned is answer) : (∃ map, answer = .ok map) ↔ Balanced is := by
  cases h with
  | nested b map => exact ⟨fun _ => b.balanced_flatten, fun _ => ⟨map, rfl⟩⟩
  | @stray before closed after =>
    constructor
    · rintro ⟨map, ⟨⟩⟩
    · intro balanced
      have negative := (closed.strayAt after).1
      have := balanced.1 (before.length + 1)
      omega
  | left seen =>
    constructor
    · rintro ⟨map, ⟨⟩⟩
    · intro balanced
      have positive := seen.surplus_eq
      rw [balanced.2, List.length_cons] at positive
      omega

/-- Where some beginning closes more than it opens, the first such position is
    blamed. -/
theorem stray_of_negative (h : Scanned is answer) (negative : ∃ n, surplus (is.take n) < 0) :
    ∃ pos, StrayAt is pos ∧ answer = .error (.strayClose pos) := by
  obtain ⟨n, negative⟩ := negative
  cases h with
  | nested b map =>
    have := b.balanced_flatten.1 n
    omega
  | stray closed after => exact ⟨_, closed.strayAt after, rfl⟩
  | left seen =>
    have := seen.surplus_take_nonneg n
    omega

/-- Where no beginning closes more than it opens and yet too much is opened, the
    last bracket that stays open is blamed, and all of them are counted. -/
theorem leftOpen_of_positive (h : Scanned is answer) (nonneg : ∀ n, 0 ≤ surplus (is.take n))
    (more : is.count .loopClose < is.count .loopOpen) :
    ∃ pos, LeftOpenAt is pos ∧
      answer = .error (.leftOpen (is.count .loopOpen - is.count .loopClose) pos) := by
  cases h with
  | nested b map =>
    have := b.balanced_flatten.2
    rw [surplus] at this
    omega
  | @stray before closed after =>
    have negative := (closed.strayAt after).1
    have := nonneg (before.length + 1)
    omega
  | @left is innermost outer seen =>
    have count := seen.surplus_eq
    rw [surplus, List.length_cons] at count
    refine ⟨innermost, seen.leftOpenAt, ?_⟩
    rw [show is.count .loopOpen - is.count .loopClose = outer.length + 1 by omega]

end Scanned

/-- The brackets of a program have partners exactly if they are balanced. Otherwise
    the first `]` is reported that closes more than was opened, or, if there is
    none, the last `[` behind which balance is never reached again. -/
theorem ofProgram_verdict (p : Program) :
    ((∃ map, BracketMap.ofProgram p = .ok map) ↔ Balanced p.toList) ∧
    ((∃ n, surplus (p.toList.take n) < 0) →
      ∃ pos, StrayAt p.toList pos ∧
        (BracketMap.ofProgram p).mapError Fault.report =
          .error (.unbalanced "']' has no matching '['" pos)) ∧
    ((∀ n, 0 ≤ surplus (p.toList.take n)) →
      p.toList.count .loopClose < p.toList.count .loopOpen →
      ∃ pos, LeftOpenAt p.toList pos ∧
        (BracketMap.ofProgram p).mapError Fault.report =
          let left := p.toList.count .loopOpen - p.toList.count .loopClose
          .error (.unbalanced s!"{left} '[' left without a matching ']'" pos)) := by
  have scanned := BracketMap.ofProgram_scanned p
  refine ⟨scanned.ok_iff_balanced, ?_, ?_⟩
  · intro negative
    obtain ⟨pos, stray, answer⟩ := scanned.stray_of_negative negative
    exact ⟨pos, stray, by rw [answer]; rfl⟩
  · intro nonneg more
    obtain ⟨pos, left, answer⟩ := scanned.leftOpen_of_positive nonneg more
    exact ⟨pos, left, by rw [answer]; rfl⟩

/-- In `[]]` the second `]` is a stray, and in `[[]` the first `[` is left open. -/
theorem ofProgram_verdict_stray_and_left_open :
    (∃ pos, StrayAt [.loopOpen, .loopClose, .loopClose] pos ∧
      (BracketMap.ofProgram (.ofList [.loopOpen, .loopClose, .loopClose])).mapError Fault.report =
        .error (.unbalanced "']' has no matching '['" pos)) ∧
    ∃ pos, LeftOpenAt [.loopOpen, .loopOpen, .loopClose] pos ∧
      (BracketMap.ofProgram (.ofList [.loopOpen, .loopOpen, .loopClose])).mapError Fault.report =
        .error (.unbalanced "1 '[' left without a matching ']'" pos) := by
  have seen : Unclosed [.loopOpen, .loopOpen, .loopClose] [0] :=
    (Unclosed.none .done).opens.opens.closes
  constructor
  · exact (ofProgram_verdict (.ofList [.loopOpen, .loopClose, .loopClose])).2.1 ⟨3, by decide⟩
  · exact (ofProgram_verdict (.ofList [.loopOpen, .loopOpen, .loopClose])).2.2
      seen.surplus_take_nonneg (by decide)

end NoteTape
