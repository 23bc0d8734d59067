/-
  NoteTape.Proofs.Machine.Session

  What holds of a machine however it is used. A property that every step keeps is
  kept by runs (`run_keeps`) and so holds of every machine that comes about in a
  session (`Reached.keeps`). The one that matters is where the next instruction
  may be: a step goes one past the instruction it carried out or one past a
  partner, and the partners in a map lie in the program it was made from, so the
  position stays within the longest of all programs concerned.
-/

import NoteTape.Machine.Session
import NoteTape.Proofs.Brackets.Pairing
import NoteTape.Proofs.Device.Store
import NoteTape.Proofs.Machine.Step

namespace NoteTape.Machine

variable {δ : Type} [Device δ] {p : Program} {map : BracketMap} {m m' : Machine} {d d' : δ}

-- ============================================================================
-- Properties that every step keeps
-- ============================================================================

/-- The flush at the end of a run leaves the machine alone. -/
theorem machine_of_finish {answer : Except Fault Unit} (h : finish m d = .ended answer m' d') :
    m' = m := by
  rw [finish] at h
  split at h
  · cases h
    rfl
  · cases h
    rfl

theorem run_keeps {P : Machine → Prop}
    (keeps : ∀ (m : Machine) (d : δ), P m → P (step p map m d).machine) {most : Nat}
    {answer : Except Fault Unit} (start : P m) (ended : run p map most m d = .ended answer m' d') :
    P m' := by
  induction most generalizing m d with
  | zero => cases ended
  | succ most ih =>
    have kept := keeps m d start
    rw [run] at ended
    cases first : step p map m d with
    | mk reply m₁ d₁ =>
      rw [first] at ended kept
      cases reply with
      | error fault =>
        cases ended
        exact kept
      | ok status =>
        cases status with
        | running => exact ih kept ended
        | halted =>
          rw [machine_of_finish ended]
          exact kept

/-- What holds of a fresh machine and is kept by every step with an allowed program
    and map holds of every machine that comes about. -/
theorem Reached.keeps {allowed : Program → BracketMap → Prop} {P : Machine → Prop}
    (start : P .fresh)
    (keeps : ∀ {δ : Type} [Device δ] {p : Program} {map : BracketMap} (m : Machine) (d : δ),
      allowed p map → P m → P (Machine.step p map m d).machine)
    (reached : Reached allowed m) : P m := by
  induction reached with
  | fresh => exact start
  | step use _ d ih => exact keeps _ d use ih
  | run use _ ended ih => exact run_keeps (fun m d => keeps m d use) ih ended

-- ============================================================================
-- Where the next instruction may be
-- ============================================================================

/-- A step stays within a bound on the program and on the partners in the map. -/
theorem ip_step_le {most : Nat} (short : p.size ≤ most)
    (partners : ∀ i j, map.partner? i = some j → j < most) (within : m.ip ≤ most) :
    (step p map m d).machine.ip ≤ most := by
  have stepped := step_stepped p map m d
  generalize step p map m d = turn at stepped
  cases stepped with
  | halted | lost | starved | refused => exact within
  | carried inside tape d' =>
    show m.ip + 1 ≤ most
    omega
  | jumped inside partner paired =>
    have := partners m.ip partner paired
    show partner + 1 ≤ most
    omega

/-- In a session within a bound the machine stays within it. -/
theorem Reached.ip_le {allowed : Program → BracketMap → Prop} {most : Nat}
    (bounded : ∀ p map, allowed p map →
      p.size ≤ most ∧ ∀ i j, map.partner? i = some j → j < most)
    (reached : Reached allowed m) : m.ip ≤ most := by
  apply reached.keeps (P := fun m => m.ip ≤ most) (Nat.zero_le most)
  intro δ _ p map m d use within
  obtain ⟨short, partners⟩ := bounded p map use
  exact ip_step_le short partners within

theorem MadeWithin.partner_lt {most : Nat} (made : MadeWithin most map) {i j : Nat}
    (partner : map.partner? i = some j) : j < most := by
  rcases made with rfl | ⟨p, short, paired⟩
  · simp [BracketMap.partner?, BracketMap.empty] at partner
  · have := BracketMap.partner_lt paired partner
    omega

/-- A step answers that the machine is halted exactly if it left no instruction. -/
theorem answer_step_eq_halted_iff (p : Program) (map : BracketMap) (m : Machine) (d : δ) :
    (step p map m d).answer = .ok .halted ↔ p.size ≤ (step p map m d).machine.ip := by
  by_cases outside : p.size ≤ m.ip
  · rw [step_of_outside outside]
    exact ⟨fun _ => outside, fun _ => rfl⟩
  cases turn : step p map m d with
  | mk reply m' d' =>
    cases reply with
    | ok status =>
      obtain ⟨rfl, -⟩ := step_ok (Nat.lt_of_not_le outside) turn
      rw [Except.ok.injEq, status_eq_halted_iff]
    | error fault =>
      -- A step that fails leaves the machine at its instruction.
      obtain ⟨rfl, -⟩ := step_error turn
      constructor
      · rintro ⟨⟩
      · intro outside'
        exact absurd outside' outside

/-- However a machine is used, its tape has 30000 cells with the head on one of them,
    so that neither reading nor moving leaves the tape or a machine word; and its next
    instruction is at most one past the end of the longest program that was run or
    that a map was made from. If only one program is used, with its own map, the
    machine stays inside it or at its end, and a step answers that the machine is
    halted exactly if it is there. -/
theorem reached_within :
    (∀ (most : Nat) (m : Machine),
      Reached (fun p map => p.size ≤ most ∧ MadeWithin most map) m →
        m.tape.cells.toList.length = 30000 ∧ m.tape.head.val < 30000 ∧
        m.tape.head.val + 30000 - 1 < USize.size ∧ m.ip ≤ most ∧
        (most + 1 < USize.size → m.ip + 1 < USize.size)) ∧
    ∀ (p : Program) (map : BracketMap) (m : Machine), BracketMap.ofProgram p = .ok map →
      Reached (fun q map' => q = p ∧ map' = map) m →
        m.ip ≤ p.size ∧
        ∀ (δ : Type) [Device δ] (d : δ),
          (step p map m d).answer = .ok .halted ↔ p.size ≤ (step p map m d).machine.ip := by
  constructor
  · intro most m reached
    have head : m.tape.head.val < 30000 := m.tape.head.isLt
    have word := USize.le_size
    have within : m.ip ≤ most := reached.ip_le fun p map use => ⟨use.1, fun i j => use.2.partner_lt⟩
    exact ⟨m.tape.cells.length_toList, head, by omega, within, by omega⟩
  · intro p map m paired reached
    have within : m.ip ≤ p.size := by
      apply reached.ip_le
      rintro q map' ⟨rfl, rfl⟩
      exact ⟨Nat.le_refl _, fun i j => BracketMap.partner_lt paired⟩
    exact ⟨within, fun δ _ d => answer_step_eq_halted_iff p map m d⟩

/-- A lone `[` with the map of `[++]` throws the machine to the end of the program that
    the map was made from, and no further. A lone `+` with its own map halts it. -/
theorem reached_within_foreign_map :
    (∃ m, Reached (fun p map => p.size ≤ 4 ∧ MadeWithin 4 map) m ∧ m.ip = 4 ∧
      m.ip + 1 < USize.size) ∧
    (step (.ofList [.increment]) ⟨#[none]⟩ .fresh (supplied [])).answer = .ok .halted := by
  constructor
  · let map : BracketMap := ⟨#[some 3, none, none, some 0]⟩
    have made : MadeWithin 4 map :=
      .inr ⟨.ofList [.loopOpen, .increment, .increment, .loopClose], by decide, rfl⟩
    have reached : Reached (fun p map => p.size ≤ 4 ∧ MadeWithin 4 map)
        (step (.ofList [.loopOpen]) map .fresh (supplied [])).machine :=
      .step ⟨by decide, made⟩ .fresh (supplied [])
    have jumps : (step (.ofList [.loopOpen]) map .fresh (supplied [])).machine.ip = 4 := by
      have zero : Machine.fresh.tape.current = 0 := Tape.cell_blank _
      have here : (Program.ofList [.loopOpen]).get? Machine.fresh.ip = some .loopOpen := rfl
      simp only [step, here, zero, if_true]
      rfl
    have word := USize.le_size
    have bound := (reached_within.1 4 _ reached).2.2.2.2 (by omega)
    exact ⟨_, reached, jumps, bound⟩
  · have behind := (reached_within.2 (.ofList [.increment]) ⟨#[none]⟩ .fresh rfl .fresh).2
    exact (behind _ _).2 (Nat.le_refl 1)

end NoteTape.Machine
