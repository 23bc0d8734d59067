/-
  NoteTape.Proofs.Machine.Ending

  How a run comes to its end: so many instructions are carried out
  (`Machine.Advances`), and then the machine carries out no other
  (`Machine.Stops`), because it stands outside the program or because its
  instruction fails. `Machine.ends_iff_stops` is the only fact about
  `Machine.run` that other proofs about its end need.

  The number of steps a run is given makes no difference to how it ends
  (`Machine.run_of_le`), and a run that does not end goes on forever
  (`Machine.diverges_iff`).
-/

import NoteTape.Machine.Advance
import NoteTape.Machine.Run
import NoteTape.Proofs.Machine.Step

namespace NoteTape.Machine

variable {δ : Type} [Device δ] {p : Program} {map : BracketMap}

-- ============================================================================
-- Instructions carried out one after another
-- ============================================================================

theorem Advances.one {m m' : Machine} {d d' : δ} {status : Status} (inside : m.ip < p.size)
    (h : step p map m d = ⟨.ok status, m', d'⟩) : Advances p map 1 m d m' d' :=
  .more inside h (.none m' d')

theorem Advances.trans {k n : Nat} {m m' m'' : Machine} {d d' d'' : δ}
    (first : Advances p map k m d m' d') (rest : Advances p map n m' d' m'' d'') :
    Advances p map (k + n) m d m'' d'' := by
  induction first with
  | none => rwa [Nat.zero_add]
  | more inside h _ ih =>
    rw [Nat.add_right_comm]
    exact .more inside h (ih rest)

/-- What is carried out first is the same each time. -/
theorem Advances.rest {k n : Nat} {m m₁ m₂ : Machine} {d d₁ d₂ : δ}
    (first : Advances p map k m d m₁ d₁) (whole : Advances p map (k + n) m d m₂ d₂) :
    Advances p map n m₁ d₁ m₂ d₂ := by
  induction first with
  | none => rwa [Nat.zero_add] at whole
  | more _ one _ ih =>
    rw [Nat.add_right_comm] at whole
    cases whole with
    | more _ one' rest =>
      rw [one] at one'
      cases one'
      exact ih rest

-- ============================================================================
-- The end of a run
-- ============================================================================

/-- A machine that carries out no instruction ends a run so. -/
inductive Stops (p : Program) (map : BracketMap) (m : Machine) (d : δ) :
    Except Fault Unit → Machine → δ → Prop where
  /-- The machine stands outside the program, and the output is flushed. -/
  | outside {answer : Except Fault Unit} {m' : Machine} {d' : δ} (outside : p.size ≤ m.ip)
    (finished : finish m d = .ended answer m' d') : Stops p map m d answer m' d'
  /-- The instruction fails. -/
  | fails {fault : Fault} {m' : Machine} {d' : δ}
    (fails : step p map m d = ⟨.error fault, m', d'⟩) : Stops p map m d (.error fault) m' d'

variable {m m' m'' : Machine} {d d' d'' : δ} {answer : Except Fault Unit}

/-- A run goes on behind an instruction that was carried out, if there is another. -/
theorem run_succ_of_step {status : Status} (inside : m.ip < p.size)
    (first : step p map m d = ⟨.ok status, m', d'⟩) (most : Nat) :
    run p map (most + 1) m d = if m'.ip < p.size then run p map most m' d' else finish m' d' := by
  obtain ⟨rfl, -⟩ := step_ok inside first
  rw [run, first]
  by_cases inside' : m'.ip < p.size
  · simp only [status, inside', if_true]
  · simp only [status, inside', if_false]

theorem run_succ_of_outside (outside : p.size ≤ m.ip) (most : Nat) :
    run p map (most + 1) m d = finish m d := by
  simp only [run, step_of_outside outside]

/-- Whether a run ends, and how, is the same before and behind an instruction that
    is carried out. -/
theorem ends_iff_of_step {status : Status} (inside : m.ip < p.size)
    (first : step p map m d = ⟨.ok status, m', d'⟩) :
    Ends p map m d answer m'' d'' ↔ Ends p map m' d' answer m'' d'' := by
  have next := run_succ_of_step inside first
  -- A run looks at its bound before it takes a step, but not before it finishes.
  by_cases inside' : m'.ip < p.size
  · simp only [inside', if_true] at next
    constructor
    · rintro ⟨most, h⟩
      cases most with
      | zero => cases h
      | succ most => exact ⟨most, next most ▸ h⟩
    · rintro ⟨most, h⟩
      exact ⟨most + 1, (next most).trans h⟩
  · simp only [inside', if_false] at next
    have halts (most : Nat) : run p map (most + 1) m' d' = finish m' d' :=
      run_succ_of_outside (Nat.le_of_not_lt inside') most
    constructor
    · rintro ⟨most, h⟩
      cases most with
      | zero => cases h
      | succ most => exact ⟨1, (halts 0).trans ((next most).symm.trans h)⟩
    · rintro ⟨most, h⟩
      cases most with
      | zero => cases h
      | succ most => exact ⟨1, (next 0).trans ((halts most).symm.trans h)⟩

theorem Advances.ends_iff {n : Nat} (h : Advances p map n m d m' d') :
    Ends p map m d answer m'' d'' ↔ Ends p map m' d' answer m'' d'' := by
  induction h with
  | none => exact Iff.rfl
  | more inside first _ ih => exact (ends_iff_of_step inside first).trans ih

theorem Stops.ends (h : Stops p map m d answer m' d') : Ends p map m d answer m' d' := by
  refine ⟨1, ?_⟩
  cases h with
  | outside outside finished => rw [run_succ_of_outside outside, finished]
  | fails fails => rw [run, fails]

/-- A machine whose instruction is carried out does not stop there. -/
theorem Stops.not_of_step {status : Status} (inside : m.ip < p.size)
    (first : step p map m d = ⟨.ok status, m', d'⟩) {m'' : Machine} {d'' : δ} :
    ¬ Stops p map m d answer m'' d'' := by
  intro h
  cases h with
  | outside outside => omega
  | fails fails =>
    rw [first] at fails
    cases fails

/-- On the way to where a machine stops, an instruction that can be carried out is
    the first. -/
theorem Advances.uncons {status : Status} {n : Nat} {m₁ m₂ : Machine} {d₁ d₂ : δ}
    (h : Advances p map n m d m₂ d₂) (stops : Stops p map m₂ d₂ answer m' d')
    (inside : m.ip < p.size) (first : step p map m d = ⟨.ok status, m₁, d₁⟩) :
    ∃ k, n = k + 1 ∧ Advances p map k m₁ d₁ m₂ d₂ := by
  cases h with
  | none => exact absurd stops (Stops.not_of_step inside first)
  | more _ first' rest =>
    rw [first] at first'
    cases first'
    exact ⟨_, rfl, rest⟩

/-- A machine whose instruction fails stops there, with that fault. -/
theorem Advances.stops_of_fails {fault : Fault} {n : Nat} {m₁ m₂ : Machine} {d₁ d₂ : δ}
    (h : Advances p map n m d m₂ d₂) (stops : Stops p map m₂ d₂ answer m' d')
    (fails : step p map m d = ⟨.error fault, m₁, d₁⟩) :
    answer = .error fault ∧ m' = m₁ ∧ d' = d₁ := by
  cases h with
  | none =>
    cases stops with
    | outside outside =>
      rw [step_of_outside outside] at fails
      cases fails
    | fails fails' =>
      rw [fails] at fails'
      cases fails'
      exact ⟨rfl, rfl, rfl⟩
  | more _ first =>
    rw [fails] at first
    cases first

/-- Outside the program no instruction is carried out. -/
theorem Advances.stops_of_outside {n : Nat} {m₂ : Machine} {d₂ : δ}
    (h : Advances p map n m d m₂ d₂) (stops : Stops p map m₂ d₂ answer m' d')
    (outside : p.size ≤ m.ip) : finish m d = .ended answer m' d' := by
  cases h with
  | none =>
    cases stops with
    | outside _ finished => exact finished
    | fails fails =>
      rw [step_of_outside outside] at fails
      cases fails
  | more inside => omega

/-- A run ends where the machine, after so many instructions, carries out no
    other. -/
theorem ends_iff_stops :
    Ends p map m d answer m'' d'' ↔
      ∃ n m' d', Advances p map n m d m' d' ∧ Stops p map m' d' answer m'' d'' := by
  constructor
  · rintro ⟨most, h⟩
    induction most generalizing m d with
    | zero => cases h
    | succ most ih =>
      by_cases outside : p.size ≤ m.ip
      · rw [run, step_of_outside outside] at h
        exact ⟨0, m, d, .none m d, .outside outside h⟩
      · have inside : m.ip < p.size := by omega
        rw [run] at h
        cases first : step p map m d with
        | mk reply m' d' =>
          rw [first] at h
          cases reply with
          | error fault =>
            cases h
            exact ⟨0, m, d, .none m d, .fails first⟩
          | ok status =>
            cases status with
            | running =>
              obtain ⟨n, m₁, d₁, advances, stops⟩ := ih h
              exact ⟨n + 1, m₁, d₁, .more inside first advances, stops⟩
            | halted =>
              have halted := (step_ok inside first).1
              have outside' := (status_eq_halted_iff m' p).1 halted.symm
              exact ⟨1, m', d', .one inside first, .outside outside' h⟩
  · rintro ⟨n, m', d', advances, stops⟩
    exact advances.ends_iff.2 stops.ends

-- ============================================================================
-- The number of steps a run is given
-- ============================================================================

/-- A run that ended ends in the same way when it is given more steps. -/
theorem run_of_le {most more : Nat} (h : run p map most m d = .ended answer m' d')
    (le : most ≤ more) : run p map more m d = .ended answer m' d' := by
  induction most generalizing m d more with
  | zero => cases h
  | succ most ih =>
    obtain ⟨more, rfl⟩ : ∃ k, more = k + 1 := ⟨more - 1, by omega⟩
    rw [run] at h ⊢
    cases first : step p map m d with
    | mk reply m₁ d₁ =>
      rw [first] at h
      match reply, h with
      | .error fault, h => exact h
      | .ok .halted, h => exact h
      | .ok .running, h => exact ih h (by omega)

/-- A run ends in one way at most. -/
theorem Ends.unique {answer₁ answer₂ : Except Fault Unit} {m₁ m₂ : Machine} {d₁ d₂ : δ}
    (h₁ : Ends p map m d answer₁ m₁ d₁) (h₂ : Ends p map m d answer₂ m₂ d₂) :
    answer₁ = answer₂ ∧ m₁ = m₂ ∧ d₁ = d₂ := by
  obtain ⟨most₁, h₁⟩ := h₁
  obtain ⟨most₂, h₂⟩ := h₂
  have h₁' := run_of_le h₁ (Nat.le_max_left most₁ most₂)
  have h₂' := run_of_le h₂ (Nat.le_max_right most₁ most₂)
  exact Run.ended.inj (h₁'.symm.trans h₂')

/-- A run that does not end goes on forever. -/
theorem diverges_iff :
    Diverges p map m d ↔ ¬ ∃ answer m' d', Ends p map m d answer m' d' := by
  constructor
  · rintro forever ⟨answer, m', d', most, h⟩
    obtain ⟨m₁, d₁, unfinished⟩ := forever most
    rw [h] at unfinished
    cases unfinished
  · intro never most
    cases h : run p map most m d with
    | ended answer m' d' => exact absurd ⟨answer, m', d', most, h⟩ never
    | unfinished m' d' => exact ⟨m', d', rfl⟩

end NoteTape.Machine
