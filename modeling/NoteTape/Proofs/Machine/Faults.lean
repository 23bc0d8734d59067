/-
  NoteTape.Proofs.Machine.Faults

  The faults of a machine that runs a program with the program's own bracket map:
  there may be no input, and the device may refuse, but a bracket always finds
  its partner, in whatever state the machine is.
-/

import NoteTape.Proofs.Block.Layout
import NoteTape.Proofs.Machine.Ending

namespace NoteTape

/-- The fault comes from what the machine is wired to: there is no input, or the
    device refuses. -/
def Fault.IsExternal (fault : Fault) : Prop :=
  fault.report.kind = .inputExhausted ∨ fault.report.kind = .device

namespace Machine

variable {δ : Type} [Device δ] {p : Program} {map : BracketMap} {m m' : Machine} {d d' : δ}
  {fault : Fault}

theorem isExternal_of_step (paired : BracketMap.ofProgram p = .ok map)
    (fails : (step p map m d).answer = .error fault) : fault.IsExternal := by
  have stepped := step_stepped p map m d
  generalize step p map m d = turn at stepped fails
  cases stepped with
  | halted | carried | jumped => cases fails
  | lost i here bracket unpaired =>
    -- Every bracket of the program has a partner in its own map.
    have inside := Program.lt_size_of_get? here
    have some := (BracketMap.isSome_partner?_iff paired inside).2 ⟨i, here, bracket⟩
    rw [unpaired] at some
    cases some
  | starved =>
    cases fails
    exact .inl rfl
  | refused =>
    cases fails
    exact .inr rfl

theorem isExternal_of_ends (paired : BracketMap.ofProgram p = .ok map)
    (ends : Ends p map m d (.error fault) m' d') : fault.IsExternal := by
  obtain ⟨n, m₁, d₁, -, stops⟩ := ends_iff_stops.1 ends
  cases stops with
  | outside _ finished =>
    rw [finish] at finished
    split at finished
    · cases finished
    · cases finished
      exact .inr rfl
  | fails fails => exact isExternal_of_step (m := m₁) (d := d₁) paired (by rw [fails])

end Machine

end NoteTape
