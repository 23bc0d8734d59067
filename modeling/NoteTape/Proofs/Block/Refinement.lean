/-
  NoteTape.Proofs.Block.Refinement

  The runs of a program are the runs of the block it is written by. A program
  whose brackets have partners is written by exactly one block, and from its first
  instruction the machine ends with some answer, tape, number of steps and device
  if and only if the block does, whatever it is wired to; so it goes on forever
  exactly where the block has no end.
-/

import NoteTape.Device.Store
import NoteTape.Proofs.Block.Simulation

namespace NoteTape

/-- Where a machine comes to rest: behind the program, or at the instruction that
    a fault is about. -/
def Program.restingPlace (p : Program) : Except Fault Unit → Option Nat
  | .ok () => some p.size
  | .error fault => fault.report.position?

variable {δ : Type}

/-- A state is determined by its machine, wherever that is, and its device. -/
theorem State.eq_of_machineAt {s t : State δ} {i j : Nat} (machine : s.machineAt i = t.machineAt j)
    (device : s.device = t.device) : s = t := by
  obtain ⟨tape, steps, _⟩ := s
  obtain ⟨tape', steps', _⟩ := t
  cases machine
  cases device
  rfl

variable [Device δ] {p : Program} {map : BracketMap} {b : Block} {s t : State δ}
  {answer : Except Fault Unit}

/-- Behind a block that is a whole program the machine stands outside of it. -/
theorem Phase.exit_whole (size : b.size = p.size) : (Phase.start b).exit 0 = p.size := by
  rw [exit, Nat.zero_add, size]

/-- What the block that a program is written by comes to, the machine comes to. -/
theorem Block.Performs.ends (h : b.Performs s answer t) (lies : b.Lies p map 0)
    (size : b.size = p.size) : ∃ ip, p.restingPlace answer = some ip ∧
      Machine.Ends p map (s.machineAt 0) s.device answer (t.machineAt ip) t.device := by
  have whole := Phase.exit_whole size
  cases h with
  | @finished t d ends flushed =>
    obtain ⟨n, advances⟩ := ends.follows lies
    refine ⟨p.size, rfl, Machine.ends_iff_stops.2 ⟨n, _, _, advances, .outside ?_ ?_⟩⟩
    · exact Nat.le_of_eq whole.symm
    · rw [Machine.finish, flushed, whole]
      rfl
  | @unflushed t e d ends refused =>
    obtain ⟨n, advances⟩ := ends.follows lies
    refine ⟨b.size, rfl, Machine.ends_iff_stops.2 ⟨n, _, _, advances, .outside ?_ ?_⟩⟩
    · exact Nat.le_of_eq whole.symm
    · rw [Machine.finish, refused, whole, size]
      rfl
  | stopped ends =>
    obtain ⟨n, m, d, ip, advances, fails⟩ := ends.follows lies
    obtain ⟨same, -, position⟩ := Machine.step_error fails
    refine ⟨ip, ?_, Machine.ends_iff_stops.2 ⟨n, m, d, advances, .fails fails⟩⟩
    rw [Program.restingPlace, position, ← same]
    rfl

/-- What the machine comes to, the block that the program is written by comes to. -/
theorem Block.Performs.of_ends {ip : Nat} (lies : b.Lies p map 0) (size : b.size = p.size)
    (h : Machine.Ends p map (s.machineAt 0) s.device answer (t.machineAt ip) t.device) :
    b.Performs s answer t := by
  obtain ⟨n, m, d, advances, stops⟩ := Machine.ends_iff_stops.1 h
  obtain ⟨k, t', -, ends, left⟩ | ⟨fault, t', ends, rfl, -, machine, device⟩ :=
    Phase.split (.start b) 0 s lies advances stops
  · have finished := left.stops_of_outside stops (Nat.le_of_eq (Phase.exit_whole size).symm)
    rw [Machine.finish] at finished
    cases flush : Device.flush t'.device with
    | mk reply d' =>
      rw [flush] at finished
      cases reply with
      | ok =>
        obtain ⟨rfl, machine, rfl⟩ := Run.ended.inj finished
        have same : t = { t' with device := t.device } :=
          State.eq_of_machineAt machine.symm rfl
        rw [same]
        exact .finished ends flush
      | error e =>
        obtain ⟨rfl, machine, rfl⟩ := Run.ended.inj finished
        have same : t = { t' with device := t.device } :=
          State.eq_of_machineAt machine.symm rfl
        have position : (t'.machineAt ((Phase.start b).exit 0)).ip = b.size := Nat.zero_add _
        rw [same, position]
        exact .unflushed ends flush
  · -- The machine stopped inside the block, at the instruction that failed.
    obtain rfl : t = t' := State.eq_of_machineAt machine device
    exact .stopped ends

/-- A program whose brackets have partners is written by one block and no other,
    and from its first instruction, on any tape and any device, the machine ends
    as that block does and goes on forever where that block does. -/
theorem ends_iff_performs {p : Program} {map : BracketMap}
    (paired : BracketMap.ofProgram p = .ok map) :
    ∃ b : Block, b.flatten = p.toList ∧ (∀ c : Block, c.flatten = p.toList → c = b) ∧
      ∀ (δ : Type) [Device δ] (m : Machine) (d : δ), m.ip = 0 →
        (∀ answer m' d', Machine.Ends p map m d answer m' d' ↔
          b.Performs ⟨m.tape, m.steps, d⟩ answer ⟨m'.tape, m'.steps, d'⟩ ∧
            p.restingPlace answer = some m'.ip) ∧
        (Machine.Diverges p map m d ↔
          ¬ ∃ answer t, b.Performs ⟨m.tape, m.steps, d⟩ answer t) := by
  obtain ⟨b, written⟩ := BracketMap.exists_flatten_of_ofProgram paired
  have lies := BracketMap.lies_of_ofProgram paired written
  have size : b.size = p.size := by rw [← b.length_flatten, written, p.length_toList]
  refine ⟨b, written, fun c same => Block.flatten_injective (same.trans written.symm), ?_⟩
  intro δ _ m d start
  obtain ⟨_, tape, steps⟩ := m
  obtain rfl : _ = 0 := start
  refine ⟨?_, ?_⟩
  · intro answer m' d'
    constructor
    · intro h
      have performs : b.Performs ⟨tape, steps, d⟩ answer ⟨m'.tape, m'.steps, d'⟩ :=
        .of_ends lies size h
      obtain ⟨ip, rest, ends⟩ := performs.ends lies size
      -- A run ends in one way, so the machine rests where the block says.
      obtain ⟨-, same, -⟩ := ends.unique h
      have place : ip = m'.ip := congrArg Machine.ip same
      exact ⟨performs, place ▸ rest⟩
    · rintro ⟨performs, rest⟩
      obtain ⟨ip, rest', ends⟩ := performs.ends lies size
      rw [rest] at rest'
      cases rest'
      exact ends
  · rw [Machine.diverges_iff]
    apply not_congr
    constructor
    · rintro ⟨answer, m', d', h⟩
      exact ⟨answer, ⟨m'.tape, m'.steps, d'⟩, .of_ends lies size h⟩
    · rintro ⟨answer, t, h⟩
      obtain ⟨ip, -, ends⟩ := h.ends lies size
      exact ⟨answer, t.machineAt ip, t.device, ends⟩

/-- The program `+[-]` ends on a blank tape after four instructions, since the block
    it is written by does: its loop is entered, carried out once and left. -/
theorem ends_iff_performs_clear :
    ∃ map m', BracketMap.ofProgram (.ofList [.increment, .loopOpen, .decrement, .loopClose]) =
        .ok map ∧
      Machine.Ends (.ofList [.increment, .loopOpen, .decrement, .loopClose]) map .fresh
        (⟨.ofList [], {}⟩ : Wired Slice Recorder) (.ok ()) m' ⟨.ofList [], {}⟩ ∧ m'.steps = 4 := by
  obtain ⟨map, paired⟩ : ∃ map, BracketMap.ofProgram
      (.ofList [.increment, .loopOpen, .decrement, .loopClose]) = .ok map := ⟨_, rfl⟩
  obtain ⟨b, -, only, runs⟩ := ends_iff_performs paired
  obtain rfl := only (.act .increment (.loop (.act .decrement .done) .done)) rfl
  have zero : Tape.blank.current = 0 := Tape.cell_blank _
  have performs : Block.Performs (.act .increment (.loop (.act .decrement .done) .done))
      (⟨.blank, 0, ⟨.ofList [], {}⟩⟩ : State (Wired Slice Recorder)) (.ok ())
      ⟨(Tape.blank.store (Tape.blank.current + 1)).store
        ((Tape.blank.store (Tape.blank.current + 1)).current - 1), 4, ⟨.ofList [], {}⟩⟩ := by
    refine .finished (.act (.increment _) (.loop (.again ?_ (.act (.decrement _) (.done _ _))
      (.leave ?_ (.done _ _))))) rfl
    · simp [State.tick, zero]
    · simp [State.tick, zero]
  exact ⟨map, ⟨4, _, 4⟩, paired, ((runs _ .fresh _ rfl).1 _ _ _).2 ⟨performs, rfl⟩, rfl⟩

end NoteTape
