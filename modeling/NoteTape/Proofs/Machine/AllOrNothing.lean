/-
  NoteTape.Proofs.Machine.AllOrNothing

  A step is carried out whole or not at all. A step that fails leaves the machine
  as it was and adds nothing to what the sink holds, and the kind of its fault
  tells the one thing that went wrong (`Machine.Cause`). A step that is carried out
  counts one instruction, changes no cell but the current one, moves the head by at
  most one place, writes the current cell for `.` and nothing for any other
  instruction, and asks for input once for `,` and never for any other.

  Both are read off `Machine.step_case`; what the source and the sink are left
  with is read off `Machine.step_device`.
-/

import NoteTape.Device.Feed
import NoteTape.Device.Reads
import NoteTape.Proofs.Device.Holding
import NoteTape.Proofs.Machine.Alike
import NoteTape.Proofs.Machine.Step

namespace NoteTape

variable {σ κ : Type}

/-- The device with a source that counts its reads, of which there were so many. -/
def Wired.counting (w : Wired σ κ) (reads : Nat) : Wired (Counted σ) κ :=
  ⟨⟨w.source, reads⟩, w.sink⟩

/-- The turn on a device whose source counts its reads, of which there were so many. -/
def Turn.counting (t : Turn (Wired σ κ)) (reads : Nat) : Turn (Wired (Counted σ) κ) :=
  ⟨t.answer, t.machine, t.device.counting reads⟩

/-- The second device is the first, with a source that counts its reads. -/
def Wired.Counts (w : Wired σ κ) (c : Wired (Counted σ) κ) : Prop := ∃ reads, c = w.counting reads

theorem Wired.counts (w : Wired σ κ) (reads : Nat) : w.Counts (w.counting reads) := ⟨reads, rfl⟩

theorem Turn.ext {δ : Type} {t u : Turn δ} (answer : t.answer = u.answer)
    (machine : t.machine = u.machine) (device : t.device = u.device) : t = u := by
  cases t
  cases u
  cases answer
  cases machine
  cases device
  rfl

variable [Source σ] [Sink κ]

namespace Machine

variable {p : Program} {map : BracketMap} {m m' : Machine} {w w' : Wired σ κ} {fault : Fault}
  {kind kind' : FaultKind}

-- ============================================================================
-- Why a step fails
-- ============================================================================

/-- What stands in the way of the next instruction, by the kind of fault it leads to: a
    bracket that jumps has no partner in the map, the source gives no unit to `,`, or
    one of the two refuses. -/
def Cause (p : Program) (map : BracketMap) (m : Machine) (w : Wired σ κ) : FaultKind → Prop
  | .noRootNote => False
  | .unbalancedBrackets => Jumps p m ∧ map.partner? m.ip = none
  | .inputExhausted => p.get? m.ip = some .input ∧ (Source.read w.source).1 = .ok none
  | .device =>
    (p.get? m.ip = some .input ∧ ∃ e, (Source.read w.source).1 = .error e) ∨
      (p.get? m.ip = some .output ∧ ∃ e, (Sink.writeAll [m.tape.current] w.sink).1 = .error e)

theorem Cause.unique (cause : Cause p map m w kind) (cause' : Cause p map m w kind') :
    kind = kind' := by
  cases kind <;> cases kind' <;> grind [Cause, Jumps]

theorem Cause.fails (cause : Cause p map m w kind) :
    ∃ fault, (step p map m w).answer = .error fault := by
  cases kind with
  | noRootNote => cases cause
  | unbalancedBrackets =>
    obtain ⟨jumps, unpaired⟩ := cause
    exact ⟨.noPartner m.ip, by rw [step_of_jumps jumps, jump, unpaired]⟩
  | inputExhausted =>
    obtain ⟨here, nothing⟩ := cause
    obtain ⟨w', reads⟩ : ∃ w', Device.read w = (.ok none, w') := ⟨_, Prod.ext nothing rfl⟩
    exact ⟨.noInput m.ip, by simp only [step, here, reads]⟩
  | device =>
    obtain ⟨here, e, refused⟩ | ⟨here, e, refused⟩ := cause
    · obtain ⟨w', reads⟩ : ∃ w', Device.read w = (.error e, w') := ⟨_, Prod.ext refused rfl⟩
      exact ⟨.device e m.ip, by simp only [step, here, reads]⟩
    · obtain ⟨w', writes⟩ : ∃ w', Device.write m.tape.current w = (.error e, w') :=
        ⟨_, Prod.ext refused rfl⟩
      exact ⟨.device e m.ip, by simp only [step, here, writes]⟩

theorem cause_of_step (fails : step p map m w = ⟨.error fault, m', w'⟩) :
    Cause p map m w fault.report.kind := by
  have done := step_case p map m w
  rw [fails] at done
  cases done with
  | unwritten here e _ refused => exact .inr ⟨here, e, congrArg Prod.fst refused⟩
  | starved here _ nothing => exact ⟨here, congrArg Prod.fst nothing⟩
  | unread here e _ refused => exact .inl ⟨here, e, congrArg Prod.fst refused⟩
  | lost jumps unpaired => exact ⟨jumps, unpaired⟩

-- ============================================================================
-- What a step leaves
-- ============================================================================

/-- A step that failed has done nothing: the machine is what it was, tape and count
    included, the fault stands at its instruction and is of the kind that there was a
    cause for, and the sink holds what it held. -/
structure Undone (held : κ → List UInt8) (p : Program) (map : BracketMap) (m : Machine)
    (w : Wired σ κ) (fault : Fault) (m' : Machine) (w' : Wired σ κ) : Prop where
  machine : m' = m
  position : fault.report.position? = some m.ip
  kind : ∀ kind, fault.report.kind = kind ↔ Cause p map m w kind
  sink : held w'.sink = held w.sink

/-- A step that was carried out has done its part and nothing else. -/
structure Carried (held : κ → List UInt8) (p : Program) (m : Machine) (w : Wired σ κ)
    (m' : Machine) (w' : Wired σ κ) : Prop where
  steps : m'.steps = m.steps + 1
  /-- No cell but the current one changes. -/
  cells : ∀ place, place ≠ m.tape.head → m'.tape.cell place = m.tape.cell place
  /-- The head stays, or moves one place around the tape. -/
  head : m'.tape.head = m.tape.head ∨ m'.tape.head = m.tape.head.right ∨
    m'.tape.head = m.tape.head.left
  /-- The current cell is written for `.`, and nothing for any other instruction. -/
  sink : held w'.sink = held w.sink ++ emitted p m
  /-- The source is left as one read leaves it for `,`, and alone for any other
      instruction. -/
  source : w'.source = if p.get? m.ip = some .input then (Source.read w.source).2 else w.source

variable {held : κ → List UInt8}

theorem undone_of_step (holds : Sink.Holds held) (fails : step p map m w = ⟨.error fault, m', w'⟩) :
    Undone held p map m w fault m' w' := by
  obtain ⟨machine, -, position⟩ := step_error fails
  have cause := cause_of_step fails
  refine ⟨machine, position, fun kind => ⟨(· ▸ cause), cause.unique⟩, ?_⟩
  have done := step_case p map m w
  rw [fails] at done
  cases done with
  | unwritten here e _ refused =>
    have sink : w'.sink = (Sink.writeAll [m.tape.current] w.sink).2 :=
      congrArg (·.2.sink) refused.symm
    rw [sink]
    exact holds.refused (congrArg Prod.fst refused)
  | starved here _ nothing => exact congrArg (held ·.2.sink) nothing.symm
  | unread here e _ refused => exact congrArg (held ·.2.sink) refused.symm
  | lost => rfl

theorem sink_consulted (holds : Sink.Holds held)
    (written : p.get? m.ip = some .output → (Device.write m.tape.current w).1 = .ok ()) :
    held (consulted p m w).sink = held w.sink ++ emitted p m := by
  rw [consulted, emitted]
  by_cases output : p.get? m.ip = some .output
  · rw [if_pos output, if_pos output]
    exact holds.written (written output)
  · rw [if_neg output, if_neg output, List.append_nil]
    split <;> rfl

theorem source_consulted (p : Program) (m : Machine) (w : Wired σ κ) :
    (consulted p m w).source =
      if p.get? m.ip = some .input then (Source.read w.source).2 else w.source := by
  by_cases input : p.get? m.ip = some .input
  · rw [consulted_of_input input, if_pos input]
    rfl
  · rw [consulted, if_neg input, if_neg input]
    split <;> rfl

theorem carried_of_step {status : Status} (holds : Sink.Holds held) (inside : m.ip < p.size)
    (succeeds : step p map m w = ⟨.ok status, m', w'⟩) : Carried held p m w m' w' := by
  have device : w' = consulted p m w := by rw [← step_device p map, succeeds]
  -- A write that is refused is a cause, and the step did not fail.
  have written (output : p.get? m.ip = some .output) :
      (Device.write m.tape.current w).1 = .ok () := by
    cases answer : (Device.write m.tape.current w).1 with
    | ok => rfl
    | error e =>
      have cause : Cause p map m w .device := .inr ⟨output, e, answer⟩
      obtain ⟨fault, fails⟩ := cause.fails
      rw [succeeds] at fails
      cases fails
  have machine : (step p map m w).machine = m' := by rw [succeeds]
  have cells (place : Place) (other : place ≠ m.tape.head) :
      m'.tape.cell place = m.tape.cell place := by
    rw [← machine]
    exact step_cell p map w other
  have head := step_head p map m w
  rw [machine] at head
  refine ⟨(step_ok inside succeeds).2, cells, head, ?_, ?_⟩
  · rw [device]
    exact sink_consulted holds written
  · rw [device]
    exact source_consulted p m w

-- ============================================================================
-- How often a step reads
-- ============================================================================

theorem alike_counting : Device.Alike (Wired.Counts : Wired σ κ → _ → Prop) where
  read := by
    rintro w _ ⟨reads, rfl⟩
    exact ⟨rfl, reads + 1, rfl⟩
  write := by
    rintro byte w _ ⟨reads, rfl⟩
    exact ⟨rfl, reads, rfl⟩

theorem consulted_counting (p : Program) (m : Machine) (w : Wired σ κ) (reads : Nat) :
    consulted p m (w.counting reads) =
      (consulted p m w).counting (reads + if p.get? m.ip = some .input then 1 else 0) := by
  by_cases input : p.get? m.ip = some .input
  · rw [consulted_of_input input, consulted_of_input input, if_pos input]
    rfl
  · rw [consulted, consulted, if_neg input, if_neg input, if_neg input]
    split <;> rfl

theorem step_counting (p : Program) (map : BracketMap) (m : Machine) (w : Wired σ κ)
    (reads : Nat) : step p map m (w.counting reads) =
      (step p map m w).counting (reads + if p.get? m.ip = some .input then 1 else 0) := by
  -- The two steps go the same way; the count is read off what the device is asked.
  obtain ⟨answer, machine, -⟩ := step_alike alike_counting p map m (w.counts reads)
  have device := step_device p map m (w.counting reads)
  rw [consulted_counting, ← step_device p map] at device
  exact Turn.ext answer.symm machine.symm device

/-- A step is carried out whole or not at all: one that fails is undone, one that
    succeeds inside the program is carried out, and it fails exactly if there is a cause.
    On a source that counts its reads a step goes the same way, and counts one read for
    `,` and none for any other instruction. -/
theorem step_all_or_nothing (holds : Sink.Holds held) (p : Program) (map : BracketMap)
    (m : Machine) (w : Wired σ κ) :
    (∀ fault m' w', step p map m w = ⟨.error fault, m', w'⟩ →
      Undone held p map m w fault m' w') ∧
    (∀ status m' w', m.ip < p.size → step p map m w = ⟨.ok status, m', w'⟩ →
      Carried held p m w m' w') ∧
    ((∃ fault, (step p map m w).answer = .error fault) ↔ ∃ kind, Cause p map m w kind) ∧
    ∀ reads, step p map m (w.counting reads) =
      (step p map m w).counting (reads + if p.get? m.ip = some .input then 1 else 0) := by
  refine ⟨?_, ?_, ?_, step_counting p map m w⟩
  · intro fault m' w' fails
    exact undone_of_step holds fails
  · intro status m' w' inside succeeds
    exact carried_of_step holds inside succeeds
  · constructor
    · rintro ⟨fault, fails⟩
      have turn : step p map m w = ⟨.error fault, _, _⟩ := Turn.ext fails rfl rfl
      exact ⟨_, cause_of_step turn⟩
    · rintro ⟨kind, cause⟩
      exact cause.fails

/-- A first read that is refused, and one behind it that is not. -/
theorem step_all_or_nothing_input :
    (∃ fault w', Undone Outlet.held (.ofList [.input]) .empty .fresh
      ⟨ByteReader.mk [.failure ⟨.other, "gone"⟩, .data [65]], {}⟩ fault .fresh w') ∧
    (∃ m' w', Carried Outlet.held (.ofList [.input]) .fresh
      ⟨ByteReader.mk [.data [65]], {}⟩ m' w') := by
  constructor
  · exact ⟨.device ⟨.other, "gone"⟩ 0, ⟨⟨[.data [65]]⟩, {}⟩,
      (step_all_or_nothing Outlet.holds _ _ _ _).1 _ _ _ rfl⟩
  · exact ⟨_, _, (step_all_or_nothing Outlet.holds _ .empty _ _).2.1 .halted _ _ (by decide) rfl⟩

end Machine

end NoteTape
