/-
  NoteTape.Proofs.Machine.Alike

  Devices that a machine cannot tell apart. Two devices are alike under a relation
  that keeps their answers to reads and writes the same; one step on related
  devices then gives the same answer and the same machine, and leaves related
  devices. Where a flush keeps the relation too, so does a whole run.
-/

import NoteTape.Machine.Run

namespace NoteTape

variable {δ ε : Type} [Device δ] [Device ε]

/-- Related devices give the same answers and stay related. -/
structure Device.Alike (R : δ → ε → Prop) : Prop where
  read : ∀ {d : δ} {e : ε}, R d e → (Device.read d).1 = (Device.read e).1 ∧
    R (Device.read d).2 (Device.read e).2
  write : ∀ (byte : UInt8) {d : δ} {e : ε}, R d e →
    (Device.write byte d).1 = (Device.write byte e).1 ∧
      R (Device.write byte d).2 (Device.write byte e).2

/-- The same answer and the same machine, on related devices. -/
def Turn.Alike (R : δ → ε → Prop) (t : Turn δ) (u : Turn ε) : Prop :=
  t.answer = u.answer ∧ t.machine = u.machine ∧ R t.device u.device

namespace Machine

variable {R : δ → ε → Prop} {d : δ} {e : ε}

omit [Device δ] [Device ε] in
theorem jump_alike (p : Program) (map : BracketMap) (m : Machine) (related : R d e) :
    Turn.Alike R (jump p map m d) (jump p map m e) := by
  unfold jump
  cases map.partner? m.ip with
  | none => exact ⟨rfl, rfl, related⟩
  | some partner => exact ⟨rfl, rfl, related⟩

/-- For one step it is enough that the answers to what it asks are the same. -/
theorem step_alike_of (p : Program) (map : BracketMap) (m : Machine) (related : R d e)
    (read : p.get? m.ip = some .input →
      (Device.read d).1 = (Device.read e).1 ∧ R (Device.read d).2 (Device.read e).2)
    (write : p.get? m.ip = some .output →
      (Device.write m.tape.current d).1 = (Device.write m.tape.current e).1 ∧
        R (Device.write m.tape.current d).2 (Device.write m.tape.current e).2) :
    Turn.Alike R (step p map m d) (step p map m e) := by
  unfold step
  cases here : p.get? m.ip with
  | none => exact ⟨rfl, rfl, related⟩
  | some i =>
    cases i with
    | right | left | increment | decrement => exact ⟨rfl, rfl, related⟩
    | output =>
      -- The answers agree, so both sides go the same way.
      have same := write here
      generalize Device.write m.tape.current d = written at same ⊢
      generalize Device.write m.tape.current e = written' at same ⊢
      obtain ⟨answer, d'⟩ := written
      obtain ⟨answer', e'⟩ := written'
      obtain ⟨rfl, related'⟩ := same
      cases answer with
      | ok => exact ⟨rfl, rfl, related'⟩
      | error refusal => exact ⟨rfl, rfl, related'⟩
    | input =>
      have same := read here
      generalize Device.read d = reply at same ⊢
      generalize Device.read e = reply' at same ⊢
      obtain ⟨answer, d'⟩ := reply
      obtain ⟨answer', e'⟩ := reply'
      obtain ⟨rfl, related'⟩ := same
      cases answer with
      | ok unit =>
        cases unit with
        | none => exact ⟨rfl, rfl, related'⟩
        | some unit => exact ⟨rfl, rfl, related'⟩
      | error refusal => exact ⟨rfl, rfl, related'⟩
    | loopOpen =>
      by_cases zero : m.tape.current = 0
      · simp only [zero, if_true]
        exact jump_alike p map m related
      · simp only [zero, if_false]
        exact ⟨rfl, rfl, related⟩
    | loopClose =>
      by_cases zero : m.tape.current = 0
      · simp only [zero, if_true]
        exact ⟨rfl, rfl, related⟩
      · simp only [zero, if_false]
        exact jump_alike p map m related

theorem step_alike (alike : Device.Alike R) (p : Program) (map : BracketMap) (m : Machine)
    (related : R d e) : Turn.Alike R (step p map m d) (step p map m e) :=
  step_alike_of p map m related (fun _ => alike.read related) (fun _ => alike.write _ related)

end Machine

-- ============================================================================
-- Runs
-- ============================================================================

/-- The same outcome and the same machine, on related devices. -/
inductive Run.Alike (R : δ → ε → Prop) : Run δ → Run ε → Prop where
  | ended (answer : Except Fault Unit) (m : Machine) {d : δ} {e : ε} (related : R d e) :
    Run.Alike R (.ended answer m d) (.ended answer m e)
  | unfinished (m : Machine) {d : δ} {e : ε} (related : R d e) :
    Run.Alike R (.unfinished m d) (.unfinished m e)

namespace Run.Alike

variable {R : δ → ε → Prop} {d : δ} {e : ε} {answer : Except Fault Unit} {m : Machine}

omit [Device δ] [Device ε] in
theorem of_left {r : Run ε} (h : Run.Alike R (.ended answer m d) r) :
    ∃ e, r = .ended answer m e ∧ R d e := by
  cases h with
  | ended _ _ related => exact ⟨_, rfl, related⟩

omit [Device δ] [Device ε] in
theorem of_right {r : Run δ} (h : Run.Alike R r (.ended answer m e)) :
    ∃ d, r = .ended answer m d ∧ R d e := by
  cases h with
  | ended _ _ related => exact ⟨_, rfl, related⟩

omit [Device δ] [Device ε] in
theorem unfinished_iff {r : Run δ} {s : Run ε} (h : Run.Alike R r s) :
    (∃ m d, r = .unfinished m d) ↔ ∃ m e, s = .unfinished m e := by
  cases h with
  | ended answer m related =>
    constructor
    · rintro ⟨_, _, ⟨⟩⟩
    · rintro ⟨_, _, ⟨⟩⟩
  | unfinished m related => exact ⟨fun _ => ⟨m, _, rfl⟩, fun _ => ⟨m, _, rfl⟩⟩

end Run.Alike

/-- A flush gives the same answer on related devices and keeps them related. -/
def Device.FlushAlike (R : δ → ε → Prop) : Prop :=
  ∀ {d : δ} {e : ε}, R d e → (Device.flush d).1 = (Device.flush e).1 ∧
    R (Device.flush d).2 (Device.flush e).2

namespace Machine

variable {R : δ → ε → Prop} {d : δ} {e : ε} {p : Program} {map : BracketMap} {m m' : Machine}

theorem finish_alike (flush : Device.FlushAlike R) (m : Machine) (related : R d e) :
    Run.Alike R (finish m d) (finish m e) := by
  have same := flush related
  unfold finish
  generalize Device.flush d = flushed at same ⊢
  generalize Device.flush e = flushed' at same ⊢
  obtain ⟨answer, d'⟩ := flushed
  obtain ⟨answer', e'⟩ := flushed'
  obtain ⟨rfl, related'⟩ := same
  cases answer with
  | ok => exact .ended _ m related'
  | error refusal => exact .ended _ m related'

/-- Two runs are alike if all their steps are, as long as something holds that the
    steps keep. -/
theorem run_alike_of {I : Machine → δ → Prop}
    (alike : ∀ {m : Machine} {d : δ} {e : ε}, I m d → R d e →
      Turn.Alike R (step p map m d) (step p map m e))
    (keeps : ∀ {m m₁ : Machine} {d d₁ : δ}, I m d →
      step p map m d = ⟨.ok .running, m₁, d₁⟩ → I m₁ d₁)
    (flush : Device.FlushAlike R) (n : Nat) (inv : I m d) (related : R d e) :
    Run.Alike R (run p map n m d) (run p map n m e) := by
  induction n generalizing m d e with
  | zero => exact .unfinished m related
  | succ n ih =>
    have same := alike inv related
    rw [run, run]
    cases first : step p map m d with
    | mk answer m₁ d₁ =>
      rw [first] at same
      generalize step p map m e = turn at same ⊢
      obtain ⟨answer', m₁', e₁⟩ := turn
      obtain ⟨rfl, rfl, after⟩ := same
      cases answer with
      | error fault => exact .ended _ m₁ after
      | ok status =>
        cases status with
        | running => exact ih (keeps inv first) after
        | halted => exact finish_alike flush m₁ after

theorem run_alike (alike : Device.Alike R) (flush : Device.FlushAlike R) (p : Program)
    (map : BracketMap) (n : Nat) (m : Machine) (related : R d e) :
    Run.Alike R (run p map n m d) (run p map n m e) :=
  run_alike_of (I := fun _ _ => True) (fun _ => step_alike alike p map _) (fun _ _ => trivial)
    flush n trivial related

variable {answer : Except Fault Unit}

/-- A run that ends does so on every related device. -/
theorem Ends.alike {d' : δ} (ends : Ends p map m d answer m' d')
    (same : ∀ n, Run.Alike R (run p map n m d) (run p map n m e)) :
    ∃ e', Ends p map m e answer m' e' ∧ R d' e' := by
  obtain ⟨n, ended⟩ := ends
  have here := same n
  rw [ended] at here
  obtain ⟨e', ended', related'⟩ := here.of_left
  exact ⟨e', ⟨n, ended'⟩, related'⟩

/-- A run that ends on a related device ends here. -/
theorem Ends.of_alike {e' : ε} (ends : Ends p map m e answer m' e')
    (same : ∀ n, Run.Alike R (run p map n m d) (run p map n m e)) :
    ∃ d', Ends p map m d answer m' d' ∧ R d' e' := by
  obtain ⟨n, ended⟩ := ends
  have here := same n
  rw [ended] at here
  obtain ⟨d', ended', related'⟩ := here.of_right
  exact ⟨d', ⟨n, ended'⟩, related'⟩

theorem diverges_iff_of_alike (same : ∀ n, Run.Alike R (run p map n m d) (run p map n m e)) :
    Diverges p map m d ↔ Diverges p map m e :=
  forall_congr' fun n => (same n).unfinished_iff

end Machine

end NoteTape
