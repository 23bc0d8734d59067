/-
  NoteTape.Proofs.Performance.Stages

  A performance fails stage by stage: without a root there is no program, with
  unbalanced brackets nothing is run, and in both cases no device is touched; a
  program that is run fails only through what it is wired to.
-/

import NoteTape.Device.Store
import NoteTape.Performance
import NoteTape.Proofs.Brackets.Verdict
import NoteTape.Proofs.Machine.Faults
import NoteTape.Proofs.Transcription.Root

namespace NoteTape

/-- Given enough steps, the performance fails with a fault of this kind. -/
def FailsWith {δ : Type} [Device δ] (kind : FaultKind) (scale : Scale) (events : List NoteEvent)
    (d : δ) : Prop :=
  ∃ most fault m d', perform most scale events d = .ended (.error fault) m d' ∧
    fault.report.kind = kind

/-- The performance fails before anything is run: with one and the same fault on
    every device, whatever steps it is given, and the device is as it was. -/
def FailsUntouched (kind : FaultKind) (scale : Scale) (events : List NoteEvent) : Prop :=
  ∃ fault, fault.report.kind = kind ∧ ∀ (δ : Type) [Device δ] (most : Nat) (d : δ),
    perform most scale events d = .ended (.error fault) .fresh d

variable {δ : Type} [Device δ] {scale : Scale} {events : List NoteEvent} {p : Program}

theorem FailsUntouched.failsWith_iff {kind kind' : FaultKind} (h : FailsUntouched kind scale events)
    (d : δ) : FailsWith kind' scale events d ↔ kind' = kind := by
  obtain ⟨fault, rfl, untouched⟩ := h
  constructor
  · rintro ⟨most, fault', m, d', ended, rfl⟩
    rw [untouched] at ended
    cases ended
    rfl
  · rintro rfl
    exact ⟨0, fault, .fresh, d, untouched δ 0 d, rfl⟩

theorem failsUntouched_of_silent (scale : Scale)
    (silent : ∀ e ∈ opening events, e.isStart = false) :
    FailsUntouched .noRootNote scale events := by
  refine ⟨.noRoot (opening events).length, rfl, ?_⟩
  intro δ _ most d
  rw [perform, transcribe_of_silent scale silent]

theorem failsUntouched_of_unbalanced (read : transcribe scale events = .ok p)
    (unbalanced : ¬ Balanced p.toList) : FailsUntouched .unbalancedBrackets scale events := by
  have scanned := BracketMap.ofProgram_scanned p
  cases answer : BracketMap.ofProgram p with
  | ok map =>
    rw [answer] at scanned
    exact absurd (scanned.ok_iff_balanced.1 ⟨map, rfl⟩) unbalanced
  | error fault =>
    rw [answer] at scanned
    refine ⟨fault, scanned.kind_of_error, ?_⟩
    intro δ _ most d
    simp only [perform, read, Program.run, answer]

/-- A performance that reads a program fails because of its brackets or only through
    what it is wired to, and its brackets decide which. -/
theorem FailsWith.kind_of_read {kind : FaultKind} {d : δ} (h : FailsWith kind scale events d)
    (read : transcribe scale events = .ok p) :
    ¬ Balanced p.toList ∧ kind = .unbalancedBrackets ∨
      Balanced p.toList ∧ (kind = .inputExhausted ∨ kind = .device) := by
  by_cases balanced : Balanced p.toList
  · obtain ⟨map, paired⟩ := (BracketMap.ofProgram_scanned p).ok_iff_balanced.2 balanced
    obtain ⟨most, fault, m, d', ended, rfl⟩ := h
    simp only [perform, read, Program.run, paired] at ended
    exact .inr ⟨balanced, Machine.isExternal_of_ends paired ⟨most, ended⟩⟩
  · exact .inl ⟨balanced, ((failsUntouched_of_unbalanced read balanced).failsWith_iff d).1 h⟩

/-- A performance has no root note to report unless no note starts in the opening;
    otherwise it reports unbalanced brackets exactly if the program it reads is not
    balanced; and in both cases it fails before anything is run. All other
    performances fail, at whatever step, only because there is no input or the
    device refuses, as does every step with a program's own bracket map. -/
theorem perform_fails_by_stage (scale : Scale) (events : List NoteEvent) (d : δ) :
    (FailsWith .noRootNote scale events d ↔ ∀ e ∈ opening events, e.isStart = false) ∧
    ((∀ e ∈ opening events, e.isStart = false) → FailsUntouched .noRootNote scale events) ∧
    ((∃ e ∈ opening events, e.isStart = true) → ∃ p, transcribe scale events = .ok p ∧
      (FailsWith .unbalancedBrackets scale events d ↔ ¬ Balanced p.toList) ∧
      (¬ Balanced p.toList → FailsUntouched .unbalancedBrackets scale events) ∧
      (Balanced p.toList → ∀ kind, FailsWith kind scale events d →
        kind = .inputExhausted ∨ kind = .device)) ∧
    ∀ (p : Program) (map : BracketMap), BracketMap.ofProgram p = .ok map →
      ∀ (m : Machine) (d : δ) (fault : Fault), (Machine.step p map m d).answer = .error fault →
        fault.report.kind = .inputExhausted ∨ fault.report.kind = .device := by
  refine ⟨⟨?_, ?_⟩, failsUntouched_of_silent scale, ?_, ?_⟩
  · intro fails e mem
    cases start : e.isStart with
    | false => rfl
    | true =>
      obtain ⟨p, read⟩ := exists_transcribe_eq_ok scale ⟨e, mem, start⟩
      -- With a root a program is read, and what is read never lacks a root.
      rcases fails.kind_of_read read with ⟨-, other⟩ | ⟨-, other | other⟩ <;> cases other
  · intro silent
    exact ((failsUntouched_of_silent scale silent).failsWith_iff d).2 rfl
  · intro starts
    obtain ⟨p, read⟩ := exists_transcribe_eq_ok scale starts
    refine ⟨p, read, ⟨?_, ?_⟩, failsUntouched_of_unbalanced read, ?_⟩
    · intro fails
      rcases fails.kind_of_read read with ⟨unbalanced, -⟩ | ⟨-, other | other⟩
      · exact unbalanced
      · cases other
      · cases other
    · intro unbalanced
      exact ((failsUntouched_of_unbalanced read unbalanced).failsWith_iff d).2 rfl
    · intro balanced kind fails
      obtain ⟨unbalanced, -⟩ | ⟨-, external⟩ := fails.kind_of_read read
      · exact absurd balanced unbalanced
      · exact external
  · intro p map paired m d fault fails
    exact Machine.isExternal_of_step paired fails

/-- A silent opening and, behind a root, a lone `]`: neither touches the device. -/
theorem perform_fails_by_stage_silent_and_stray :
    FailsUntouched .noRootNote .major [.rest 0, .start 60 10] ∧
    FailsUntouched .unbalancedBrackets .major [.start 60 0, .start 71 1] := by
  have device : Wired Slice Recorder := ⟨.ofList [], {}⟩
  constructor
  · exact (perform_fails_by_stage .major [.rest 0, .start 60 10] device).2.1 (by decide)
  · obtain ⟨p, read, -, untouched, -⟩ :=
      (perform_fails_by_stage .major [.start 60 0, .start 71 1] device).2.2.1 (by decide)
    have lone : transcribe .major [.start 60 0, .start 71 1] = .ok (.ofList [.loopClose]) := rfl
    obtain rfl := Except.ok.inj (lone.symm.trans read)
    apply untouched
    intro balanced
    exact absurd (balanced.1 1) (by decide)

end NoteTape
