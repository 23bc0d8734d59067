/-
  NoteTape.Proofs.Machine.Resume

  A run that is given its input in two parts. Beside a run on all the input, a run
  on the first part goes through the same machines until it asks for a byte that
  the first part does not have (`run_ahead`); there it ends and leaves the machine
  as it was before that instruction. So a second run, on the machine that was left
  and the second part, comes to where the run on all the input comes, and what both
  wrote, one behind the other, is what that run writes.
-/

import NoteTape.Proofs.Device.Store
import NoteTape.Proofs.Machine.Ending

namespace NoteTape

/-- The answer says that there was no input. -/
def Starves (answer : Except Fault Unit) : Prop :=
  ∃ fault, answer = .error fault ∧ fault.report.kind = .inputExhausted

theorem starves_iff {answer : Except Fault Unit} :
    Starves answer ↔ ∃ pos, answer = .error (.noInput pos) := by
  constructor
  · rintro ⟨fault, rfl, kind⟩
    cases fault with
    | noInput pos => exact ⟨pos, rfl⟩
    | noRoot | strayClose | leftOpen | noPartner | device => cases kind
  · rintro ⟨pos, rfl⟩
    exact ⟨.noInput pos, rfl, rfl⟩

namespace Machine

variable {p : Program} {map : BracketMap} {m m' : Machine} {more before : List UInt8}
  {w w' : Wired Slice Recorder}

-- ============================================================================
-- Two runs side by side
-- ============================================================================

theorem flushAlike_ahead : Device.FlushAlike (Ahead more before) :=
  fun h => ⟨rfl, h⟩

/-- Where the device behind has what the instruction asks for, both make the same
    step. -/
theorem step_ahead (h : Ahead more before w w') (map : BracketMap)
    (fed : p.get? m.ip = some .input → w'.source.toList ≠ []) :
    Turn.Alike (Ahead more before) (step p map m w) (step p map m w') :=
  step_alike_of p map m h (fun here => h.read (fed here)) (fun _ => h.write _)

theorem step_of_starved (here : p.get? m.ip = some .input) (nothing : w.source.toList = []) :
    step p map m w = ⟨.error (.noInput m.ip), m, w⟩ := by
  simp only [step, here, Device.read_of_nil nothing]

/-- A run on a device beside one on a device that is behind: the run behind lacks
    input where the other one is ahead by nothing else, or both come to the same. -/
inductive Parts (p : Program) (map : BracketMap) (more before : List UInt8) (n : Nat)
    (m : Machine) (w w' : Wired Slice Recorder) : Prop where
  | starved {pos k : Nat} {m₁ : Machine} {w₁ w₁' : Wired Slice Recorder}
    (ended : run p map n m w' = .ended (.error (.noInput pos)) m₁ w₁')
    (advances : Advances p map k m w m₁ w₁) (ahead : Ahead more before w₁ w₁')
    (nothing : w₁'.source.toList = []) : Parts p map more before n m w w'
  | together (alike : Run.Alike (Ahead more before) (run p map n m w) (run p map n m w'))
    (fed : ∀ pos m₁ w₁', run p map n m w' ≠ .ended (.error (.noInput pos)) m₁ w₁') :
    Parts p map more before n m w w'

namespace Parts

variable {n : Nat} {m₁ : Machine} {w₁ w₁' : Wired Slice Recorder}

/-- Two runs that make the same step part as they do behind it. -/
theorem after_step (first : step p map m w = ⟨.ok .running, m₁, w₁⟩)
    (first' : step p map m w' = ⟨.ok .running, m₁, w₁'⟩)
    (rest : Parts p map more before n m₁ w₁ w₁') : Parts p map more before (n + 1) m w w' := by
  have next : run p map (n + 1) m w = run p map n m₁ w₁ := by rw [run, first]
  have next' : run p map (n + 1) m w' = run p map n m₁ w₁' := by rw [run, first']
  cases rest with
  | starved ended advances ahead nothing =>
    have inside := inside_of_running first
    exact .starved (next'.trans ended) (.more inside first advances) ahead nothing
  | together alike fed =>
    rw [← next, ← next'] at alike
    rw [← next'] at fed
    exact .together alike fed

/-- Two runs that end alike, and not for lack of input. -/
theorem of_ended {answer : Except Fault Unit} (ended : run p map n m w = .ended answer m₁ w₁)
    (ended' : run p map n m w' = .ended answer m₁ w₁') (ahead : Ahead more before w₁ w₁')
    (fed : ∀ pos, answer ≠ .error (.noInput pos)) : Parts p map more before n m w w' := by
  refine .together ?_ ?_
  · rw [ended, ended']
    exact .ended answer m₁ ahead
  · intro pos m₂ w₂' starved
    rw [ended'] at starved
    exact fed pos (Run.ended.inj starved).1

end Parts

theorem run_ahead (h : Ahead more before w w') (p : Program) (map : BracketMap) (n : Nat)
    (m : Machine) : Parts p map more before n m w w' := by
  induction n generalizing m w w' with
  | zero =>
    apply Parts.together (.unfinished m h)
    rintro pos m₁ w₁' ⟨⟩
  | succ n ih =>
    by_cases starved : p.get? m.ip = some .input ∧ w'.source.toList = []
    · obtain ⟨here, nothing⟩ := starved
      have ended : run p map (n + 1) m w' = .ended (.error (.noInput m.ip)) m w' := by
        rw [run, step_of_starved here nothing]
      exact .starved ended (.none m w) h nothing
    · have fed (here : p.get? m.ip = some .input) : w'.source.toList ≠ [] :=
        fun nothing => starved ⟨here, nothing⟩
      have same := step_ahead h map fed
      cases first : step p map m w with
      | mk answer m₁ w₁ =>
        cases first' : step p map m w' with
        | mk answer' m₁' w₁' =>
          rw [first, first'] at same
          obtain ⟨rfl, rfl, after⟩ := same
          cases answer with
          | error fault =>
            have ended : run p map (n + 1) m w = .ended (.error fault) m₁ w₁ := by rw [run, first]
            have ended' : run p map (n + 1) m w' = .ended (.error fault) m₁ w₁' := by
              rw [run, first']
            apply Parts.of_ended ended ended' after
            rintro pos ⟨⟩
            -- What asks for input here is given some.
            obtain ⟨here, nothing⟩ := step_noInput first'
            obtain ⟨byte, s, reads, -⟩ := Device.read_of_ne_nil (fed here)
            rw [reads] at nothing
            cases nothing
          | ok status =>
            cases status with
            | running => exact (ih after m₁).after_step first first'
            | halted =>
              have ended : run p map (n + 1) m w = .ended (.ok ()) m₁ w₁ := by
                rw [run, first]
                rfl
              have ended' : run p map (n + 1) m w' = .ended (.ok ()) m₁ w₁' := by
                rw [run, first']
                rfl
              apply Parts.of_ended ended ended' after
              rintro pos ⟨⟩

-- ============================================================================
-- A run in two parts
-- ============================================================================

/-- The outcome of a run on the bytes `a` and, if they are not enough, of a second run
    on the bytes `b`, by the machine that the first one left: its answer and machine,
    all that was written, and what is left to read of both. -/
inductive EndsInTwo (p : Program) (map : BracketMap) (m : Machine) (a b : List UInt8) :
    Except Fault Unit → Machine → (output unread : List UInt8) → Prop where
  | first {answer : Except Fault Unit} {m' : Machine} {w : Wired Slice Recorder}
    (ends : Ends p map m (supplied a) answer m' w) (fed : ¬ Starves answer) :
    EndsInTwo p map m a b answer m' w.sink.written.toList (w.source.toList ++ b)
  | second {starving answer : Except Fault Unit} {m₁ m' : Machine} {w₁ w₂ : Wired Slice Recorder}
    (ends : Ends p map m (supplied a) starving m₁ w₁) (starves : Starves starving)
    (resumed : Ends p map m₁ (supplied b) answer m' w₂) :
    EndsInTwo p map m a b answer m' (w₁.sink.written.toList ++ w₂.sink.written.toList)
      w₂.source.toList

variable {a b output unread : List UInt8} {answer : Except Fault Unit}

theorem ahead_supplied (a b : List UInt8) : Ahead b [] (supplied (a ++ b)) (supplied a) :=
  ⟨rfl, rfl⟩

theorem Ends.inTwo (ends : Ends p map m (supplied (a ++ b)) answer m' w) :
    EndsInTwo p map m a b answer m' w.sink.written.toList w.source.toList := by
  obtain ⟨n, ended⟩ := id ends
  cases run_ahead (ahead_supplied a b) p map n m with
  | @starved pos k m₁ w₁ w₁' ended₁ advances ahead nothing =>
    -- The machine that was left goes on where the run on all the input is.
    have rest := advances.ends_iff.1 ends
    have caughtUp := ahead.caughtUp nothing
    have alike (n : Nat) := run_alike (Ahead.alike _) flushAlike_ahead p map n m₁ caughtUp
    obtain ⟨w₂, resumed, same⟩ := rest.alike alike
    have starves : Starves (.error (.noInput pos)) := starves_iff.2 ⟨pos, rfl⟩
    rw [same.written, same.unread, List.append_nil]
    exact .second ⟨n, ended₁⟩ starves resumed
  | together alike fed =>
    rw [ended] at alike
    obtain ⟨w', ended', same⟩ := alike.of_left
    have fed' : ¬ Starves answer := by
      intro starves
      obtain ⟨pos, rfl⟩ := starves_iff.1 starves
      exact fed pos m' w' ended'
    rw [same.written, same.unread]
    exact .first ⟨n, ended'⟩ fed'

theorem EndsInTwo.whole (h : EndsInTwo p map m a b answer m' output unread) :
    ∃ w, Ends p map m (supplied (a ++ b)) answer m' w ∧ w.sink.written.toList = output ∧
      w.source.toList = unread := by
  cases h with
  | first ends fed =>
    obtain ⟨n, ended⟩ := ends
    cases run_ahead (ahead_supplied a b) p map n m with
    | @starved pos _ _ _ _ ended₁ =>
      rw [ended] at ended₁
      cases ended₁
      exact absurd (starves_iff.2 ⟨pos, rfl⟩) fed
    | together alike =>
      rw [ended] at alike
      obtain ⟨w, whole, same⟩ := alike.of_right
      exact ⟨w, ⟨n, whole⟩, same.written, same.unread⟩
  | @second starving answer m₁ m' w₁ w₂ ends starves resumed =>
    obtain ⟨n, ended⟩ := ends
    obtain ⟨pos, rfl⟩ := starves_iff.1 starves
    cases run_ahead (ahead_supplied a b) p map n m with
    | starved ended₁ advances ahead nothing =>
      rw [ended] at ended₁
      cases ended₁
      have caughtUp := ahead.caughtUp nothing
      have alike (n : Nat) := run_alike (Ahead.alike _) flushAlike_ahead p map n m₁ caughtUp
      obtain ⟨w, ends, same⟩ := resumed.of_alike alike
      refine ⟨w, advances.ends_iff.2 ends, same.written, ?_⟩
      rw [same.unread, List.append_nil]
    | together alike fed => exact absurd ended (fed pos m₁ w₁)

theorem diverges_append_iff (p : Program) (map : BracketMap) (m : Machine) (a b : List UInt8) :
    Diverges p map m (supplied (a ++ b)) ↔
      Diverges p map m (supplied a) ∨
      ∃ starving m₁ w₁, Ends p map m (supplied a) starving m₁ w₁ ∧ Starves starving ∧
        Diverges p map m₁ (supplied b) := by
  simp only [diverges_iff]
  constructor
  · intro never
    have never' {answer m' output unread} : ¬ EndsInTwo p map m a b answer m' output unread := by
      intro inTwo
      obtain ⟨w, ends, -⟩ := inTwo.whole
      exact never ⟨answer, m', w, ends⟩
    by_cases first : ∃ starving m₁ w₁, Ends p map m (supplied a) starving m₁ w₁
    · obtain ⟨starving, m₁, w₁, ends⟩ := first
      by_cases starves : Starves starving
      · refine .inr ⟨starving, m₁, w₁, ends, starves, ?_⟩
        rintro ⟨answer, m', w₂, resumed⟩
        exact never' (.second ends starves resumed)
      · exact absurd (.first ends starves) never'
    · exact .inl first
  · rintro stuck ⟨answer, m', w, ends⟩
    have inTwo := ends.inTwo
    generalize w.sink.written.toList = output, w.source.toList = unread at inTwo
    -- The first run ends, so it must have lacked input, and then the second one ends.
    cases inTwo with
    | first ends fed =>
      obtain never | ⟨starving, m₁, w₁, ends₁, starves, -⟩ := stuck
      · exact never ⟨_, _, _, ends⟩
      · obtain ⟨rfl, -⟩ := ends.unique ends₁
        exact fed starves
    | second ends starves resumed =>
      obtain never | ⟨starving, m₁, w₁, ends₁, -, never⟩ := stuck
      · exact never ⟨_, _, _, ends⟩
      · obtain ⟨-, rfl, -⟩ := ends.unique ends₁
        exact never ⟨_, _, _, resumed⟩

/-- A run on `a ++ b` comes to the same as a run on `a` that is resumed on `b` where it
    lacked input: it has the same answer, machine and output, and leaves the same
    unread; and it goes on forever exactly if one of the two does. -/
theorem resumes_without_loss (p : Program) (map : BracketMap) (m : Machine) (a b : List UInt8) :
    (∀ answer m' output unread,
      (∃ w, Ends p map m (supplied (a ++ b)) answer m' w ∧ w.sink.written.toList = output ∧
        w.source.toList = unread) ↔ EndsInTwo p map m a b answer m' output unread) ∧
    (Diverges p map m (supplied (a ++ b)) ↔
      Diverges p map m (supplied a) ∨
      ∃ starving m₁ w₁, Ends p map m (supplied a) starving m₁ w₁ ∧ Starves starving ∧
        Diverges p map m₁ (supplied b)) := by
  refine ⟨?_, diverges_append_iff p map m a b⟩
  intro answer m' output unread
  constructor
  · rintro ⟨w, ends, rfl, rfl⟩
    exact ends.inTwo
  · exact EndsInTwo.whole

end Machine

end NoteTape
