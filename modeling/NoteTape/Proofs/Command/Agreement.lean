/-
  NoteTape.Proofs.Command.Agreement

  The command agrees with a performance. Asked to perform a track that can be read,
  and to do nothing else, it ends with the answer of a performance on a source and a
  recorder: the recorded bytes on standard output, on standard error the prompts and
  behind them a complaint if the performance fails; and where the performance never
  ends the command does not either.
-/

import NoteTape.Command.Basic
import NoteTape.Performance
import NoteTape.Proofs.Command.Lockstep
import NoteTape.Proofs.Machine.Ending

namespace NoteTape

/-- A performance that ended ends in the same way when it is given more steps. -/
theorem perform_of_le {δ : Type} [Device δ] {scale : Scale} {events : List NoteEvent} {d d' : δ}
    {m : Machine} {answer : Except Fault Unit} {most more : Nat}
    (h : perform most scale events d = .ended answer m d') (le : most ≤ more) :
    perform more scale events d = .ended answer m d' := by
  rw [perform] at h ⊢
  cases read : transcribe scale events with
  | error fault => simpa only [read] using h
  | ok p =>
    simp only [read, Program.run] at h ⊢
    cases paired : BracketMap.ofProgram p with
    | error fault => simpa only [paired] using h
    | ok map =>
      -- Only here is the number of steps looked at.
      simp only [paired] at h ⊢
      exact Machine.run_of_le h le

namespace Command

open CommandLine (Request)

/-- The arguments ask to perform a track without a step limit, and for nothing else;
    these are the settings, and the track can be read and has these events. -/
structure Asks (arguments : List String) (world : World) (request : Request)
    (settings : Settings) (events : List NoteEvent) : Prop where
  understood : Request.ofArguments arguments = .ok request
  emit : request.emit = false
  listTracks : request.listTracks = false
  maxSteps : request.maxSteps = none
  chosen : request.choices.over (Settings.loadOrStandard world.settings) = settings
  loaded : ((world.file request.file).bind fun bytes =>
    TrackFile.loadTrack bytes settings.track) = .ok events

variable {σ : Type}

/-- A source that counts its reads, and an empty recorder. -/
def recording (source : σ) : Wired (Counted σ) Recorder := ⟨⟨source, 0⟩, {}⟩

/-- What the command leaves where a performance left this, with a text shown for
    each read. -/
def outcomeOf (text : String) (w : Wired (Counted σ) Recorder) : Except Fault Unit → Outcome
  | .ok () => ⟨0, w.sink.written.toList, repeated text w.source.reads⟩
  | .error fault =>
    ⟨1, w.sink.written.toList, repeated text w.source.reads ++ complaint fault.report.display⟩

/-- The same, or nothing for a performance that is unfinished. -/
def outcome? (text : String) : Run (Wired (Counted σ) Recorder) → Option Outcome
  | .ended answer _ w => some (outcomeOf text w answer)
  | .unfinished _ _ => none

/-- What the loop of the command makes of what it was left. -/
def ofPlayed : Played Console → Option Outcome
  | .ended ending _ c => some (Prepared.outcome ending c)
  | .unfinished _ _ => none

variable {keyboard : σ → Keyboard} {text : String}

theorem Reflects.outcome_eq {played : Played Console} {run : Run (Wired (Counted σ) Recorder)}
    (h : Reflects keyboard text played run) : ofPlayed played = outcome? text run := by
  cases h with
  | unfinished => rfl
  | ended answer m mirrors delivered =>
    have stdout := delivered.trans mirrors.bytes
    cases answer with
    | ok => simp only [ofPlayed, Prepared.outcome, Ending.ofAnswer, Ending.message?, outcome?,
        outcomeOf, stdout, mirrors.stderr]
    | error fault => simp only [ofPlayed, Prepared.outcome, Ending.ofAnswer, Ending.message?,
        outcome?, outcomeOf, stdout, mirrors.stderr]

variable {arguments : List String} {world : World} {request : Request} {settings : Settings}
  {events : List NoteEvent}

/-- A command that is asked for a performance prepares it and prints nothing. -/
theorem Asks.prepare_eq (asks : Asks arguments world request settings events) :
    prepare request (Settings.loadOrStandard world.settings) (world.file request.file) =
      match transcribe settings.scale events with
      | .error fault => .error (.fail fault.report.display)
      | .ok p =>
        match BracketMap.ofProgram p with
        | .error fault => .error (.fail fault.report.display)
        | .ok map => .ok
          { program := p, map, limit := none, inputMode := settings.inputMode,
            prompt := settings.prompt } := by
  simp only [prepare, programOf, asks.chosen, asks.loaded, asks.emit, asks.listTracks,
    asks.maxSteps]
  cases transcribe settings.scale events <;> rfl

/-- A performance that fails before anything is run has read and written nothing. -/
theorem outcome?_untouched (text : String) (fault : Fault) (source : σ) :
    outcome? text (.ended (.error fault) .fresh (recording source)) =
      some (.fail fault.report.display) := by
  have silent : repeated text 0 ++ complaint fault.report.display =
      complaint fault.report.display := by
    simp [repeated]
  simp only [outcome?, outcomeOf, recording, silent]
  rfl

/-- A console on which nothing happened mirrors a recorder that is empty. -/
theorem mirrors_recording (text : String) (source : σ) :
    Mirrors keyboard text { keyboard := keyboard source } (recording source) where
  keyboard := rfl
  bytes := rfl
  stderr := by simp [Console.stderr, repeated, recording]

theorem Prepared.run_eq_ofPlayed (r : Prepared) (rounds : Nat) (stdin : Feed) :
    r.run rounds stdin =
      ofPlayed (play r.limit r.program r.map rounds .fresh (r.console stdin)) := by
  rw [Prepared.run]
  cases play r.limit r.program r.map rounds .fresh (r.console stdin) <;> rfl

/-- A command that is asked for a performance is that performance, round by round. -/
theorem run_eq_outcome? [Source σ] (asks : Asks arguments world request settings events)
    (like : ReadsLike keyboard text) {source : σ}
    (input : Keyboard.ofMode settings.inputMode settings.prompt world.stdin = keyboard source)
    (rounds : Nat) : run rounds arguments world =
      outcome? text (perform rounds settings.scale events (recording source)) := by
  simp only [run, asks.understood, asks.prepare_eq, perform]
  cases transcribe settings.scale events with
  | error fault => exact (outcome?_untouched text fault source).symm
  | ok p =>
    simp only [Program.run]
    cases BracketMap.ofProgram p with
    | error fault => exact (outcome?_untouched text fault source).symm
    | ok map =>
      simp only [Prepared.run_eq_ofPlayed, Prepared.console, input]
      exact (play_reflects_run like (mirrors_recording text source) p map rounds .fresh).outcome_eq

-- ============================================================================
-- The command and a performance that is given as many steps as it wants
-- ============================================================================

/-- From some number of rounds on, the command has this outcome. -/
def Leaves (arguments : List String) (world : World) (outcome : Outcome) : Prop :=
  ∃ enough, ∀ rounds, enough ≤ rounds → run rounds arguments world = some outcome

/-- The command does what a performance on the source and a recorder does. If it ends
    well, so does the command, with the recorded bytes on standard output and on
    standard error what is shown for so many reads; if it fails, the command fails with
    the same on both and a complaint behind; and if it never ends, the command does not
    end. -/
structure Agrees [Source σ] (arguments : List String) (world : World) (scale : Scale)
    (events : List NoteEvent) (source : σ) (shown : Nat → String) : Prop where
  ok : ∀ most m w, perform most scale events (recording source) = .ended (.ok ()) m w →
    Leaves arguments world ⟨0, w.sink.written.toList, shown w.source.reads⟩
  error : ∀ most fault m w,
    perform most scale events (recording source) = .ended (.error fault) m w →
    Leaves arguments world ⟨1, w.sink.written.toList,
      shown w.source.reads ++ complaint fault.report.display⟩
  diverges : (∀ most, ∃ m w, perform most scale events (recording source) = .unfinished m w) →
    ∀ rounds, run rounds arguments world = none

theorem Asks.agrees [Source σ] (asks : Asks arguments world request settings events)
    (like : ReadsLike keyboard text) {source : σ}
    (input : Keyboard.ofMode settings.inputMode settings.prompt world.stdin = keyboard source) :
    Agrees arguments world settings.scale events source (repeated text) := by
  have ends {most : Nat} {answer : Except Fault Unit} {m : Machine}
      {w : Wired (Counted σ) Recorder}
      (h : perform most settings.scale events (recording source) = .ended answer m w) :
      Leaves arguments world (outcomeOf text w answer) := by
    refine ⟨most, ?_⟩
    intro rounds enough
    rw [run_eq_outcome? asks like input, perform_of_le h enough]
    rfl
  refine ⟨fun most m w h => ends h, fun most fault m w h => ends h, ?_⟩
  intro forever rounds
  obtain ⟨m, w, unfinished⟩ := forever rounds
  rw [run_eq_outcome? asks like input, unfinished]
  rfl

/-- Without a step limit the command agrees with a performance on a reader of
    standard input: in line mode it reads lines and shows the prompt for each read, a
    failing last one included; in stream mode it reads bytes and shows nothing. -/
theorem run_agrees_with_perform (asks : Asks arguments world request settings events) :
    (settings.inputMode = .line →
      Agrees arguments world settings.scale events ({ feed := world.stdin } : LineReader)
        (repeated settings.prompt)) ∧
    (settings.inputMode = .stream →
      Agrees arguments world settings.scale events (⟨world.stdin⟩ : ByteReader) fun _ => "") := by
  constructor
  · intro mode
    exact asks.agrees (readsLike_lines settings.prompt) (by rw [mode]; rfl)
  · intro mode
    have nothing : repeated "" = fun _ => "" := funext repeated_empty
    rw [← nothing]
    exact asks.agrees readsLike_bytes (by rw [mode]; rfl)

/-- A file with a single track, whose notes stand for a read and a write in a major
    scale, and a line on standard input. -/
def echoWorld : World where
  file _ := .ok (TrackFile.headerId ++ [0, 0, 0, 6, 0, 0, 0, 1, 0, 96] ++ TrackFile.trackId ++
    [0, 0, 0, 10, 0, 0x90, 60, 64, 1, 68, 64, 1, 67, 64])
  settings := none
  stdin := [.data [65, newline]]

/-- A read and a write echo the first byte of the line, behind one prompt. -/
theorem run_agrees_with_perform_echo :
    Leaves ["-T", "0", "song.mid"] echoWorld ⟨0, [65], "> "⟩ := by
  have asks : Asks ["-T", "0", "song.mid"] echoWorld
      { file := "song.mid", choices := { track := some 0 }, emit := false, listTracks := false,
        maxSteps := none }
      { Settings.standard with track := 0 } [.start 60 0, .start 68 1, .start 67 1] :=
    { understood := rfl, emit := rfl, listTracks := rfl, maxSteps := rfl, chosen := rfl,
      loaded := by with_unfolding_all rfl }
  have leaves : Leaves ["-T", "0", "song.mid"] echoWorld
      ⟨0, [(Tape.blank.store 65).current], "> "⟩ :=
    ((run_agrees_with_perform asks).1 rfl).ok 3 _ _ rfl
  rwa [Tape.current_store] at leaves

end Command

end NoteTape
