/-
  NoteTape.Proofs.Command.Emit

  The text that the command prints of a track. Asked for the text of a track that can
  be read, the command prints what the program is written as and a line end, which is
  no symbol: read back, the printed text is the program, and so it runs on every
  device as the track is performed.
-/

import NoteTape.Command.Basic
import NoteTape.Performance
import NoteTape.Proofs.Program.Text
import NoteTape.Proofs.Text.Bytes

namespace NoteTape.Command

open CommandLine (Request)

/-- The arguments ask for the text of a track; these are the settings, and the track
    can be read, has these events and stands for this program. -/
structure AsksForText (arguments : List String) (world : World) (request : Request)
    (settings : Settings) (events : List NoteEvent) (p : Program) : Prop where
  understood : Request.ofArguments arguments = .ok request
  emit : request.emit = true
  listTracks : request.listTracks = false
  chosen : request.choices.over (Settings.loadOrStandard world.settings) = settings
  loaded : ((world.file request.file).bind fun bytes =>
    TrackFile.loadTrack bytes settings.track) = .ok events
  read : transcribe settings.scale events = .ok p

variable {arguments : List String} {world : World} {request : Request} {settings : Settings}
  {events : List NoteEvent} {p : Program}

/-- No step is taken: the text is printed whatever the number of rounds. -/
theorem AsksForText.run_eq (asks : AsksForText arguments world request settings events p)
    (rounds : Nat) : run rounds arguments world = some (.print (p.toText ++ "\n")) := by
  have program : programOf settings (world.file request.file) = .ok p := by
    rw [programOf, asks.loaded]
    simp only [asks.read]
  simp [run, asks.understood, prepare, asks.chosen, asks.listTracks, program, asks.emit]

/-- The text of a track is printed, and read back it runs on every device as the track
    is performed: the answer, the machine and what is left of the device are the
    same, whatever stands in the text for brackets. -/
theorem AsksForText.printed (asks : AsksForText arguments world request settings events p) :
    ∃ text outcome, (∀ rounds, run rounds arguments world = some outcome) ∧
      outcome.code = 0 ∧ outcome.stderr = "" ∧
      String.fromUTF8? ⟨outcome.stdout.toArray⟩ = some text ∧
      ∀ (δ : Type) [Device δ] (most : Nat) (d : δ),
        (Program.ofText text).run most d = perform most settings.scale events d := by
  refine ⟨p.toText ++ "\n", .print (p.toText ++ "\n"), asks.run_eq, rfl, rfl,
    Text.fromUTF8?_toUTF8 _, ?_⟩
  intro δ _ most d
  have line_end : ∀ c ∈ "\n".toList, Instruction.isSymbol c = false := by
    simp [Instruction.isSymbol, Instruction.symbols]
  rw [Program.ofText_toText_append line_end, perform, asks.read]

/-- Programs and texts. A program is read back from its text; the text of what is read
    from a text is the symbols of that text; texts are read part by part, and what is
    inserted between the symbols changes nothing. So the text that is printed of a
    track runs as the track is performed. -/
theorem program_text_round_trips :
    (∀ p : Program, Program.ofText p.toText = p) ∧
    (∀ text : String,
      (Program.ofText text).toText = String.ofList (text.toList.filter Instruction.isSymbol)) ∧
    (∀ front behind : String,
      Program.ofText (front ++ behind) = Program.ofText front ++ Program.ofText behind) ∧
    (∀ plain commented : String, Program.Commented plain.toList commented.toList →
      Program.ofText commented = Program.ofText plain) ∧
    ∀ (arguments : List String) (world : World) (request : Request) (settings : Settings)
      (events : List NoteEvent) (p : Program),
      AsksForText arguments world request settings events p →
      ∃ text outcome, (∀ rounds, run rounds arguments world = some outcome) ∧
        outcome.code = 0 ∧ outcome.stderr = "" ∧
        String.fromUTF8? ⟨outcome.stdout.toArray⟩ = some text ∧
        ∀ (δ : Type) [Device δ] (most : Nat) (d : δ),
          (Program.ofText text).run most d = perform most settings.scale events d :=
  ⟨Program.ofText_toText, Program.toText_ofText, Program.ofText_append,
    fun _ _ => Program.ofText_of_commented, fun _ _ _ _ _ _ asks => asks.printed⟩

/-- A file with a single track, whose notes stand for a write and an opening bracket in
    a major scale. -/
def openLoopWorld : World where
  file _ := .ok (TrackFile.headerId ++ [0, 0, 0, 6, 0, 0, 0, 1, 0, 96] ++ TrackFile.trackId ++
    [0, 0, 0, 10, 0, 0x90, 60, 64, 1, 67, 64, 1, 69, 64])
  settings := none
  stdin := []

/-- A program that nothing can run is still printed and read back. -/
theorem program_text_round_trips_open_loop :
    Program.ofText "write . [" = Program.ofText ".[" ∧
    ∃ text outcome,
      (∀ rounds, run rounds ["--emit", "-T", "0", "song.mid"] openLoopWorld = some outcome) ∧
      outcome.code = 0 ∧ outcome.stderr = "" ∧
      String.fromUTF8? ⟨outcome.stdout.toArray⟩ = some text ∧
      ∀ (δ : Type) [Device δ] (most : Nat) (d : δ), (Program.ofText text).run most d =
        perform most .major [.start 60 0, .start 67 1, .start 69 1] d := by
  have inserted : Program.Commented ".[".toList "write . [".toList :=
    .insert rfl (.insert rfl (.insert rfl (.insert rfl (.insert rfl (.insert rfl
      (.keep '.' (.insert rfl (.keep '[' .done))))))))
  have asks : AsksForText ["--emit", "-T", "0", "song.mid"] openLoopWorld
      { file := "song.mid", choices := { track := some 0 }, emit := true, listTracks := false,
        maxSteps := none }
      { Settings.standard with track := 0 } [.start 60 0, .start 67 1, .start 69 1]
      (.ofList [.output, .loopOpen]) :=
    { understood := rfl, emit := rfl, listTracks := rfl, chosen := rfl,
      loaded := by with_unfolding_all rfl, read := rfl }
  exact ⟨program_text_round_trips.2.2.2.1 _ _ inserted,
    program_text_round_trips.2.2.2.2 _ _ _ _ _ _ asks⟩

end NoteTape.Command
