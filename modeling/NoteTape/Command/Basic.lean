/-
  NoteTape.Command.Basic

  The command: from the arguments, the settings file, the track file and
  standard input to an exit code and what is printed. Settings that cannot be
  loaded are the standard ones, and what the arguments choose goes before them.
-/

import NoteTape.CommandLine.Request
import NoteTape.Command.Play
import NoteTape.Console
import NoteTape.Settings.Load
import NoteTape.TrackFile.Basic
import NoteTape.Transcription.Basic

namespace NoteTape.Command

open CommandLine (Request Stop)

/-- What running the command leaves. -/
structure Outcome where
  code : Nat
  stdout : List UInt8
  stderr : String
  deriving DecidableEq, Repr

/-- The text that answers a request for the version. -/
def versionText : String := "bebop 0.1.0\n"

/-- What stands on standard error when the command fails. -/
def complaint (message : String) : String := s!"bebop: {message}\n"

namespace Outcome

/-- A text is printed and all is well. -/
def print (text : String) : Outcome := ⟨0, text.toUTF8.toList, ""⟩

/-- The command fails before anything is printed. -/
def fail (message : String) : Outcome := ⟨1, [], complaint message⟩

/-- The arguments are not understood, or the version is asked for. -/
def ofStop : Stop → Outcome
  | .version => .print versionText
  | .misuse m => ⟨2, [], m.message⟩

end Outcome

/-- What is said of a loop that did not end well. -/
def Ending.message? : Ending → Option String
  | .halted => none
  | .fault f => some f.report.display
  | .refused e => some e.message
  | .stepLimit limit position => some s!"stopped after {limit} steps at instruction {position}"

/-- A program that is ready to be run. -/
structure Prepared where
  program : Program
  map : BracketMap
  limit : Option Nat
  inputMode : InputMode
  prompt : String

/-- Reads the track that a request asks for as a program. Whatever goes wrong is
    an outcome. -/
def programOf (settings : Settings) (file : Except DeviceError (List UInt8)) :
    Except Outcome Program :=
  match file.bind fun bytes => TrackFile.loadTrack bytes settings.track with
  | .error e => .error (.fail e.message)
  | .ok events =>
    match transcribe settings.scale events with
    | .error f => .error (.fail f.report.display)
    | .ok p => .ok p

/-- The number of tracks of a file, printed. -/
def listTracks (file : Except DeviceError (List UInt8)) : Outcome :=
  match file.bind TrackFile.load with
  | .error e => .fail e.message
  | .ok file => .print s!"{file.count}\n"

/-- Does what a request asks for, up to running a program. -/
def prepare (request : Request) (settings : Settings)
    (file : Except DeviceError (List UInt8)) : Except Outcome Prepared :=
  let settings := request.choices.over settings
  if request.listTracks then .error (listTracks file)
  else match programOf settings file with
    | .error outcome => .error outcome
    | .ok p =>
      if request.emit then .error (.print (p.toText ++ "\n"))
      else match BracketMap.ofProgram p with
        | .error f => .error (.fail f.report.display)
        | .ok map => .ok
          { program := p, map, limit := request.maxSteps, inputMode := settings.inputMode,
            prompt := settings.prompt }

namespace Prepared

/-- The console on which a program is run. -/
def console (r : Prepared) (stdin : Feed) : Console :=
  { keyboard := .ofMode r.inputMode r.prompt stdin }

/-- The outcome of a loop that ended. -/
def outcome (ending : Ending) (c : Console) : Outcome :=
  match ending.message? with
  | none => ⟨0, c.stdout, c.stderr⟩
  | some message => ⟨1, c.stdout, c.stderr ++ complaint message⟩

/-- Runs the program for at most the given number of rounds; no outcome if it is
    unfinished then. -/
def run (rounds : Nat) (r : Prepared) (stdin : Feed) : Option Outcome :=
  match play r.limit r.program r.map rounds .fresh (r.console stdin) with
  | .ended ending _ c => some (outcome ending c)
  | .unfinished _ _ => none

end Prepared

/-- What the command finds around it. -/
structure World where
  /-- The contents of a file, or why they cannot be read. -/
  file : String → Except DeviceError (List UInt8)
  /-- The contents of the settings file, if there is one. -/
  settings : Option (List UInt8)
  stdin : Feed

/-- The command, for at most the given number of rounds of its loop; no outcome
    if it is unfinished then. -/
def run (rounds : Nat) (arguments : List String) (world : World) : Option Outcome :=
  match Request.ofArguments arguments with
  | .error stop => some (.ofStop stop)
  | .ok request =>
    match prepare request (Settings.loadOrStandard world.settings) (world.file request.file) with
    | .error outcome => some outcome
    | .ok prepared => prepared.run rounds world.stdin

end NoteTape.Command
