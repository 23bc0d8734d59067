/-
  NoteTape.CommandLine.Usage

  The words of the command line: parameters, which take a value, and switches,
  which take none; and what is said of arguments that cannot be understood, of
  which only the first line matters here.
-/

import NoteTape.Settings.Basic
import NoteTape.Text.Digits
import NoteTape.Text.Terminal

namespace NoteTape.CommandLine

/-- Something that is given a value. -/
inductive Parameter where
  | track
  | scale
  | inputMode
  | maxSteps
  deriving DecidableEq, Repr, Inhabited

namespace Parameter

/-- All parameters. -/
def all : List Parameter := [.track, .scale, .inputMode, .maxSteps]

/-- The word for a parameter, behind two hyphens. -/
def word : Parameter → String
  | .track => "track"
  | .scale => "scale"
  | .inputMode => "input-mode"
  | .maxSteps => "max-steps"

/-- The letter for a parameter, behind one hyphen, if it has one. -/
def letter? : Parameter → Option Char
  | .track => some 'T'
  | .scale => some 'S'
  | .inputMode | .maxSteps => none

/-- What stands for the value in messages. -/
def placeholder : Parameter → String
  | .track => "TRACK"
  | .scale => "SCALE"
  | .inputMode => "INPUT_MODE"
  | .maxSteps => "MAX_STEPS"

/-- A parameter as messages show it. -/
def shown (p : Parameter) : String := s!"--{p.word} <{p.placeholder}>"

end Parameter

/-- Something that is either given or not. -/
inductive Switch where
  /-- Print the program instead of running it. -/
  | emit
  /-- Print the number of tracks. -/
  | listTracks
  deriving DecidableEq, Repr, Inhabited

namespace Switch

/-- All switches. -/
def all : List Switch := [.emit, .listTracks]

/-- The word for a switch, behind two hyphens. -/
def word : Switch → String
  | .emit => "emit"
  | .listTracks => "list-tracks"

/-- A switch as messages show it. -/
def shown (s : Switch) : String := s!"--{s.word}"

end Switch

/-- The word that asks for the version, behind two hyphens. -/
def versionWord : String := "version"

/-- The letter that asks for the version, behind one hyphen. -/
def versionLetter : Char := 'V'

/-- The file as messages show it. -/
def fileShown : String := "<FILE>"

/-- How to ask for help, as messages show it. -/
def helpShown : String := "--help"

/-- Why arguments cannot be understood. -/
inductive Misuse where
  /-- The argument is no option, and there is no place for it. -/
  | unexpected (argument : String)
  /-- What is shown needs a value and has none. -/
  | missingValue (shown : String)
  /-- What is shown takes no value and has one. -/
  | unneededValue (value shown : String)
  /-- What is shown is given twice. -/
  | repeated (shown : String)
  /-- The value is not one of the parameter, for a reason. -/
  | invalidValue (value : String) (parameter : Parameter) (reason : String)
  /-- There is no file. -/
  | missingFile
  deriving DecidableEq, Repr, Inhabited

/-- A text as terminals show it with emphasis. -/
def emphasised (text : String) : String := "\x1b[1m" ++ text ++ "\x1b[0m"

/-- What is said of arguments that cannot be understood, for a terminal. What
    follows the message is part of it where a value can swallow line ends. -/
def Misuse.text : Misuse → String
  | .unexpected argument => s!"unexpected argument '{emphasised argument}' found"
  | .missingValue shown => s!"a value is required for '{emphasised shown}' but none was supplied"
  | .unneededValue value shown =>
    s!"unexpected value '{emphasised value}' for '{emphasised shown}' found; no more were expected"
  | .repeated shown => s!"the argument '{emphasised shown}' cannot be used multiple times"
  | .invalidValue value parameter reason =>
    let found := s!"invalid value '{emphasised value}' for '{emphasised parameter.shown}'"
    s!"{found}: {reason}\n\nFor more information, try '{emphasised helpShown}'.\n"
  | .missingFile => "the following required arguments were not provided:\n"

/-- A line without the carriage return that may stand at its end. -/
def withoutReturn (line : List Char) : List Char :=
  if line.getLast? = some '\r' then line.dropLast else line

/-- A text up to the end of its first line. -/
def firstLine (text : String) : String :=
  let cs := text.toList
  let line := cs.takeWhile (· ≠ '\n')
  String.ofList (if line.length < cs.length then withoutReturn line else line)

/-- The first line of what is said of arguments that cannot be understood. -/
def Misuse.message (m : Misuse) : String :=
  firstLine (Text.Terminal.shown (emphasised "error:" ++ " " ++ m.text))

end NoteTape.CommandLine
