/-
  NoteTape.Settings.Basic

  How a track is to be performed where the caller does not say: the scale, the
  number of the track, how input is read, and the prompt. `Choices` are settings
  of which any may be left open; `Choices.over` fills what is open.
-/

import NoteTape.Scale

namespace NoteTape

/-- How the instruction for input reads. -/
inductive InputMode where
  /-- One line per read, of which the first byte is kept. -/
  | line
  /-- One byte per read. -/
  | stream
  deriving DecidableEq, Repr, Inhabited

namespace InputMode

/-- Both modes, in the order in which messages list them. -/
def all : List InputMode := [.line, .stream]

/-- The name a mode is written with. -/
def name : InputMode → String
  | .line => "line"
  | .stream => "stream"

end InputMode

/-- How a track is performed. -/
structure Settings where
  scale : Scale
  /-- Track 0 of a file with several often holds no notes, so 1 is the default. -/
  track : Nat
  inputMode : InputMode
  /-- What is shown before each line is read. -/
  prompt : String
  deriving DecidableEq, Repr

namespace Settings

/-- How a track is performed where nothing is said. -/
def standard : Settings :=
  { scale := .major, track := 1, inputMode := .line, prompt := "> " }

instance : Inhabited Settings := ⟨standard⟩

end Settings

/-- Settings of which any may be left open. -/
structure Choices where
  scale : Option Scale := none
  track : Option Nat := none
  inputMode : Option InputMode := none
  prompt : Option String := none
  deriving DecidableEq, Repr, Inhabited

/-- The settings, except where a choice was made. -/
def Choices.over (c : Choices) (s : Settings) : Settings :=
  { scale := c.scale.getD s.scale
    track := c.track.getD s.track
    inputMode := c.inputMode.getD s.inputMode
    prompt := c.prompt.getD s.prompt }

end NoteTape
