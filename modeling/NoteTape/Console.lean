/-
  NoteTape.Console

  The console as a device. Output goes into a buffer and from there, in order, to
  standard output; input is read from standard input, in line mode behind a
  prompt on standard error. A console keeps a log of all that happens on it, and
  what stands on standard output and standard error is read off the log.
-/

import NoteTape.Device.Feed
import NoteTape.Settings.Basic

namespace NoteTape

/-- Something that happens on a console. -/
inductive Effect where
  /-- A byte goes into the buffer. -/
  | put (byte : UInt8)
  /-- The bytes of the buffer reach standard output. -/
  | deliver (bytes : List UInt8)
  /-- A text is shown on standard error. -/
  | prompt (text : String)
  /-- A unit is read from standard input. -/
  | read
  deriving DecidableEq, Repr, Inhabited

namespace Effect

/-- The bytes that an effect puts into the buffer. -/
def bytesPut : Effect → List UInt8
  | .put byte => [byte]
  | _ => []

/-- The bytes that an effect brings to standard output. -/
def bytesDelivered : Effect → List UInt8
  | .deliver bytes => bytes
  | _ => []

/-- The text that an effect shows on standard error. -/
def textShown : Effect → String
  | .prompt text => text
  | _ => ""

end Effect

/-- Standard input, read in one of the two modes. -/
inductive Keyboard where
  | lines (reader : LineReader) (prompt : String)
  | bytes (reader : ByteReader)
  deriving Inhabited

namespace Keyboard

/-- Standard input to be read in a mode, and the prompt for lines. -/
def ofMode (mode : InputMode) (prompt : String) (feed : Feed) : Keyboard :=
  match mode with
  | .line => .lines { feed } prompt
  | .stream => .bytes { feed }

/-- What reading one unit shows before it. -/
def prompts : Keyboard → List Effect
  | .lines _ prompt => [.prompt prompt]
  | .bytes _ => []

/-- One unit of input. -/
def readUnit : Keyboard → Except DeviceError (Option UInt8) × Keyboard
  | .lines reader prompt =>
    let (answer, reader) := Source.read reader
    (answer, .lines reader prompt)
  | .bytes reader =>
    let (answer, reader) := Source.read reader
    (answer, .bytes reader)

/-- Standard input on which one more piece arrives behind all others. -/
def receive (k : Keyboard) (arrival : Arrival) : Keyboard :=
  match k with
  | .lines reader prompt => .lines { reader with feed := reader.feed ++ [arrival] } prompt
  | .bytes reader => .bytes { reader with feed := reader.feed ++ [arrival] }

end Keyboard

/-- How many bytes the buffer of a console holds. -/
def bufferSize : Nat := 8192

/-- A console and all that happened on it. -/
structure Console where
  keyboard : Keyboard
  /-- Bytes put and not yet delivered. -/
  buffered : Array UInt8 := #[]
  /-- All that happened, in order. -/
  log : Array Effect := #[]
  deriving Inhabited

namespace Console

/-- Delivers what is in the buffer. -/
def flush (c : Console) : Console :=
  { c with buffered := #[], log := c.log.push (.deliver c.buffered.toList) }

/-- Puts a byte into the buffer, which is delivered first if it is full. -/
def put (byte : UInt8) (c : Console) : Console :=
  let c := if c.buffered.size < bufferSize then c else c.flush
  { c with buffered := c.buffered.push byte, log := c.log.push (.put byte) }

/-- Shows the prompt, if input is read in lines, and reads one unit. -/
def readUnit (c : Console) : Except DeviceError (Option UInt8) × Console :=
  let (answer, keyboard) := c.keyboard.readUnit
  (answer, { c with keyboard, log := (c.log ++ c.keyboard.prompts).push .read })

instance : Device Console where
  read := readUnit
  write byte c := (.ok (), c.put byte)
  flush c := (.ok (), c.flush)

/-- The bytes that reached standard output. -/
def stdout (c : Console) : List UInt8 := c.log.toList.flatMap Effect.bytesDelivered

/-- The text that was shown on standard error. -/
def stderr (c : Console) : String := String.join (c.log.toList.map Effect.textShown)

end Console

end NoteTape
