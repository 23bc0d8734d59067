/-
  NoteTape.Device.Feed

  Input that arrives piece by piece. A `Feed` is the list of what successive
  reads meet: bytes, an end that more may follow, or a refusal. Interruptions
  are no refusals, the read is simply made again. A feed is read byte by byte
  (`ByteReader`) or line by line (`LineReader`); of a line only the first byte
  is kept.
-/

import NoteTape.Device.Basic

namespace NoteTape

/-- What one read meets. -/
inductive Arrival where
  /-- Bytes, of which a reader takes as many as it wants; no bytes at all is an
      end of input that more may follow. -/
  | data (bytes : List UInt8)
  /-- The read fails, once. -/
  | failure (error : DeviceError)
  deriving Repr, Inhabited

/-- What successive reads meet; after the last arrival every read is at the end. -/
abbrev Feed := List Arrival

/-! ## Byte by byte -/

/-- One byte from the feed; none at an end of input. -/
def Feed.nextByte : Feed → Except DeviceError (Option UInt8) × Feed
  | [] => (.ok none, [])
  | .data [] :: later => (.ok none, later)
  | .data [byte] :: later => (.ok (some byte), later)
  | .data (byte :: bytes) :: later => (.ok (some byte), .data bytes :: later)
  | .failure e :: later =>
    if e.isInterrupted then nextByte later else (.error e, later)

/-- A reader for which every byte of the feed is a unit. -/
structure ByteReader where
  feed : Feed
  deriving Inhabited

instance : Source ByteReader where
  read r :=
    let (answer, feed) := r.feed.nextByte
    (answer, { r with feed })

/-! ## Line by line -/

/-- The byte that ends a line. -/
def newline : UInt8 := 10

/-- The byte that may stand before the end of a line. -/
def carriageReturn : UInt8 := 13

/-- The part of `bytes` up to and including the first end of line, and the part
    behind it; nothing if no line ends in `bytes`. -/
def cutLine? (bytes : List UInt8) : Option (List UInt8 × List UInt8) :=
  match bytes.span (· ≠ newline) with
  | (_, []) => none
  | (line, stop :: behind) => some (line ++ [stop], behind)

/-- The unit that a line gives: its first byte, or none if it is empty. -/
def unitOfLine : List UInt8 → Option UInt8
  | [] => none
  | first :: _ => if first = newline ∨ first = carriageReturn then none else some first

/-- A reader for which every line is a unit. It takes an arrival whole and keeps
    what is behind the line just read. -/
structure LineReader where
  /-- Bytes that arrived and were not read. -/
  pending : List UInt8 := []
  feed : Feed
  deriving Inhabited

namespace LineReader

/-- Completes the line that begins with `line` from the feed. The line ends with
    its end-of-line byte or at an end of input; a refusal loses it. -/
def complete (line : List UInt8) : Feed → Except DeviceError (List UInt8) × LineReader
  | [] => (.ok line, { feed := [] })
  | .data bytes :: later =>
    if bytes.isEmpty then (.ok line, { feed := later })
    else match cutLine? bytes with
      | some (rest, behind) => (.ok (line ++ rest), { pending := behind, feed := later })
      | none => complete (line ++ bytes) later
  | .failure e :: later =>
    if e.isInterrupted then complete line later else (.error e, { feed := later })

/-- Reads one line, its end-of-line byte included; no bytes at all at an end of
    input. -/
def readLine (r : LineReader) : Except DeviceError (List UInt8) × LineReader :=
  match cutLine? r.pending with
  | some (line, behind) => (.ok line, { r with pending := behind })
  | none => complete r.pending r.feed

/-- Reads one line and keeps its unit. -/
def readUnit (r : LineReader) : Except DeviceError (Option UInt8) × LineReader :=
  let (answer, r) := r.readLine
  (answer.map unitOfLine, r)

instance : Source LineReader where
  read := readUnit

end LineReader

/-! ## Line by line, with a prompt -/

/-- A line reader that shows a prompt before each line is read. -/
structure PromptingReader (κ : Type) where
  lines : LineReader
  prompt : String
  display : κ

namespace PromptingReader

variable {κ : Type} [Sink κ]

/-- Shows the prompt: all of it, then a flush. -/
def showPrompt (r : PromptingReader κ) : Except DeviceError Unit × PromptingReader κ :=
  match Sink.writeAll r.prompt.toUTF8.toList r.display with
  | (.error e, display) => (.error e, { r with display })
  | (.ok (), display) =>
    let (answer, display) := Sink.flush display
    (answer, { r with display })

/-- Shows the prompt, then reads one line and keeps its unit. Where the prompt
    cannot be shown no line is read. -/
def readUnit (r : PromptingReader κ) :
    Except DeviceError (Option UInt8) × PromptingReader κ :=
  match r.showPrompt with
  | (.error e, r) => (.error e, r)
  | (.ok (), r) =>
    let (answer, lines) := r.lines.readUnit
    (answer, { r with lines })

instance : Source (PromptingReader κ) where
  read := readUnit

end PromptingReader

end NoteTape
