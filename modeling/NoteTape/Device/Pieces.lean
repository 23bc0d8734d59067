/-
  NoteTape.Device.Pieces

  What a feed comes to. For a reader of lines it is a sequence of pieces, each of
  them bytes up to an end of input or a refusal; interruptions and the borders
  between arrivals leave no trace, and the answers are read off the pieces. For a
  reader of bytes the answers are read off the arrivals one by one. After the last
  answer no input is available.
-/

import NoteTape.Device.Feed

namespace NoteTape

/-- Where a piece of input ends. -/
inductive Border where
  /-- An end of input. -/
  | pause
  | refusal (error : DeviceError)
  deriving DecidableEq, Repr, Inhabited

/-- Bytes up to an end of input or a refusal. -/
structure Piece where
  bytes : List UInt8
  border : Border
  deriving DecidableEq, Repr, Inhabited

/-- What one read of a unit answers. -/
abbrev Answer := Except DeviceError (Option UInt8)

/-- The pieces of a feed of which `bytes` have arrived since the last border. The
    end of the feed is an end of input. -/
def Feed.piecesOn (bytes : List UInt8) : Feed → List Piece
  | [] => [⟨bytes, .pause⟩]
  | .data more :: later =>
    if more.isEmpty then ⟨bytes, .pause⟩ :: piecesOn [] later else piecesOn (bytes ++ more) later
  | .failure e :: later =>
    if e.isInterrupted then piecesOn bytes later else ⟨bytes, .refusal e⟩ :: piecesOn [] later

/-- The pieces of a feed. -/
def Feed.pieces (feed : Feed) : List Piece := feed.piecesOn []

/-- The lines of some bytes that are ended by the end-of-line byte, without it,
    and the rest that is not ended; `line` was read of the first line. -/
def linesOn (line : List UInt8) : List UInt8 → List (List UInt8) × List UInt8
  | [] => ([], line)
  | byte :: bytes =>
    if byte = newline then
      let (lines, rest) := linesOn [] bytes
      (line :: lines, rest)
    else linesOn (line ++ [byte]) bytes

/-- The unit that the text of a line gives: its first byte, unless it is a
    carriage return. -/
def unitOfText : List UInt8 → Option UInt8
  | [] => none
  | first :: _ => if first = carriageReturn then none else some first

namespace Piece

/-- What reading lines from a piece answers: the unit of every line that is
    ended, and at the border the unit of the rest or the refusal. -/
def lineAnswers (p : Piece) : List Answer :=
  let (lines, rest) := linesOn [] p.bytes
  let last : Answer := match p.border with
    | .pause => .ok (unitOfText rest)
    | .refusal e => .error e
  lines.map (fun line => .ok (unitOfText line)) ++ [last]

end Piece

/-- What reading lines from a feed answers, up to its end. -/
def Feed.lineAnswers (feed : Feed) : List Answer := feed.pieces.flatMap Piece.lineAnswers

/-- What reading bytes from one arrival answers: every byte, or that there is no input
    where no bytes arrive; a refusal, unless it is an interruption. -/
def Arrival.byteAnswers : Arrival → List Answer
  | .data bytes => if bytes.isEmpty then [.ok none] else bytes.map (fun byte => .ok (some byte))
  | .failure e => if e.isInterrupted then [] else [.error e]

/-- What reading bytes from a feed answers, up to its end. -/
def Feed.byteAnswers (feed : Feed) : List Answer := feed.flatMap Arrival.byteAnswers

/-- The answer to a read, counted from zero: after the last answer there is no
    input. -/
def nthAnswer (answers : List Answer) (n : Nat) : Answer := answers.getD n (.ok none)

end NoteTape
