/-
  NoteTape.Document.Gap

  White space between two words of a text that may go on over several lines. On
  one line it stands for itself. Across lines it is folded: the spaces around a
  line end are dropped, a single line end becomes a space, and of several the
  first is dropped. The separators of Unicode are not folded.
-/

import NoteTape.Document.Text

namespace NoteTape.Document

/-- White space between two words. -/
structure Gap where
  /-- Whether it begins with a line end that a backslash hides. -/
  hidden : Bool := false
  /-- The spaces in front of the first line end, the last one first. -/
  spaces : List Char := []
  /-- The line ends, the last one first. -/
  breaks : List Char := []
  deriving DecidableEq, Repr, Inhabited

/-- What line ends stand for between two words. -/
def fold : List Char → List Char
  | ['\n'] => [' ']
  | '\n' :: breaks => breaks
  | breaks => breaks

namespace Gap

/-- Whether the words around a gap are on different lines. -/
def crossesLine (g : Gap) : Bool := g.hidden || !g.breaks.isEmpty

/-- Whether there is anything between the words. -/
def isEmpty (g : Gap) : Bool := !g.crossesLine && g.spaces.isEmpty

/-- The gap with one more character of white space. -/
def put (g : Gap) (c : Char) : Gap :=
  if isBreak c then { g with breaks := c :: g.breaks }
  else if g.crossesLine then g
  else { g with spaces := c :: g.spaces }

/-- What a gap stands for. -/
def text (g : Gap) : List Char :=
  if g.hidden then g.breaks.reverse
  else if g.breaks.isEmpty then g.spaces.reverse
  else fold g.breaks.reverse

/-- A text that was read, its last character first, with a gap behind it. -/
def behind (g : Gap) (read : List Char) : List Char := g.text.reverse ++ read

end Gap

end NoteTape.Document
