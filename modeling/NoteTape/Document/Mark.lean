/-
  NoteTape.Document.Mark

  Places in a text. A column counts characters, an index counts the bytes of
  their encoding; the length of a key is measured by the index.
-/

import NoteTape.Document.Text

namespace NoteTape.Document

/-- A place in a text. -/
structure Mark where
  /-- The bytes in front of the place. -/
  index : Nat := 0
  /-- The lines in front of its line. -/
  line : Nat := 0
  /-- The characters in front of it on its line. -/
  column : Nat := 0
  deriving DecidableEq, Repr, Inhabited

namespace Mark

/-- The place behind one more character. -/
def past (m : Mark) (c : Char) : Mark :=
  if isBreak c then { index := m.index + c.utf8Size, line := m.line + 1, column := 0 }
  else { m with index := m.index + c.utf8Size, column := m.column + 1 }

/-- The place behind more characters. -/
def pastAll (m : Mark) (cs : List Char) : Mark := cs.foldl past m

end Mark

/-- A place in a text and what is left of the text from there. -/
structure Cursor where
  mark : Mark := {}
  rest : List Char
  deriving DecidableEq, Repr, Inhabited

namespace Cursor

/-- The cursor so many characters ahead. -/
def forward (c : Cursor) (count : Nat) : Cursor :=
  { mark := c.mark.pastAll (c.rest.take count), rest := c.rest.drop count }

/-- What is left of the line. -/
def line (c : Cursor) : List Char := c.rest.takeWhile fun x => !isBreak x

/-- The cursor behind the line and its end. -/
def nextLine (c : Cursor) : Cursor := c.forward (c.line.length + 1)

end Cursor

end NoteTape.Document
