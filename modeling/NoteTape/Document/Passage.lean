/-
  NoteTape.Document.Passage

  Text that takes up whole lines, indented alike, behind a header on a line of its
  own. Literal text keeps its line ends; folded text joins lines as words are
  joined, except around lines that begin with white space. The header may say how
  deep the lines are indented and what becomes of the line ends behind the text.
-/

import NoteTape.Document.Mark

namespace NoteTape.Document

/-- What becomes of the line ends behind a text. -/
inductive Ending where
  /-- The first is kept. -/
  | clip
  /-- None is kept. -/
  | strip
  /-- All are kept. -/
  | keep
  deriving DecidableEq, Repr, Inhabited

/-- What the header of a text says. -/
structure Header where
  ending : Ending := .clip
  /-- How much deeper the text is indented than what it belongs to, if that is
      said. -/
  depth : Option Nat := none
  deriving DecidableEq, Repr, Inhabited

namespace Header

/-- Takes a sign for the line ends off a header. -/
def takeEnding : List Char → Option Ending × List Char
  | '+' :: cs => (some .keep, cs)
  | '-' :: cs => (some .strip, cs)
  | cs => (none, cs)

/-- Takes a digit for the depth off a header. -/
def takeDepth : List Char → Option Nat × List Char
  | [] => (none, [])
  | c :: cs => if '1' ≤ c ∧ c ≤ '9' then (some (c.toNat - '0'.toNat), cs) else (none, c :: cs)

/-- Reads a header, which is all of a line except for a comment. The sign and the
    digit may stand in either order. -/
def ofLine? (line : List Char) : Option Header :=
  let (first, rest) := takeEnding line
  let (depth, rest) := takeDepth rest
  let (ending, rest) := match first with
    | some ending => (some ending, rest)
    | none => if depth.isSome then takeEnding rest else (none, rest)
  if endsLine rest then some { ending := ending.getD .clip, depth } else none

end Header

/-! ## The lines -/

/-- Reads blank lines and the indentation in front of the first line that is not
    blank; of an indentation that is still to be found all spaces are read. Returns
    the deepest column that was reached, and the line ends, the last one first. A
    tab may not stand in the indentation. -/
def readIndent (indent : Option Nat) (deepest : Nat) (breaks : List Char) (m : Mark) :
    List Char → Option (Nat × List Char × Cursor)
  | [] => some (max deepest m.column, breaks, ⟨m, []⟩)
  | c :: cs =>
    let inside := indent.all (m.column < ·)
    if c = ' ' && inside then readIndent indent deepest breaks (m.past c) cs
    else if c = '\t' && inside then none
    else if isBreak c then readIndent indent (max deepest m.column) (c :: breaks) (m.past c) cs
    else some (max deepest m.column, breaks, ⟨m, c :: cs⟩)

/-- The lines that were read. -/
structure Lines where
  /-- The text up to the end of the last line, the last character first. -/
  text : List Char := []
  /-- What ends the last line. -/
  lineEnd : Option Char := none
  /-- The ends of the blank lines behind it, the last one first. -/
  blankLines : List Char := []
  /-- Whether the last line begins with white space. -/
  ledBySpace : Bool := false
  deriving DecidableEq, Repr, Inhabited

namespace Lines

/-- The text with the ends of all lines, the last character first. -/
def whole (l : Lines) : List Char := l.blankLines ++ (l.lineEnd.toList ++ l.text)

/-- The lines with the first character of one more. -/
def start (l : Lines) (folded : Bool) (c : Char) : Lines :=
  let joined :=
    if folded && l.lineEnd = some '\n' && !l.ledBySpace && !isSpace c then
      if l.blankLines.isEmpty then ' ' :: l.text else l.blankLines ++ l.text
    else l.whole
  { text := c :: joined, ledBySpace := isSpace c }

/-- The text, its last character first. -/
def close (l : Lines) : Ending → List Char
  | .strip => l.text
  | .clip => l.lineEnd.toList ++ l.text
  | .keep => l.whole

end Lines

/-- Goes on with text of whole lines. `inLine` says whether a line has begun. -/
def readLines (folded : Bool) (indent : Nat) (inLine : Bool) (l : Lines) (m : Mark) :
    List Char → Option (Lines × Cursor)
  | [] => some (l, ⟨m, []⟩)
  | c :: cs =>
    if inLine then
      if isBreak c then readLines folded indent false { l with lineEnd := some c } (m.past c) cs
      else readLines folded indent true { l with text := c :: l.text } (m.past c) cs
    else if isBreak c then
      readLines folded indent false { l with blankLines := c :: l.blankLines } (m.past c) cs
    else if m.column < indent then
      if c = ' ' then readLines folded indent false l (m.past c) cs
      else if c = '\t' then none
      else some (l, ⟨m, c :: cs⟩)
    else readLines folded indent true (l.start folded c) (m.past c) cs

/-- Reads text of whole lines from behind the character that opens its header.
    `margin` is the least column inside the collection that the text belongs to. -/
def readPassage (folded : Bool) (margin : Nat) (start : Cursor) : Option (List Char × Cursor) :=
  match Header.ofLine? start.line with
  | none => none
  | some header =>
    let start := start.nextLine
    let indent := header.depth.map (margin - 1 + ·)
    match readIndent indent 0 [] start.mark start.rest with
    | none => none
    | some (deepest, breaks, first) =>
      let indent := indent.getD (max deepest (max margin 1))
      match readLines folded indent false { blankLines := breaks } first.mark first.rest with
      | none => none
      | some (l, after) => some ((l.close header.ending).reverse, after)

end NoteTape.Document
