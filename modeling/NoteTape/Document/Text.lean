/-
  NoteTape.Document.Text

  The characters of a document: which may stand in it, which end its lines, and
  what a reader can tell from the characters ahead.

    * `unifyBreaks` — a text in which one character stands for each line end. The
      two separators of Unicode stay as they are, because folding keeps them.
    * `atSpace`, `atMarker` — what is ahead of a reader.
-/

import NoteTape.Text.Range

namespace NoteTape.Document

open Text (within)

/-- Whether a character may stand in a document. -/
def isAllowed (c : Char) : Bool :=
  c = '\t' || c = '\n' || c = '\r' || within 0x20 0x7e c || c = '\u0085' || within 0xa0 0xfffd c
    || 0x10000 ≤ c.toNat

/-- Goes on with a text of which the given part was read, its last character
    first. -/
def unifyBreaksOn (read : List Char) : List Char → List Char
  | [] => read.reverse
  | '\r' :: '\n' :: cs => unifyBreaksOn ('\n' :: read) cs
  | c :: cs => unifyBreaksOn ((if c = '\r' ∨ c = '\u0085' then '\n' else c) :: read) cs

/-- A text with a line feed for each carriage return, line feed, pair of the two,
    and next line character. -/
def unifyBreaks (cs : List Char) : List Char := unifyBreaksOn [] cs

/-- Whether a character ends a line, in a text with unified breaks. -/
def isBreak (c : Char) : Bool := c = '\n' || c = '\u2028' || c = '\u2029'

/-- Whether a character is white space inside a line. -/
def isSpace (c : Char) : Bool := c = ' ' || c = '\t'

/-- Whether names may contain a character. -/
def isNameChar (c : Char) : Bool := c.isAlphanum || c = '_' || c = '-'

/-- Whether white space, a line end or the end of the text is ahead. -/
def atSpace : List Char → Bool
  | [] => true
  | c :: _ => isSpace c || isBreak c

/-- Whether three of a character are ahead and then white space or an end. -/
def atTriple (mark : Char) : List Char → Bool
  | a :: b :: c :: cs => a = mark && b = mark && c = mark && atSpace cs
  | _ => false

/-- Whether a marker is ahead: one that begins a document or one that ends it, if
    this is the beginning of a line. -/
def atMarker (cs : List Char) : Bool := atTriple '-' cs || atTriple '.' cs

/-- Whether the rest of a line is empty except for a comment. -/
def endsLine (line : List Char) : Bool :=
  match line.dropWhile isSpace with
  | [] => true
  | c :: _ => c = '#'

end NoteTape.Document
