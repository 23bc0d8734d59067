/-
  NoteTape.Document.Plain

  Plain text, which has no quotes. It ends at a colon before white space, at a
  comment behind white space, at a marker, inside a collection with brackets at
  their punctuation, and elsewhere where a line is indented too little.
-/

import NoteTape.Document.Gap
import NoteTape.Document.Mark

namespace NoteTape.Document

/-- The punctuation of collections with brackets. -/
def flowIndicators : List Char := [',', '[', ']', '{', '}']

/-- The characters that plain text begins with only where more of it follows, or
    not at all. -/
def indicators : List Char :=
  ['-', '?', ':', '#', '&', '*', '!', '|', '>', '\'', '"', '%', '@', '\u0060'] ++ flowIndicators

/-- Where plain text stands. -/
structure Place where
  /-- Whether brackets are open. -/
  inFlow : Bool
  /-- The least column that belongs to the text outside of brackets. -/
  margin : Nat
  deriving DecidableEq, Repr, Inhabited

namespace Place

/-- Whether plain text can begin with the characters ahead. -/
def startsPlain (p : Place) : List Char → Bool
  | [] => false
  | c :: cs =>
    if isSpace c || isBreak c then false
    else if c = '-' then !atSpace cs
    else if c = '?' || c = ':' then !p.inFlow && !atSpace cs
    else !indicators.contains c

/-- Whether plain text that a gap follows is over before the characters ahead. -/
def endsBehind (p : Place) (g : Gap) (m : Mark) (cs : List Char) : Bool :=
  !g.isEmpty && ((!p.inFlow && m.column < p.margin) || cs.head? = some '#')
    || (m.column = 0 && g.crossesLine && atMarker cs)

/-- Whether a word of plain text ends before the characters ahead. -/
def endsWord (p : Place) : List Char → Bool
  | [] => true
  | c :: cs => (c = ':' && atSpace cs) || (p.inFlow && flowIndicators.contains c)

/-- Whether a colon is ahead that may not stand where it stands: inside brackets
    it is not followed by their punctuation. -/
def atBadColon (p : Place) : List Char → Bool
  | ':' :: c :: _ => p.inFlow && (c = '?' || flowIndicators.contains c)
  | _ => false

end Place

/-- Plain text and what follows it. -/
structure PlainText where
  text : List Char
  /-- Whether a line end was read behind the text. -/
  crossesLine : Bool
  after : Cursor
  deriving DecidableEq, Repr, Inhabited

/-- Goes on with plain text of which a part was read, its last character first,
    and then a gap. A tab may not indent a line that belongs to it. -/
def readPlain (p : Place) (read : List Char) (gap : Gap) (m : Mark) :
    List Char → Option PlainText
  | [] => some { text := read.reverse, crossesLine := gap.crossesLine, after := ⟨m, []⟩ }
  | c :: cs =>
    if isSpace c || isBreak c then
      if c = '\t' && gap.crossesLine && m.column < p.margin then none
      else readPlain p read (gap.put c) (m.past c) cs
    else if p.endsBehind gap m (c :: cs) then
      some { text := read.reverse, crossesLine := gap.crossesLine, after := ⟨m, c :: cs⟩ }
    else if p.atBadColon (c :: cs) then none
    else if p.endsWord (c :: cs) then
      some { text := read.reverse, crossesLine := gap.crossesLine, after := ⟨m, c :: cs⟩ }
    else readPlain p (c :: gap.behind read) {} (m.past c) cs

end NoteTape.Document
