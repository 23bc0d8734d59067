/-
  NoteTape.Document.Layout

  A document of which a part is split into tokens. Which collections without
  brackets are open follows from the columns they began in; which keys are still
  possible, from the places where something began that a colon may follow.

    * `Layout.mayBeKey` — notes that a key may begin here.
    * `Layout.dropKey`, `Layout.dropOldKey` — gives such a place up.
    * `Layout.openBlock`, `Layout.closeBlocks` — follow the indentation.

  A key ends on the line where it begins and takes up 1024 bytes at most. Where
  nothing but a key can stand, giving it up is a fault.
-/

import NoteTape.Document.Plain
import NoteTape.Document.Token

namespace NoteTape.Document

/-- The most bytes of a key that no question mark announces. -/
def longestKey : Nat := 1024

/-- A place where a key may have begun. -/
structure Candidate where
  /-- The number of tokens in front of it. -/
  position : Nat
  mark : Mark
  /-- Whether nothing but a key can stand there. -/
  required : Bool
  deriving DecidableEq, Repr, Inhabited

/-- Whether a key may go on up to a place. -/
def Candidate.reaches (k : Candidate) (m : Mark) : Bool :=
  k.mark.line = m.line && m.index ≤ k.mark.index + longestKey

/-- A document of which a part is split into tokens. -/
structure Layout extends Cursor where
  tokens : Array Token := #[]
  /-- The columns of the open collections without brackets, the innermost first. -/
  indents : List Nat := []
  /-- Where a key may have begun inside the innermost brackets. -/
  key : Option Candidate := none
  /-- The same for the brackets around them, the innermost first, and last for what
      is outside of brackets. -/
  outer : List (Option Candidate) := []
  /-- Whether a key may begin at the next token. -/
  keyAllowed : Bool := true
  deriving Repr, Inhabited

namespace Layout

/-- Whether brackets are open. -/
def inFlow (l : Layout) : Bool := !l.outer.isEmpty

/-- The least column inside the innermost collection without brackets. -/
def margin (l : Layout) : Nat :=
  match l.indents with
  | [] => 0
  | column :: _ => column + 1

/-- Where plain text stands. -/
def place (l : Layout) : Place := { inFlow := l.inFlow, margin := l.margin }

/-- The layout with one more token, behind which the text goes on at a cursor. -/
def push (l : Layout) (t : Token) (after : Cursor) : Layout :=
  { l with toCursor := after, tokens := l.tokens.push t }

/-! ## Keys -/

/-- Gives up that a key began inside the innermost brackets. -/
def dropKey (l : Layout) : Option Layout :=
  if l.key.any Candidate.required then none else some { l with key := none }

/-- Notes that a key may begin here, if one may begin at all. -/
def mayBeKey (l : Layout) : Option Layout :=
  if l.keyAllowed then
    l.dropKey.map fun l =>
      { l with
        key := some
          { position := l.tokens.size, mark := l.mark
            required := !l.inFlow && l.indents.head? = some l.mark.column } }
  else some l

/-- Gives up a key that can no longer end. One outside of the innermost brackets is
    looked at when they are closed. -/
def dropOldKey (l : Layout) : Option Layout :=
  if l.key.all (·.reaches l.mark) then some l else l.dropKey

/-! ## Indentation -/

/-- Opens a collection without brackets in a column, unless one is open there. Its
    first token goes to a place among the tokens. -/
def openBlock (l : Layout) (column position : Nat) (t : Token) : Layout :=
  if l.inFlow || column < l.margin then l
  else
    { l with
      indents := column :: l.indents
      tokens := l.tokens.insertIdxIfInBounds position t }

/-- The layout with collections without brackets closed down to some. -/
def closeTo (l : Layout) (indents : List Nat) : Layout :=
  let ended := l.indents.length - indents.length
  { l with indents, tokens := l.tokens ++ Array.replicate ended Token.blockEnd }

/-- Closes the collections without brackets that began behind a column. -/
def closeBlocks (l : Layout) (column : Nat) : Layout :=
  if l.inFlow then l else l.closeTo (l.indents.dropWhile (column < ·))

/-- Closes all collections without brackets, where no brackets are open. -/
def closeAll (l : Layout) : Layout := if l.inFlow then l else l.closeTo []

/-! ## White space -/

/-- Skips white space and comments. Tabs are white space inside brackets and where
    no key may begin. Outside of brackets a key may begin on every new line. Returns
    whether one may begin at what follows. -/
def skipSpace (inFlow keyAllowed inComment : Bool) (m : Mark) : List Char → Bool × Cursor
  | [] => (keyAllowed, ⟨m, []⟩)
  | c :: cs =>
    if isBreak c then skipSpace inFlow (keyAllowed || !inFlow) false (m.past c) cs
    else if inComment then skipSpace inFlow keyAllowed true (m.past c) cs
    else if c = ' ' || (c = '\t' && (inFlow || !keyAllowed))
        || (c = '\ufeff' && m.column = 0) then
      skipSpace inFlow keyAllowed false (m.past c) cs
    else if c = '#' then skipSpace inFlow keyAllowed true (m.past c) cs
    else (keyAllowed, ⟨m, c :: cs⟩)

/-- Goes on to the next token: skips white space, gives up a key that can no longer
    end, and closes the collections that a lesser indentation ends. -/
def settle (l : Layout) : Option Layout :=
  let (keyAllowed, after) := skipSpace l.inFlow l.keyAllowed false l.mark l.rest
  let settled : Layout := { l with toCursor := after, keyAllowed }
  settled.dropOldKey.map fun l => l.closeBlocks l.mark.column

end Layout

end NoteTape.Document
