/-
  NoteTape.Document.Tokens

  The tokens of a text. `Layout.advance` reads one token, which may close and open
  collections in front of it; `tokensOf?` repeats this up to the end of the text.
-/

import NoteTape.Document.Directive
import NoteTape.Document.Layout
import NoteTape.Document.Passage

namespace NoteTape.Document

namespace Layout

/-- Whether a token is outside of brackets where no key may begin. -/
def misplaced (l : Layout) : Bool := !l.inFlow && !l.keyAllowed

/-! ## Markers and directives -/

/-- The layout outside of everything, as it is in front of a document and behind
    it. -/
def leave (l : Layout) : Option Layout :=
  l.closeAll.dropKey.map fun l => { l with keyAllowed := false }

/-- Reads a marker. -/
def readMarker (l : Layout) (t : Token) : Option Layout :=
  l.leave.map fun l => l.push t (l.forward 3)

/-- Reads a directive. -/
def readDirective (l : Layout) : Option Layout :=
  match l.leave, Directive.ofLine? l.line.tail with
  | some l, some d => some (l.push (.directive d) l.nextLine)
  | _, _ => none

/-! ## Brackets and commas -/

/-- Reads an opening bracket. -/
def openFlow (l : Layout) (t : Token) : Option Layout :=
  l.mayBeKey.map fun l =>
    { l with key := none, outer := l.key :: l.outer, keyAllowed := true }.push t (l.forward 1)

/-- The layout outside of the innermost brackets. -/
def leaveFlow (l : Layout) : Layout :=
  match l.outer with
  | [] => l
  | key :: outer => { l with key, outer }

/-- Reads a closing bracket. -/
def closeFlow (l : Layout) (t : Token) : Option Layout :=
  l.dropKey.map fun l => { l.leaveFlow with keyAllowed := false }.push t (l.forward 1)

/-- Reads a comma. -/
def readComma (l : Layout) : Option Layout :=
  l.dropKey.map fun l => { l with keyAllowed := true }.push .comma (l.forward 1)

/-! ## Entries -/

/-- Reads a hyphen in front of an entry. -/
def readDash (l : Layout) : Option Layout :=
  if l.misplaced then none
  else
    (l.openBlock l.mark.column l.tokens.size .sequenceStart).dropKey.map fun l =>
      { l with keyAllowed := true }.push .dash (l.forward 1)

/-- Reads a question mark in front of a key. -/
def readQuestion (l : Layout) : Option Layout :=
  if l.misplaced then none
  else
    (l.openBlock l.mark.column l.tokens.size .mappingStart).dropKey.map fun l =>
      { l with keyAllowed := !l.inFlow }.push .key (l.forward 1)

/-- Puts the token of a key in front of what began where the key began. -/
def insertKey (l : Layout) (k : Candidate) : Layout :=
  { l with tokens := l.tokens.insertIdxIfInBounds k.position .key }

/-- Reads a colon in front of a value. -/
def readColon (l : Layout) : Option Layout :=
  match l.key with
  | some k =>
    let l := (l.insertKey k).openBlock k.mark.column k.position .mappingStart
    some ({ l with key := none, keyAllowed := false }.push .value (l.forward 1))
  | none =>
    if l.misplaced then none
    else
      let l := l.openBlock l.mark.column l.tokens.size .mappingStart
      some ({ l with keyAllowed := !l.inFlow }.push .value (l.forward 1))

/-! ## Values -/

/-- Reads something that a colon may follow: the reader gives a token and where
    the text goes on. -/
def readValue (l : Layout) (read : Option (Token × Cursor)) : Option Layout :=
  match l.mayBeKey, read with
  | some l, some (t, after) => some ({ l with keyAllowed := false }.push t after)
  | _, _ => none

/-- Reads an anchor or a reference to one. -/
def readName (l : Layout) (token : List Char → Token) : Option Layout :=
  l.readValue ((anchorName? l.rest.tail).map fun name =>
    (token name, l.forward (name.length + 1)))

/-- Reads a tag. -/
def readTag (l : Layout) : Option Layout :=
  l.readValue ((tag? l.inFlow l.rest.tail).map fun (t, length) =>
    (.tag t, l.forward (length + 1)))

/-- Reads quoted text. -/
def readQuotes (l : Layout) (quote : Char) : Option Layout :=
  l.readValue ((readQuoted quote (l.mark.past quote) l.rest.tail).map fun (text, after) =>
    (.scalar .quoted text, after))

/-- Reads plain text. A key may begin behind it if it is followed by a line end. -/
def readWords (l : Layout) : Option Layout :=
  match l.mayBeKey, Document.readPlain l.place [] {} l.mark l.rest with
  | some l, some p =>
    some ({ l with keyAllowed := p.crossesLine }.push (.scalar .plain p.text) p.after)
  | _, _ => none

/-- Reads text of whole lines. -/
def readBlock (l : Layout) (style : Style) : Option Layout :=
  if l.inFlow then none
  else
    match l.dropKey, readPassage (style = .folded) l.margin (l.forward 1) with
    | some l, some (text, after) =>
      some ({ l with keyAllowed := true }.push (.scalar style text) after)
    | _, _ => none

/-! ## All tokens -/

/-- Reads the token ahead. -/
def readToken (l : Layout) : Option Layout :=
  if l.mark.column = 0 && l.rest.head? = some '%' then l.readDirective
  else if l.mark.column = 0 && atTriple '-' l.rest then l.readMarker .documentStart
  else if l.mark.column = 0 && atTriple '.' l.rest then l.readMarker .documentEnd
  else if l.place.startsPlain l.rest then l.readWords
  else
    match l.rest with
    | '[' :: _ => l.openFlow .bracketOpen
    | '{' :: _ => l.openFlow .braceOpen
    | ']' :: _ => l.closeFlow .bracketClose
    | '}' :: _ => l.closeFlow .braceClose
    | ',' :: _ => l.readComma
    | '-' :: _ => l.readDash
    | '?' :: _ => l.readQuestion
    | ':' :: _ => l.readColon
    | '*' :: _ => l.readName .reference
    | '&' :: _ => l.readName .anchor
    | '!' :: _ => l.readTag
    | '|' :: _ => l.readBlock .literal
    | '>' :: _ => l.readBlock .folded
    | '\'' :: _ => l.readQuotes '\''
    | '"' :: _ => l.readQuotes '"'
    | _ => none

/-- Reads the tokens that are left, where the text has less than so many
    characters. -/
def readTokens : (limit : Nat) → Layout → Option (Array Token)
  | 0, _ => none
  | limit + 1, l =>
    match l.settle with
    | none => none
    | some l =>
      if l.rest.isEmpty then l.leave.map (·.tokens)
      else
        match l.readToken with
        | none => none
        | some l => readTokens limit l

end Layout

/-- The tokens of a text. -/
def tokensOf? (text : List Char) : Option (List Token) :=
  if text.all isAllowed then
    let start : Layout := { rest := unifyBreaks text }
    (start.readTokens (text.length + 1)).map (·.toList)
  else none

end NoteTape.Document
