/-
  NoteTape.Document.Property

  What may stand in front of a value: an anchor, by which other places refer to
  the value, and a tag, which names its kind. A tag is written in full between
  angle brackets, or as a handle, for which a document may declare what it stands
  for, and a suffix.
-/

import NoteTape.Document.Quoted

namespace NoteTape.Document

/-- The characters that may follow the name of an anchor at once. -/
def nameEnds : List Char := ['?', ':', ',', ']', '}', '%', '@', '\u0060']

/-- The name of an anchor, from behind the character that announces it. -/
def anchorName? (cs : List Char) : Option (List Char) :=
  let name := cs.takeWhile isNameChar
  let rest := cs.drop name.length
  if !name.isEmpty && (atSpace rest || nameEnds.contains (rest.headD ' ')) then some name
  else none

/-! ## Tags -/

/-- A tag, as it is written. -/
structure Tag where
  /-- The handle with the exclamation marks around it, or nothing. -/
  handle : List Char
  suffix : List Char
  deriving DecidableEq, Repr, Inhabited

/-- Whether the suffix of a tag may contain a character. -/
def isTagChar (c : Char) : Bool :=
  isNameChar c || [';', '/', '?', ':', '@', '&', '=', '+', '$', '.', '%', '!', '~', '*', '\'', '(',
    ')'].contains c

/-- Whether a tag in full may contain a character. -/
def isFullTagChar (c : Char) : Bool := isTagChar c || c = ',' || c = '[' || c = ']'

/-- The bytes that the characters of a tag stand for: two hexadecimal digits behind
    a percent sign for the byte they give. -/
def tagBytes? : List Char → Option (List UInt8)
  | [] => some []
  | '%' :: a :: b :: cs =>
    match ofHex? [a, b], tagBytes? cs with
    | some byte, some bytes => some (UInt8.ofNat byte :: bytes)
    | _, _ => none
  | c :: cs => if c = '%' then none else (tagBytes? cs).map (UInt8.ofNat c.toNat :: ·)

/-- What the characters of a tag stand for. -/
def tagText? (cs : List Char) : Option (List Char) := do
  let bytes ← tagBytes? cs
  let text ← String.fromUTF8? ⟨bytes.toArray⟩
  some text.toList

/-- A tag in full and its length, from behind the bracket that opens it. -/
def fullTag? (cs : List Char) : Option (Tag × Nat) :=
  let name := cs.takeWhile isFullTagChar
  if !name.isEmpty && (cs.drop name.length).head? = some '>' then
    (tagText? name).map ({ handle := [], suffix := · }, name.length + 1)
  else none

/-- A tag with a handle and its length, from behind its exclamation mark. -/
def shortTag? (cs : List Char) : Option (Tag × Nat) :=
  let word := cs.takeWhile isNameChar
  match cs.drop word.length with
  | '!' :: rest =>
    let suffix := rest.takeWhile isTagChar
    if suffix.isEmpty then none
    else (tagText? suffix).map
      ({ handle := '!' :: (word ++ ['!']), suffix := · }, word.length + 1 + suffix.length)
  | _ =>
    let suffix := cs.takeWhile isTagChar
    if suffix.isEmpty then some ({ handle := [], suffix := ['!'] }, 0)
    else (tagText? suffix).map ({ handle := ['!'], suffix := · }, suffix.length)

/-- A tag and its length, from behind its exclamation mark. -/
def tag? (inFlow : Bool) (cs : List Char) : Option (Tag × Nat) :=
  let found := match cs with
    | '<' :: cs => (fullTag? cs).map fun (tag, length) => (tag, length + 1)
    | cs => shortTag? cs
  match found with
  | none => none
  | some (tag, length) =>
    let rest := cs.drop length
    if atSpace rest || (inFlow && rest.head? = some ',') then some (tag, length) else none

end NoteTape.Document
