/-
  NoteTape.Document.Reader

  The values that tokens give, and the document that a text gives. Every reader
  takes tokens off what is left and returns the rest; a reader that calls itself
  has a limit for the depth of the calls, and `enough` is never reached.

    * `readNode` — a scalar or a collection with what stands in front of it.
    * `readEntries`, `readFlowEntries` — the entries of a mapping.
    * `entriesOf?` — the entries of the mapping that is all of a document.
-/

import NoteTape.Document.Tokens
import NoteTape.Document.Value

namespace NoteTape.Document

/-- What is left of a document, and what is known from the part that was read. -/
structure Input where
  tokens : List Token
  /-- The values with anchors, the last one first. -/
  anchors : List (List Char × Value) := []
  /-- What the handles of tags stand for. -/
  handles : List (List Char × List Char) := []
  deriving Repr, Inhabited

namespace Input

/-- The input behind some of its tokens, of which the rest is left. -/
def past (i : Input) (rest : List Token) : Input := { i with tokens := rest }

/-- The value with an anchor. -/
def named? (i : Input) (name : List Char) : Option Value := i.anchors.lookup name

/-- The input behind a value that may have an anchor. -/
def define (i : Input) (anchor : Option (List Char)) (v : Value) : Input :=
  match anchor with
  | none => i
  | some name => { i with anchors := (name, v) :: i.anchors }

/-- What a tag stands for. -/
def tagOf? (i : Input) (t : Tag) : Option (List Char) :=
  if t.handle.isEmpty then some t.suffix
  else (i.handles.lookup t.handle).map (· ++ t.suffix)

/-- The input behind the comma in front of an entry that is not the first. -/
def separated (first : Bool) (i : Input) : Option Input :=
  if first then some i
  else match i.tokens with
    | .comma :: rest => some (i.past rest)
    | _ => none

end Input

/-! ## Properties -/

/-- What stands in front of a value. -/
structure Properties where
  anchor : Option (List Char) := none
  tag : Option (List Char) := none
  deriving DecidableEq, Repr, Inhabited

namespace Properties

/-- Reads an anchor and a tag, in either order, as far as they are there. -/
def read (i : Input) : Option (Properties × Input) :=
  match i.tokens with
  | .anchor a :: .tag t :: rest => (i.tagOf? t).map fun tag => ({ anchor := a, tag }, i.past rest)
  | .tag t :: .anchor a :: rest => (i.tagOf? t).map fun tag => ({ anchor := a, tag }, i.past rest)
  | .anchor a :: rest => some ({ anchor := a }, i.past rest)
  | .tag t :: rest => (i.tagOf? t).map fun tag => ({ tag }, i.past rest)
  | _ => some ({}, i)

/-- The tag of a scalar that is written. An exclamation mark alone says nothing of
    its kind. -/
def scalarTag (p : Properties) : Option (List Char) :=
  if p.tag = some ['!'] then none else p.tag

/-- The scalar with some properties, and the input behind it. -/
def scalar (p : Properties) (s : Scalar) (i : Input) : Node × Input :=
  (.scalar s, i.define p.anchor (.scalar s))

/-- The properties of a value that is not written. -/
def alone (p : Properties) (i : Input) : Option (Node × Input) :=
  if p.anchor.isNone && p.tag.isNone then none else some (p.scalar { tag := p.tag } i)

end Properties

/-! ## Values -/

/-- What a value is part of. -/
inductive Parent where
  /-- A collection with brackets. -/
  | flow
  /-- A document, or a sequence without brackets. -/
  | block
  /-- A mapping without braces. A sequence inside it need not be indented. -/
  | mapping
  deriving DecidableEq, Repr, Inhabited

/-- The tokens before which nothing is written for an entry without brackets. -/
def blockEnds : List Token := [.key, .value, .blockEnd]

mutual

/-- Reads a value. -/
def readValue : (limit : Nat) → Parent → Input → Option (Value × Input)
  | 0, _, _ => none
  | limit + 1, parent, i =>
    match i.tokens with
    | .reference name :: rest => (i.named? name).map (·, i.past rest)
    | _ => (readNode limit parent i).map fun (node, i) => (node.value, i)

/-- Reads a value, if something is written for it in front of some tokens. -/
def readOptional : (limit : Nat) → Parent → (ends : List Token) → Input → Option (Value × Input)
  | 0, _, _, _ => none
  | limit + 1, parent, ends, i =>
    if i.tokens.head?.any ends.contains then some (.empty, i) else readValue limit parent i

/-- Reads a colon and a value behind it, if there is a colon. -/
def readBehindColon :
    (limit : Nat) → Parent → (ends : List Token) → Input → Option (Value × Input)
  | 0, _, _, _ => none
  | limit + 1, parent, ends, i =>
    match i.tokens with
    | .value :: rest => readOptional limit parent ends (i.past rest)
    | _ => some (.empty, i)

/-- Reads a scalar or a collection with its properties. -/
def readNode : (limit : Nat) → Parent → Input → Option (Node × Input)
  | 0, _, _ => none
  | limit + 1, parent, i =>
    match Properties.read i with
    | none => none
    | some (p, i) =>
      match i.tokens with
      | .scalar style text :: rest =>
        some (p.scalar { style, tag := p.scalarTag, text } (i.past rest))
      | .bracketOpen :: rest =>
        (readFlowItems limit true ((i.past rest).define p.anchor .collection)).map (.sequence, ·)
      | .braceOpen :: rest =>
        (readFlowEntries limit true [] ((i.past rest).define p.anchor .collection)).map
          fun (entries, i) => (.mapping entries, i)
      | .dash :: _ =>
        if parent = .mapping then
          (readItems limit false (i.define p.anchor .collection)).map (.sequence, ·)
        else p.alone i
      | .sequenceStart :: rest =>
        if parent = .flow then p.alone i
        else (readItems limit true ((i.past rest).define p.anchor .collection)).map (.sequence, ·)
      | .mappingStart :: rest =>
        if parent = .flow then p.alone i
        else
          (readEntries limit [] ((i.past rest).define p.anchor .collection)).map
            fun (entries, i) => (.mapping entries, i)
      | _ => p.alone i

/-- Reads the entries of a sequence without brackets. An indented one goes on to
    the token that closes it, another up to the first token that is no hyphen. -/
def readItems : (limit : Nat) → (indented : Bool) → Input → Option Input
  | 0, _, _ => none
  | limit + 1, indented, i =>
    match i.tokens with
    | .dash :: rest =>
      let ends := if indented then [.blockEnd] else blockEnds
      match readOptional limit .block (.dash :: ends) (i.past rest) with
      | none => none
      | some (_, i) => readItems limit indented i
    | .blockEnd :: rest => if indented then some (i.past rest) else some i
    | _ => if indented then none else some i

/-- Reads the entries of a mapping without braces, behind those that were read, the
    last one first. -/
def readEntries : (limit : Nat) → List Entry → Input → Option (List Entry × Input)
  | 0, _, _ => none
  | limit + 1, entries, i =>
    match i.tokens with
    | .blockEnd :: rest => some (entries.reverse, i.past rest)
    | .key :: rest =>
      match readOptional limit .mapping blockEnds (i.past rest) with
      | none => none
      | some (key, i) =>
        match readBehindColon limit .mapping blockEnds i with
        | none => none
        | some (value, i) => readEntries limit ((key, value) :: entries) i
    | _ => none

/-- Reads a key and its value in a sequence with brackets, from behind the token of
    the key. A token in front of which no key is written is skipped. -/
def readPair : (limit : Nat) → Input → Option Input
  | 0, _ => none
  | limit + 1, i =>
    let key := match i.tokens with
      | .value :: rest | .comma :: rest | .bracketClose :: rest => some (Value.empty, i.past rest)
      | _ => readValue limit .flow i
    match key with
    | none => none
    | some (_, i) => (readBehindColon limit .flow [.comma, .bracketClose] i).map fun (_, i) => i

/-- Reads the entries of a sequence with brackets. -/
def readFlowItems : (limit : Nat) → (first : Bool) → Input → Option Input
  | 0, _, _ => none
  | limit + 1, first, i =>
    match i.tokens with
    | .bracketClose :: rest => some (i.past rest)
    | _ =>
      match i.separated first with
      | none => none
      | some i =>
        match i.tokens with
        | .bracketClose :: rest => some (i.past rest)
        | .key :: rest =>
          match readPair limit (i.past rest) with
          | none => none
          | some i => readFlowItems limit false i
        | _ =>
          match readValue limit .flow i with
          | none => none
          | some (_, i) => readFlowItems limit false i

/-- Reads the entries of a mapping in braces, behind those that were read, the last
    one first. -/
def readFlowEntries :
    (limit : Nat) → (first : Bool) → List Entry → Input → Option (List Entry × Input)
  | 0, _, _, _ => none
  | limit + 1, first, entries, i =>
    match i.tokens with
    | .braceClose :: rest => some (entries.reverse, i.past rest)
    | _ =>
      match i.separated first with
      | none => none
      | some i =>
        match i.tokens with
        | .braceClose :: rest => some (entries.reverse, i.past rest)
        | .key :: rest =>
          match readOptional limit .flow [.value, .comma, .braceClose] (i.past rest) with
          | none => none
          | some (key, i) =>
            match readBehindColon limit .flow [.comma, .braceClose] i with
            | none => none
            | some (value, i) => readFlowEntries limit false ((key, value) :: entries) i
        | _ =>
          match readValue limit .flow i with
          | none => none
          | some (key, i) => readFlowEntries limit false ((key, .empty) :: entries) i

end

/-- A limit that is above the depth of the calls for some tokens. -/
def enough (tokens : List Token) : Nat := 4 * tokens.length + 4

/-! ## Documents -/

/-- What handles of tags stand for where a document does not say it. -/
def standardHandles : List (List Char × List Char) :=
  [(['!'], ['!']), (['!', '!'], "tag:yaml.org,2002:".toList)]

/-- Reads the directives in front of a document, behind others of which `handles`
    is known. The version is given once at most, and so is each handle. -/
def readDirectives (versioned : Bool) (handles : List (List Char × List Char)) :
    List Token → Option Input
  | .directive (.version major minor) :: rest =>
    if !versioned && major = 1 && (minor = 1 || minor = 2) then readDirectives true handles rest
    else none
  | .directive (.handle name stem) :: rest =>
    if (handles.lookup name).isSome then none
    else readDirectives versioned ((name, stem) :: handles) rest
  | tokens => some { tokens, handles := handles ++ standardHandles }

/-- Whether a document that a marker opened has nothing in it. -/
def isVoid : List Token → Bool
  | [] | .documentStart :: _ | .documentEnd :: _ | .directive _ :: _ => true
  | _ => false

/-- Reads a document, which a marker opens if directives stand in front of it. -/
def readDocument (tokens : List Token) : Option (Node × Input) :=
  match readDirectives false [] tokens with
  | none => none
  | some i =>
    match i.tokens with
    | .documentStart :: rest =>
      if isVoid rest then some (.scalar {}, i.past rest)
      else readNode (enough rest) .block (i.past rest)
    | rest =>
      if rest.length = tokens.length then readNode (enough rest) .block i else none

/-- The entries of the mapping that is all of a text. Behind the document there can
    only be markers of its end. -/
def entriesOf? (text : List Char) : Option (List Entry) :=
  match tokensOf? text with
  | none => none
  | some [] => some []
  | some tokens =>
    match readDocument tokens with
    | some (node, i) => if i.tokens.all (· = .documentEnd) then node.entries? else none
    | none => none

end NoteTape.Document
