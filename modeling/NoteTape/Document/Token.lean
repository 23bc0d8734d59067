/-
  NoteTape.Document.Token

  The tokens of a document. Some have characters of their own; those that open and
  close a collection without brackets come from the indentation, and the one in
  front of a key on a single line from the colon behind the key.
-/

import NoteTape.Document.Property

namespace NoteTape.Document

/-- How a scalar is written. -/
inductive Style where
  | plain
  | quoted
  /-- Text of whole lines that keeps its line ends. -/
  | literal
  /-- Text of whole lines that is folded. -/
  | folded
  deriving DecidableEq, Repr, Inhabited

/-- A line in front of a document that says how the document is to be read. -/
inductive Directive where
  /-- The version of the format. -/
  | version (major minor : Nat)
  /-- What a handle of tags stands for. -/
  | handle (name stem : List Char)
  deriving DecidableEq, Repr, Inhabited

/-- A token of a document. -/
inductive Token where
  | directive (d : Directive)
  | documentStart
  | documentEnd
  /-- Opens a sequence without brackets. -/
  | sequenceStart
  /-- Opens a mapping without braces. -/
  | mappingStart
  /-- Closes a collection without brackets. -/
  | blockEnd
  | bracketOpen
  | bracketClose
  | braceOpen
  | braceClose
  | comma
  /-- The hyphen in front of an entry of a sequence. -/
  | dash
  /-- Begins a key. -/
  | key
  /-- Begins the value behind a key. -/
  | value
  /-- Refers to the value with an anchor. -/
  | reference (name : List Char)
  | anchor (name : List Char)
  | tag (t : Tag)
  | scalar (style : Style) (text : List Char)
  deriving DecidableEq, Repr, Inhabited

end NoteTape.Document
