/-
  NoteTape.Document.Value

  The values of a document. Of a collection inside a collection only its place
  matters here, so that a document is read as the entries of one mapping.
-/

import NoteTape.Document.Token

namespace NoteTape.Document

/-- A text with what is known of its kind. -/
structure Scalar where
  style : Style := .plain
  /-- What its tag stands for. -/
  tag : Option (List Char) := none
  text : List Char := []
  deriving DecidableEq, Repr, Inhabited

/-- A value inside a collection. -/
inductive Value where
  | scalar (s : Scalar)
  | collection
  deriving DecidableEq, Repr, Inhabited

namespace Value

/-- What stands where nothing is written. -/
def empty : Value := .scalar {}

/-- Plain text. -/
def plain (text : List Char) : Value := .scalar { text }

/-- Quoted text. -/
def quoted (text : List Char) : Value := .scalar { style := .quoted, text }

/-- The text of a scalar. -/
def text? : Value → Option (List Char)
  | .scalar s => some s.text
  | .collection => none

end Value

/-- A key and its value. -/
abbrev Entry := Value × Value

/-- A value with the entries of a mapping. -/
inductive Node where
  | scalar (s : Scalar)
  | sequence
  | mapping (entries : List Entry)
  deriving DecidableEq, Repr, Inhabited

namespace Node

/-- A node as a value inside a collection. -/
def value : Node → Value
  | .scalar s => .scalar s
  | .sequence | .mapping _ => .collection

/-- The entries of a mapping. Where nothing is written there are none. -/
def entries? : Node → Option (List Entry)
  | .mapping entries => some entries
  | .scalar s => if s.style = .plain ∧ s.text = [] then some [] else none
  | .sequence => none

end Node

end NoteTape.Document
