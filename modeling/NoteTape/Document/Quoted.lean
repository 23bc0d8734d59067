/-
  NoteTape.Document.Quoted

  Quoted text, which goes on over lines up to the closing quote. In single quotes
  only the quote itself is special, and is written twice; in double quotes a
  backslash begins an escape sequence.
-/

import NoteTape.Document.Gap
import NoteTape.Document.Mark

namespace NoteTape.Document

/-- Goes on with single-quoted text of which a part was read, its last character
    first, and then a gap. -/
def readSingle (read : List Char) (gap : Gap) (m : Mark) :
    List Char → Option (List Char × Cursor)
  | [] => none
  | '\'' :: '\'' :: cs => readSingle ('\'' :: gap.behind read) {} (m.pastAll ['\'', '\'']) cs
  | '\'' :: cs => some ((gap.behind read).reverse, ⟨m.past '\'', cs⟩)
  | c :: cs =>
    if isSpace c || isBreak c then readSingle read (gap.put c) (m.past c) cs
    else if m.column = 0 && atMarker (c :: cs) then none
    else readSingle (c :: gap.behind read) {} (m.past c) cs

/-! ## Escape sequences -/

/-- The character that a letter stands for behind a backslash. -/
def escaped? : Char → Option Char
  | '0' => some '\x00'
  | 'a' => some '\x07'
  | 'b' => some '\x08'
  | 't' | '\t' => some '\t'
  | 'n' => some '\n'
  | 'v' => some '\x0b'
  | 'f' => some '\x0c'
  | 'r' => some '\r'
  | 'e' => some '\x1b'
  | ' ' => some ' '
  | '"' => some '"'
  | '/' => some '/'
  | '\\' => some '\\'
  | 'N' => some '\u0085'
  | '_' => some '\u00a0'
  | 'L' => some '\u2028'
  | 'P' => some '\u2029'
  | _ => none

/-- The value of a hexadecimal digit. -/
def hexDigit? (c : Char) : Option Nat :=
  if '0' ≤ c ∧ c ≤ '9' then some (c.toNat - '0'.toNat)
  else if 'a' ≤ c ∧ c ≤ 'f' then some (c.toNat - 'a'.toNat + 10)
  else if 'A' ≤ c ∧ c ≤ 'F' then some (c.toNat - 'A'.toNat + 10)
  else none

/-- The number that hexadecimal digits give. -/
def ofHex? (digits : List Char) : Option Nat := do
  let values ← digits.mapM hexDigit?
  some (values.foldl (fun code digit => code * 16 + digit) 0)

/-- The character whose code point hexadecimal digits give. -/
def charOfHex? (digits : List Char) : Option Char := do
  let code ← ofHex? digits
  if code.isValidChar then some (Char.ofNat code) else none

/-- The number of hexadecimal digits that follow a letter behind a backslash. -/
def hexLength? : Char → Option Nat
  | 'x' => some 2
  | 'u' => some 4
  | 'U' => some 8
  | _ => none

/-- The character that an escape sequence stands for and the length of the
    sequence, from behind its backslash. -/
def escape? : List Char → Option (Char × Nat)
  | [] => none
  | c :: cs =>
    match hexLength? c with
    | some count =>
      let digits := cs.take count
      if digits.length = count then (charOfHex? digits).map (·, count + 1) else none
    | none => (escaped? c).map (·, 1)

/-! ## Double quotes -/

/-- Goes on with double-quoted text of which a part was read, its last character
    first, and then a gap. The first `skipped` characters ahead belong to an
    escape sequence that was read. -/
def readDouble (read : List Char) (gap : Gap) (m : Mark) (skipped : Nat) :
    List Char → Option (List Char × Cursor)
  | [] => none
  | c :: cs =>
    match skipped with
    | skipped + 1 => readDouble read gap (m.past c) skipped cs
    | 0 =>
      if c = '"' then some ((gap.behind read).reverse, ⟨m.past c, cs⟩)
      else if c = '\\' then
        if cs.head?.any isBreak then
          readDouble (gap.behind read) { hidden := true } (m.past c) 1 cs
        else
          match escape? cs with
          | some (d, count) => readDouble (d :: gap.behind read) {} (m.past c) count cs
          | none => none
      else if isSpace c || isBreak c then readDouble read (gap.put c) (m.past c) 0 cs
      else if m.column = 0 && atMarker (c :: cs) then none
      else readDouble (c :: gap.behind read) {} (m.past c) 0 cs

/-- Reads quoted text from behind its opening quote. -/
def readQuoted (quote : Char) (m : Mark) (cs : List Char) : Option (List Char × Cursor) :=
  if quote = '"' then readDouble [] {} m 0 cs else readSingle [] {} m cs

end NoteTape.Document
