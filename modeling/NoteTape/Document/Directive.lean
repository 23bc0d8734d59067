/-
  NoteTape.Document.Directive

  The lines in front of a document that begin with a percent sign: one may give
  the version of the format, the others say what handles of tags stand for.
-/

import NoteTape.Document.Token

namespace NoteTape.Document.Directive

/-- The most digits of a number in a version. -/
def longestNumber : Nat := 9

/-- Reads a number of a version. -/
def readNumber (cs : List Char) : Option (Nat × List Char) :=
  let digits := cs.takeWhile Char.isDigit
  if digits.isEmpty || longestNumber < digits.length then none
  else some (digits.foldl (fun n c => n * 10 + (c.toNat - '0'.toNat)) 0, cs.drop digits.length)

/-- Reads a version: two numbers and a point between them. -/
def readVersion (cs : List Char) : Option (Directive × List Char) :=
  match readNumber cs with
  | some (major, '.' :: cs) => (readNumber cs).map fun (minor, rest) => (version major minor, rest)
  | _ => none

/-- Reads a handle: an exclamation mark, or a word between two of them. -/
def readHandle : List Char → Option (List Char × List Char)
  | '!' :: cs =>
    let word := cs.takeWhile isNameChar
    match cs.drop word.length with
    | '!' :: rest => some ('!' :: (word ++ ['!']), rest)
    | rest => if word.isEmpty then some (['!'], rest) else none
  | _ => none

/-- Reads a handle and what it stands for. -/
def readMeaning (cs : List Char) : Option (Directive × List Char) :=
  match readHandle cs with
  | none => none
  | some (name, rest) =>
    let word := (rest.dropWhile isSpace).takeWhile isFullTagChar
    let behind := (rest.dropWhile isSpace).drop word.length
    if rest.head?.any isSpace && !word.isEmpty && atSpace behind then
      (tagText? word).map (handle name ·, behind)
    else none

/-- Reads a directive from behind its percent sign, which takes up all of a line
    except for a comment. -/
def ofLine? (line : List Char) : Option Directive :=
  let name := line.takeWhile isNameChar
  let rest := line.drop name.length
  let read := match String.ofList name with
    | "YAML" => readVersion (rest.dropWhile isSpace)
    | "TAG" => readMeaning (rest.dropWhile isSpace)
    | _ => none
  match read with
  | some (d, behind) => if atSpace rest && endsLine behind then some d else none
  | none => none

end NoteTape.Document.Directive
