/-
  NoteTape.CommandLine.Request

  What a command line asks for. The arguments are read from left to right. An
  item is looked at when the next one is recognised or the arguments end, so an
  argument that cannot be recognised at all comes before a bad value of the item
  in front of it.
-/

import NoteTape.CommandLine.Usage

namespace NoteTape.CommandLine

/-- What a command line asks for: a file, and what is to be done with it. -/
structure Request where
  file : String
  choices : Choices
  emit : Bool
  listTracks : Bool
  maxSteps : Option Nat
  deriving DecidableEq, Repr

/-- A request of which not all arguments are read. -/
structure Draft where
  file : Option String := none
  choices : Choices := {}
  emit : Bool := false
  listTracks : Bool := false
  maxSteps : Option Nat := none
  deriving DecidableEq, Repr, Inhabited

/-- Why reading arguments stops before their end. -/
inductive Stop where
  /-- The version is asked for. -/
  | version
  | misuse (m : Misuse)
  deriving DecidableEq, Repr, Inhabited

/-! ## Values -/

/-- The number a value gives. -/
def numberOf (parameter : Parameter) (value : String) : Except Misuse Nat :=
  match Text.readNumber value.toList with
  | .ok n => .ok n
  | .error fault => .error (.invalidValue value parameter fault.message)

/-- The scale a value names. -/
def scaleOf (value : String) : Except Misuse Scale :=
  match Scale.ofText? value with
  | some scale => .ok scale
  | none => .error (.invalidValue value .scale (Scale.unknown value))

/-- What is said of a text that names no input mode. -/
def unknownMode (lowered : String) : String :=
  s!"unknown input mode '{lowered}' (expected line or stream)"

/-- The input mode a value names, whatever the case of its ASCII letters. -/
def inputModeOf (value : String) : Except Misuse InputMode :=
  let lowered := value.map Char.toLower
  match InputMode.all.find? fun m => m.name = lowered with
  | some mode => .ok mode
  | none => .error (.invalidValue value .inputMode (unknownMode lowered))

namespace Draft

/-- Whether a parameter was given. -/
def has (d : Draft) : Parameter → Bool
  | .track => d.choices.track.isSome
  | .scale => d.choices.scale.isSome
  | .inputMode => d.choices.inputMode.isSome
  | .maxSteps => d.maxSteps.isSome

/-- The draft with a value for a parameter that was not given before. -/
def set (d : Draft) (parameter : Parameter) (value : String) : Except Misuse Draft :=
  if d.has parameter then .error (.repeated parameter.shown)
  else match parameter with
    | .track => (numberOf .track value).map fun n =>
      { d with choices := { d.choices with track := some n } }
    | .scale => (scaleOf value).map fun s =>
      { d with choices := { d.choices with scale := some s } }
    | .inputMode => (inputModeOf value).map fun m =>
      { d with choices := { d.choices with inputMode := some m } }
    | .maxSteps => (numberOf .maxSteps value).map fun n => { d with maxSteps := some n }

/-- The draft with a switch that was not given before. -/
def turnOn (d : Draft) : Switch → Except Misuse Draft
  | .emit => if d.emit then .error (.repeated Switch.emit.shown) else .ok { d with emit := true }
  | .listTracks =>
    if d.listTracks then .error (.repeated Switch.listTracks.shown)
    else .ok { d with listTracks := true }

/-- The request, if there is a file. -/
def complete (d : Draft) : Except Misuse Request :=
  match d.file with
  | some file => .ok
    { file, choices := d.choices, emit := d.emit, listTracks := d.listTracks,
      maxSteps := d.maxSteps }
  | none => .error .missingFile

end Draft

/-! ## Arguments -/

/-- Something recognised and not yet looked at. -/
inductive Item where
  | file (path : String)
  /-- A parameter, with the argument behind it if that was read. -/
  | parameter (p : Parameter) (value : Option String)
  deriving DecidableEq, Repr, Inhabited

/-- How far the arguments are read. -/
structure Reading where
  draft : Draft := {}
  waiting : Option Item := none
  /-- Whether two hyphens ended the options. -/
  optionsEnded : Bool := false
  deriving Inhabited

namespace Reading

/-- The draft with the item that is waiting. -/
def settle (r : Reading) : Except Misuse Draft :=
  match r.waiting with
  | none => .ok r.draft
  | some (.file "") => .error (.missingValue fileShown)
  | some (.file path) => .ok { r.draft with file := some path }
  | some (.parameter p none) => .error (.missingValue p.shown)
  | some (.parameter p (some value)) => r.draft.set p value

/-- Looks at the item that is waiting and goes on with another. -/
def await (r : Reading) (item : Item) : Except Misuse Reading :=
  r.settle.map fun draft => { r with draft, waiting := some item }

/-- Looks at the item that is waiting and then changes the draft. -/
def update (r : Reading) (change : Draft → Except Misuse Draft) : Except Misuse Reading :=
  match r.settle with
  | .error m => .error m
  | .ok draft => (change draft).map fun draft => { r with draft, waiting := none }

/-- Whether a file was given. -/
def hasFile (r : Reading) : Bool :=
  r.draft.file.isSome || match r.waiting with
    | some (.file _) => true
    | _ => false

/-- Reads an argument that is no option. -/
def readFile (r : Reading) (argument : String) : Except Misuse Reading :=
  if r.hasFile then .error (.unexpected argument) else r.await (.file argument)

/-- Reads a parameter, with the value attached to it if there is one. -/
def readParameter (r : Reading) (p : Parameter) (attached : Option String) :
    Except Misuse Reading :=
  match attached with
  | some value => r.update fun draft => draft.set p value
  | none => r.await (.parameter p none)

/-- The version is asked for; the item that is waiting is looked at first. -/
def askVersion (r : Reading) : Stop :=
  match r.settle with
  | .ok _ => .version
  | .error m => .misuse m

/-- Reads what stands behind two hyphens: a word, and a value behind an equals
    sign. -/
def readWord (r : Reading) (cs : List Char) : Except Stop Reading :=
  let word := String.ofList (cs.takeWhile (· ≠ '='))
  let attached := match cs.dropWhile (· ≠ '=') with
    | [] => none
    | _ :: value => some (String.ofList value)
  match Parameter.all.find? fun p => p.word = word with
  | some p => (r.readParameter p attached).mapError .misuse
  | none =>
    match Switch.all.find? fun s => s.word = word, attached with
    | some s, none => (r.update fun draft => draft.turnOn s).mapError .misuse
    | some s, some value => .error (.misuse (.unneededValue value s.shown))
    | none, attached =>
      if word = versionWord then
        match attached with
        | none => .error r.askVersion
        | some value => .error (.misuse (.unneededValue value s!"--{versionWord}"))
      else .error (.misuse (.unexpected s!"--{word}"))

/-- Reads what stands behind one hyphen: a letter, and a value right behind it or
    behind an equals sign. -/
def readLetter (r : Reading) (letter : Char) (cs : List Char) : Except Stop Reading :=
  let attached := match cs with
    | [] => none
    | '=' :: value => some (String.ofList value)
    | value => some (String.ofList value)
  match Parameter.all.find? fun p => p.letter? = some letter with
  | some p => (r.readParameter p attached).mapError .misuse
  | none =>
    if letter = versionLetter then .error r.askVersion
    else .error (.misuse (.unexpected s!"-{letter}"))

/-- Reads one argument. -/
def readArgument (r : Reading) (argument : String) : Except Stop Reading :=
  if r.optionsEnded then (r.readFile argument).mapError .misuse
  else match argument.toList with
    | ['-', '-'] => .ok { r with optionsEnded := true }
    | '-' :: '-' :: cs => r.readWord cs
    | '-' :: letter :: cs => r.readLetter letter cs
    | _ =>
      match r.waiting with
      | some (.parameter p none) =>
        .ok { r with waiting := some (.parameter p (some argument)) }
      | _ => (r.readFile argument).mapError .misuse

end Reading

/-- Reads the arguments of a command line. -/
def Request.ofArguments (arguments : List String) : Except Stop Request := do
  let r ← arguments.foldlM Reading.readArgument {}
  let draft ← r.settle.mapError .misuse
  draft.complete.mapError .misuse

end NoteTape.CommandLine
