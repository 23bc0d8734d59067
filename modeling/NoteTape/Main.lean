/-
  NoteTape.Main

  The executable. It finds the files, feeds standard input to the loop of the
  command as the program asks for it, and carries out what happens on the
  console; everything else is decided by the command.
-/

import NoteTape.Command.Basic

namespace NoteTape.Main

open Command

/-- The contents of a file, or why they cannot be read. -/
def readFile (path : String) : IO (Except DeviceError (List UInt8)) := do
  try
    let bytes ← IO.FS.readBinFile path
    return .ok bytes.toList
  catch
    | .noFileOrDirectory _ _ _ => return .error .notFound
    | e => return .error ⟨.other, toString e⟩

/-- The contents of the settings file in the home directory, if there is one. -/
def readSettings : IO (Option (List UInt8)) := do
  match ← IO.getEnv "HOME" with
  | none => return none
  | some home => return (← readFile s!"{home}/.bebop/config.yaml").toOption

/-- Writes bytes to standard output at once. -/
def deliver (bytes : List UInt8) : IO Unit := do
  let stdout ← IO.getStdout
  stdout.write ⟨bytes.toArray⟩
  stdout.flush

/-- Carries out the deliveries in the log of a console and empties the log. -/
def carryOut (c : Console) : IO Console := do
  for effect in c.log do
    unless effect.bytesDelivered.isEmpty do deliver effect.bytesDelivered
  return { c with log := #[] }

/-- Reads one byte from standard input; nothing at its end. -/
def readByte : IO (List UInt8) := do
  return (← (← IO.getStdin).read 1).toList

/-- Reads one line from standard input behind what was read of it. -/
partial def readLineOn (line : Array UInt8) : IO (List UInt8) := do
  match ← readByte with
  | [] => return line.toList
  | byte :: _ =>
    let line := line.push byte
    if byte = newline then return line.toList else readLineOn line

/-- Delivers the output, shows the prompt, and waits for a unit of input. -/
def awaitInput (c : Console) : IO Console := do
  let c ← carryOut c.flush
  match c.keyboard with
  | .lines _ prompt =>
    let stderr ← IO.getStderr
    stderr.putStr prompt
    stderr.flush
    return { c with keyboard := c.keyboard.receive (.data (← readLineOn #[])) }
  | .bytes _ => return { c with keyboard := c.keyboard.receive (.data (← readByte)) }

/-- Runs a program to its end. -/
partial def loop (r : Prepared) (m : Machine) (c : Console) : IO (Ending × Console) := do
  let asked := !limitReached r.limit m && readsNext r.program m
  let c ← if asked then awaitInput c else pure c
  match round r.limit r.program r.map m c with
  | .more m c => loop r m (← carryOut c)
  | .over ending _ c => return (ending, ← carryOut c.flush)

/-- Prints an outcome and gives its code. -/
def report (o : Outcome) : IO UInt32 := do
  deliver o.stdout
  (← IO.getStderr).putStr o.stderr
  return UInt32.ofNat o.code

/-- Runs a program and reports how it ended. -/
def runPrepared (r : Prepared) : IO UInt32 := do
  let (ending, c) ← loop r .fresh (r.console [])
  report (Prepared.outcome ending c)

/-- Does what the arguments ask for. -/
def run (arguments : List String) : IO UInt32 := do
  match CommandLine.Request.ofArguments arguments with
  | .error (.misuse m) => report { Outcome.ofStop (.misuse m) with stderr := m.message ++ "\n" }
  | .error stop => report (.ofStop stop)
  | .ok request =>
    let settings := Settings.loadOrStandard (← readSettings)
    match prepare request settings (← readFile request.file) with
    | .error outcome => report outcome
    | .ok prepared => runPrepared prepared

end NoteTape.Main

def main (arguments : List String) : IO UInt32 := NoteTape.Main.run arguments
