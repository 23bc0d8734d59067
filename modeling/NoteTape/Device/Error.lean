/-
  NoteTape.Device.Error

  What a device or a file says when it refuses: a kind, on which programs can
  branch, and a message for people.
-/

namespace NoteTape

/-- The kinds of refusal. -/
inductive DeviceErrorKind where
  | invalidData
  | invalidInput
  | notFound
  | interrupted
  | unexpectedEnd
  | brokenPipe
  | wouldBlock
  | writeZero
  | other
  deriving DecidableEq, Repr, Inhabited

/-- The refusal of a device or a file. -/
structure DeviceError where
  kind : DeviceErrorKind
  message : String
  deriving DecidableEq, Repr, Inhabited

/-- A sink took nothing of what was left to write. -/
def DeviceError.writeZero : DeviceError := ⟨.writeZero, "failed to write whole buffer"⟩

/-- There is no such file. -/
def DeviceError.notFound : DeviceError := ⟨.notFound, "No such file or directory (os error 2)"⟩

/-- The contents of a file, where there may be none. -/
def openFile (contents : Option (List UInt8)) : Except DeviceError (List UInt8) :=
  match contents with
  | some bytes => .ok bytes
  | none => .error .notFound

/-- The signal that asks for the same call again. -/
def DeviceError.isInterrupted (e : DeviceError) : Bool := e.kind = .interrupted

end NoteTape
