/-
  NoteTape.Device.Supply

  The kinds of input source under one type, for callers that learn only at run
  time which one they have.
-/

import NoteTape.Device.Feed
import NoteTape.Device.Outlet
import NoteTape.Device.Store

namespace NoteTape

/-- A source of any kind. -/
inductive Supply where
  | slice (source : Slice)
  | queue (source : Std.Queue UInt8)
  | bytes (source : ByteReader)
  | lines (source : LineReader)
  | prompting (source : PromptingReader Outlet)

namespace Supply

/-- One unit from whichever source it is. -/
def readUnit : Supply → Except DeviceError (Option UInt8) × Supply
  | .slice s => (Source.read s).map id .slice
  | .queue s => (Source.read s).map id .queue
  | .bytes s => (Source.read s).map id .bytes
  | .lines s => (Source.read s).map id .lines
  | .prompting s => (Source.read s).map id .prompting

instance : Source Supply where
  read := readUnit

/-- The bytes of all prompts shown so far. -/
def shown : Supply → Array UInt8
  | .prompting s => s.display.written
  | _ => #[]

end Supply

end NoteTape
