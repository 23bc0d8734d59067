/-
  NoteTape.Device.Reads

  A source read several times, and a source that counts how often it was read.
-/

import NoteTape.Device.Basic

namespace NoteTape

variable {σ : Type} [Source σ]

/-- The answers of so many reads, and the source they leave. -/
def Source.reads : Nat → σ → List (Except DeviceError (Option UInt8)) × σ
  | 0, s => ([], s)
  | n + 1, s =>
    let (answer, s) := Source.read s
    let (answers, s) := reads n s
    (answer :: answers, s)

/-- A source and how often it was read, reads without an answer included. -/
structure Counted (σ : Type) where
  source : σ
  reads : Nat := 0

instance : Source (Counted σ) where
  read c :=
    let (answer, source) := Source.read c.source
    (answer, { source, reads := c.reads + 1 })

end NoteTape
