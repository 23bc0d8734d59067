/-
  NoteTape.Device.Basic

  What a machine is wired to. A `Source` gives one unit of input at a time, or
  says that none is available; a `Sink` takes bytes and can be flushed. A
  `Device` is both at once, and `Wired` makes one of a source and a sink that
  know nothing of each other. Every operation also returns the state it leaves.
-/

import NoteTape.Device.Error

namespace NoteTape

/-- Something that input is read from. -/
class Source (σ : Type) where
  /-- One unit of input; none says that no input is available now. -/
  read : σ → Except DeviceError (Option UInt8) × σ

/-- Something that bytes are written to. -/
class Sink (κ : Type) where
  /-- Writes all the given bytes, unless the sink refuses on the way. -/
  writeAll : List UInt8 → κ → Except DeviceError Unit × κ
  /-- Sends on what was written so far. -/
  flush : κ → Except DeviceError Unit × κ

/-- What a machine reads from and writes to. -/
class Device (δ : Type) where
  /-- One unit of input; none says that no input is available now. -/
  read : δ → Except DeviceError (Option UInt8) × δ
  /-- Writes one byte. -/
  write : UInt8 → δ → Except DeviceError Unit × δ
  /-- Sends on what was written so far. -/
  flush : δ → Except DeviceError Unit × δ

/-- A source and a sink beside each other. -/
structure Wired (σ κ : Type) where
  source : σ
  sink : κ

variable {σ κ : Type}

instance [Source σ] [Sink κ] : Device (Wired σ κ) where
  read d :=
    let (answer, source) := Source.read d.source
    (answer, { d with source })
  write byte d :=
    let (answer, sink) := Sink.writeAll [byte] d.sink
    (answer, { d with sink })
  flush d :=
    let (answer, sink) := Sink.flush d.sink
    (answer, { d with sink })

end NoteTape
