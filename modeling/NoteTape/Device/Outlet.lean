/-
  NoteTape.Device.Outlet

  A sink with every way of being awkward: its first calls are interrupted, it
  takes a few bytes per call, it is full after some bytes, it refuses a flush.
  `Outlet.accept` is one call, `Outlet.writeAll` calls until all is written.
-/

import NoteTape.Device.Basic

namespace NoteTape

/-- A sink that may take less than it is given. -/
structure Outlet where
  /-- The bytes taken so far. -/
  written : Array UInt8 := #[]
  /-- How many calls are still going to be interrupted. -/
  interrupts : Nat := 0
  /-- How many bytes one call takes at most. -/
  perCall : Option Nat := none
  /-- How many bytes are still taken in all. -/
  room : Option Nat := none
  /-- What a full sink answers; where there is no answer it takes no byte. -/
  whenFull : Option DeviceError := none
  /-- What a flush answers, if flushing fails. -/
  onFlush : Option DeviceError := none
  deriving Inhabited

namespace Outlet

/-- The smaller of a number and a bound, where there is a bound. -/
def atMost (bound : Option Nat) (n : Nat) : Nat :=
  match bound with
  | some most => min most n
  | none => n

/-- How many of `n` bytes one call takes, interruptions apart. -/
def accept (o : Outlet) (n : Nat) : Except DeviceError Nat :=
  match o.room, o.whenFull with
  | some 0, some e => .error e
  | room, _ => .ok (atMost o.perCall (atMost room n))

/-- The sink after it took the given bytes. -/
def take (o : Outlet) (bytes : List UInt8) : Outlet :=
  { o with written := o.written ++ bytes, room := o.room.map (· - bytes.length) }

/-- Writes all the given bytes, call by call. A call that is interrupted is made
    again; a call that takes no byte fails. Writing nothing makes no call. -/
def writeAll (bytes : List UInt8) (o : Outlet) : Except DeviceError Unit × Outlet :=
  match bytes, _more : o.interrupts with
  | [], _ => (.ok (), o)
  | first :: rest, n + 1 => writeAll (first :: rest) { o with interrupts := n }
  | first :: rest, 0 =>
    match o.accept (rest.length + 1) with
    | .error e => (.error e, o)
    | .ok 0 => (.error .writeZero, o)
    | .ok (n + 1) => writeAll (rest.drop n) (o.take (first :: rest.take n))
termination_by (o.interrupts, bytes.length)
decreasing_by
  · exact Prod.Lex.left _ _ (by show n < o.interrupts; omega)
  · exact Prod.Lex.right _ (by
      show (rest.drop n).length < (first :: rest).length
      simp only [List.length_drop, List.length_cons]
      omega)

/-- A flush, which is never made again. -/
def flush (o : Outlet) : Except DeviceError Unit × Outlet :=
  match o.onFlush with
  | some e => (.error e, o)
  | none => (.ok (), o)

instance : Sink Outlet where
  writeAll := writeAll
  flush := flush

end Outlet

end NoteTape
