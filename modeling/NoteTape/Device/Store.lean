/-
  NoteTape.Device.Store

  Input and output held in memory. A `Slice` is an array of bytes with a mark of
  how far it was read, a queue gives its bytes in the order they were put in, and
  a `Recorder` keeps everything written to it. None of them ever refuses.
-/

import NoteTape.Device.Basic

namespace NoteTape

/-- Bytes that are read from a position on. -/
structure Slice where
  bytes : Array UInt8
  position : Nat := 0
  deriving Inhabited

namespace Slice

/-- All the given bytes, unread. -/
def ofList (bytes : List UInt8) : Slice := ⟨bytes.toArray, 0⟩

/-- The bytes not yet read. -/
def toList (s : Slice) : List UInt8 := s.bytes.toList.drop s.position

/-- The next byte, if one is left. -/
def next (s : Slice) : Option UInt8 × Slice :=
  match s.bytes[s.position]? with
  | some byte => (some byte, { s with position := s.position + 1 })
  | none => (none, s)

instance : Source Slice where
  read s :=
    let (unit, s) := s.next
    (.ok unit, s)

end Slice

/-- The next byte of a queue, if one is left. -/
def nextOfQueue (q : Std.Queue UInt8) : Option UInt8 × Std.Queue UInt8 :=
  match q.dequeue? with
  | some (byte, q) => (some byte, q)
  | none => (none, q)

instance : Source (Std.Queue UInt8) where
  read q :=
    let (unit, q) := nextOfQueue q
    (.ok unit, q)

/-- A sink that keeps everything written to it. -/
structure Recorder where
  written : Array UInt8 := #[]
  deriving Inhabited

instance : Sink Recorder where
  writeAll bytes r := (.ok (), { r with written := r.written ++ bytes })
  flush r := (.ok (), r)

end NoteTape
