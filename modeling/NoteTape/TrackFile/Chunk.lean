/-
  NoteTape.TrackFile.Chunk

  A track file is a sequence of chunks, each an identifier of four bytes, a size
  and so many bytes of data. A file may stand inside a wrapper, whose chunks
  differ in the byte order of the size and in a padding byte.
-/

import NoteTape.TrackFile.Number

namespace NoteTape.TrackFile

/-- An identifier and the data that goes with it. -/
structure Chunk where
  id : List UInt8
  data : List UInt8
  deriving DecidableEq, Repr, Inhabited

/-- The two ways in which chunks are laid out. -/
inductive Layout where
  /-- The size has its most significant byte first. -/
  | plain
  /-- The size has its least significant byte first, and data of odd size is
      followed by a padding byte. -/
  | wrapper
  deriving DecidableEq, Repr, Inhabited

namespace Layout

/-- The size that four bytes announce. -/
def size : Layout → List UInt8 → Nat
  | .plain => bigEndian
  | .wrapper => littleEndian

/-- How many bytes data of a size takes up. -/
def stride : Layout → Nat → Nat
  | .plain, size => size
  | .wrapper, size => size + size % 2

end Layout

namespace Chunk

/-- The chunk at the head of the bytes, and the bytes behind it. Data that is
    announced longer than the bytes that are left is all of them. -/
def split? (layout : Layout) : List UInt8 → Option (Chunk × List UInt8)
  | a :: b :: c :: d :: s :: t :: u :: v :: rest =>
    let size := layout.size [s, t, u, v]
    some (⟨[a, b, c, d], rest.take size⟩, rest.drop (layout.stride size))
  | _ => none

theorem length_of_split? {layout : Layout} {bytes rest : List UInt8} {chunk : Chunk}
    (h : split? layout bytes = some (chunk, rest)) : rest.length < bytes.length := by
  unfold split? at h
  split at h
  · obtain ⟨_, rfl⟩ := Prod.mk.inj (Option.some.inj h)
    simp only [List.length_drop, List.length_cons]
    omega
  · simp at h

/-- The chunks that the bytes consist of. Bytes at the end that are too few for a
    chunk are a last chunk that is missing. -/
def splitAll (layout : Layout) (bytes : List UInt8) : List (Option Chunk) :=
  if bytes.isEmpty then []
  else match _h : split? layout bytes with
    | none => [none]
    | some (chunk, rest) => some chunk :: splitAll layout rest
termination_by bytes.length
decreasing_by exact length_of_split? _h

end Chunk

end NoteTape.TrackFile
