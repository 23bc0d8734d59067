/-
  NoteTape.TrackFile.Number

  The numbers of a track file: fixed-size ones in either byte order, and
  variable-length ones, which hold seven bits a byte, most significant first, in
  at most four bytes.
-/

namespace NoteTape.TrackFile

/-- The number written by bytes of which the first weighs most. -/
def bigEndian (bytes : List UInt8) : Nat :=
  bytes.foldl (fun value byte => value * 256 + byte.toNat) 0

/-- The number written by bytes of which the last weighs most. -/
def littleEndian (bytes : List UInt8) : Nat := bigEndian bytes.reverse

/-- How many bytes a variable-length number has at most. -/
def variableSize : Nat := 4

/-- Goes on with a variable-length number of which `value` was read, for at most
    `left` more bytes. -/
def readVariableOn : (left : Nat) → (value : Nat) → List UInt8 → Nat × List UInt8
  | 0, value, bytes => (value, bytes)
  | _ + 1, value, [] => (value, [])
  | left + 1, value, byte :: bytes =>
    let value := value * 128 + byte.toNat % 128
    if byte < 0x80 then (value, bytes) else readVariableOn left value bytes

/-- Reads a variable-length number and returns the bytes behind it. It ends with
    the first byte below 128, after its fourth byte, or with the bytes. -/
def readVariable (bytes : List UInt8) : Nat × List UInt8 :=
  readVariableOn variableSize 0 bytes

theorem length_readVariableOn_le (left value : Nat) (bytes : List UInt8) :
    (readVariableOn left value bytes).2.length ≤ bytes.length := by
  fun_induction readVariableOn left value bytes with
  | case1 => exact Nat.le_refl _
  | case2 => exact Nat.le_refl _
  | case3 => simp
  | case4 _ _ _ _ _ _ ih => simpa using Nat.le_succ_of_le ih

/-- Reading a number gives no bytes back. -/
theorem length_readVariable_le (bytes : List UInt8) :
    (readVariable bytes).2.length ≤ bytes.length :=
  length_readVariableOn_le variableSize 0 bytes

end NoteTape.TrackFile
