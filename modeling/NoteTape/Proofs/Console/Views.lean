/-
  NoteTape.Proofs.Console.Views

  What stands on standard output and standard error after each operation of a
  console. `Console.bytes` are all bytes that were put, delivered or not: a flush
  moves them but changes none, and after a flush they all stand on standard
  output.
-/

import NoteTape.Console

namespace NoteTape

/-- The text that standard error shows before one unit is read. -/
def Keyboard.prompted (k : Keyboard) : String := String.join (k.prompts.map Effect.textShown)

namespace Console

/-- The bytes on standard output and those still in the buffer. -/
def bytes (c : Console) : List UInt8 := c.stdout ++ c.buffered.toList

variable (c : Console)

/-! ## A flush -/

@[simp] theorem keyboard_flush : c.flush.keyboard = c.keyboard := rfl

@[simp] theorem stdout_flush : c.flush.stdout = c.bytes := by
  simp [flush, stdout, bytes, Effect.bytesDelivered]

@[simp] theorem bytes_flush : c.flush.bytes = c.bytes := by
  rw [bytes, stdout_flush]
  simp [flush]

@[simp] theorem stderr_flush : c.flush.stderr = c.stderr := by
  simp [flush, stderr, Effect.textShown]

/-! ## A write -/

/-- Puts a byte into a buffer that has room for it. -/
def append (byte : UInt8) (c : Console) : Console :=
  { c with buffered := c.buffered.push byte, log := c.log.push (.put byte) }

theorem put_eq (byte : UInt8) :
    c.put byte = (if c.buffered.size < bufferSize then c else c.flush).append byte := rfl

theorem bytes_append (byte : UInt8) : (c.append byte).bytes = c.bytes ++ [byte] := by
  simp [append, bytes, stdout, Effect.bytesDelivered]

theorem stderr_append (byte : UInt8) : (c.append byte).stderr = c.stderr := by
  simp [append, stderr, Effect.textShown]

@[simp] theorem keyboard_put (byte : UInt8) : (c.put byte).keyboard = c.keyboard := by
  rw [put_eq]
  split <;> rfl

/-- Whether or not the buffer is delivered first, a write adds its byte at the end. -/
@[simp] theorem bytes_put (byte : UInt8) : (c.put byte).bytes = c.bytes ++ [byte] := by
  rw [put_eq, bytes_append]
  split
  · rfl
  · rw [bytes_flush]

@[simp] theorem stderr_put (byte : UInt8) : (c.put byte).stderr = c.stderr := by
  rw [put_eq, stderr_append]
  split
  · rfl
  · rw [stderr_flush]

/-! ## A read -/

theorem bytesDelivered_of_mem_prompts {k : Keyboard} {e : Effect} (mem : e ∈ k.prompts) :
    e.bytesDelivered = [] := by
  cases k with
  | lines reader prompt =>
    obtain rfl := List.mem_singleton.1 mem
    rfl
  | bytes reader => cases mem

@[simp] theorem bytes_readUnit : c.readUnit.2.bytes = c.bytes := by
  have silent : c.keyboard.prompts.flatMap Effect.bytesDelivered = [] :=
    List.flatMap_eq_nil_iff.2 fun _ mem => bytesDelivered_of_mem_prompts mem
  simp [readUnit, bytes, stdout, silent, Effect.bytesDelivered]

@[simp] theorem stderr_readUnit : c.readUnit.2.stderr = c.stderr ++ c.keyboard.prompted := by
  simp [readUnit, stderr, Keyboard.prompted, Effect.textShown]

end Console

end NoteTape
