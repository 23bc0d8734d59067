/-
  NoteTape.Proofs.Console.Log

  What the log of a console says. A byte is put, and later delivered with all that was
  put before it and is still in the buffer, so what was put and what was delivered
  differ by the buffer (`Orderly.bytes`). Somebody who is asked, by a prompt or by a
  read, finds everything delivered (`Settled`), provided the buffer is empty each time
  a unit is read; the other operations keep this by themselves.
-/

import NoteTape.Proofs.Console.Views

namespace NoteTape

/-- Whether somebody is asked for input. -/
def Effect.asks : Effect → Bool
  | .prompt _ | .read => true
  | .put _ | .deliver _ => false

namespace Console

/-- Whenever somebody is asked for input, all bytes put so far stand on standard
    output, in order. -/
def Settled (log : List Effect) : Prop :=
  ∀ before e after, log = before ++ e :: after → e.asks = true →
    before.flatMap Effect.bytesDelivered = before.flatMap Effect.bytesPut

theorem settled_nil : Settled [] := by
  intro before e after split
  exact absurd split.symm (List.append_ne_nil_of_right_ne_nil _ (List.cons_ne_nil _ _))

theorem Settled.concat {log : List Effect} (h : Settled log) {e : Effect}
    (delivered : e.asks = true →
      log.flatMap Effect.bytesDelivered = log.flatMap Effect.bytesPut) :
    Settled (log ++ [e]) := by
  intro before x after split asks
  -- Either `x` is the last effect, or it was in the log before.
  rcases List.eq_nil_or_concat after with rfl | ⟨after, last, rfl⟩
  · obtain ⟨rfl, same⟩ := List.append_inj' split rfl
    obtain rfl := List.singleton_inj.1 same
    exact delivered asks
  · rw [List.concat_eq_append, ← List.cons_append, ← List.append_assoc] at split
    exact h before x after (List.append_inj_left' split rfl) asks

/-- All bytes that went into the buffer, by the log. -/
def bytesPut (c : Console) : List UInt8 := c.log.toList.flatMap Effect.bytesPut

/-- The bytes that were put are delivered or in the buffer, and whoever is asked finds
    them all delivered. -/
structure Orderly (c : Console) : Prop where
  bytes : c.bytesPut = c.bytes
  settled : Settled c.log.toList

variable {c : Console}

theorem orderly_of_unused (keyboard : Keyboard) : Orderly { keyboard } where
  bytes := rfl
  settled := settled_nil

/-- An empty buffer is what somebody who is asked has to find. -/
theorem Orderly.delivered (h : c.Orderly) (empty : c.buffered = #[]) : c.stdout = c.bytesPut := by
  rw [h.bytes, Console.bytes, empty, Array.toList_empty, List.append_nil]

theorem bytesPut_flush (c : Console) : c.flush.bytesPut = c.bytesPut := by
  simp [flush, bytesPut, Effect.bytesPut]

theorem Orderly.flush (h : c.Orderly) : c.flush.Orderly where
  bytes := by rw [bytesPut_flush, bytes_flush, h.bytes]
  settled := by
    rw [Console.flush, Array.toList_push]
    exact h.settled.concat (by simp [Effect.asks])

theorem Orderly.append (h : c.Orderly) (byte : UInt8) : (c.append byte).Orderly where
  bytes := by
    rw [bytes_append, ← h.bytes]
    simp [Console.append, bytesPut, Effect.bytesPut]
  settled := by
    rw [Console.append, Array.toList_push]
    exact h.settled.concat (by simp [Effect.asks])

theorem Orderly.put (h : c.Orderly) (byte : UInt8) : (c.put byte).Orderly := by
  rw [put_eq]
  split
  · exact h.append byte
  · exact h.flush.append byte

theorem bytesPut_readUnit (c : Console) : c.readUnit.2.bytesPut = c.bytesPut := by
  have silent : c.keyboard.prompts.flatMap Effect.bytesPut = [] := by
    cases c.keyboard <;> rfl
  simp [readUnit, bytesPut, silent, Effect.bytesPut]

/-- Only a read asks somebody, so in front of it the buffer has to be empty. -/
theorem Orderly.readUnit (h : c.Orderly) (empty : c.buffered = #[]) : c.readUnit.2.Orderly where
  bytes := by rw [bytesPut_readUnit, bytes_readUnit, h.bytes]
  settled := by
    have delivered := h.delivered empty
    have log : c.readUnit.2.log.toList = c.log.toList ++ c.keyboard.prompts ++ [.read] := by
      rw [Console.readUnit, Array.toList_push, Array.toList_appendList]
    rw [log]
    cases c.keyboard with
    | bytes reader =>
      rw [Keyboard.prompts, List.append_nil]
      exact h.settled.concat fun _ => delivered
    | lines reader prompt =>
      -- The prompt itself delivers nothing and puts nothing.
      have shown : Settled (c.log.toList ++ [.prompt prompt]) := h.settled.concat fun _ => delivered
      apply shown.concat
      intro _
      rw [List.flatMap_append, List.flatMap_append]
      exact congrArg (· ++ []) delivered

end Console

end NoteTape
