/-
  NoteTape.Proofs.Device.Holding

  What a sink holds. A write adds a first part of its bytes to what was there, all
  of them exactly if it succeeds, and a flush adds nothing (`Sink.Holds`). This is
  what is promised of every sink, and an outlet keeps it in whatever way it is
  awkward (`Outlet.writeAll_parts`).
-/

import NoteTape.Device.Outlet

namespace NoteTape

/-- The bytes that a sink holds are told by `held`. -/
structure Sink.Holds {κ : Type} [Sink κ] (held : κ → List UInt8) : Prop where
  /-- A write adds a first part of its bytes, and succeeds exactly if none are left. -/
  writeAll : ∀ (bytes : List UInt8) (k : κ), ∃ part left, bytes = part ++ left ∧
    held (Sink.writeAll bytes k).2 = held k ++ part ∧
    ((Sink.writeAll bytes k).1 = .ok () ↔ left = [])
  flush : ∀ k : κ, held (Sink.flush k).2 = held k

namespace Sink.Holds

variable {κ : Type} [Sink κ] {held : κ → List UInt8} {bytes : List UInt8} {k : κ}

theorem written (holds : Sink.Holds held) (done : (Sink.writeAll bytes k).1 = .ok ()) :
    held (Sink.writeAll bytes k).2 = held k ++ bytes := by
  obtain ⟨part, left, parts, added, all⟩ := holds.writeAll bytes k
  rw [all.1 done, List.append_nil] at parts
  rw [added, parts]

theorem exists_part (holds : Sink.Holds held) (bytes : List UInt8) (k : κ) :
    ∃ part, part <+: bytes ∧ held (Sink.writeAll bytes k).2 = held k ++ part := by
  obtain ⟨part, left, rfl, added, -⟩ := holds.writeAll bytes k
  exact ⟨part, List.prefix_append part left, added⟩

/-- A single byte is written or not. -/
theorem refused {byte : UInt8} {e : DeviceError} (holds : Sink.Holds held)
    (fails : (Sink.writeAll [byte] k).1 = .error e) :
    held (Sink.writeAll [byte] k).2 = held k := by
  obtain ⟨part, left, parts, added, all⟩ := holds.writeAll [byte] k
  rcases part with _ | ⟨first, part⟩
  · rw [added, List.append_nil]
  · obtain ⟨-, rest⟩ := List.cons.inj parts
    have none : left = [] := (List.append_eq_nil_iff.1 rest.symm).2
    rw [all.2 none] at fails
    cases fails

end Sink.Holds

-- ============================================================================
-- An outlet holds
-- ============================================================================

namespace Outlet

/-- The bytes that an outlet has taken. -/
def held (o : Outlet) : List UInt8 := o.written.toList

theorem held_take (o : Outlet) (bytes : List UInt8) : (o.take bytes).held = o.held ++ bytes :=
  Array.toList_appendList

theorem writeAll_parts (bytes : List UInt8) (o : Outlet) :
    ∃ part left, bytes = part ++ left ∧ (o.writeAll bytes).2.held = o.held ++ part ∧
      ((o.writeAll bytes).1 = .ok () ↔ left = []) := by
  fun_induction writeAll bytes o with
  | case1 o => exact ⟨[], [], rfl, (List.append_nil _).symm, by simp⟩
  | case2 o first rest n more ih => exact ih
  | case3 o first rest now e refused =>
    exact ⟨[], first :: rest, rfl, (List.append_nil _).symm, by simp⟩
  | case4 o first rest now nothing =>
    exact ⟨[], first :: rest, rfl, (List.append_nil _).symm, by simp⟩
  | case5 o first rest now k called ih =>
    -- This call takes a first part, and the calls behind it are about the rest.
    obtain ⟨part, left, parts, added, all⟩ := ih
    have behind : rest.drop k = part ++ left := parts
    refine ⟨first :: rest.take k ++ part, left, ?_, ?_, all⟩
    · rw [List.append_assoc, ← behind, List.cons_append, List.take_append_drop]
    · rw [← List.append_assoc, ← held_take]
      exact added

theorem held_flush (o : Outlet) : o.flush.2.held = o.held := by
  unfold flush
  split <;> rfl

theorem holds : Sink.Holds held where
  writeAll := writeAll_parts
  flush := held_flush

end Outlet

end NoteTape
