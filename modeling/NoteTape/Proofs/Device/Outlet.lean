/-
  NoteTape.Proofs.Device.Outlet

  A sink that takes a limited number of bytes in all. Of the bytes it is given it
  takes as many as it has room for, however often its calls are interrupted first
  and however few bytes one call takes (`Outlet.writeAll_of_takesOnly`).
-/

import NoteTape.Device.Outlet

namespace NoteTape.Outlet

/-- The sink takes at least one byte per call, flushes well, and takes `left` more
    bytes in all. Then every call is refused with `refusal`, which is no
    interruption, or takes no byte if there is none. -/
structure TakesOnly (left : Nat) (refusal : Option DeviceError) (o : Outlet) : Prop where
  room : o.room = some left
  perCall : o.perCall ≠ some 0
  onFlush : o.onFlush = none
  whenFull : o.whenFull = refusal
  final : ∀ e, refusal = some e → e.isInterrupted = false

/-- What a write to a full sink answers. -/
def answerFull (refusal : Option DeviceError) : DeviceError := refusal.getD .writeZero

namespace TakesOnly

variable {left k n : Nat} {refusal : Option DeviceError} {o : Outlet} {e : DeviceError}

theorem after_interrupt (takes : TakesOnly left refusal o) (n : Nat) :
    TakesOnly left refusal { o with interrupts := n } :=
  ⟨takes.room, takes.perCall, takes.onFlush, takes.whenFull, takes.final⟩

theorem after_take (takes : TakesOnly left refusal o) (bytes : List UInt8) :
    TakesOnly (left - bytes.length) refusal (o.take bytes) where
  room := by rw [take, takes.room, Option.map_some]
  perCall := takes.perCall
  onFlush := takes.onFlush
  whenFull := takes.whenFull
  final := takes.final

theorem accept_full (takes : TakesOnly 0 refusal o) (n : Nat) :
    o.accept n = refusal.elim (.ok 0) .error := by
  rw [accept, takes.room, takes.whenFull]
  cases refusal with
  | none =>
    show Except.ok (atMost o.perCall (min 0 n)) = .ok 0
    rw [Nat.zero_min]
    cases o.perCall with
    | none => rfl
    | some most => rw [atMost, Nat.min_zero]
  | some e => rfl

/-- With room for more, a call takes some of what it is given. -/
theorem accept_some (takes : TakesOnly (left + 1) refusal o) (n : Nat) :
    ∃ k, o.accept (n + 1) = .ok (k + 1) ∧ k ≤ left ∧ k ≤ n := by
  have taken : o.accept (n + 1) = .ok (atMost o.perCall (min (left + 1) (n + 1))) := by
    rw [accept, takes.room]
    rfl
  rw [taken]
  cases perCall : o.perCall with
  | none => exact ⟨min left n, by rw [atMost, Nat.add_min_add_right], by omega, by omega⟩
  | some most =>
    have some : most ≠ 0 := fun zero => takes.perCall (by rw [perCall, zero])
    refine ⟨min (most - 1) (min left n), ?_, by omega, by omega⟩
    rw [atMost]
    congr 1
    omega

theorem full_of_error (takes : TakesOnly left refusal o)
    (refused : o.accept (n + 1) = .error e) : left = 0 ∧ refusal = some e := by
  cases left with
  | zero =>
    rw [takes.accept_full] at refused
    cases refusal with
    | none => cases refused
    | some e' => exact ⟨rfl, congrArg some (Except.error.inj refused)⟩
  | succ left =>
    obtain ⟨k, taken, -⟩ := takes.accept_some n
    rw [taken] at refused
    cases refused

theorem full_of_nothing (takes : TakesOnly left refusal o)
    (nothing : o.accept (n + 1) = .ok 0) : left = 0 ∧ refusal = none := by
  cases left with
  | zero =>
    rw [takes.accept_full] at nothing
    cases refusal with
    | none => exact ⟨rfl, rfl⟩
    | some e => cases nothing
  | succ left =>
    obtain ⟨k, taken, -⟩ := takes.accept_some n
    rw [taken] at nothing
    cases nothing

theorem within_of_taken (takes : TakesOnly left refusal o)
    (taken : o.accept (n + 1) = .ok (k + 1)) : k < left ∧ k ≤ n := by
  cases left with
  | zero =>
    rw [takes.accept_full] at taken
    cases refusal with
    | none => cases taken
    | some e => cases taken
  | succ left =>
    obtain ⟨k', taken', within, within'⟩ := takes.accept_some n
    rw [taken'] at taken
    obtain rfl : k' = k := Nat.succ.inj (Except.ok.inj taken)
    exact ⟨Nat.lt_succ_of_le within, within'⟩

end TakesOnly

variable {left : Nat} {refusal : Option DeviceError}

/-- What a write answers that finds room for so many of its bytes. -/
def answerFor (bytes : List UInt8) (left : Nat) (refusal : Option DeviceError) :
    Except DeviceError Unit :=
  if bytes.length ≤ left then .ok () else .error (answerFull refusal)

theorem answerFor_append {taken : List UInt8} (fits : taken.length ≤ left) (bytes : List UInt8)
    (refusal : Option DeviceError) :
    answerFor (taken ++ bytes) left refusal = answerFor bytes (left - taken.length) refusal := by
  have same : (taken ++ bytes).length ≤ left ↔ bytes.length ≤ left - taken.length := by
    rw [List.length_append]
    omega
  simp only [answerFor, same]

/-- A sink takes what it has room for, and says whether that was all. -/
theorem writeAll_of_takesOnly (bytes : List UInt8) {o : Outlet}
    (takes : TakesOnly left refusal o) :
    ∃ o', o.writeAll bytes = (answerFor bytes left refusal, o') ∧
      o'.written.toList = o.written.toList ++ bytes.take left ∧
      TakesOnly (left - bytes.length) refusal o' := by
  fun_induction writeAll bytes o generalizing left with
  | case1 o =>
    refine ⟨o, rfl, ?_, takes⟩
    rw [List.take_nil, List.append_nil]
  | case2 o first rest n more ih => exact ih (takes.after_interrupt n)
  | case3 o first rest now e refused =>
    obtain ⟨rfl, rfl⟩ := takes.full_of_error refused
    refine ⟨o, rfl, ?_, by rwa [Nat.zero_sub]⟩
    rw [List.take_zero, List.append_nil]
  | case4 o first rest now nothing =>
    obtain ⟨rfl, rfl⟩ := takes.full_of_nothing nothing
    refine ⟨o, rfl, ?_, by rwa [Nat.zero_sub]⟩
    rw [List.take_zero, List.append_nil]
  | case5 o first rest now k called ih =>
    obtain ⟨within, within'⟩ := takes.within_of_taken called
    obtain ⟨o', answer, written, takes'⟩ := ih (takes.after_take _)
    -- This call takes a first part, and the calls behind it are about the rest.
    have parts : first :: rest = (first :: rest.take k) ++ rest.drop k := by
      rw [List.cons_append, List.take_append_drop]
    have fits : (first :: rest.take k).length ≤ left := by
      rw [List.length_cons, List.length_take]
      omega
    refine ⟨o', ?_, ?_, ?_⟩
    · rw [parts, answerFor_append fits]
      exact answer
    · rw [take, Array.toList_appendList] at written
      rw [parts, List.take_append, List.take_of_length_le fits, ← List.append_assoc]
      exact written
    · rw [parts, List.length_append, ← Nat.sub_sub]
      exact takes'

end NoteTape.Outlet
