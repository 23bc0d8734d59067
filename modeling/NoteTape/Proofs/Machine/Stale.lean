/-
  NoteTape.Proofs.Machine.Stale

  A machine whose bracket map was made before its program was finished. A step looks a
  partner up only where a bracket jumps, so two maps that agree there are not told
  apart (`Machine.step_congr`), and neither are they by calls or by a run that follow
  one another. The map of a beginning of a program agrees with the map of the whole on
  the beginning and has no entry behind it, so it serves until a bracket behind the
  beginning jumps, and there the step fails.
-/

import NoteTape.Device.Store
import NoteTape.Proofs.Brackets.Behind
import NoteTape.Proofs.Machine.Ending

namespace NoteTape.Machine

variable {δ : Type} [Device δ] {p q : Program} {map map' stale : BracketMap} {m m' : Machine}
  {d d' : δ} {n : Nat}

-- ============================================================================
-- Two maps for one program
-- ============================================================================

theorem step_congr (same : Jumps p m → map.partner? m.ip = map'.partner? m.ip) (d : δ) :
    step p map m d = step p map' m d := by
  by_cases jumps : Jumps p m
  · rw [step_of_jumps jumps, step_of_jumps jumps, jump, jump, same jumps]
  · unfold step
    cases here : p.get? m.ip with
    | none => rfl
    | some i =>
      cases i with
      | right | left | increment | decrement | output | input => rfl
      | loopOpen =>
        have full : m.tape.current ≠ 0 := fun zero => jumps (.inl ⟨here, zero⟩)
        simp only [full, if_false]
      | loopClose =>
        have zero : m.tape.current = 0 := by
          by_cases zero : m.tape.current = 0
          · exact zero
          · exact absurd (.inr ⟨here, zero⟩) jumps
        simp only [zero, if_true]

theorem turns_congr (same : ∀ k, k < n → Jumps p (after p map k m d).1 →
      map.partner? (after p map k m d).1.ip = map'.partner? (after p map k m d).1.ip) :
    turns p map' n m d = turns p map n m d ∧ after p map' n m d = after p map n m d := by
  induction n generalizing m d with
  | zero => exact ⟨rfl, rfl⟩
  | succ n ih =>
    have first : step p map' m d = step p map m d :=
      (step_congr (same 0 (Nat.succ_pos n)) d).symm
    obtain ⟨rest, last⟩ := ih (m := (step p map m d).machine) (d := (step p map m d).device)
      fun k lt => same (k + 1) (Nat.succ_lt_succ lt)
    simp only [turns, after, first]
    exact ⟨congrArg _ rest, last⟩

theorem turns_succ (p : Program) (map : BracketMap) (n : Nat) (m : Machine) (d : δ) :
    turns p map (n + 1) m d = turns p map n m d ++
      [step p map (after p map n m d).1 (after p map n m d).2] := by
  induction n generalizing m d with
  | zero => rfl
  | succ n ih =>
    rw [turns, ih]
    rfl

theorem run_congr (same : ∀ k m' d', Advances p map k m d m' d' → Jumps p m' →
      map.partner? m'.ip = map'.partner? m'.ip) (n : Nat) :
    run p map' n m d = run p map n m d := by
  induction n generalizing m d with
  | zero => rfl
  | succ n ih =>
    rw [run, run, ← step_congr (same 0 m d (.none m d)) d]
    cases first : step p map m d with
    | mk answer m₁ d₁ =>
      cases answer with
      | error fault => rfl
      | ok status =>
        cases status with
        | halted => rfl
        | running =>
          apply ih
          intro k m' d' rest
          exact same (k + 1) m' d' (.more (inside_of_running first) first rest)

theorem Advances.congr (advances : Advances p map n m d m' d')
    (same : ∀ k m₁ d₁, k < n → Advances p map k m d m₁ d₁ → Jumps p m₁ →
      map.partner? m₁.ip = map'.partner? m₁.ip) :
    Advances p map' n m d m' d' := by
  induction advances with
  | none m d => exact .none m d
  | @more n m _ _ d _ _ _ inside first rest ih =>
    have first' := first
    rw [step_congr (same 0 m d (Nat.succ_pos n) (.none m d)) d] at first'
    refine .more inside first' (ih fun k m₁ d₁ lt advances => ?_)
    exact same (k + 1) m₁ d₁ (Nat.succ_lt_succ lt) (.more inside first advances)

-- ============================================================================
-- The map of a beginning
-- ============================================================================

/-- A bracket of `q` jumps in the program `p ++ q`. -/
def JumpsBehind (p q : Program) (m : Machine) : Prop := Jumps (p ++ q) m ∧ p.size ≤ m.ip

/-- A machine that runs `p ++ q` does with the map `stale` what it does with `map`, up
    to the first jump of a bracket of `q`, which fails and changes nothing. -/
structure ServesUntil (p q : Program) (stale map : BracketMap) (m : Machine) (d : δ) : Prop where
  calls : ∀ n, (∀ k, k < n → ¬ JumpsBehind p q (after (p ++ q) map k m d).1) →
    turns (p ++ q) stale n m d = turns (p ++ q) map n m d ∧
      after (p ++ q) stale n m d = after (p ++ q) map n m d
  /-- The call behind those that are the same fails at the bracket that jumps. -/
  fails : ∀ n m' d', (∀ k, k < n → ¬ JumpsBehind p q (after (p ++ q) map k m d).1) →
    after (p ++ q) map n m d = (m', d') → JumpsBehind p q m' →
    turns (p ++ q) stale (n + 1) m d =
      turns (p ++ q) map n m d ++ [⟨.error (.noPartner m'.ip), m', d'⟩]
  runs : (∀ n m' d', Advances (p ++ q) map n m d m' d' → ¬ JumpsBehind p q m') →
    ∀ n, run (p ++ q) stale n m d = run (p ++ q) map n m d
  /-- A run ends at the first bracket of `q` that jumps. -/
  ends : ∀ n m' d', (∀ k m₁ d₁, k < n → Advances (p ++ q) map k m d m₁ d₁ →
      ¬ JumpsBehind p q m₁) →
    Advances (p ++ q) map n m d m' d' → JumpsBehind p q m' →
    Ends (p ++ q) stale m d (.error (.noPartner m'.ip)) m' d'

section Stale

variable (paired : BracketMap.ofProgram p = .ok stale)

include paired

theorem step_of_jumpsBehind (behind : JumpsBehind p q m) (d : δ) :
    step (p ++ q) stale m d = ⟨.error (.noPartner m.ip), m, d⟩ := by
  obtain ⟨jumps, outside⟩ := behind
  rw [step_of_jumps jumps, jump, BracketMap.partner?_of_outside paired outside]

variable (paired' : BracketMap.ofProgram (p ++ q) = .ok map)

include paired'

omit [Device δ] in
theorem partner?_of_not_jumpsBehind (never : ¬ JumpsBehind p q m) (jumps : Jumps (p ++ q) m) :
    map.partner? m.ip = stale.partner? m.ip := by
  have inside : m.ip < p.size := Nat.lt_of_not_le fun outside => never ⟨jumps, outside⟩
  exact (BracketMap.partner?_added paired paired' inside).symm

theorem servesUntil (m : Machine) (d : δ) : ServesUntil p q stale map m d := by
  have serves {m : Machine} (never : ¬ JumpsBehind p q m) :=
    partner?_of_not_jumpsBehind paired paired' never
  refine ⟨?_, ?_, ?_, ?_⟩
  · intro n never
    exact turns_congr fun k lt => serves (never k lt)
  · intro n m' d' never here behind
    obtain ⟨turns, last⟩ := turns_congr fun k lt => serves (never k lt)
    rw [turns_succ, turns, last, here, step_of_jumpsBehind paired behind]
  · intro never
    exact run_congr fun k m' d' advances => serves (never k m' d' advances)
  · intro n m' d' never advances behind
    have advances' := advances.congr fun k m₁ d₁ lt advances => serves (never k m₁ d₁ lt advances)
    exact advances'.ends_iff.2 (Stops.fails (step_of_jumpsBehind paired behind d')).ends

end Stale

/-- A bracket map that was made before instructions were added at the end of the program
    is harmless or is found out. It agrees with the map of the whole program on what it
    was made from, so it never leads to a wrong place; and whatever the machine and the
    device, it serves until a bracket behind jumps. That is reported as a bracket that is
    missing from the map, at its position. -/
theorem stale_map_serves_or_fails (paired : BracketMap.ofProgram p = .ok stale)
    (paired' : BracketMap.ofProgram (p ++ q) = .ok map) :
    (∀ i, i < p.size → stale.partner? i = map.partner? i) ∧
    (∀ i j, stale.partner? i = some j → map.partner? i = some j) ∧
    (∀ {δ : Type} [Device δ] (m : Machine) (d : δ), ServesUntil p q stale map m d) ∧
    ∀ pos, (Fault.noPartner pos).report = .unbalanced "bracket missing from jump table" pos := by
  refine ⟨?_, ?_, ?_, ?_⟩
  · intro i inside
    exact BracketMap.partner?_added paired paired' inside
  · intro i j partner
    exact BracketMap.partner?_of_partner? paired paired' partner
  · intro δ _ m d
    exact servesUntil paired paired' m d
  · intro pos
    rfl

/-- The map of `[.]` serves `[.][.]` for the first jump, over the first loop, and not for
    the second, over the second loop. -/
theorem stale_map_serves_or_fails_second_loop :
    turns (.ofList [.loopOpen, .output, .loopClose] ++ .ofList [.loopOpen, .output, .loopClose])
        ⟨#[some 2, none, some 0]⟩ 2 .fresh (Wired.mk (Slice.ofList []) ({} : Recorder)) =
      [⟨.ok .running, { Machine.fresh with ip := 3, steps := 1 }, .mk (.ofList []) {}⟩,
        ⟨.error (.noPartner 3), { Machine.fresh with ip := 3, steps := 1 },
          .mk (.ofList []) {}⟩] := by
  let p : Program := .ofList [.loopOpen, .output, .loopClose]
  let map : BracketMap := ⟨#[some 2, none, some 0, some 5, none, some 3]⟩
  let d : Wired Slice Recorder := .mk (.ofList []) {}
  have paired : BracketMap.ofProgram p = .ok ⟨#[some 2, none, some 0]⟩ := rfl
  have whole : p ++ p = .ofList [.loopOpen, .output, .loopClose, .loopOpen, .output, .loopClose] :=
    Program.ext_toList (Program.toList_append p p)
  have paired' : BracketMap.ofProgram (p ++ p) = .ok map := by
    rw [whole]
    rfl
  have zero : Tape.blank.current = 0 := Tape.cell_blank _
  have first : step (p ++ p) map .fresh d =
      ⟨.ok .running, { Machine.fresh with ip := 3, steps := 1 }, d⟩ := by
    rw [step_of_jumps (.inl ⟨rfl, zero⟩)]
    rfl
  have behind : JumpsBehind p p { Machine.fresh with ip := 3, steps := 1 } :=
    ⟨.inl ⟨rfl, zero⟩, Nat.le_refl 3⟩
  have never (k : Nat) (lt : k < 1) : ¬ JumpsBehind p p (after (p ++ p) map k .fresh d).1 := by
    obtain rfl : k = 0 := by omega
    rintro ⟨-, outside⟩
    exact absurd outside (by decide)
  have serves := (stale_map_serves_or_fails paired paired').2.2.1 .fresh d
  have both := serves.fails 1 _ d never (by simp only [after, first]) behind
  have one : turns (p ++ p) map 1 .fresh d = [step (p ++ p) map .fresh d] := rfl
  rw [one, first] at both
  exact both

end NoteTape.Machine
