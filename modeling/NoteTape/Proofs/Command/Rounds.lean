/-
  NoteTape.Proofs.Command.Rounds

  The loop of the command round by round, on any device. So many rounds go on
  (`Continues`), and then one is the last (`Closes.exists_over`). A step limit shows
  only in a round that starts with no step left: up to there the loop does the same
  with the limit and without it (`Continues.limited`), and there it ends
  (`closes_of_reached`).
-/

import NoteTape.Proofs.Command.Lockstep
import NoteTape.Proofs.Machine.Step

namespace NoteTape.Command

variable {δ : Type} [Device δ] {p : Program} {map : BracketMap} {limit : Option Nat} {N : Nat}
  {m m' m'' : Machine} {d d' d'' : δ} {ending ending' : Ending}

-- ============================================================================
-- One round
-- ============================================================================

/-- What a round without a step limit can leave. -/
inductive Rounded (p : Program) (map : BracketMap) (m : Machine) (d : δ) : Round δ → Prop where
  /-- The output cannot be flushed before a read. -/
  | refused (e : DeviceError) (d' : δ) : Rounded p map m d (.over (.refused e) m d')
  /-- Behind a flush, or without one, the machine takes a step. -/
  | turned (d' : δ) (flushed : flushBeforeRead p m d = (.ok (), d')) :
    Rounded p map m d (.ofTurn (Machine.step p map m d'))

theorem round_rounded (p : Program) (map : BracketMap) (m : Machine) (d : δ) :
    Rounded p map m d (round none p map m d) := by
  cases flushed : flushBeforeRead p m d with
  | mk answer d' =>
    cases answer with
    | ok =>
      rw [round_of_flushed flushed map]
      exact .turned d' flushed
    | error e =>
      have unlimited : limitReached none m = false := rfl
      rw [round, unlimited, flushed]
      exact .refused e d'

/-- A round that is not the last carries out an instruction, and another one is
    next. -/
theorem step_of_more (h : round none p map m d = .more m' d') :
    ∃ d₁, flushBeforeRead p m d = (.ok (), d₁) ∧
      Machine.step p map m d₁ = ⟨.ok .running, m', d'⟩ := by
  have rounded := round_rounded p map m d
  rw [h] at rounded
  generalize left : Round.more m' d' = r at rounded
  cases rounded with
  | refused => cases left
  | turned d₁ flushed =>
    refine ⟨d₁, flushed, ?_⟩
    generalize Machine.step p map m d₁ = turn at left
    obtain ⟨answer, m₁, d₂⟩ := turn
    cases answer with
    | error f => cases left
    | ok status =>
      cases status with
      | halted => cases left
      | running =>
        cases left
        rfl

theorem round_of_below (below : m.steps < N) (d : δ) :
    round (some N) p map m d = round none p map m d := by
  have left : limitReached (some N) m = false := decide_eq_false (Nat.not_le.2 below)
  have unlimited : limitReached none m = false := rfl
  rw [round, round, left, unlimited]
  rfl

theorem round_of_reached (reached : N ≤ m.steps) (d : δ) :
    round (some N) p map m d = .over (.stepLimit N m.ip) m d := by
  have none : limitReached (some N) m = true := decide_eq_true reached
  rw [round, none]
  rfl

-- ============================================================================
-- Rounds that go on
-- ============================================================================

/-- So many rounds of the loop, none of which is the last. -/
inductive Continues (limit : Option Nat) (p : Program) (map : BracketMap) :
    Nat → Machine → δ → Machine → δ → Prop where
  | start (m : Machine) (d : δ) : Continues limit p map 0 m d m d
  | more {n : Nat} {m m' m'' : Machine} {d d' d'' : δ} (first : round limit p map m d = .more m' d')
    (rest : Continues limit p map n m' d' m'' d'') : Continues limit p map (n + 1) m d m'' d''

/-- Given enough rounds, the loop ends so. -/
def Closes (limit : Option Nat) (p : Program) (map : BracketMap) (m : Machine) (d : δ)
    (ending : Ending) (m' : Machine) (d' : δ) : Prop :=
  ∃ rounds, play limit p map rounds m d = .ended ending m' d'

theorem Continues.play_add {n : Nat} (h : Continues limit p map n m d m' d') (rounds : Nat) :
    play limit p map (n + rounds) m d = play limit p map rounds m' d' := by
  induction h with
  | start => rw [Nat.zero_add]
  | more first _ ih =>
    rw [Nat.add_right_comm, play, first]
    exact ih

/-- Every round that goes on has carried out one instruction. -/
theorem Continues.steps_eq {n : Nat} (h : Continues none p map n m d m' d') :
    m'.steps = m.steps + n := by
  induction h with
  | start => rfl
  | more first _ ih =>
    obtain ⟨d₁, -, step⟩ := step_of_more first
    have counted := (Machine.step_ok (Machine.inside_of_running step) step).2
    omega

theorem Continues.inside {n : Nat} (h : Continues none p map (n + 1) m d m' d') :
    m'.ip < p.size := by
  generalize hn : n + 1 = k at h
  induction h generalizing n with
  | start => omega
  | @more _ m m' _ d d' _ first rest ih =>
    cases rest with
    | start =>
      obtain ⟨d₁, -, step⟩ := step_of_more first
      have status := (Machine.step_ok (Machine.inside_of_running step) step).1
      rcases Nat.lt_or_ge m'.ip p.size with inside | outside
      · exact inside
      · rw [(Machine.status_eq_halted_iff m' p).2 outside] at status
        cases status
    | more => exact ih rfl

/-- As long as steps are left the limit makes no difference. -/
theorem Continues.limited {n : Nat} (h : Continues none p map n m d m' d')
    (left : m.steps + n ≤ N) : Continues (some N) p map n m d m' d' := by
  induction h with
  | start => exact .start _ _
  | @more _ m _ _ d _ _ first _ ih =>
    obtain ⟨d₁, -, step⟩ := step_of_more first
    have counted := (Machine.step_ok (Machine.inside_of_running step) step).2
    have limited := (round_of_below (by omega : m.steps < N) d).trans first
    exact .more limited (ih (by omega))

theorem Continues.take {n k : Nat} (h : Continues limit p map n m d m' d') (le : k ≤ n) :
    ∃ m₁ d₁, Continues limit p map k m d m₁ d₁ := by
  induction h generalizing k with
  | start =>
    obtain rfl : k = 0 := by omega
    exact ⟨_, _, .start _ _⟩
  | more first _ ih =>
    cases k with
    | zero => exact ⟨_, _, .start _ _⟩
    | succ k =>
      obtain ⟨m₁, d₁, rest⟩ := ih (by omega : k ≤ _)
      exact ⟨m₁, d₁, .more first rest⟩

/-- Either so many rounds go on, or one before them is the last. -/
theorem continues_or_over (p : Program) (map : BracketMap) (n : Nat) (m : Machine) (d : δ) :
    (∃ m' d', Continues none p map n m d m' d') ∨
    ∃ k m₁ d₁ ending m₂ d₂, k < n ∧ Continues none p map k m d m₁ d₁ ∧
      round none p map m₁ d₁ = .over ending m₂ d₂ := by
  induction n generalizing m d with
  | zero => exact .inl ⟨m, d, .start m d⟩
  | succ n ih =>
    rcases first : round none p map m d with ⟨m', d'⟩ | ⟨ending, m₂, d₂⟩
    · rcases ih m' d' with ⟨m₁, d₁, rest⟩ | ⟨k, m₁, d₁, ending, m₂, d₂, lt, rest, last⟩
      · exact .inl ⟨m₁, d₁, .more first rest⟩
      · exact .inr ⟨k + 1, m₁, d₁, ending, m₂, d₂, by omega, .more first rest, last⟩
    · exact .inr ⟨0, m, d, ending, m₂, d₂, by omega, .start m d, first⟩

-- ============================================================================
-- The end of the loop
-- ============================================================================

theorem play_of_le {most more : Nat} (h : play limit p map most m d = .ended ending m' d')
    (le : most ≤ more) : play limit p map more m d = .ended ending m' d' := by
  induction most generalizing m d more with
  | zero => cases h
  | succ most ih =>
    obtain ⟨more, rfl⟩ : ∃ k, more = k + 1 := ⟨more - 1, by omega⟩
    rw [play] at h ⊢
    rcases first : round limit p map m d with ⟨m₁, d₁⟩ | ⟨e, m₁, d₁⟩
    · rw [first] at h
      exact ih h (by omega)
    · rw [first] at h
      exact h

theorem Closes.unique (h : Closes limit p map m d ending m' d')
    (h' : Closes limit p map m d ending' m'' d'') : ending = ending' ∧ m' = m'' ∧ d' = d'' := by
  obtain ⟨most, h⟩ := h
  obtain ⟨more, h'⟩ := h'
  have same := play_of_le h (Nat.le_max_left most more)
  rw [play_of_le h' (Nat.le_max_right most more)] at same
  obtain ⟨rfl, rfl, rfl⟩ := Played.ended.inj same
  exact ⟨rfl, rfl, rfl⟩

theorem Continues.closes {n : Nat} {m₁ : Machine} {d₁ : δ}
    (h : Continues limit p map n m d m₁ d₁) (last : round limit p map m₁ d₁ = .over ending m'' d'')
    (closed : close ending m'' d'' = .ended ending' m' d') :
    Closes limit p map m d ending' m' d' := by
  refine ⟨n + 1, ?_⟩
  rw [h.play_add, play, last]
  exact closed

theorem Closes.exists_over (h : Closes limit p map m d ending' m' d') :
    ∃ n m₁ d₁ ending m₂ d₂, Continues limit p map n m d m₁ d₁ ∧
      round limit p map m₁ d₁ = .over ending m₂ d₂ ∧ close ending m₂ d₂ = .ended ending' m' d' := by
  obtain ⟨rounds, h⟩ := h
  induction rounds generalizing m d with
  | zero => cases h
  | succ rounds ih =>
    rw [play] at h
    rcases first : round limit p map m d with ⟨m₁, d₁⟩ | ⟨ending, m₂, d₂⟩
    · rw [first] at h
      obtain ⟨n, m₂, d₂, ending, m₃, d₃, rest, last, closed⟩ := ih h
      exact ⟨n + 1, m₂, d₂, ending, m₃, d₃, .more first rest, last, closed⟩
    · rw [first] at h
      exact ⟨0, m, d, ending, m₂, d₂, .start m d, first, h⟩

/-- A loop whose last round starts with a step left ends so with the limit too. -/
theorem Continues.closes_limited {n : Nat} {m₁ : Machine} {d₁ : δ}
    (h : Continues none p map n m d m₁ d₁) (left : m.steps + n < N)
    (last : round none p map m₁ d₁ = .over ending m'' d'')
    (closed : close ending m'' d'' = .ended ending' m' d') :
    Closes (some N) p map m d ending' m' d' := by
  have steps := h.steps_eq
  have last' := (round_of_below (by omega : m₁.steps < N) d₁).trans last
  exact (h.limited (by omega)).closes last' closed

/-- A loop that goes on until no step is left ends there with the limit. -/
theorem Continues.closes_at_limit {n : Nat} (h : Continues none p map n m d m' d')
    (reached : m.steps + n = N) (closed : close (.stepLimit N m'.ip) m' d' = .ended ending' m'' d'') :
    Closes (some N) p map m d ending' m'' d'' := by
  have steps := h.steps_eq
  have last : round (some N) p map m' d' = .over (.stepLimit N m'.ip) m' d' :=
    round_of_reached (by omega) d'
  exact (h.limited (by omega)).closes last closed

end NoteTape.Command
