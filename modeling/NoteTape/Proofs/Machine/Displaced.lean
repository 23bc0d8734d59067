/-
  NoteTape.Proofs.Machine.Displaced

  A machine that is displaced: its program stands some positions further on, and its
  tape is turned. Positions reach a machine only through the program and its bracket
  map, and the tape has no seam, so every step of the displaced machine is the
  displaced step (`Machine.step_displaced`), and so is every run.

  Moves of the head in front of a program displace the machine that runs it.
-/

import NoteTape.Proofs.Brackets.InFront
import NoteTape.Proofs.Machine.Ending
import NoteTape.Device.Store
import NoteTape.Proofs.Tape.Rotation
import NoteTape.Tape.StraightLine

namespace NoteTape

/-- The report of the same fault, so many positions further on. -/
def Report.later (k : Nat) (r : Report) : Report :=
  { r with position? := r.position?.map (k + ·) }

/-- The same fault, so many positions further on. -/
def Fault.later (k : Nat) : Fault → Fault
  | .noRoot leading => .noRoot leading
  | .strayClose position => .strayClose (k + position)
  | .leftOpen count position => .leftOpen count (k + position)
  | .noPartner position => .noPartner (k + position)
  | .noInput position => .noInput (k + position)
  | .device error position => .device error (k + position)

theorem Fault.report_later (k : Nat) (fault : Fault) :
    (fault.later k).report = fault.report.later k := by
  cases fault <;> rfl

/-- The machine with its next instruction so many positions further on, as many
    steps later, and with its tape turned. -/
def Machine.displaced (m : Machine) (k : Nat) (turn : Int) : Machine :=
  { ip := k + m.ip, tape := m.tape.rotate turn, steps := k + m.steps }

variable {δ : Type}

/-- What a step leaves, displaced. -/
def Turn.displaced (t : Turn δ) (k : Nat) (turn : Int) : Turn δ :=
  ⟨t.answer.mapError (Fault.later k), t.machine.displaced k turn, t.device⟩

/-- What becomes of a run, displaced. -/
def Run.displaced (k : Nat) (turn : Int) : Run δ → Run δ
  | .ended answer m d => .ended (answer.mapError (Fault.later k)) (m.displaced k turn) d
  | .unfinished m d => .unfinished (m.displaced k turn) d

theorem Turn.of_displaced_ok {t : Turn δ} {k : Nat} {turn : Int} {status : Status}
    {m' : Machine} {d' : δ} (ok : t.displaced k turn = ⟨.ok status, m', d'⟩) :
    ∃ m, t = ⟨.ok status, m, d'⟩ ∧ m' = m.displaced k turn := by
  obtain ⟨answer, m, d⟩ := t
  cases answer with
  | error fault => cases ok
  | ok status =>
    cases ok
    exact ⟨m, rfl, rfl⟩

theorem Run.of_displaced_ended {r : Run δ} {k : Nat} {turn : Int} {answer' : Except Fault Unit}
    {m' : Machine} {d' : δ} (ended : r.displaced k turn = .ended answer' m' d') :
    ∃ answer m, r = .ended answer m d' ∧ answer' = answer.mapError (Fault.later k) ∧
      m' = m.displaced k turn := by
  cases r with
  | unfinished m d => cases ended
  | ended answer m d =>
    cases ended
    exact ⟨answer, m, rfl, rfl, rfl⟩

/-- The program `p` with its map stands in `q` from position `k` on. -/
structure StandsIn (p : Program) (map : BracketMap) (q : Program) (map' : BracketMap)
    (k : Nat) : Prop where
  get? : ∀ pos, q.get? (k + pos) = p.get? pos
  size : q.size = k + p.size
  partner? : ∀ pos, map'.partner? (k + pos) = (map.partner? pos).map (k + ·)

namespace Machine

variable [Device δ] {p q : Program} {map map' : BracketMap} {k : Nat} {turn : Int}
  {m m' : Machine} {d d' : δ} {n : Nat}

section StandsIn

variable (stands : StandsIn p map q map' k)

include stands

-- ============================================================================
-- Steps
-- ============================================================================

omit [Device δ] in
theorem status_displaced (m : Machine) : (m.displaced k turn).status q = m.status p := by
  have same : k + m.ip < q.size ↔ m.ip < p.size := by
    rw [stands.size]
    omega
  show (if k + m.ip < q.size then Status.running else .halted) = _
  simp only [same, status]

omit [Device δ] in
theorem succeed_displaced (m : Machine) (pos : Nat) (d : δ) :
    succeed q (m.displaced k turn) (k + pos) d = (succeed p m pos d).displaced k turn := by
  have past : (m.displaced k turn).goPast (k + pos) = (m.goPast pos).displaced k turn := rfl
  rw [succeed, past, status_displaced stands]
  rfl

omit [Device δ] in
theorem jump_displaced (m : Machine) (d : δ) :
    jump q map' (m.displaced k turn) d = (jump p map m d).displaced k turn := by
  have partner : map'.partner? (m.displaced k turn).ip = (map.partner? m.ip).map (k + ·) :=
    stands.partner? m.ip
  rw [jump, jump, partner]
  cases map.partner? m.ip with
  | none => rfl
  | some partner => exact succeed_displaced stands m partner d

theorem step_displaced (m : Machine) (d : δ) :
    step q map' (m.displaced k turn) d = (step p map m d).displaced k turn := by
  have here : q.get? (m.displaced k turn).ip = p.get? m.ip := stands.get? m.ip
  have current : (m.displaced k turn).tape.current = m.tape.current :=
    m.tape.current_rotate turn
  -- What an instruction makes of the turned tape is the turn of what it makes.
  have carried (u tape : Tape) (turned : u = tape.rotate turn) (d : δ) :
      succeed q { m.displaced k turn with tape := u } (m.displaced k turn).ip d =
        (succeed p { m with tape } m.ip d).displaced k turn := by
    rw [turned]
    exact succeed_displaced stands { m with tape } m.ip d
  unfold step
  rw [here, current]
  cases p.get? m.ip with
  | none => rfl
  | some i =>
    cases i with
    | right => exact carried _ _ (m.tape.moveRight_rotate turn) d
    | left => exact carried _ _ (m.tape.moveLeft_rotate turn) d
    | increment => exact carried _ _ (m.tape.store_rotate turn _) d
    | decrement => exact carried _ _ (m.tape.store_rotate turn _) d
    | output =>
      dsimp only
      obtain ⟨answer, d'⟩ := Device.write m.tape.current d
      cases answer with
      | ok => exact carried _ m.tape rfl d'
      | error e => rfl
    | input =>
      dsimp only
      obtain ⟨answer, d'⟩ := Device.read d
      cases answer with
      | ok unit =>
        cases unit with
        | none => rfl
        | some unit => exact carried _ _ (m.tape.store_rotate turn unit) d'
      | error e => rfl
    | loopOpen =>
      by_cases zero : m.tape.current = 0
      · simp only [zero, if_true]
        exact jump_displaced stands m d
      · simp only [zero, if_false]
        exact carried _ m.tape rfl d
    | loopClose =>
      by_cases zero : m.tape.current = 0
      · simp only [zero, if_true]
        exact carried _ m.tape rfl d
      · simp only [zero, if_false]
        exact jump_displaced stands m d

-- ============================================================================
-- Runs
-- ============================================================================

theorem Advances.displaced (advances : Advances p map n m d m' d') :
    Advances q map' n (m.displaced k turn) d (m'.displaced k turn) d' := by
  induction advances with
  | none m d => exact .none _ d
  | @more n m m₁ m' d d₁ d' status inside first rest ih =>
    have inside' : (m.displaced k turn).ip < q.size := by
      rw [stands.size]
      exact Nat.add_lt_add_left inside k
    have first' : step q map' (m.displaced k turn) d = ⟨.ok status, m₁.displaced k turn, d₁⟩ := by
      rw [step_displaced stands, first]
      rfl
    exact .more inside' first' ih

theorem Advances.of_displaced {m'' : Machine}
    (advances : Advances q map' n (m.displaced k turn) d m'' d') :
    ∃ m', Advances p map n m d m' d' ∧ m'' = m'.displaced k turn := by
  induction n generalizing m d with
  | zero =>
    cases advances
    exact ⟨m, .none m _, rfl⟩
  | succ n ih =>
    cases advances with
    | more inside first rest =>
      have inside' : m.ip < p.size := by
        rw [stands.size] at inside
        exact Nat.lt_of_add_lt_add_left inside
      rw [step_displaced stands] at first
      obtain ⟨m₁, first', rfl⟩ := Turn.of_displaced_ok first
      obtain ⟨m', rest', rfl⟩ := ih rest
      exact ⟨m', .more inside' first' rest', rfl⟩

theorem run_displaced (n : Nat) (m : Machine) (d : δ) :
    run q map' n (m.displaced k turn) d = (run p map n m d).displaced k turn := by
  induction n generalizing m d with
  | zero => rfl
  | succ n ih =>
    rw [run, run, step_displaced stands]
    obtain ⟨answer, m', d'⟩ := step p map m d
    cases answer with
    | error fault => rfl
    | ok status =>
      cases status with
      | running => exact ih m' d'
      | halted =>
        show finish (m'.displaced k turn) d' = (finish m' d').displaced k turn
        unfold finish
        obtain ⟨answer, d''⟩ := Device.flush d'
        cases answer with
        | ok => rfl
        | error e => rfl

theorem ends_displaced_iff {answer' : Except Fault Unit} {m'' : Machine} :
    Ends q map' (m.displaced k turn) d answer' m'' d' ↔
      ∃ answer m', Ends p map m d answer m' d' ∧ answer' = answer.mapError (Fault.later k) ∧
        m'' = m'.displaced k turn := by
  constructor
  · rintro ⟨n, ended⟩
    rw [run_displaced stands] at ended
    obtain ⟨answer, m', ended', same⟩ := Run.of_displaced_ended ended
    exact ⟨answer, m', ⟨n, ended'⟩, same⟩
  · rintro ⟨answer, m', ⟨n, ended⟩, rfl, rfl⟩
    refine ⟨n, ?_⟩
    rw [run_displaced stands, ended]
    rfl

end StandsIn

-- ============================================================================
-- Moves in front of a program
-- ============================================================================

theorem step_move {i : Instruction} (move : i = .right ∨ i = .left) (here : q.get? k = some i)
    (map : BracketMap) (turn : Int) (d : δ) :
    ∃ status, step q map (fresh.displaced k turn) d =
      ⟨.ok status, fresh.displaced (k + 1) (turn + drift [i]), d⟩ := by
  have here' : q.get? (fresh.displaced k turn).ip = some i := here
  -- Where the tape turns as the head moves, the machine that follows is displaced.
  have next {tape : Tape} (turned : tape = Tape.blank.rotate (turn + drift [i])) :
      ({ fresh.displaced k turn with tape } : Machine).goPast k =
        fresh.displaced (k + 1) (turn + drift [i]) := by
    rw [turned]
    rfl
  refine ⟨(fresh.displaced (k + 1) (turn + drift [i])).status q, ?_⟩
  rcases move with rfl | rfl
  · rw [← next (Tape.moveRight_rotate_blank turn)]
    simp only [step, here']
    rfl
  · rw [← next (Tape.moveLeft_rotate_blank turn)]
    simp only [step, here']
    rfl

/-- Moves of the head displace a new machine. -/
theorem advances_moves {moves : List Instruction} (onlyMoves : ∀ i ∈ moves, i = .right ∨ i = .left)
    (p : Program) (map : BracketMap) (d : δ) {n : Nat} (le : n ≤ moves.length) :
    Advances (.ofList moves ++ p) map n .fresh d
      (Machine.fresh.displaced n (drift (moves.take n))) d := by
  induction n with
  | zero =>
    have same : Machine.fresh.displaced 0 (drift (moves.take 0)) = .fresh := by
      rw [displaced, List.take_zero, drift_nil, Tape.rotate_zero]
      rfl
    rw [same]
    exact .none _ d
  | succ n ih =>
    have inside : n < moves.length := by omega
    have there : moves[n]? = some moves[n] := List.getElem?_eq_getElem inside
    have here : (Program.ofList moves ++ p).get? n = some moves[n] := by
      rw [Program.get?_eq_getElem?, Program.toList_append, Program.toList_ofList,
        List.getElem?_append_left inside, there]
    obtain ⟨status, step⟩ := step_move (onlyMoves _ (List.getElem_mem inside)) here map
      (drift (moves.take n)) d
    rw [List.take_add_one, there, drift_append]
    exact (ih (by omega)).trans (.one (Program.lt_size_of_get? here) step)

/-- The program `q` does what `p` does, `k` positions and steps later and on a tape
    that is turned: the partners are as many positions further on, and whatever
    instructions `p` carries out, and however its run ends, so it is with `q`. -/
structure Delays (p q : Program) (map map' : BracketMap) (k : Nat) (turn : Int) : Prop where
  partner? : ∀ pos, map'.partner? (k + pos) = (map.partner? pos).map (k + ·)
  unpaired : ∀ pos, pos < k → map'.partner? pos = none
  advances : ∀ {δ : Type} [Device δ] (d d' : δ) (n : Nat) (m' : Machine),
    Advances q map' (k + n) .fresh d m' d' ↔
      ∃ m, Advances p map n .fresh d m d' ∧ m' = m.displaced k turn
  status : ∀ m : Machine, (m.displaced k turn).status q = m.status p
  ends : ∀ {δ : Type} [Device δ] (d d' : δ) (answer' : Except Fault Unit) (m' : Machine),
    Ends q map' .fresh d answer' m' d' ↔
      ∃ answer m, Ends p map .fresh d answer m d' ∧
        answer' = answer.mapError (Fault.later k) ∧ m' = m.displaced k turn
  diverges : ∀ {δ : Type} [Device δ] (d : δ),
    Diverges q map' .fresh d ↔ Diverges p map .fresh d

theorem standsIn_append {front : List Instruction} (noBracket : ∀ i ∈ front, i.isBracket = false)
    (paired : BracketMap.ofProgram p = .ok map)
    (paired' : BracketMap.ofProgram (.ofList front ++ p) = .ok map') :
    StandsIn p map (.ofList front ++ p) map' front.length where
  get? pos := by
    rw [Program.get?_eq_getElem?, Program.get?_eq_getElem?, Program.toList_append,
      Program.toList_ofList, getElem?_append_add]
  size := by
    rw [← Program.length_toList, Program.toList_append, Program.toList_ofList,
      List.length_append, Program.length_toList]
  partner? := BracketMap.partner?_behind noBracket paired' paired

theorem exists_delays {moves : List Instruction}
    (onlyMoves : ∀ i ∈ moves, i = .right ∨ i = .left)
    (paired : BracketMap.ofProgram p = .ok map) :
    ∃ map', BracketMap.ofProgram (.ofList moves ++ p) = .ok map' ∧
      Delays p (.ofList moves ++ p) map map' moves.length (drift moves) := by
  have noBracket : ∀ i ∈ moves, i.isBracket = false := by
    intro i mem
    rcases onlyMoves i mem with rfl | rfl
    · rfl
    · rfl
  obtain ⟨map', paired'⟩ := BracketMap.exists_ofProgram_append noBracket paired
  have stands := standsIn_append noBracket paired paired'
  have moved {δ : Type} [Device δ] (d : δ) :
      Advances (.ofList moves ++ p) map' moves.length .fresh d
        (fresh.displaced moves.length (drift moves)) d := by
    have all := advances_moves onlyMoves p map' d (Nat.le_refl moves.length)
    rwa [List.take_length] at all
  refine ⟨map', paired', stands.partner?, ?_, ?_, status_displaced stands, ?_, ?_⟩
  · intro pos inside
    exact BracketMap.partner?_in_front noBracket paired' inside
  · intro δ _ d d' n m'
    constructor
    · intro advances
      exact ((moved d).rest advances).of_displaced stands
    · rintro ⟨m, advances, rfl⟩
      exact (moved d).trans (advances.displaced stands)
  · intro δ _ d d' answer' m'
    exact (moved d).ends_iff.trans (ends_displaced_iff stands)
  · intro δ _ d
    rw [diverges_iff, diverges_iff]
    simp only [(moved d).ends_iff, ends_displaced_iff stands]
    apply not_congr
    constructor
    · rintro ⟨answer', m', d', answer, m, ends, -⟩
      exact ⟨answer, m, d', ends⟩
    · rintro ⟨answer, m, d', ends⟩
      exact ⟨_, _, d', answer, m, ends, rfl, rfl⟩

theorem exists_delays_replicate {i : Instruction} (move : i = .right ∨ i = .left)
    (paired : BracketMap.ofProgram p = .ok map) (k : Nat) :
    ∃ map', BracketMap.ofProgram (.ofList (List.replicate k i) ++ p) = .ok map' ∧
      Delays p (.ofList (List.replicate k i) ++ p) map map' k (drift (List.replicate k i)) := by
  have onlyMoves : ∀ j ∈ List.replicate k i, j = .right ∨ j = .left := by
    intro j mem
    rw [List.eq_of_mem_replicate mem]
    exact move
  have delays := exists_delays onlyMoves paired
  rwa [List.length_replicate] at delays

theorem drift_replicate_right (k : Nat) : drift (List.replicate k .right) = k := by
  rw [drift, List.count_replicate_self, List.count_replicate, if_neg (by decide)]
  omega

theorem drift_replicate_left (k : Nat) : drift (List.replicate k .left) = -k := by
  rw [drift, List.count_replicate_self, List.count_replicate, if_neg (by decide)]
  omega

/-- Moves of the head in front of a program delay it and turn its tape, and do nothing
    else: `k` moves to the right turn it by `k`, and as many to the left by `-k`. A
    fault is reported `k` positions further on. -/
theorem moves_in_front (paired : BracketMap.ofProgram p = .ok map) (k : Nat) :
    (∃ map', BracketMap.ofProgram (.ofList (List.replicate k .right) ++ p) = .ok map' ∧
      Delays p (.ofList (List.replicate k .right) ++ p) map map' k k) ∧
    (∃ map', BracketMap.ofProgram (.ofList (List.replicate k .left) ++ p) = .ok map' ∧
      Delays p (.ofList (List.replicate k .left) ++ p) map map' k (-k)) ∧
    ∀ fault : Fault, (fault.later k).report = fault.report.later k := by
  have right := exists_delays_replicate (.inl rfl) paired k
  have left := exists_delays_replicate (.inr rfl) paired k
  rw [drift_replicate_right] at right
  rw [drift_replicate_left] at left
  exact ⟨right, left, Fault.report_later k⟩

/-- Two moves to the right shift the partners of `[.]` by two; two moves to the left
    take the head from the first cell over the seam. -/
theorem moves_in_front_seam :
    (∃ map', BracketMap.ofProgram
        (.ofList [.right, .right] ++ .ofList [.loopOpen, .output, .loopClose]) = .ok map' ∧
      map'.partner? 2 = some 4) ∧
    ∃ map' m', Advances
        (.ofList [.left, .left] ++ .ofList [.loopOpen, .output, .loopClose]) map' 2
        .fresh (Wired.mk (Slice.ofList []) ({} : Recorder)) m' (.mk (.ofList []) {}) ∧
      m'.tape.head.val = 29998 := by
  have paired : BracketMap.ofProgram (.ofList [.loopOpen, .output, .loopClose]) =
      .ok ⟨#[some 2, none, some 0]⟩ := rfl
  obtain ⟨⟨map₁, paired₁, right⟩, ⟨map₂, -, left⟩, -⟩ := moves_in_front paired 2
  refine ⟨⟨map₁, paired₁, right.partner? 0⟩, map₂, fresh.displaced 2 (-2), ?_, ?_⟩
  · exact (left.advances _ _ 0 _).2 ⟨.fresh, .none _ _, rfl⟩
  · decide

end Machine

end NoteTape
