/-
  NoteTape.Proofs.Brackets.Surplus

  Arithmetic of the surplus along a sequence of instructions. One instruction
  changes the surplus by at most one, so a bracket that stays open keeps every
  stretch behind it above zero (`StaysOpen.pos_surplus_stretch`), and balance is
  kept when balanced sequences are joined or put between two brackets.
-/

import NoteTape.Brackets.Balance

namespace NoteTape

/-! ## One instruction -/

/-- One instruction takes at most one from the surplus. -/
theorem neg_one_le_surplus_singleton (i : Instruction) : -1 ≤ surplus [i] := by
  cases i <;> decide

/-- A beginning that is one instruction longer has lost at most one. -/
theorem surplus_take_succ_ge (is : List Instruction) (n : Nat) :
    surplus (is.take n) - 1 ≤ surplus (is.take (n + 1)) := by
  rw [List.take_add_one, surplus_append]
  cases is[n]? with
  | none => simp only [Option.toList_none, surplus_nil]; omega
  | some i =>
    have h := neg_one_le_surplus_singleton i
    simp only [Option.toList_some]
    omega

theorem surplus_take_add_drop (is : List Instruction) (n : Nat) :
    surplus (is.take n) + surplus (is.drop n) = surplus is := by
  rw [← surplus_append, List.take_append_drop]

/-! ## Beginnings of joined sequences -/

/-- A beginning of two joined sequences is a beginning of the first, or the whole
    first with a beginning of the second. -/
theorem surplus_take_append_nonneg {is js : List Instruction}
    (left : ∀ n, 0 ≤ surplus (is.take n)) (right : ∀ n, 0 ≤ surplus is + surplus (js.take n))
    (n : Nat) : 0 ≤ surplus ((is ++ js).take n) := by
  rw [List.take_append, surplus_append]
  -- The beginning ends inside `is` or behind it.
  by_cases h : n ≤ is.length
  · rw [Nat.sub_eq_zero_of_le h, List.take_zero, surplus_nil]
    have := left n
    omega
  · rw [List.take_of_length_le (by omega)]
    exact right _

theorem surplus_take_cons_loopOpen_nonneg {is : List Instruction}
    (inner : ∀ n, 0 ≤ surplus (is.take n)) (n : Nat) :
    0 ≤ surplus ((.loopOpen :: is).take n) := by
  cases n with
  | zero => simp
  | succ n =>
    have := inner n
    rw [List.take_succ_cons, surplus_cons_loopOpen]
    omega

/-! ## Balanced sequences -/

theorem Balanced.nil : Balanced [] := by
  constructor
  · intro n
    simp
  · rfl

theorem Balanced.append {is js : List Instruction} (left : Balanced is) (right : Balanced js) :
    Balanced (is ++ js) := by
  constructor
  · apply surplus_take_append_nonneg left.1
    intro n
    have := right.1 n
    rw [left.2]
    omega
  · rw [surplus_append, left.2, right.2]
    rfl

theorem Balanced.singleton {i : Instruction} (h : i.isBracket = false) : Balanced [i] := by
  constructor
  · intro n
    cases n with
    | zero => simp
    | succ n => simp [surplus_cons_of_not_isBracket h]
  · rw [surplus_cons_of_not_isBracket h, surplus_nil]

/-- A balanced sequence between two brackets is balanced. -/
theorem Balanced.enclose {is : List Instruction} (inner : Balanced is) :
    Balanced (.loopOpen :: (is ++ [.loopClose])) := by
  have whole : surplus (.loopOpen :: is) = 1 := by rw [surplus_cons_loopOpen, inner.2]; rfl
  constructor
  · rw [← List.cons_append]
    apply surplus_take_append_nonneg (surplus_take_cons_loopOpen_nonneg inner.1)
    intro n
    -- The closing bracket takes back the one that the opening bracket gave.
    rw [whole]
    cases n with
    | zero => decide
    | succ n => simp
  · rw [← List.cons_append, surplus_append, whole]
    rfl

/-- What is left of a balanced sequence never opens more than it closes. -/
theorem Balanced.surplus_drop_nonpos {is : List Instruction} (h : Balanced is) (n : Nat) :
    surplus (is.drop n) ≤ 0 := by
  have whole := surplus_take_add_drop is n
  have := h.1 n
  rw [h.2] at whole
  omega

/-! ## Brackets that stay open -/

theorem stretch_self {is : List Instruction} {pos : Nat} {i : Instruction}
    (h : is[pos]? = some i) : stretch is pos pos = [i] := by
  rw [stretch, show pos + 1 - pos = 0 + 1 by omega, List.take_add_one, List.getElem?_drop,
    Nat.add_zero, h]
  rfl

/-- The surplus behind an opening bracket starts at one, so as long as it is never
    zero it never gets below one. -/
theorem pos_surplus_stretch {is : List Instruction} {pos last : Nat}
    (opens : is[pos]? = some .loopOpen) (le : pos ≤ last)
    (never : ∀ k, pos ≤ k → k ≤ last → surplus (stretch is pos k) ≠ 0) :
    1 ≤ surplus (stretch is pos last) := by
  obtain ⟨k, rfl⟩ := Nat.exists_eq_add_of_le le
  clear le
  -- One position at a time: the surplus loses at most one, and zero is excluded.
  induction k with
  | zero =>
    rw [Nat.add_zero, stretch_self opens]
    decide
  | succ k ih =>
    have before := ih (fun i above below => never i above (by omega))
    have step := surplus_take_succ_ge (is.drop pos) (k + 1)
    have nonzero := never (pos + (k + 1)) (by omega) (by omega)
    rw [stretch, show pos + (k + 1) + 1 - pos = k + 1 + 1 by omega] at nonzero ⊢
    rw [stretch, show pos + k + 1 - pos = k + 1 by omega] at before
    omega

theorem StaysOpen.pos_surplus_stretch {is : List Instruction} {pos : Nat} (h : StaysOpen is pos)
    {last : Nat} (le : pos ≤ last) : 1 ≤ surplus (stretch is pos last) :=
  NoteTape.pos_surplus_stretch h.1 le fun k above _ => h.2 k above

theorem StaysOpen.pos_surplus_drop {is : List Instruction} {pos : Nat} (h : StaysOpen is pos) :
    1 ≤ surplus (is.drop pos) := by
  have := h.pos_surplus_stretch (Nat.le_add_right pos is.length)
  rwa [stretch, List.take_of_length_le (by rw [List.length_drop]; omega)] at this

end NoteTape
