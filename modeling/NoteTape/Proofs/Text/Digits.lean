/-
  NoteTape.Proofs.Text.Digits

  The numbers that digits give. `numeral?` reads digits of a base whatever the size
  of the number; a number of 64 bits is read off the same digits exactly if it fits,
  since no number on the way to one that fits is too large.
-/

import NoteTape.Text.Digits

namespace NoteTape.Text

/-- The number behind one more digit. -/
def digitBehind (base value : Nat) (c : Char) : Option Nat :=
  (digitValue? base c).map (value * base + ·)

/-- The number that digits of a base give, if they are digits and there are any. -/
def numeral? (base : Nat) (cs : List Char) : Option Nat :=
  if cs.isEmpty then none else cs.foldlM (digitBehind base) 0

variable {base value n : Nat} {cs : List Char}

/-- More digits make a number no smaller. -/
theorem le_of_foldlM_digitBehind (pos : 0 < base)
    (h : cs.foldlM (digitBehind base) value = some n) : value ≤ n := by
  induction cs generalizing value with
  | nil => exact Nat.le_of_eq (Option.some.inj h)
  | cons c cs ih =>
    rw [List.foldlM_cons, Option.bind_eq_bind, Option.bind_eq_some_iff] at h
    obtain ⟨next, here, more⟩ := h
    obtain ⟨digit, -, rfl⟩ := Option.map_eq_some_iff.mp here
    calc
      value ≤ value * base := Nat.le_mul_of_pos_right value pos
      _ ≤ value * base + digit := Nat.le_add_right _ _
      _ ≤ n := ih more

theorem readDigitsOn_eq_ok_iff (pos : 0 < base) (fits : value < wordLimit) :
    readDigitsOn base value cs = .ok n ↔
      cs.foldlM (digitBehind base) value = some n ∧ n < wordLimit := by
  induction cs generalizing value with
  | nil =>
    constructor
    · rintro ⟨⟩
      exact ⟨rfl, fits⟩
    · rintro ⟨⟨⟩, -⟩
      rfl
  | cons c cs ih =>
    rw [readDigitsOn, List.foldlM_cons, Option.bind_eq_bind]
    cases digit : digitValue? base c with
    | none => simp [digitBehind, digit]
    | some d =>
      simp only [digitBehind, digit, Option.map_some, Option.bind_some]
      split
      · rename_i small
        exact ih small
      · rename_i large
        constructor
        · rintro ⟨⟩
        · rintro ⟨read, small⟩
          exact absurd (Nat.lt_of_le_of_lt (le_of_foldlM_digitBehind pos read) small) large

/-- A number of 64 bits is read off its digits exactly if it fits. -/
theorem readDigits_eq_ok_iff (pos : 0 < base) :
    readDigits base cs = .ok n ↔ numeral? base cs = some n ∧ n < wordLimit := by
  cases cs with
  | nil => simp [readDigits, numeral?]
  | cons c cs => exact readDigitsOn_eq_ok_iff pos (by decide)

end NoteTape.Text
