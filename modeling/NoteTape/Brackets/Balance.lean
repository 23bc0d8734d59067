/-
  NoteTape.Brackets.Balance

  What it means for brackets to be balanced and for two of them to be partners,
  said by counting alone. The `surplus` of a sequence of instructions is how many
  more brackets it opens than it closes; brackets are `Balanced` if no beginning
  of the sequence has a negative surplus and the whole has none.
-/

import NoteTape.Instruction

namespace NoteTape

/-- How many more brackets are opened than closed. -/
def surplus (is : List Instruction) : Int := is.count .loopOpen - is.count .loopClose

@[simp] theorem surplus_nil : surplus [] = 0 := rfl

theorem surplus_append (is js : List Instruction) :
    surplus (is ++ js) = surplus is + surplus js := by
  simp only [surplus, List.count_append]
  omega

@[simp] theorem surplus_cons_loopOpen (is : List Instruction) :
    surplus (.loopOpen :: is) = surplus is + 1 := by
  simp only [surplus, List.count_cons, beq_self_eq_true, if_true]
  rw [if_neg (by decide)]
  omega

@[simp] theorem surplus_cons_loopClose (is : List Instruction) :
    surplus (.loopClose :: is) = surplus is - 1 := by
  simp only [surplus, List.count_cons, beq_self_eq_true, if_true]
  rw [if_neg (by decide)]
  omega

theorem surplus_cons_of_not_isBracket {i : Instruction} (h : i.isBracket = false)
    (is : List Instruction) : surplus (i :: is) = surplus is := by
  cases i <;> simp_all [surplus, Instruction.isBracket]

/-- The instructions from position `first` up to and including position `last`. -/
def stretch (is : List Instruction) (first last : Nat) : List Instruction :=
  (is.drop first).take (last + 1 - first)

/-- Every bracket closes one that is open, and none stays open. -/
def Balanced (is : List Instruction) : Prop :=
  (∀ n, 0 ≤ surplus (is.take n)) ∧ surplus is = 0

/-- Position `pos` is the first at which more brackets are closed than opened. -/
def StrayAt (is : List Instruction) (pos : Nat) : Prop :=
  surplus (is.take (pos + 1)) < 0 ∧ ∀ n, n ≤ pos → 0 ≤ surplus (is.take n)

/-- The bracket at position `pos` opens, and what follows never comes back to
    balance. -/
def StaysOpen (is : List Instruction) (pos : Nat) : Prop :=
  is[pos]? = some .loopOpen ∧ ∀ last, pos ≤ last → surplus (stretch is pos last) ≠ 0

/-- Position `pos` is the last of a bracket that stays open. -/
def LeftOpenAt (is : List Instruction) (pos : Nat) : Prop :=
  StaysOpen is pos ∧ ∀ later, pos < later → ¬ StaysOpen is later

/-- The bracket at `opened` opens, the one at `closed` closes, and `closed` is the
    first position at which balance is reached again. -/
def Partners (is : List Instruction) (opened closed : Nat) : Prop :=
  opened < closed ∧ is[opened]? = some .loopOpen ∧ is[closed]? = some .loopClose ∧
    surplus (stretch is opened closed) = 0 ∧
    ∀ last, opened ≤ last → last < closed → surplus (stretch is opened last) ≠ 0

/-- Two partners that stand inside no other two. -/
def Outermost (is : List Instruction) (opened closed : Nat) : Prop :=
  Partners is opened closed ∧
    ∀ o c, Partners is o c → ¬ (o < opened ∧ closed < c)

end NoteTape
