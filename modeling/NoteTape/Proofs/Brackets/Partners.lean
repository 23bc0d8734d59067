/-
  NoteTape.Proofs.Brackets.Partners

  Partners as counting finds them, in any sequence of instructions, balanced or
  not. From an opening bracket on the surplus stays above zero until its partner
  is reached (`Partners.pos_surplus_stretch`). So a bracket has one partner at
  most, and whoever opens between two partners closes between them
  (`Partners.closes_inside`): two pairs are apart or one is inside the other.
-/

import NoteTape.Proofs.Brackets.Surplus

namespace NoteTape

variable {is : List Instruction} {first later last : Nat}

/-- A stretch is cut in two in front of a later position. -/
theorem surplus_stretch_split (lt : first < later) (le : later ≤ last + 1) :
    surplus (stretch is first last) =
      surplus (stretch is first (later - 1)) + surplus (stretch is later last) := by
  have cut : last + 1 - first = (later - first) + (last + 1 - later) := by omega
  have here : later - 1 + 1 - first = later - first := by omega
  have rest : first + (later - first) = later := by omega
  rw [stretch, cut, List.take_add, surplus_append, List.drop_drop, rest, stretch, here, stretch]

namespace Partners

variable {opened closed opened' closed' : Nat}

theorem pos_surplus_stretch (h : Partners is opened closed) (le : opened ≤ last)
    (lt : last < closed) : 1 ≤ surplus (stretch is opened last) := by
  obtain ⟨-, opens, -, -, never⟩ := h
  apply NoteTape.pos_surplus_stretch opens le
  intro k above below
  exact never k above (by omega)

theorem surplus_stretch_nonneg (h : Partners is opened closed) (le : opened ≤ last)
    (le' : last ≤ closed) : 0 ≤ surplus (stretch is opened last) := by
  rcases Nat.lt_or_eq_of_le le' with lt | rfl
  · have := h.pos_surplus_stretch le lt
    omega
  · exact Int.le_of_eq h.2.2.2.1.symm

/-- Who opens between two partners closes between them. -/
theorem closes_inside (h : Partners is opened closed) (h' : Partners is opened' closed')
    (behind : opened < opened') (before : opened' < closed) : closed' < closed := by
  rcases Nat.lt_or_ge closed' closed with inside | outside
  · exact inside
  -- Up to the second opening the surplus is positive, and from there to the first
  -- closing it is not negative; but both parts together have none.
  have whole : surplus (stretch is opened closed) =
      surplus (stretch is opened (opened' - 1)) + surplus (stretch is opened' closed) :=
    surplus_stretch_split behind (by omega)
  have left : 1 ≤ surplus (stretch is opened (opened' - 1)) :=
    h.pos_surplus_stretch (by omega) (by omega)
  have right : 0 ≤ surplus (stretch is opened' closed) :=
    h'.surplus_stretch_nonneg (by omega) (by omega)
  rw [h.2.2.2.1] at whole
  omega

theorem closed_unique (h : Partners is opened closed) (h' : Partners is opened closed') :
    closed = closed' := by
  obtain ⟨lt, -, -, balanced, never⟩ := h
  obtain ⟨lt', -, -, balanced', never'⟩ := h'
  rcases Nat.lt_trichotomy closed closed' with less | same | more
  · exact absurd balanced (never' closed (by omega) less)
  · exact same
  · exact absurd balanced' (never closed' (by omega) more)

theorem opened_unique (h : Partners is opened closed) (h' : Partners is opened' closed) :
    opened = opened' := by
  have lt := h.1
  have lt' := h'.1
  rcases Nat.lt_trichotomy opened opened' with less | same | more
  · have := h.closes_inside h' less lt'
    omega
  · exact same
  · have := h'.closes_inside h more lt
    omega

/-- An opening bracket closes nothing. -/
theorem closed_ne_opened (h : Partners is opened closed) (h' : Partners is opened' closed') :
    closed ≠ opened' := by
  rintro rfl
  have closes := h.2.2.1
  have opens := h'.2.1
  rw [closes] at opens
  cases opens

/-- Two pairs of partners are the same, or apart, or one is inside the other. -/
theorem apart_or_inside (h : Partners is opened closed) (h' : Partners is opened' closed') :
    (opened = opened' ∧ closed = closed') ∨ closed < opened' ∨ closed' < opened ∨
      (opened < opened' ∧ closed' < closed) ∨ (opened' < opened ∧ closed < closed') := by
  have ne := h.closed_ne_opened h'
  have ne' := h'.closed_ne_opened h
  rcases Nat.lt_trichotomy opened opened' with less | rfl | more
  · by_cases between : opened' < closed
    · have := h.closes_inside h' less between
      omega
    · omega
  · exact .inl ⟨rfl, h.closed_unique h'⟩
  · by_cases between : opened < closed'
    · have := h'.closes_inside h more between
      omega
    · omega

end Partners

end NoteTape
