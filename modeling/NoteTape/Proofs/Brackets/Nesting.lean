/-
  NoteTape.Proofs.Brackets.Nesting

  Partners as a nesting: every bracket has a partner, a `[` comes before its `]`,
  and what stands between two partners has its partner between them (`Nests`).
  Nothing is said there of counting, and yet a nesting is what counting finds
  (`Nests.eq_some_iff_linked`): between two partners every bracket is matched, so
  nothing is left over. Hence a sequence has one nesting at most (`Nests.unique`).
-/

import Mathlib.Data.Finset.Card
import Mathlib.Order.Interval.Finset.Nat
import NoteTape.Proofs.Brackets.Partners

namespace NoteTape

/-- An assignment of partners to positions that nests the brackets of a sequence. -/
structure Nests (is : List Instruction) (partner? : Nat → Option Nat) : Prop where
  /-- The brackets have a partner, and nothing else has. -/
  bracket : ∀ i, (partner? i).isSome ↔ ∃ x, is[i]? = some x ∧ x.isBracket = true
  symm : ∀ i j, partner? i = some j → partner? j = some i
  /-- Of two partners the first opens and the second closes. -/
  ordered : ∀ i j, partner? i = some j →
    (i < j ∧ is[i]? = some .loopOpen ∧ is[j]? = some .loopClose) ∨
    (j < i ∧ is[j]? = some .loopOpen ∧ is[i]? = some .loopClose)
  /-- Whoever stands between two partners has its partner between them. -/
  inside : ∀ a b c d, partner? a = some b → partner? c = some d →
    a < c → c < b → a < d ∧ d < b

/-- The two positions hold partners, in one order or the other. -/
def Linked (is : List Instruction) (i j : Nat) : Prop := Partners is i j ∨ Partners is j i

variable {is : List Instruction} {partner? : Nat → Option Nat}

-- ============================================================================
-- Counting by positions
-- ============================================================================

theorem count_take_drop (is : List Instruction) (x : Instruction) (first n : Nat) :
    ((is.drop first).take n).count x =
      ((Finset.Ico first (first + n)).filter fun k => is[k]? = some x).card := by
  induction n with
  | zero => simp
  | succ n ih =>
    have last : first + n ∉ (Finset.Ico first (first + n)).filter fun k => is[k]? = some x := by
      simp
    rw [List.take_add_one, List.count_append, ih, List.getElem?_drop, ← Nat.add_assoc,
      Nat.Ico_succ_right_eq_insert_Ico (Nat.le_add_right first n), Finset.filter_insert]
    -- One more position counts if it holds the instruction.
    by_cases here : is[first + n]? = some x
    · rw [if_pos here, Finset.card_insert_of_notMem last, here]
      simp
    · rw [if_neg here]
      cases there : is[first + n]? with
      | none => simp
      | some y =>
        have ne : y ≠ x := by
          rintro rfl
          exact here there
        simp [ne]

theorem count_stretch (is : List Instruction) (x : Instruction) {first last : Nat}
    (le : first ≤ last + 1) :
    (stretch is first last).count x =
      ((Finset.Ico first (last + 1)).filter fun k => is[k]? = some x).card := by
  rw [stretch, count_take_drop, show first + (last + 1 - first) = last + 1 by omega]

namespace Nests

variable {opened closed first last : Nat}

/-- In a stretch in which all partners of `x` are found, and are `y`, there are at
    least as many `y`. -/
theorem count_le (h : Nests is partner?) {x y : Instruction} (le : first ≤ last + 1)
    (found : ∀ k, first ≤ k → k ≤ last → is[k]? = some x →
      ∃ j, partner? k = some j ∧ first ≤ j ∧ j ≤ last ∧ is[j]? = some y) :
    (stretch is first last).count x ≤ (stretch is first last).count y := by
  rw [count_stretch is x le, count_stretch is y le]
  apply Finset.card_le_card_of_injOn fun k => (partner? k).getD 0
  · intro k mem
    simp only [Finset.coe_filter, Finset.mem_Ico, Set.mem_ofPred_eq] at mem ⊢
    obtain ⟨j, partner, above, below, there⟩ := found k mem.1.1 (by omega) mem.2
    rw [partner, Option.getD_some]
    exact ⟨⟨above, by omega⟩, there⟩
  · intro k mem k' mem' same
    simp only [Finset.coe_filter, Finset.mem_Ico, Set.mem_ofPred_eq] at mem mem'
    obtain ⟨j, partner, -⟩ := found k mem.1.1 (by omega) mem.2
    obtain ⟨j', partner', -⟩ := found k' mem'.1.1 (by omega) mem'.2
    simp only [partner, partner', Option.getD_some] at same
    subst same
    -- Two brackets with the same partner are the partner of that partner.
    have back := h.symm k j partner
    rw [h.symm k' j partner'] at back
    exact (Option.some.inj back).symm

theorem exists_partner (h : Nests is partner?) {i : Nat} {x : Instruction} (here : is[i]? = some x)
    (bracket : x.isBracket = true) : ∃ j, partner? i = some j :=
  Option.isSome_iff_exists.1 ((h.bracket i).2 ⟨x, here, bracket⟩)

/-- What closes between two partners was opened between them. -/
theorem closes_le_opens (h : Nests is partner?) (pair : partner? opened = some closed)
    (le : opened ≤ last) (lt : last < closed) :
    (stretch is (opened + 1) last).count .loopClose ≤
      (stretch is (opened + 1) last).count .loopOpen := by
  apply h.count_le (by omega)
  intro k above below closes
  obtain ⟨j, partner⟩ := h.exists_partner closes rfl
  have inside := h.inside opened closed k j pair partner (by omega) (by omega)
  rcases h.ordered k j partner with ⟨-, opens, -⟩ | ⟨before, opens, -⟩
  · rw [closes] at opens
    cases opens
  · exact ⟨j, partner, by omega, by omega, opens⟩

/-- What opens between two partners is closed between them. -/
theorem opens_le_closes (h : Nests is partner?) (pair : partner? opened = some closed)
    (lt : opened < closed) :
    (stretch is (opened + 1) (closed - 1)).count .loopOpen ≤
      (stretch is (opened + 1) (closed - 1)).count .loopClose := by
  apply h.count_le (by omega)
  intro k above below opens
  obtain ⟨j, partner⟩ := h.exists_partner opens rfl
  have inside := h.inside opened closed k j pair partner (by omega) (by omega)
  rcases h.ordered k j partner with ⟨behind, -, closes⟩ | ⟨-, -, closes⟩
  · exact ⟨j, partner, by omega, by omega, closes⟩
  · rw [opens] at closes
    cases closes

/-- The partners of a nesting are those that counting finds. -/
theorem partners (h : Nests is partner?) (pair : partner? opened = some closed)
    (lt : opened < closed) : Partners is opened closed := by
  rcases h.ordered opened closed pair with ⟨-, opens, closes⟩ | ⟨gt, -⟩
  · have one : surplus (stretch is opened opened) = 1 := by
      rw [stretch_self opens]
      decide
    have minusOne : surplus (stretch is closed closed) = -1 := by
      rw [stretch_self closes]
      decide
    have front {last : Nat} (le : opened ≤ last) :
        surplus (stretch is opened last) = 1 + surplus (stretch is (opened + 1) last) := by
      rw [surplus_stretch_split (Nat.lt_succ_self opened) (by omega), Nat.succ_sub_one, one]
    refine ⟨lt, opens, closes, ?_, ?_⟩
    · have le := h.opens_le_closes pair lt
      have ge := h.closes_le_opens pair (Nat.le_sub_one_of_lt lt) (by omega)
      have between : surplus (stretch is (opened + 1) (closed - 1)) = 0 := by
        rw [surplus]
        omega
      rw [surplus_stretch_split lt (by omega), minusOne, front (Nat.le_sub_one_of_lt lt), between]
      decide
    · intro last above below
      have ge := h.closes_le_opens pair above below
      rw [front above, surplus]
      omega
  · omega

theorem linked (h : Nests is partner?) {i j : Nat} (pair : partner? i = some j) :
    Linked is i j := by
  rcases h.ordered i j pair with ⟨lt, -⟩ | ⟨gt, -⟩
  · exact .inl (h.partners pair lt)
  · exact .inr (h.partners (h.symm i j pair) gt)

end Nests

-- ============================================================================
-- Nestings and linked positions
-- ============================================================================

theorem Linked.unique {i j k : Nat} (h : Linked is i j) (h' : Linked is i k) : j = k := by
  rcases h with h | h <;> rcases h' with h' | h'
  · exact h.closed_unique h'
  · exact absurd rfl (h'.closed_ne_opened h)
  · exact absurd rfl (h.closed_ne_opened h')
  · exact h.opened_unique h'

theorem Linked.exists_bracket {i j : Nat} (h : Linked is i j) :
    ∃ x, is[i]? = some x ∧ x.isBracket = true := by
  rcases h with ⟨-, opens, -⟩ | ⟨-, -, closes, -⟩
  · exact ⟨_, opens, rfl⟩
  · exact ⟨_, closes, rfl⟩

/-- Partners that are linked, and given to all brackets, are all that are linked. -/
theorem eq_some_iff_linked
    (bracket : ∀ i, (partner? i).isSome ↔ ∃ x, is[i]? = some x ∧ x.isBracket = true)
    (sound : ∀ i j, partner? i = some j → Linked is i j) (i j : Nat) :
    partner? i = some j ↔ Linked is i j := by
  constructor
  · exact sound i j
  · intro linked
    obtain ⟨k, partner⟩ := Option.isSome_iff_exists.1 ((bracket i).2 linked.exists_bracket)
    rw [partner, (sound i k partner).unique linked]

theorem Nests.of_linked
    (bracket : ∀ i, (partner? i).isSome ↔ ∃ x, is[i]? = some x ∧ x.isBracket = true)
    (linked : ∀ i j, partner? i = some j ↔ Linked is i j) : Nests is partner? where
  bracket := bracket
  symm i j pair := (linked j i).2 ((linked i j).1 pair).symm
  ordered i j pair := by
    rcases (linked i j).1 pair with ⟨lt, opens, closes, -⟩ | ⟨lt, opens, closes, -⟩
    · exact .inl ⟨lt, opens, closes⟩
    · exact .inr ⟨lt, opens, closes⟩
  inside a b c d pair pair' ac cb := by
    have h : Partners is a b := by
      rcases (linked a b).1 pair with h | h
      · exact h
      · have := h.1
        omega
    -- Two pairs of partners are never crossed, whichever of `c` and `d` is first.
    rcases (linked c d).1 pair' with h' | h'
    · have := h.apart_or_inside h'
      have := h'.1
      omega
    · have := h.apart_or_inside h'
      have := h'.1
      omega

/-- A sequence of instructions has one nesting at most. -/
theorem Nests.unique {partner?' : Nat → Option Nat} (h : Nests is partner?)
    (h' : Nests is partner?') : partner? = partner?' := by
  funext i
  apply Option.ext
  intro j
  rw [eq_some_iff_linked h.bracket (fun _ _ => h.linked),
    eq_some_iff_linked h'.bracket (fun _ _ => h'.linked)]

end NoteTape
