/-
  NoteTape.Proofs.Brackets.Scan

  What the scan for partners has seen and what it answers, said by the structure
  of the program.

    * `Unclosed is opened` — `is` was seen and the brackets at the positions
      `opened`, innermost first, are open: behind each of them stands a block.
    * `Scanned is answer` — the three ways a scan of all of `is` can end: `is` is
      a block, a `]` closes nothing, or brackets are left open.

  `scan_scanned` is the invariant carried through the scan, and everything about
  the answer of `BracketMap.ofProgram` is read off `ofProgram_scanned`.
-/

import NoteTape.Brackets.Basic
import NoteTape.Proofs.Block.Flatten

namespace NoteTape

/-- The brackets that are open behind some instructions, innermost first. -/
inductive Unclosed : List Instruction → List Nat → Prop where
  | none (b : Block) : Unclosed b.flatten []
  | more {is : List Instruction} {outer : List Nat} (around : Unclosed is outer) (b : Block) :
    Unclosed (is ++ .loopOpen :: b.flatten) (is.length :: outer)

namespace Unclosed

variable {is : List Instruction} {opened outer : List Nat} {innermost : Nat}

/-- A block leaves the brackets that are open as they are. -/
theorem append (h : Unclosed is opened) (b : Block) : Unclosed (is ++ b.flatten) opened := by
  cases h with
  | none c =>
    rw [← Block.flatten_append]
    exact .none _
  | more around c =>
    rw [List.append_assoc, List.cons_append, ← Block.flatten_append]
    exact .more around _

theorem act (h : Unclosed is opened) {i : Instruction} (plain : i.isBracket = false) :
    Unclosed (is ++ [i]) opened := by
  obtain ⟨a, rfl⟩ := Action.exists_instruction plain
  exact h.append (.act a .done)

theorem opens (h : Unclosed is opened) : Unclosed (is ++ [.loopOpen]) (is.length :: opened) :=
  .more h .done

/-- A `]` makes the innermost open bracket and the block behind it a loop. -/
theorem closes (h : Unclosed is (innermost :: outer)) : Unclosed (is ++ [.loopClose]) outer := by
  cases h with
  | more around b =>
    have h := around.append (.loop b .done)
    simpa only [Block.flatten, List.append_assoc, List.cons_append] using h

theorem surplus_eq (h : Unclosed is opened) : surplus is = opened.length := by
  induction h with
  | none b => exact b.balanced_flatten.2
  | more around b ih =>
    rw [surplus_append, surplus_cons_loopOpen, b.balanced_flatten.2, ih, List.length_cons]
    omega

theorem surplus_take_nonneg (h : Unclosed is opened) (n : Nat) : 0 ≤ surplus (is.take n) := by
  induction h generalizing n with
  | none b => exact b.balanced_flatten.1 n
  | more around b ih =>
    apply surplus_take_append_nonneg ih
    intro k
    have whole := around.surplus_eq
    have := surplus_take_cons_loopOpen_nonneg b.balanced_flatten.1 k
    omega

/-- The innermost open bracket is the last one that stays open. -/
theorem leftOpenAt (h : Unclosed is (innermost :: outer)) : LeftOpenAt is innermost := by
  cases h with
  | @more is outer around b =>
    refine ⟨⟨?_, ?_⟩, ?_⟩
    · simp
    · intro last le
      have inner := b.balanced_flatten.1 (last - is.length)
      rw [stretch, List.drop_left, show last + 1 - is.length = last - is.length + 1 by omega,
        List.take_succ_cons, surplus_cons_loopOpen]
      omega
    · intro later behind stays
      -- Behind the bracket stands a block, and the rest of a block has no surplus.
      have positive := stays.pos_surplus_drop
      have inner := b.balanced_flatten.surplus_drop_nonpos (later - is.length - 1)
      rw [List.drop_append, List.drop_of_length_le (by omega), List.nil_append,
        show later - is.length = later - is.length - 1 + 1 by omega,
        List.drop_succ_cons] at positive
      omega

end Unclosed

/-- How a scan of instructions can end. -/
inductive Scanned : List Instruction → Except Fault BracketMap → Prop where
  | nested (b : Block) (map : BracketMap) : Scanned b.flatten (.ok map)
  | stray {before : List Instruction} (closed : Unclosed before []) (after : List Instruction) :
    Scanned (before ++ .loopClose :: after) (.error (.strayClose before.length))
  | left {is : List Instruction} {innermost : Nat} {outer : List Nat}
    (seen : Unclosed is (innermost :: outer)) :
    Scanned is (.error (.leftOpen (outer.length + 1) innermost))

/-- Whatever a scan blames, brackets are unbalanced. -/
theorem Scanned.kind_of_error {is : List Instruction} {fault : Fault}
    (h : Scanned is (.error fault)) : fault.report.kind = .unbalancedBrackets := by
  cases h <;> rfl

namespace BracketMap

/-- A scan that goes on behind instructions whose open brackets it knows. -/
theorem scan_scanned {before : List Instruction} {opened : List Nat} (seen : Unclosed before opened)
    (is : List Instruction) (map : BracketMap) :
    Scanned (before ++ is) (scan is before.length opened map) := by
  -- On what is left to scan; `seen` is the invariant of what was scanned.
  induction is generalizing before opened map with
  | nil =>
    rw [List.append_nil]
    cases opened with
    | nil =>
      cases seen with
      | none b => exact .nested b map
    | cons innermost outer => exact .left seen
  | cons i is ih =>
    have next {opened'} (seen' : Unclosed (before ++ [i]) opened') (map' : BracketMap) :
        Scanned (before ++ i :: is) (scan is (before.length + 1) opened' map') := by
      have h := ih seen' map'
      rwa [List.append_assoc, List.singleton_append, List.length_append, List.length_singleton] at h
    cases i with
    | loopOpen => exact next seen.opens map
    | loopClose =>
      cases opened with
      | nil => exact .stray seen is
      | cons innermost outer => exact next seen.closes _
    | right | left | increment | decrement | output | input => exact next (seen.act rfl) map

theorem ofProgram_scanned (p : Program) : Scanned p.toList (ofProgram p) :=
  scan_scanned (.none .done) p.toList _

/-- A program whose brackets have partners is written by a block. -/
theorem exists_flatten_of_ofProgram {p : Program} {map : BracketMap}
    (paired : ofProgram p = .ok map) : ∃ b : Block, b.flatten = p.toList := by
  have h := ofProgram_scanned p
  rw [paired] at h
  generalize p.toList = is at h
  cases h with
  | nested b => exact ⟨b, rfl⟩

end BracketMap

end NoteTape
