/-
  NoteTape.Brackets.Basic

  The partner of every bracket of a program. `BracketMap.ofProgram` reads the
  program once from left to right and keeps the positions of the brackets that
  are open, innermost first: a `]` is paired with the innermost, and is a stray
  if there is none; what is open at the end is left open.
-/

import NoteTape.Fault
import NoteTape.Program

namespace NoteTape

/-- The partner of each position that holds a bracket. -/
structure BracketMap where
  partners : Array (Option Nat)
  deriving DecidableEq, Repr, Inhabited

namespace BracketMap

/-- The map in which no position has a partner. -/
def empty : BracketMap := ⟨#[]⟩

/-- The partner of the bracket at a position. -/
def partner? (map : BracketMap) (pos : Nat) : Option Nat := map.partners[pos]?.join

/-- The positions that have a partner, in order, each with its partner. -/
def entries (map : BracketMap) : List (Nat × Nat) :=
  (List.range map.partners.size).filterMap fun pos => (map.partner? pos).map (pos, ·)

/-- The number of positions that have a partner. -/
def size (map : BracketMap) : Nat := map.entries.length

/-- Whether no position has a partner. -/
def isEmpty (map : BracketMap) : Bool := map.entries.isEmpty

/-- The map in which two positions are partners of each other as well. -/
def link (map : BracketMap) (opened closed : Nat) : BracketMap :=
  ⟨(map.partners.setIfInBounds opened (some closed)).setIfInBounds closed (some opened)⟩

/-- Pairs the brackets of the instructions from position `pos` on. `opened` holds
    the positions of the brackets still open, innermost first, and `map` the
    pairs made so far. -/
def scan : List Instruction → (pos : Nat) → (opened : List Nat) → BracketMap →
    Except Fault BracketMap
  | [], _, [], map => .ok map
  | [], _, innermost :: outer, _ => .error (.leftOpen (outer.length + 1) innermost)
  | .loopOpen :: is, pos, opened, map => scan is (pos + 1) (pos :: opened) map
  | .loopClose :: _, pos, [], _ => .error (.strayClose pos)
  | .loopClose :: is, pos, innermost :: outer, map =>
    scan is (pos + 1) outer (map.link innermost pos)
  | _ :: is, pos, opened, map => scan is (pos + 1) opened map

/-- The partners of all brackets of a program, if every bracket has one. -/
def ofProgram (p : Program) : Except Fault BracketMap :=
  scan p.toList 0 [] ⟨Array.replicate p.size none⟩

end BracketMap

end NoteTape
