/-
  NoteTape.Proofs.Document.Turns

  The turns in which the tokens of a mapping without braces are read. Of a layout
  only `Stands` counts: the tokens that were read, the collection that is open, the
  key that may have begun, and what skipping white space leads to. Each kind of turn
  leads from one such description to the next.

    * `Stands.scalar` — a scalar, as a key or as a value.
    * `Stands.colon` — the colon behind a key, which puts the token of the key in
      front of it and opens the mapping behind the first one.
    * `Stands.marker` — the marker in front of a document.
    * `Stands.finish` — the end of the text, which closes the mapping.
-/

import NoteTape.Proofs.Document.Spelling

namespace NoteTape.Document

theorem insertIdx_length_append {α : Type} (front behind : List α) (a : α) :
    (front ++ behind).insertIdx front.length a = front ++ a :: behind := by
  induction front with
  | nil => rfl
  | cons b front ih => rw [List.cons_append, List.length_cons, List.insertIdx_succ_cons, ih]; rfl

theorem toList_insertIdxIfInBounds {α : Type} {xs : Array α} {front behind : List α}
    (split : xs.toList = front ++ behind) (a : α) :
    (xs.insertIdxIfInBounds front.length a).toList = front ++ a :: behind := by
  have inside : front.length ≤ xs.size := by
    rw [← Array.length_toList, split, List.length_append]
    exact Nat.le_add_right _ _
  rw [Array.insertIdxIfInBounds, dif_pos inside, Array.toList_insertIdx, split,
    insertIdx_length_append]

namespace Layout

variable {l next : Layout} {tokens : List Token} {indents : List Nat} {key : Option Candidate}
  {keyAllowed : Bool} {ahead : Cursor}

/-- So many turns lead from a layout to another. -/
def Turns (count : Nat) (l next : Layout) : Prop :=
  ∀ more, l.readTokens (more + count) = next.readTokens more

theorem Turns.one {s : Layout} (settled : l.settle = some s) (goesOn : s.rest ≠ [])
    (read : s.readToken = some next) : Turns 1 l next := by
  intro more
  rw [readTokens, settled]
  simp only [List.isEmpty_iff, goesOn, if_false, read]

theorem Turns.trans {first second : Nat} {middle : Layout} (h : Turns first l middle)
    (h' : Turns second middle next) : Turns (second + first) l next := by
  intro more
  rw [← Nat.add_assoc, h, h']

/-- What counts of a layout outside of brackets: it has these tokens, open collections
    and key, and behind white space it goes on like this. -/
structure Stands (l : Layout) (tokens : List Token) (indents : List Nat) (key : Option Candidate)
    (keyAllowed : Bool) (ahead : Cursor) : Prop where
  block : l.outer = []
  tokens : l.tokens.toList = tokens
  indents : l.indents = indents
  key : l.key = key
  ahead : skipSpace false l.keyAllowed false l.mark l.rest = (keyAllowed, ahead)

/-- The same of a layout that is there already. -/
structure Settled (l : Layout) (tokens : List Token) (indents : List Nat) (key : Option Candidate)
    (keyAllowed : Bool) (here : Cursor) : Prop where
  block : l.outer = []
  tokens : l.tokens.toList = tokens
  indents : l.indents = indents
  key : l.key = key
  keyAllowed : l.keyAllowed = keyAllowed
  here : l.toCursor = here

/-- In a column of the innermost collection or behind it nothing is closed. -/
theorem Stands.settle (h : Stands l tokens indents key keyAllowed ahead)
    (reaches : key.all (·.reaches ahead.mark) = true)
    (inside : ∀ column ∈ indents, column ≤ ahead.mark.column) :
    ∃ s, l.settle = some s ∧ Settled s tokens indents key keyAllowed ahead := by
  have flat : l.inFlow = false := by
    rw [inFlow, h.block]
    rfl
  have kept : l.indents.dropWhile (ahead.mark.column < ·) = l.indents := by
    rw [h.indents]
    cases indents with
    | nil => rfl
    | cons column outer =>
      have first := inside column List.mem_cons_self
      rw [List.dropWhile_cons_of_neg (by simpa using first)]
  have settled : l.settle = some { l with toCursor := ahead, keyAllowed } := by
    rw [Layout.settle, flat, h.ahead]
    simp only [dropOldKey, h.key, reaches, if_true, Option.map_some, closeBlocks, inFlow,
      h.block, List.isEmpty_nil, Bool.not_true, Bool.false_eq_true, if_false, closeTo, kept,
      Nat.sub_self, Array.replicate_zero, Array.append_empty]
  exact ⟨_, settled, h.block, h.tokens, h.indents, h.key, rfl, rfl⟩

/-- The least column inside the innermost of some open collections. -/
def marginOf (indents : List Nat) : Nat := indents.head?.elim 0 (· + 1)

/-- The key that may begin with the token at a place. -/
def candidate (tokens : List Token) (indents : List Nat) (m : Mark) : Candidate :=
  { position := tokens.length, mark := m, required := indents.head? = some m.column }

/-- The token that opens a mapping, in front of its first key. -/
def opening (indents : List Nat) : List Token := if indents = [] then [.mappingStart] else []

namespace Settled

variable {m : Mark} {rest : List Char} {s : Layout}

theorem inFlow (h : Settled s tokens indents key keyAllowed ahead) : s.inFlow = false := by
  rw [Layout.inFlow, h.block]
  rfl

theorem margin (h : Settled s tokens indents key keyAllowed ahead) :
    s.margin = marginOf indents := by
  rw [← h.indents]
  unfold Layout.margin
  split <;> simp [marginOf, *]

theorem mayBeKey (h : Settled s tokens indents none keyAllowed ahead) :
    ∃ s', s.mayBeKey = some s' ∧ Settled s' tokens indents
      (if keyAllowed then some (candidate tokens indents ahead.mark) else none) keyAllowed
      ahead := by
  cases keyAllowed with
  | false => exact ⟨s, if_neg (by simp [h.keyAllowed]), h⟩
  | true =>
    have begun : s.mayBeKey =
        some { s with key := some (candidate tokens indents ahead.mark) } := by
      simp [Layout.mayBeKey, h.keyAllowed, dropKey, h.key, Layout.inFlow, h.block, h.indents,
        h.here, candidate, ← h.tokens]
    exact ⟨_, begun, h.block, h.tokens, h.indents, rfl, h.keyAllowed, h.here⟩

/-- The token of a key goes in front of what is read as the key, and that of the
    mapping in front of it, unless the mapping is open. -/
theorem insertKey_openBlock {start : Mark} {token : Token}
    (h : Settled s (tokens ++ [token]) indents key keyAllowed ahead)
    (opened : indents = [] ∨ indents = [start.column]) :
    ∃ s', (s.insertKey (candidate tokens indents start)).openBlock start.column tokens.length
        .mappingStart = s' ∧ s'.tokens.toList = tokens ++ (opening indents ++ [.key, token]) ∧
      s'.indents = [start.column] ∧ s'.outer = [] ∧ s'.toCursor = ahead := by
  have inserted : (s.insertKey (candidate tokens indents start)).tokens.toList =
      tokens ++ [.key, token] := toList_insertIdxIfInBounds h.tokens .key
  have flat : (s.insertKey (candidate tokens indents start)).inFlow = false := h.inFlow
  have margin : (s.insertKey (candidate tokens indents start)).margin = marginOf indents := h.margin
  refine ⟨_, rfl, ?_⟩
  rw [openBlock, flat, margin, Bool.false_or]
  obtain rfl | rfl := opened
  · rw [if_neg (by simp [marginOf])]
    exact ⟨toList_insertIdxIfInBounds inserted _, congrArg _ h.indents, h.block, h.here⟩
  · rw [if_pos (by simp [marginOf])]
    exact ⟨inserted, h.indents, h.block, h.here⟩

end Settled

namespace Stands

variable {m : Mark} {rest : List Char} {k : Bool}

/-- A scalar is read in one turn. A key may have begun with it if one was allowed. -/
theorem scalar {written filler : List Char} {s : Scalar} {z : Idle}
    (h : Stands l tokens indents none keyAllowed ⟨m, written ++ (filler ++ rest)⟩)
    (spelled : Spelled written s) (inside : ∀ column ∈ indents, column ≤ m.column)
    (unmarked : m.column = 0 → atMarker (written ++ (filler ++ rest)) = false)
    (idle : Idle.behind.nextAll filler = some z)
    (ends : EndsPlain (marginOf indents) (m.pastAll (written ++ filler)) z rest)
    (after : skipSpace false false false (m.pastAll written) (filler ++ rest) = (k, ahead)) :
    ∃ next, Turns 1 l next ∧
      Stands next (tokens ++ [.scalar s.style s.text]) indents
        (if keyAllowed then some (candidate tokens indents m) else none) k ahead := by
  have near : marginOf indents ≤ m.column + 1 := by
    cases indents with
    | nil => exact Nat.zero_le _
    | cons column outer => exact Nat.succ_le_succ (inside column List.mem_cons_self)
  obtain ⟨settled, settles, at_token⟩ := h.settle rfl inside
  have goesOn : settled.rest ≠ [] := by
    obtain ⟨c, cs, rfl, -⟩ := spelled.exists_cons
    rw [at_token.here]
    exact List.cons_ne_nil _ _
  obtain ⟨begun, begins, with_key⟩ := at_token.mayBeKey
  obtain ⟨allowed, c, read, skips⟩ := readToken_spelled spelled at_token.block
    (by rw [at_token.here]) (by rw [at_token.margin, at_token.here]; exact near)
    (by rw [at_token.here]; exact unmarked) idle
    (by rw [at_token.margin, at_token.here]; exact ends)
  rw [begins, Option.map_some] at read
  rw [at_token.here] at skips
  refine ⟨_, .one settles goesOn read, with_key.block, ?_, with_key.indents, with_key.key,
    skips.trans after⟩
  simp [pushScalar, push, with_key.tokens]

/-- A colon behind a key is read in one turn. -/
theorem colon {start : Mark} {token : Token}
    (h : Stands l (tokens ++ [token]) indents (some (candidate tokens indents start)) false
      ⟨m, ':' :: rest⟩)
    (opened : indents = [] ∨ indents = [start.column])
    (reaches : (candidate tokens indents start).reaches m = true) (behind : start.column < m.column)
    (spaced : atSpace rest = true)
    (after : skipSpace false false false (m.past ':') rest = (k, ahead)) :
    ∃ next, Turns 1 l next ∧
      Stands next (tokens ++ (opening indents ++ [.key, token, .value])) [start.column] none k
        ahead := by
  have inside : ∀ column ∈ indents, column ≤ m.column := by
    obtain rfl | rfl := opened
    · simp
    · simpa using Nat.le_of_lt behind
  obtain ⟨s, settles, at_colon⟩ := h.settle reaches inside
  obtain ⟨s', inserts, inserted, column, block, here⟩ := at_colon.insertKey_openBlock opened
  have read : s.readToken = s.readColon := by
    have later : m.column ≠ 0 := by omega
    have notPlain : s.place.startsPlain (':' :: rest) = false := by
      simp [Place.startsPlain, spaced]
    unfold readToken
    simp [at_colon.here, later, notPlain]
  have pushed : s.readColon =
      some ({ s' with key := none, keyAllowed := false }.push .value (s'.forward 1)) := by
    unfold readColon
    simp only [at_colon.key]
    rw [← inserts]
    rfl
  refine ⟨_, .one settles (by simp [at_colon.here]) (read.trans pushed), block, ?_, column, rfl, ?_⟩
  · simp [push, inserted]
  · rw [← after]
    simp [push, Cursor.forward, here, Mark.pastAll]

/-- A marker is read in one turn. -/
theorem marker (h : Stands l tokens [] none keyAllowed ⟨m, '-' :: '-' :: '-' :: rest⟩)
    (first : m.column = 0) (spaced : atSpace rest = true)
    (after : skipSpace false false false (m.pastAll ['-', '-', '-']) rest = (k, ahead)) :
    ∃ next, Turns 1 l next ∧ Stands next (tokens ++ [.documentStart]) [] none k ahead := by
  obtain ⟨s, settles, at_marker⟩ := h.settle rfl (by simp)
  have left : s.leave = some { s with keyAllowed := false } := by
    simp [leave, closeAll, at_marker.inFlow, closeTo, at_marker.indents, dropKey, at_marker.key]
  have read : s.readToken =
      some ({ s with keyAllowed := false }.push .documentStart (s.forward 3)) := by
    unfold readToken
    simp [at_marker.here, first, atTriple, spaced, readMarker, left]
  refine ⟨_, .one settles (by simp [at_marker.here]) read, at_marker.block, ?_, at_marker.indents,
    at_marker.key, ?_⟩
  · simp [push, at_marker.tokens]
  · rw [← after]
    simp [push, Cursor.forward, at_marker.here]

/-- The end of the text closes the mapping. -/
theorem finish {column : Nat} (h : Stands l tokens [column] none keyAllowed ⟨m, []⟩)
    (more : Nat) : (l.readTokens (more + 1)).map (·.toList) = some (tokens ++ [.blockEnd]) := by
  have flat : l.inFlow = false := by
    rw [inFlow, h.block]
    rfl
  have settled : l.settle =
      some ({ l with toCursor := ⟨m, []⟩, keyAllowed }.closeBlocks m.column) := by
    rw [Layout.settle, flat, h.ahead]
    simp [dropOldKey, h.key]
  -- The mapping is closed by the column of the end or else by the end itself.
  rw [readTokens, settled]
  rcases Nat.lt_or_ge m.column column with less | more
  · simp [closeBlocks, closeTo, leave, closeAll, dropKey, inFlow, h.block, h.indents, h.key,
      h.tokens, less]
  · simp [closeBlocks, closeTo, leave, closeAll, dropKey, inFlow, h.block, h.indents, h.key,
      h.tokens, Nat.not_lt.mpr more]

end Stands

end Layout

end NoteTape.Document
