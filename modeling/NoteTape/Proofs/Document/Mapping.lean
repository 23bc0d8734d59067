/-
  NoteTape.Proofs.Document.Mapping

  A mapping without braces whose keys and values are scalars, one entry to a line.
  `Mapping text entries` says how such a text is written: the keys stand in one
  column, each is followed by a colon and a value or nothing, and between the lines
  there are blank lines and comments. `tokensOf?_of_mapping` says which tokens the
  text has; a line is three turns, and the lines are read one after another.
-/

import NoteTape.Proofs.Document.Turns

namespace NoteTape.Document

/-- A key and the white space behind it: it is not taken for a marker where a line
    begins, and it is not too long. -/
structure KeyText (written white : List Char) (key : Scalar) : Prop where
  spelled : Spelled written key
  unmarked : atMarker written = false
  blank : white.all isSpace = true
  short : byteLength (written ++ white) ≤ longestKey

/-- An entry on a line, up to the end of its value. -/
inductive EntryLine : List Char → Entry → Prop where
  | value {keyText white gap valueText : List Char} {key value : Scalar}
    (begins : KeyText keyText white key) (apart : gap ≠ [] ∧ gap.all isSpace = true)
    (spelled : Spelled valueText value) :
    EntryLine (keyText ++ (white ++ ':' :: (gap ++ valueText))) (.scalar key, .scalar value)
  | nothing {keyText white : List Char} {key : Scalar} (begins : KeyText keyText white key) :
    EntryLine (keyText ++ (white ++ [':'])) (.scalar key, .empty)

/-- The lines of a mapping in a column, from behind the indentation of the first. -/
inductive EntryLines (column : Nat) : List Char → List Entry → Prop where
  | last {line filler : List Char} {entry : Entry} {z : Idle} (written : EntryLine line entry)
    (idle : Idle.behind.nextAll filler = some z) : EntryLines column (line ++ filler) [entry]
  | more {line filler rest : List Char} {entry : Entry} {entries : List Entry}
    (written : EntryLine line entry) (idle : Idle.behind.nextAll filler = some .indent)
    (indented : indentation filler = column) (lines : EntryLines column rest entries) :
    EntryLines column (line ++ (filler ++ rest)) (entry :: entries)

/-- A text that is a mapping with these entries, which a marker may open. -/
inductive Mapping : List Char → List Entry → Prop where
  | plain {lead lines : List Char} {entries : List Entry}
    (idle : Idle.indent.nextAll lead = some .indent)
    (written : EntryLines (indentation lead) lines entries) : Mapping (lead ++ lines) entries
  | marked {lead filler lines : List Char} {entries : List Entry}
    (idle : Idle.indent.nextAll lead = some .indent) (first : indentation lead = 0)
    (behind : Idle.behind.nextAll filler = some .indent)
    (written : EntryLines (indentation filler) lines entries) :
    Mapping (lead ++ '-' :: '-' :: '-' :: (filler ++ lines)) entries

/-- The tokens of a value, if anything is written for it. -/
def Value.tokens : Value → List Token
  | .scalar s => if s = {} then [] else [.scalar s.style s.text]
  | .collection => []

/-- The tokens of an entry of a mapping. -/
def entryTokens (e : Entry) : List Token := .key :: (e.1.tokens ++ .value :: e.2.tokens)

theorem Spelled.tokens_eq {written : List Char} {s : Scalar} (h : Spelled written s) :
    (Value.scalar s).tokens = [.scalar s.style s.text] := by
  refine if_neg ?_
  rintro rfl
  obtain ⟨c, cs, shown, -⟩ := h.exists_cons
  cases h with
  | plain => exact List.cons_ne_nil c cs shown.symm

-- ============================================================================
-- The white space of a line
-- ============================================================================

theorem onOneLine_of_white {white : List Char} (all : white.all isSpace = true) :
    onOneLine white = true := by
  rw [onOneLine, List.all_eq_true]
  intro c mem
  rw [isBreak_of_isSpace (List.all_eq_true.mp all c mem), Bool.not_false]

theorem exists_nextAll_white {z : Idle} {white : List Char} (all : white.all isSpace = true)
    (sameLine : z = .behind ∨ z = .white) :
    ∃ z', z.nextAll white = some z' ∧ (z' = .behind ∨ z' = .white) := by
  induction white generalizing z with
  | nil => exact ⟨z, rfl, sameLine⟩
  | cons c cs ih =>
    rw [List.all_cons, Bool.and_eq_true] at all
    have next : z.next c = some .white := by
      obtain rfl | rfl := sameLine
      · simp [Idle.next, isBreak_of_isSpace all.1, all.1]
      · simp [Idle.next, isBreak_of_isSpace all.1, all.1]
    obtain ⟨z', idle, there⟩ := ih all.2 (.inr rfl)
    exact ⟨z', by rw [Idle.nextAll, List.foldlM_cons, next]; exact idle, there⟩

/-- White space inside a line is skipped up to a token. -/
theorem skipSpace_white {white rest : List Char} {c : Char} (all : white.all isSpace = true)
    (begins : beginsToken c = true) (m : Mark) :
    Layout.skipSpace false false false m (white ++ c :: rest) =
      (false, ⟨m.pastAll white, c :: rest⟩) := by
  obtain ⟨z, idle, sameLine⟩ := exists_nextAll_white all (.inl rfl)
  obtain ⟨k, allows, skips⟩ := Layout.skipSpace_idle idle .behind m (c :: rest)
  have outside : z.inComment = false := by
    obtain rfl | rfl := sameLine <;> rfl
  have noKey : k = false := by
    obtain rfl | rfl := sameLine <;> cases allows <;> rfl
  rw [noKey, outside, Layout.skipSpace_of_begins begins] at skips
  exact skips

theorem atTriple_append {mark : Char} {cs rest : List Char} (unmarked : atTriple mark cs = false)
    (other : rest.head? ≠ some mark) : atTriple mark (cs ++ rest) = false := by
  cases rest with
  | nil => rwa [List.append_nil]
  | cons d rest =>
    have apart : d ≠ mark := by simpa using other
    rcases cs with _ | ⟨a, _ | ⟨b, _ | ⟨c, _ | ⟨e, cs⟩⟩⟩⟩
    · rcases rest with _ | ⟨_, _ | ⟨_, rest⟩⟩ <;> simp [atTriple, apart]
    · rcases rest with _ | ⟨_, rest⟩ <;> simp [atTriple, apart]
    · simp [atTriple, apart]
    · simp_all [atTriple, atSpace]
    · exact unmarked

/-- A key is taken for no marker, whatever stands behind it. -/
theorem KeyText.atMarker_append {written white rest : List Char} {key : Scalar}
    (h : KeyText written white key) : atMarker (written ++ (white ++ ':' :: rest)) = false := by
  have unmarked := h.unmarked
  rw [atMarker, Bool.or_eq_false_iff] at unmarked ⊢
  have other {mark : Char} (colon : ':' ≠ mark) (visible : isSpace mark = false) :
      (white ++ ':' :: rest).head? ≠ some mark := by
    cases shown : white with
    | nil => simpa using colon
    | cons c cs =>
      have space : isSpace c = true := by
        have all := h.blank
        rw [shown, List.all_cons, Bool.and_eq_true] at all
        exact all.1
      rintro ⟨⟩
      exact absurd space (by simp [visible])
  exact ⟨atTriple_append unmarked.1 (other (by decide) rfl),
    atTriple_append unmarked.2 (other (by decide) rfl)⟩

/-- What stands behind a token ends a word. -/
theorem atSpace_of_idle {z : Idle} {filler rest : List Char}
    (idle : Idle.behind.nextAll filler = some z) (ended : filler ≠ [] ∨ rest = []) :
    atSpace (filler ++ rest) = true := by
  cases filler with
  | nil =>
    obtain none | rfl := ended
    · exact absurd rfl none
    · rfl
  | cons c cs =>
    obtain ⟨next, step, -⟩ := Idle.nextAll_cons idle
    cases step with
    | lineEnd ends => simp [atSpace, ends]
    | white _ space => simp [atSpace, space]
    | opens apart => simp at apart

/-- A value stands in a column behind that of its key. -/
theorem KeyText.column_lt {written white gap : List Char} {key : Scalar}
    (h : KeyText written white key) (blank : gap.all isSpace = true) (m : Mark) :
    m.column < ((m.pastAll (written ++ (white ++ [':']))).pastAll gap).column := by
  have line : onOneLine (written ++ (white ++ [':']) ++ gap) = true := by
    rw [onOneLine_append, onOneLine_append, onOneLine_append, h.spelled.onOneLine,
      onOneLine_of_white h.blank, onOneLine_of_white blank]
    rfl
  rw [← Mark.pastAll_append, Mark.pastAll_of_onOneLine line]
  simp only [List.length_append, List.length_cons]
  omega

theorem EntryLine.exists_cons {line : List Char} {e : Entry} (h : EntryLine line e) :
    ∃ c cs, line = c :: cs ∧ beginsToken c = true := by
  cases h with
  | value begins =>
    obtain ⟨c, cs, rfl, begun, -⟩ := begins.spelled.exists_cons
    exact ⟨c, _, rfl, begun⟩
  | nothing begins =>
    obtain ⟨c, cs, rfl, begun, -⟩ := begins.spelled.exists_cons
    exact ⟨c, _, rfl, begun⟩

theorem EntryLines.exists_cons {column : Nat} {text : List Char} {entries : List Entry}
    (h : EntryLines column text entries) : ∃ c cs, text = c :: cs ∧ beginsToken c = true := by
  cases h with
  | last written =>
    obtain ⟨c, cs, rfl, begun⟩ := written.exists_cons
    exact ⟨c, _, rfl, begun⟩
  | more written =>
    obtain ⟨c, cs, rfl, begun⟩ := written.exists_cons
    exact ⟨c, _, rfl, begun⟩

-- ============================================================================
-- The turns of a line
-- ============================================================================

namespace Layout

variable {l : Layout} {tokens : List Token} {indents : List Nat} {ahead : Cursor} {m : Mark}

/-- A key and the colon behind it are two turns. -/
theorem Stands.keyText {written white rest : List Char} {key : Scalar} {k : Bool}
    (h : Stands l tokens indents none true ⟨m, written ++ (white ++ ':' :: rest)⟩)
    (begins : KeyText written white key) (opened : indents = [] ∨ indents = [m.column])
    (spaced : atSpace rest = true)
    (after : skipSpace false false false (m.pastAll (written ++ (white ++ [':']))) rest =
      (k, ahead)) :
    ∃ next, Turns 2 l next ∧ Stands next
      (tokens ++ (opening indents ++ [.key, .scalar key.style key.text, .value])) [m.column] none k
      ahead := by
  have inside : ∀ column ∈ indents, column ≤ m.column := by
    obtain rfl | rfl := opened
    · simp
    · simp
  obtain ⟨z, idle, sameLine⟩ := exists_nextAll_white begins.blank (.inl rfl)
  have colon : skipSpace false false false (m.pastAll written) (white ++ ':' :: rest) =
      (false, ⟨(m.pastAll written).pastAll white, ':' :: rest⟩) :=
    skipSpace_white begins.blank rfl _
  obtain ⟨atColon, first, h⟩ := h.scalar begins.spelled inside (fun _ => begins.atMarker_append)
    idle (.colon sameLine spaced) colon
  rw [if_pos rfl] at h
  rw [← Mark.pastAll_append] at h
  have line : onOneLine (written ++ white) = true := by
    rw [onOneLine_append, begins.spelled.onOneLine, onOneLine_of_white begins.blank, Bool.and_true]
  have place := Mark.pastAll_of_onOneLine line m
  have reaches : (candidate tokens indents m).reaches (m.pastAll (written ++ white)) = true := by
    simpa [Candidate.reaches, candidate, place] using begins.short
  have behind : m.column < (m.pastAll (written ++ white)).column := by
    obtain ⟨c, cs, rfl, -⟩ := begins.spelled.exists_cons
    rw [place]
    exact Nat.lt_add_of_pos_right (by simp)
  have after' : skipSpace false false false ((m.pastAll (written ++ white)).past ':') rest =
      (k, ahead) := by
    rw [← after, ← List.append_assoc, Mark.pastAll_append m (written ++ white)]
    rfl
  obtain ⟨next, second, h⟩ := h.colon opened reaches behind spaced after'
  exact ⟨next, first.trans second, h⟩

/-- The turns of a line up to what is idle behind it. -/
theorem Stands.entryLine {line filler rest : List Char} {e : Entry} {z : Idle} {k : Bool}
    (written : EntryLine line e)
    (h : Stands l tokens indents none true ⟨m, line ++ (filler ++ rest)⟩)
    (opened : indents = [] ∨ indents = [m.column]) (idle : Idle.behind.nextAll filler = some z)
    (ended : filler ≠ [] ∨ rest = [])
    (ends : EndsPlain (m.column + 1) (m.pastAll (line ++ filler)) z rest)
    (after : skipSpace false false false (m.pastAll line) (filler ++ rest) = (k, ahead)) :
    ∃ count next, count ≤ line.length ∧ Turns count l next ∧
      Stands next (tokens ++ (opening indents ++ entryTokens e)) [m.column] none k ahead := by
  cases written with
  | @nothing keyText white key begins =>
    rw [List.append_assoc, List.append_assoc, List.singleton_append] at h
    obtain ⟨next, turns, h⟩ := h.keyText begins opened (atSpace_of_idle idle ended) after
    refine ⟨2, next, ?_, turns, ?_⟩
    · obtain ⟨c, cs, rfl, -⟩ := begins.spelled.exists_cons
      simp only [List.length_append, List.length_cons, List.length_nil]
      omega
    · rw [entryTokens, begins.spelled.tokens_eq]
      exact h
  | @value keyText white gap valueText key value begins apart spelled =>
    obtain ⟨c, cs, shown, begun, -⟩ := spelled.exists_cons
    have spaced : atSpace (gap ++ (valueText ++ (filler ++ rest))) = true := by
      obtain ⟨_, white, -⟩ := exists_nextAll_white apart.2 (.inl rfl)
      exact atSpace_of_idle white (.inl apart.1)
    have whole : keyText ++ (white ++ ':' :: (gap ++ valueText)) ++ (filler ++ rest) =
        keyText ++ (white ++ ':' :: (gap ++ (valueText ++ (filler ++ rest)))) := by
      simp only [List.append_assoc, List.cons_append]
    have toValue : m.pastAll (keyText ++ (white ++ ':' :: (gap ++ valueText))) =
        ((m.pastAll (keyText ++ (white ++ [':']))).pastAll gap).pastAll valueText := by
      rw [← Mark.pastAll_append, ← Mark.pastAll_append]
      simp only [List.append_assoc, List.cons_append, List.nil_append]
    have value_ahead : skipSpace false false false (m.pastAll (keyText ++ (white ++ [':'])))
        (gap ++ (valueText ++ (filler ++ rest))) =
        (false, ⟨(m.pastAll (keyText ++ (white ++ [':']))).pastAll gap,
          valueText ++ (filler ++ rest)⟩) := by
      rw [shown]
      exact skipSpace_white apart.2 begun _
    have behind := begins.column_lt apart.2 m
    rw [whole] at h
    rw [Mark.pastAll_append, toValue, ← Mark.pastAll_append] at ends
    rw [toValue] at after
    obtain ⟨atValue, first, h⟩ := h.keyText begins opened spaced value_ahead
    obtain ⟨next, second, h⟩ := h.scalar spelled (by simpa using Nat.le_of_lt behind)
      (fun start => absurd start (Nat.ne_of_gt (Nat.zero_lt_of_lt behind))) idle ends after
    refine ⟨3, next, ?_, first.trans second, ?_⟩
    · obtain ⟨d, ds, rfl, -⟩ := begins.spelled.exists_cons
      subst shown
      simp only [List.length_append, List.length_cons]
      omega
    · rw [if_neg Bool.false_ne_true, List.append_assoc, List.append_assoc] at h
      rw [entryTokens, begins.spelled.tokens_eq, spelled.tokens_eq]
      exact h

/-- Behind lines that are idle, a key may begin with the token that follows. -/
theorem skipSpace_to_token {z : Idle} {filler rest : List Char} {c : Char} {k : Bool}
    (idle : z.nextAll filler = some .indent) (allows : z.Allows k) (outside : z ≠ .comment)
    (begins : beginsToken c = true) (m : Mark) :
    skipSpace false k false m (filler ++ c :: rest) = (true, ⟨m.pastAll filler, c :: rest⟩) := by
  obtain ⟨k', ⟨⟩, skips⟩ := skipSpace_idle idle allows m (c :: rest)
  rw [Idle.inComment_of_ne outside, Idle.inComment_of_ne (by decide),
    skipSpace_of_begins begins] at skips
  exact skips

/-- The lines of a mapping are read one after another. -/
theorem Stands.entryLines {column : Nat} {text : List Char} {entries : List Entry}
    (written : EntryLines column text entries)
    (h : Stands l tokens indents none true ⟨m, text⟩) (start : m.column = column)
    (opened : indents = [] ∨ indents = [column]) :
    ∃ count, count ≤ text.length ∧ ∀ more, (l.readTokens (more + 1 + count)).map (·.toList) =
      some (tokens ++ (opening indents ++ (entries.flatMap entryTokens ++ [.blockEnd]))) := by
  induction written generalizing l tokens indents m with
  | @last line filler entry z written idle =>
    subst start
    obtain ⟨k, -, skips⟩ := skipSpace_idle idle .behind (m.pastAll line) []
    rw [skipSpace] at skips
    rw [← List.append_nil filler] at h
    obtain ⟨count, next, short, turns, h⟩ :=
      h.entryLine written opened idle (.inr rfl) (.nothing z) skips
    refine ⟨count, ?_, fun more => ?_⟩
    · rw [List.length_append]
      exact Nat.le_add_right_of_le short
    · rw [turns, h.finish]
      simp
  | @more line filler rest entry entries written idle indented lines ih =>
    subst start
    obtain ⟨c, cs, rfl, begins⟩ := lines.exists_cons
    have column : (m.pastAll (line ++ filler)).column = m.column := by
      rw [Mark.pastAll_append, column_pastAll_eq_indentation idle (by decide), indented]
    have skips : skipSpace false false false (m.pastAll line) (filler ++ c :: cs) =
        (true, ⟨m.pastAll (line ++ filler), c :: cs⟩) := by
      rw [Mark.pastAll_append]
      exact skipSpace_to_token idle .behind (by decide) begins _
    have some_filler : filler ≠ [] := by
      rintro rfl
      cases idle
    obtain ⟨count, next, short, turns, h⟩ := h.entryLine written opened idle (.inl some_filler)
      (.token (column ▸ Nat.lt_succ_self _) begins) skips
    obtain ⟨count', short', reads⟩ := ih h column (.inr rfl)
    refine ⟨count' + count, ?_, fun more => ?_⟩
    · rw [List.length_append, List.length_append]
      omega
    · rw [← Nat.add_assoc, turns, reads]
      simp [opening]

end Layout

/-- The tokens of a mapping. -/
def mappingTokens (entries : List Entry) : List Token :=
  .mappingStart :: (entries.flatMap entryTokens ++ [.blockEnd])

theorem length_unifyBreaksOn_le (read cs : List Char) :
    (unifyBreaksOn read cs).length ≤ read.length + cs.length := by
  induction read, cs using unifyBreaksOn.induct with
  | case1 read => simp [unifyBreaksOn]
  | case2 read cs ih =>
    rw [unifyBreaksOn]
    simp only [List.length_cons] at ih ⊢
    omega
  | case3 read c cs single ih =>
    rw [unifyBreaksOn]
    · simp only [List.length_cons] at ih ⊢
      omega
    · exact single

/-- The tokens of a mapping, behind the marker if there is one. -/
theorem tokensOf?_of_mapping {text : List Char} {entries : List Entry}
    (allowed : text.all isAllowed = true) (written : Mapping (unifyBreaks text) entries) :
    ∃ marker, (marker = [] ∨ marker = [.documentStart]) ∧
      tokensOf? text = some (marker ++ mappingTokens entries) := by
  have short : (unifyBreaks text).length ≤ text.length := by
    simpa [unifyBreaks] using length_unifyBreaksOn_le [] text
  rw [tokensOf?, if_pos allowed]
  generalize unifyBreaks text = document at written short
  cases written with
  | @plain lead lines entries idle written =>
    obtain ⟨c, cs, rfl, begins⟩ := written.exists_cons
    have start : Layout.Stands { rest := lead ++ c :: cs } [] [] none true
        ⟨Mark.pastAll {} lead, c :: cs⟩ :=
      ⟨rfl, rfl, rfl, rfl, Layout.skipSpace_to_token idle .indent (by decide) begins _⟩
    obtain ⟨count, within, reads⟩ := start.entryLines written rfl (.inl rfl)
    have enough : text.length + 1 = text.length - count + 1 + count := by
      rw [List.length_append] at short
      omega
    refine ⟨[], .inl rfl, ?_⟩
    rw [enough, reads]
    rfl
  | @marked lead filler lines entries idle first behind written =>
    obtain ⟨c, cs, rfl, begins⟩ := written.exists_cons
    have start : Layout.Stands { rest := lead ++ '-' :: '-' :: '-' :: (filler ++ c :: cs) } [] []
        none true ⟨Mark.pastAll {} lead, '-' :: '-' :: '-' :: (filler ++ c :: cs)⟩ :=
      ⟨rfl, rfl, rfl, rfl, Layout.skipSpace_to_token idle .indent (by decide) rfl _⟩
    have some_filler : filler ≠ [] := by
      rintro rfl
      cases behind
    obtain ⟨next, turns, h⟩ := start.marker first (atSpace_of_idle behind (.inl some_filler))
      (Layout.skipSpace_to_token behind .behind (by decide) begins _)
    obtain ⟨count, within, reads⟩ := h.entryLines written
      (column_pastAll_eq_indentation behind (by decide) _) (.inl rfl)
    have enough : text.length + 1 = text.length - count - 1 + 1 + count + 1 := by
      simp only [List.length_append, List.length_cons] at short within
      omega
    refine ⟨[.documentStart], .inr rfl, ?_⟩
    simp only [enough, turns _, reads]
    rfl

end NoteTape.Document
