/-
  NoteTape.Proofs.Document.Idle

  What may stand between two tokens of a mapping without braces: white space, line
  ends, blank lines and comments. `Idle` says where a reader stands in it and
  `Idle.next` which character may follow there, so that whether a text is idle is
  computed.

    * `skipSpace_idle` — skipping white space crosses it.
    * `readPlain_idle` — plain text in front of it ends, and leaves it to be crossed;
      how much of it the plain text has read is nobody's concern.
-/

import NoteTape.Document.Layout

namespace NoteTape.Document

-- ============================================================================
-- Places
-- ============================================================================

namespace Mark

theorem pastAll_cons (m : Mark) (c : Char) (cs : List Char) :
    m.pastAll (c :: cs) = (m.past c).pastAll cs := rfl

theorem pastAll_append (m : Mark) (front behind : List Char) :
    m.pastAll (front ++ behind) = (m.pastAll front).pastAll behind :=
  List.foldl_append

theorem past_of_break (m : Mark) {c : Char} (ends : isBreak c = true) :
    m.past c = { index := m.index + c.utf8Size, line := m.line + 1, column := 0 } := by
  rw [past, if_pos ends]

theorem past_of_inside (m : Mark) {c : Char} (inside : isBreak c = false) :
    m.past c = { m with index := m.index + c.utf8Size, column := m.column + 1 } := by
  rw [past, if_neg (by simp [inside])]

end Mark

/-- The number of bytes of a text. -/
def byteLength : List Char → Nat
  | [] => 0
  | c :: cs => c.utf8Size + byteLength cs

/-- Whether a text stays on one line. -/
def onOneLine (cs : List Char) : Bool := cs.all fun c => !isBreak c

theorem Mark.pastAll_of_onOneLine {cs : List Char} (line : onOneLine cs = true) (m : Mark) :
    m.pastAll cs =
      { index := m.index + byteLength cs, line := m.line, column := m.column + cs.length } := by
  induction cs generalizing m with
  | nil => rfl
  | cons c cs ih =>
    rw [onOneLine, List.all_cons, Bool.and_eq_true, Bool.not_eq_true'] at line
    rw [Mark.pastAll_cons, ih line.2, Mark.past_of_inside m line.1]
    simp only [byteLength, List.length_cons, Mark.mk.injEq, true_and]
    omega

theorem isBreak_of_isSpace {c : Char} (space : isSpace c = true) : isBreak c = false := by
  simp only [isSpace, Bool.or_eq_true, decide_eq_true_eq] at space
  obtain rfl | rfl := space <;> rfl

-- ============================================================================
-- What stands between tokens
-- ============================================================================

/-- Where a reader stands between two tokens. -/
inductive Idle where
  /-- Right behind a token. -/
  | behind
  /-- Behind a token and white space. -/
  | white
  /-- In a comment. -/
  | comment
  /-- Where a line begins, or behind the spaces that it begins with. -/
  | indent
  deriving DecidableEq, Repr

namespace Idle

/-- Where a reader stands behind one more character, if it is idle there. A comment
    does not begin right behind a token, and no tab stands in front of a token on its
    line. -/
def next (z : Idle) (c : Char) : Option Idle :=
  if isBreak c then some .indent
  else match z with
    | .comment => some .comment
    | .behind => if isSpace c then some .white else none
    | .white => if isSpace c then some .white else if c = '#' then some .comment else none
    | .indent => if c = ' ' then some .indent else if c = '#' then some .comment else none

/-- Where a reader stands behind more characters. -/
def nextAll (z : Idle) (cs : List Char) : Option Idle := cs.foldlM next z

/-- Whether a reader is in a comment. -/
def inComment (z : Idle) : Bool := z = .comment

/-- What a reader that stands there knows of keys: one may begin on a new line only. -/
inductive Allows : Idle → Bool → Prop where
  | behind : Allows .behind false
  | white : Allows .white false
  | comment (keyAllowed : Bool) : Allows .comment keyAllowed
  | indent : Allows .indent true

/-- The ways to go on by one character. -/
inductive Step : Idle → Char → Idle → Prop where
  | lineEnd {z : Idle} {c : Char} (ends : isBreak c = true) : Step z c .indent
  | white {z : Idle} {c : Char} (sameLine : z = .behind ∨ z = .white)
    (space : isSpace c = true) : Step z c .white
  | indent : Step .indent ' ' .indent
  | opens {z : Idle} (apart : z = .white ∨ z = .indent) : Step z '#' .comment
  | comment {c : Char} (inside : isBreak c = false) : Step .comment c .comment

theorem step_of_next {z z' : Idle} {c : Char} (h : z.next c = some z') : Step z c z' := by
  unfold next at h
  cases ends : isBreak c with
  | true =>
    rw [if_pos ends] at h
    cases h
    exact .lineEnd ends
  | false =>
    rw [if_neg (by simp [ends])] at h
    cases z with
    | comment =>
      cases h
      exact .comment ends
    | behind =>
      obtain ⟨space, there⟩ := Option.ite_none_right_eq_some.mp h
      cases there
      exact .white (.inl rfl) space
    | white =>
      simp only at h
      split at h
      · rename_i space
        cases h
        exact .white (.inr rfl) space
      · obtain ⟨rfl, there⟩ := Option.ite_none_right_eq_some.mp h
        cases there
        exact .opens (.inl rfl)
    | indent =>
      simp only at h
      split at h
      · rename_i space
        cases h
        exact space ▸ .indent
      · obtain ⟨rfl, there⟩ := Option.ite_none_right_eq_some.mp h
        cases there
        exact .opens (.inr rfl)

theorem Step.ne_comment {z z' : Idle} {c : Char} (step : Step z c z')
    (white : (isSpace c || isBreak c) = true) (outside : z ≠ .comment) : z' ≠ .comment := by
  rintro rfl
  cases step with
  | opens => exact absurd white (by decide)
  | comment => exact outside rfl

/-- Outside of comments a key may begin exactly behind a line end. -/
theorem allows_iff {z : Idle} {k : Bool} (outside : z ≠ .comment) :
    z.Allows k ↔ k = decide (z = .indent) := by
  constructor
  · rintro (_ | _ | _ | _)
    · rfl
    · rfl
    · exact absurd rfl outside
    · rfl
  · rintro rfl
    cases z with
    | behind => exact .behind
    | white => exact .white
    | comment => exact absurd rfl outside
    | indent => exact .indent

theorem inComment_of_ne {z : Idle} (outside : z ≠ .comment) : z.inComment = false := by
  simp [inComment, outside]

@[simp] theorem nextAll_nil (z : Idle) : z.nextAll [] = some z := rfl

theorem nextAll_cons {z last : Idle} {c : Char} {cs : List Char}
    (h : z.nextAll (c :: cs) = some last) :
    ∃ z', Step z c z' ∧ z'.nextAll cs = some last := by
  rw [nextAll, List.foldlM_cons, Option.bind_eq_bind, Option.bind_eq_some_iff] at h
  obtain ⟨z', here, more⟩ := h
  exact ⟨z', step_of_next here, more⟩

end Idle

/-- Whether a token may begin with a character, wherever it stands. -/
def beginsToken (c : Char) : Bool :=
  !isSpace c && !isBreak c && c != '#' && c != '\ufeff'

/-- The column behind a text that begins a line. -/
def indentation (cs : List Char) : Nat := (Mark.pastAll {} cs).column

/-- Where the last line of what is idle begins does not matter for its column. -/
theorem column_pastAll_of_idle {z : Idle} {filler : List Char}
    (idle : z.nextAll filler = some .indent) {m m' : Mark}
    (here : z = .indent → m.column = m'.column) :
    (m.pastAll filler).column = (m'.pastAll filler).column := by
  induction filler generalizing z m m' with
  | nil => exact here (Option.some.inj idle)
  | cons c cs ih =>
    obtain ⟨z', step, more⟩ := Idle.nextAll_cons idle
    rw [Mark.pastAll_cons, Mark.pastAll_cons]
    refine ih more fun indented => ?_
    cases step with
    | lineEnd ends => rw [Mark.past_of_break m ends, Mark.past_of_break m' ends]
    | indent =>
      rw [Mark.past_of_inside m rfl, Mark.past_of_inside m' rfl]
      exact congrArg (· + 1) (here rfl)
    | white => cases indented
    | opens => cases indented
    | comment => cases indented

theorem column_pastAll_eq_indentation {z : Idle} {filler : List Char}
    (idle : z.nextAll filler = some .indent) (apart : z ≠ .indent) (m : Mark) :
    (m.pastAll filler).column = indentation filler :=
  column_pastAll_of_idle idle fun here => absurd here apart

-- ============================================================================
-- Reading what is idle
-- ============================================================================

namespace Layout

/-- Skipping white space crosses what is idle, character by character. -/
theorem skipSpace_step {z z' : Idle} {keyAllowed : Bool} {c : Char} (step : Idle.Step z c z')
    (allows : z.Allows keyAllowed) (m : Mark) (rest : List Char) :
    ∃ k, z'.Allows k ∧ skipSpace false keyAllowed z.inComment m (c :: rest) =
      skipSpace false k z'.inComment (m.past c) rest := by
  rw [skipSpace]
  cases step with
  | lineEnd ends =>
    rw [if_pos ends, Bool.not_false, Bool.or_true]
    exact ⟨true, .indent, rfl⟩
  | white sameLine space =>
    have noKey : keyAllowed = false := by
      obtain rfl | rfl := sameLine <;> cases allows <;> rfl
    have outside : z.inComment = false := by
      obtain rfl | rfl := sameLine <;> rfl
    have inside := isBreak_of_isSpace space
    simp only [isSpace, Bool.or_eq_true, decide_eq_true_eq] at space
    rw [if_neg (by simp [inside]), if_neg (by simp [outside]), if_pos (by simp [space, noKey])]
    exact ⟨keyAllowed, noKey ▸ .white, rfl⟩
  | indent =>
    cases allows
    rw [if_neg (by decide), if_neg (by decide), if_pos (by simp)]
    exact ⟨true, .indent, rfl⟩
  | opens apart =>
    have outside : z.inComment = false := by
      obtain rfl | rfl := apart <;> rfl
    rw [if_neg (by decide), if_neg (by simp [outside]), if_neg (by simp), if_pos rfl]
    exact ⟨keyAllowed, .comment _, rfl⟩
  | comment inside =>
    rw [if_neg (by simp [inside]), if_pos (by rfl)]
    exact ⟨keyAllowed, .comment _, rfl⟩

theorem skipSpace_idle {z z' : Idle} {keyAllowed : Bool} {filler : List Char}
    (idle : z.nextAll filler = some z') (allows : z.Allows keyAllowed) (m : Mark)
    (rest : List Char) :
    ∃ k, z'.Allows k ∧ skipSpace false keyAllowed z.inComment m (filler ++ rest) =
      skipSpace false k z'.inComment (m.pastAll filler) rest := by
  induction filler generalizing z keyAllowed m with
  | nil =>
    cases idle
    exact ⟨keyAllowed, allows, rfl⟩
  | cons c cs ih =>
    obtain ⟨next, step, more⟩ := Idle.nextAll_cons idle
    obtain ⟨between, allowsNext, here⟩ := skipSpace_step step allows m (cs ++ rest)
    obtain ⟨k, allowsLast, there⟩ := ih more allowsNext (m.past c)
    exact ⟨k, allowsLast, here.trans there⟩

/-- Skipping white space stops at a character that begins a token. -/
theorem skipSpace_of_begins {c : Char} (begins : beginsToken c = true) (keyAllowed : Bool)
    (m : Mark) (cs : List Char) :
    skipSpace false keyAllowed false m (c :: cs) = (keyAllowed, ⟨m, c :: cs⟩) := by
  simp only [beginsToken, Bool.and_eq_true, Bool.not_eq_true', bne_iff_ne, isSpace,
    Bool.or_eq_false_iff, decide_eq_false_iff_not] at begins
  obtain ⟨⟨⟨⟨noSpace, noTab⟩, inside⟩, noComment⟩, noMark⟩ := begins
  rw [skipSpace, if_neg (by simp [inside]), if_neg Bool.false_ne_true,
    if_neg (by simp [noSpace, noTab, noMark]), if_neg noComment]

end Layout

/-- What a gap remembers of where a reader stands. -/
structure Gap.At (g : Gap) (z : Idle) : Prop where
  crosses : g.crossesLine = decide (z = .indent)
  empty : g.isEmpty = decide (z = .behind)

namespace Gap

theorem at_behind : ({} : Gap).At .behind := ⟨rfl, rfl⟩

theorem At.put {g : Gap} {z z' : Idle} {c : Char} (here : g.At z) (step : Idle.Step z c z')
    (white : (isSpace c || isBreak c) = true) (outside : z ≠ .comment) : (g.put c).At z' := by
  cases step with
  | lineEnd ends =>
    rw [Gap.put, if_pos ends]
    exact ⟨by simp [crossesLine], by simp [isEmpty, crossesLine]⟩
  | white sameLine space =>
    have onLine : g.crossesLine = false := by
      obtain rfl | rfl := sameLine <;> exact here.crosses
    have same : ({ g with spaces := c :: g.spaces } : Gap).crossesLine = g.crossesLine := rfl
    rw [Gap.put, if_neg (by simp [isBreak_of_isSpace space]), if_neg (by simp [onLine])]
    exact ⟨same.trans onLine, by simp [isEmpty]⟩
  | indent =>
    have crosses : g.crossesLine = true := here.crosses
    rw [Gap.put, if_neg (by decide), if_pos crosses]
    exact here
  | opens => exact absurd white (by decide)
  | comment => exact absurd rfl outside

end Gap

/-- What ends plain text behind what is idle: the end of everything, the colon behind
    a key on the same line, or a token on a line that is indented less. -/
inductive EndsPlain (margin : Nat) (m : Mark) : Idle → List Char → Prop where
  | nothing (z : Idle) : EndsPlain margin m z []
  | colon {z : Idle} {cs : List Char} (sameLine : z = .behind ∨ z = .white)
    (spaced : atSpace cs = true) : EndsPlain margin m z (':' :: cs)
  | token {c : Char} {cs : List Char} (less : m.column < margin)
    (begins : beginsToken c = true) : EndsPlain margin m .indent (c :: cs)

theorem Place.atBadColon_block (margin : Nat) (cs : List Char) :
    (⟨false, margin⟩ : Place).atBadColon cs = false := by
  unfold Place.atBadColon
  split <;> rfl

section

variable {margin : Nat} {read : List Char} {g : Gap} {z z' : Idle} {c : Char}
  {cs filler rest : List Char} {m : Mark}

theorem readPlain_of_ends (here : g.At z) (ends : EndsPlain margin m z rest) :
    readPlain ⟨false, margin⟩ read g m rest =
      some { text := read.reverse, crossesLine := g.crossesLine, after := ⟨m, rest⟩ } := by
  cases ends with
  | nothing => rfl
  | colon sameLine spaced =>
    rw [readPlain, if_neg (by decide)]
    split
    · rfl
    · rw [Place.atBadColon_block, if_neg Bool.false_ne_true,
        if_pos (by simp [Place.endsWord, spaced])]
  | @token c cs less begins =>
    have white : (isSpace c || isBreak c) = false := by
      simp only [beginsToken, Bool.and_eq_true, Bool.not_eq_true'] at begins
      rw [begins.1.1.1, begins.1.1.2, Bool.or_false]
    have full : g.isEmpty = false := here.empty
    have ended : (⟨false, margin⟩ : Place).endsBehind g m (c :: cs) = true := by
      simp [Place.endsBehind, full, less]
    rw [readPlain, if_neg (by simp [white]), if_pos ended]

/-- Idle white space is read on, as part of the gap behind plain text: no tab of it
    indents a line. -/
theorem readPlain_white (here : g.At z) (step : Idle.Step z c z')
    (white : (isSpace c || isBreak c) = true) (outside : z ≠ .comment) :
    readPlain ⟨false, margin⟩ read g m (c :: cs) =
      readPlain ⟨false, margin⟩ read (g.put c) (m.past c) cs := by
  have noTab : (c = '\t' && g.crossesLine && m.column < margin) = false := by
    cases step with
    | lineEnd ends =>
      have other : c ≠ '\t' := by
        rintro rfl
        exact absurd ends (by decide)
      simp [other]
    | white sameLine =>
      have onLine : g.crossesLine = false := by
        obtain rfl | rfl := sameLine <;> exact here.crosses
      simp [onLine]
    | indent => rfl
    | opens => rfl
    | comment => exact absurd rfl outside
  rw [readPlain, if_pos white, if_neg (by simp [noTab])]

/-- A comment ends plain text. -/
theorem readPlain_comment (here : g.At z) (apart : z = .white ∨ z = .indent) :
    readPlain ⟨false, margin⟩ read g m ('#' :: cs) =
      some { text := read.reverse, crossesLine := g.crossesLine, after := ⟨m, '#' :: cs⟩ } := by
  have full : g.isEmpty = false := by
    obtain rfl | rfl := apart <;> exact here.empty
  have ended : (⟨false, margin⟩ : Place).endsBehind g m ('#' :: cs) = true := by
    simp [Place.endsBehind, full]
  rw [readPlain, if_neg (by decide), if_pos ended]

/-- Skipping white space crosses a character between tokens with what the gap knows of
    keys. -/
theorem Gap.At.skipSpace_put (here : g.At z) (step : Idle.Step z c z')
    (white : (isSpace c || isBreak c) = true) (outside : z ≠ .comment) :
    Layout.skipSpace false (g.put c).crossesLine false (m.past c) cs =
      Layout.skipSpace false g.crossesLine false m (c :: cs) := by
  have gap := here.put step white outside
  have further := step.ne_comment white outside
  obtain ⟨next, allows, crossed⟩ :=
    Layout.skipSpace_step step ((Idle.allows_iff outside).mpr rfl) m cs
  rw [here.crosses, gap.crosses, ← (Idle.allows_iff further).mp allows]
  simpa only [Idle.inComment_of_ne outside, Idle.inComment_of_ne further] using crossed.symm

/-- Plain text in front of what is idle ends with what was read of it. Where it has
    left the idle part, skipping white space goes on as in front of all of it. -/
theorem readPlain_idle (idle : z.nextAll filler = some z') (here : g.At z)
    (outside : z ≠ .comment) (ends : EndsPlain margin (m.pastAll filler) z' rest) :
    ∃ k after, readPlain ⟨false, margin⟩ read g m (filler ++ rest) =
        some { text := read.reverse, crossesLine := k, after } ∧
      Layout.skipSpace false k false after.mark after.rest =
        Layout.skipSpace false g.crossesLine false m (filler ++ rest) := by
  induction filler generalizing z g m with
  | nil =>
    cases idle
    exact ⟨g.crossesLine, ⟨m, rest⟩, readPlain_of_ends here ends, rfl⟩
  | cons c cs ih =>
    obtain ⟨next, step, more⟩ := Idle.nextAll_cons idle
    cases white : isSpace c || isBreak c with
    | true =>
      have gap := here.put step white outside
      obtain ⟨k, after, reads, skips⟩ := ih more gap (step.ne_comment white outside) ends
      exact ⟨k, after, (readPlain_white here step white outside).trans reads,
        skips.trans (here.skipSpace_put step white outside)⟩
    | false =>
      -- Only a comment begins without white space, and it is behind some.
      cases step with
      | lineEnd lineEnd => simp [lineEnd] at white
      | white _ space => simp [space] at white
      | indent => exact absurd white (by decide)
      | comment => exact absurd rfl outside
      | opens apart =>
        exact ⟨g.crossesLine, ⟨m, '#' :: (cs ++ rest)⟩, readPlain_comment here apart, rfl⟩

end

end NoteTape.Document
