/-
  NoteTape.Proofs.Document.Spelling

  How a scalar is written on one line: plainly, in single quotes with every quote
  written twice, or in double quotes, where each character stands for itself or is
  written as an escape sequence. `readToken_spelled` says that the token is read back
  wherever it stands in a mapping without braces.
-/

import NoteTape.Document.Tokens
import NoteTape.Document.Value
import NoteTape.Proofs.Document.Idle

namespace NoteTape.Document

/-- Whether plain text goes on with these characters and ends behind them. `white`
    says whether white space stands in front of them. -/
def staysPlain (white : Bool) : List Char → Bool
  | [] => !white
  | c :: cs =>
    if isSpace c then staysPlain true cs
    else !isBreak c && !(white && c = '#') && !(c = ':' && atSpace cs) && staysPlain false cs

/-- Whether plain text can consist of these characters wherever it stands. -/
def isPlain (text : List Char) : Bool :=
  (⟨false, 0⟩ : Place).startsPlain text && text.head? ≠ some '\ufeff' && staysPlain false text

/-- A character in single quotes. -/
def singleQuoted (c : Char) : List Char := if c = '\'' then ['\'', '\''] else [c]

/-- How characters are written in double quotes. -/
inductive DoubleQuoted : List Char → List Char → Prop where
  | none : DoubleQuoted [] []
  | literal {c : Char} {body text : List Char} (plain : c ≠ '"' ∧ c ≠ '\\')
    (inside : isBreak c = false) (more : DoubleQuoted body text) :
    DoubleQuoted (c :: body) (c :: text)
  | escaped {sequence body text : List Char} {c : Char}
    (stands : escape? sequence = some (c, sequence.length)) (line : onOneLine sequence = true)
    (more : DoubleQuoted body text) : DoubleQuoted ('\\' :: (sequence ++ body)) (c :: text)

/-- How a scalar is written on one line. -/
inductive Spelled : List Char → Scalar → Prop where
  | plain {text : List Char} (plain : isPlain text = true) : Spelled text { text }
  | single {text : List Char} (line : onOneLine text = true) :
    Spelled ('\'' :: (text.flatMap singleQuoted ++ ['\''])) { style := .quoted, text }
  | double {body text : List Char} (written : DoubleQuoted body text) :
    Spelled ('"' :: (body ++ ['"'])) { style := .quoted, text }

namespace Gap

variable {g : Gap}

theorem behind_of_line (line : g.crossesLine = false) (read : List Char) :
    g.behind read = g.spaces ++ read := by
  simp only [crossesLine, Bool.or_eq_false_iff, Bool.not_eq_false'] at line
  rw [behind, text, if_neg (by simp [line.1]), if_pos line.2, List.reverse_reverse]

theorem behind_of_isEmpty (none : g.isEmpty = true) (read : List Char) : g.behind read = read := by
  simp only [isEmpty, Bool.and_eq_true, Bool.not_eq_true', List.isEmpty_iff] at none
  rw [behind_of_line none.1, none.2, List.nil_append]

/-- White space on one line stands for itself. -/
theorem put_space {c : Char} (line : g.crossesLine = false) (space : isSpace c = true)
    (read : List Char) :
    (g.put c).crossesLine = false ∧ (g.put c).isEmpty = false ∧
      (g.put c).behind read = c :: g.behind read := by
  have put : g.put c = { g with spaces := c :: g.spaces } := by
    rw [Gap.put, if_neg (by simp [isBreak_of_isSpace space]), if_neg (by simp [line])]
  have still : (g.put c).crossesLine = false := by
    rw [put]
    exact line
  refine ⟨still, ?_, ?_⟩
  · simp [put, isEmpty]
  · rw [behind_of_line still, behind_of_line line, put, List.cons_append]

end Gap

-- ============================================================================
-- Plain text
-- ============================================================================

/-- Plain text is read to its end, with the white space inside it. Its first character
    may stand right in front of the margin. -/
theorem readPlain_stays {white : Bool} {margin : Nat} {read text : List Char} {g : Gap} {m : Mark}
    (stays : staysPlain white text = true) (gap : g.isEmpty = !white)
    (line : g.crossesLine = false) (near : margin ≤ m.column + 1)
    (column : white = true → margin ≤ m.column) (rest : List Char) :
    readPlain ⟨false, margin⟩ read g m (text ++ rest) =
      readPlain ⟨false, margin⟩ (text.reverse ++ g.behind read) {} (m.pastAll text) rest := by
  induction text generalizing white read g m with
  | nil =>
    have none : g.isEmpty = true := gap.trans stays
    have same : g = {} := by
      cases g
      simp_all [Gap.isEmpty, Gap.crossesLine]
    rw [List.reverse_nil, List.nil_append, Gap.behind_of_isEmpty none, same]
    rfl
  | cons c cs ih =>
    rw [staysPlain] at stays
    rw [List.cons_append, readPlain, Mark.pastAll_cons]
    cases space : isSpace c with
    | true =>
      obtain ⟨line', full, behind⟩ := Gap.put_space line space read
      have column' : margin ≤ (m.past c).column := by
        rw [Mark.past_of_inside m (isBreak_of_isSpace space)]
        exact near
      rw [if_pos space] at stays
      rw [if_pos (by simp), if_neg (by simp [line]), ih stays full line'
        (Nat.le_succ_of_le column') (fun _ => column'), behind, List.reverse_cons,
        List.append_assoc, List.singleton_append]
    | false =>
      rw [if_neg (by simp [space])] at stays
      simp only [Bool.and_eq_true, Bool.not_eq_true'] at stays
      obtain ⟨⟨⟨inside, noComment⟩, noColon⟩, more⟩ := stays
      have column' : margin ≤ (m.past c).column := by
        rw [Mark.past_of_inside m inside]
        exact near
      have goesOn : (⟨false, margin⟩ : Place).endsBehind g m (c :: (cs ++ rest)) = false := by
        simp only [Place.endsBehind, line, gap, List.head?_cons, Option.some.injEq]
        cases white with
        | false => simp
        | true =>
          have inColumn : ¬ m.column < margin := Nat.not_lt.mpr (column rfl)
          simpa [inColumn] using noComment
      have inWord : (⟨false, margin⟩ : Place).endsWord (c :: (cs ++ rest)) = false := by
        have unspaced : (c = ':' && atSpace (cs ++ rest)) = false := by
          cases cs with
          | nil => simp_all [atSpace]
          | cons d cs => exact noColon
        simpa [Place.endsWord] using unspaced
      rw [if_neg (by simp [inside]), if_neg (by simp [goesOn]), Place.atBadColon_block,
        if_neg Bool.false_ne_true, if_neg (by simp [inWord]),
        ih more rfl rfl (Nat.le_succ_of_le column') (fun _ => column'),
        Gap.behind_of_isEmpty rfl, List.reverse_cons, List.append_assoc, List.singleton_append]

-- ============================================================================
-- Quoted text
-- ============================================================================

theorem Mark.column_past_pos (m : Mark) {c : Char} (inside : isBreak c = false) :
    0 < (m.past c).column := by
  rw [Mark.past_of_inside m inside]
  exact Nat.succ_pos _

/-- Single-quoted text is read to the quote that closes it. -/
theorem readSingle_written {read text : List Char} {g : Gap} {m : Mark} {rest : List Char}
    (inLine : onOneLine text = true) (line : g.crossesLine = false) (column : 0 < m.column)
    (closed : rest.head? ≠ some '\'') :
    readSingle read g m (text.flatMap singleQuoted ++ '\'' :: rest) =
      some ((g.behind read).reverse ++ text,
        ⟨m.pastAll (text.flatMap singleQuoted ++ ['\'']), rest⟩) := by
  induction text generalizing read g m with
  | nil =>
    rw [List.flatMap_nil, List.nil_append, List.append_nil]
    cases rest with
    | nil => rfl
    | cons c cs =>
      have other : c ≠ '\'' := by simpa using closed
      rw [readSingle]
      · rfl
      · simpa using other
  | cons c cs ih =>
    rw [onOneLine, List.all_cons, Bool.and_eq_true, Bool.not_eq_true'] at inLine
    obtain ⟨inside, inLine⟩ := inLine
    have column' (m : Mark) : 0 < (m.past c).column := m.column_past_pos inside
    by_cases quote : c = '\''
    · subst quote
      have written : (('\'' :: cs).flatMap singleQuoted : List Char) =
          '\'' :: '\'' :: cs.flatMap singleQuoted := rfl
      have twice : 0 < (m.pastAll ['\'', '\'']).column := column' _
      rw [written, List.cons_append, List.cons_append, readSingle, ih inLine rfl twice,
        Gap.behind_of_isEmpty rfl, List.reverse_cons, List.append_assoc, List.singleton_append]
      rfl
    · have written : ((c :: cs).flatMap singleQuoted : List Char) =
          c :: cs.flatMap singleQuoted := by
        rw [List.flatMap_cons, singleQuoted, if_neg quote, List.singleton_append]
      rw [written, List.cons_append, List.cons_append, readSingle, Mark.pastAll_cons]
      · cases space : isSpace c with
        | true =>
          obtain ⟨line', -, behind⟩ := Gap.put_space line space read
          rw [if_pos (by simp), ih inLine line' (column' m), behind, List.reverse_cons,
            List.append_assoc, List.singleton_append]
        | false =>
          rw [if_neg (by simp [inside]), if_neg (by simp [Nat.ne_of_gt column]),
            ih inLine rfl (column' m), Gap.behind_of_isEmpty rfl, List.reverse_cons,
            List.append_assoc, List.singleton_append]
      · exact fun _ first => absurd first quote
      · exact quote

/-- The characters of an escape sequence that was read are passed. -/
theorem readDouble_skipped {read : List Char} {g : Gap} {m : Mark} (sequence rest : List Char) :
    readDouble read g m sequence.length (sequence ++ rest) =
      readDouble read g (m.pastAll sequence) 0 rest := by
  induction sequence generalizing m with
  | nil => rfl
  | cons c cs ih =>
    rw [List.length_cons, List.cons_append, readDouble, Mark.pastAll_cons]
    exact ih

/-- An escape sequence is read whatever stands behind it. -/
theorem escape?_append {sequence : List Char} {c : Char}
    (stands : escape? sequence = some (c, sequence.length)) (rest : List Char) :
    escape? (sequence ++ rest) = some (c, sequence.length) := by
  cases sequence with
  | nil => cases stands
  | cons d digits =>
    rw [List.cons_append]
    simp only [escape?] at stands ⊢
    cases length : hexLength? d with
    | none => simpa only [length] using stands
    | some count =>
      simp only [length, Option.ite_none_right_eq_some, Option.map_eq_some_iff, Prod.mk.injEq,
        List.length_cons] at stands
      obtain ⟨whole, value, read, rfl, all⟩ := stands
      have taken : (digits ++ rest).take count = digits.take count :=
        List.take_append_of_le_length (Nat.le_of_eq (Nat.succ.inj all))
      simp only [taken, whole, read, if_true, Option.map_some, List.length_cons, all]

/-- Double-quoted text is read to the quote that closes it. -/
theorem readDouble_written {body text : List Char} (written : DoubleQuoted body text)
    {read : List Char} {g : Gap} {m : Mark} (line : g.crossesLine = false)
    (column : 0 < m.column) (rest : List Char) :
    readDouble read g m 0 (body ++ '"' :: rest) =
      some ((g.behind read).reverse ++ text, ⟨m.pastAll (body ++ ['"']), rest⟩) := by
  induction written generalizing read g m with
  | none =>
    rw [List.nil_append, readDouble, if_pos rfl, List.append_nil]
    rfl
  | @literal c body text plain inside more ih =>
    have column' : 0 < (m.past c).column := m.column_past_pos inside
    rw [List.cons_append, readDouble, if_neg plain.1, if_neg plain.2]
    cases space : isSpace c with
    | true =>
      obtain ⟨line', -, behind⟩ := Gap.put_space line space read
      rw [if_pos (by simp), ih line' column', behind, List.reverse_cons, List.append_assoc,
        List.singleton_append, List.cons_append, Mark.pastAll_cons]
    | false =>
      rw [if_neg (by simp [inside]), if_neg (by simp [Nat.ne_of_gt column]), ih rfl column',
        Gap.behind_of_isEmpty rfl, List.reverse_cons, List.append_assoc, List.singleton_append,
        List.cons_append, Mark.pastAll_cons]
  | @escaped sequence body text c stands inLine more ih =>
    have sameLine : (sequence ++ (body ++ '"' :: rest)).head?.any isBreak = false := by
      cases sequence with
      | nil => cases stands
      | cons d digits =>
        rw [onOneLine, List.all_cons, Bool.and_eq_true, Bool.not_eq_true'] at inLine
        exact inLine.1
    have column' : 0 < ((m.past '\\').pastAll sequence).column := by
      rw [Mark.pastAll_of_onOneLine inLine]
      exact Nat.add_pos_left (m.column_past_pos rfl) _
    rw [List.cons_append, List.append_assoc, readDouble, if_neg (by decide), if_pos rfl, sameLine,
      if_neg Bool.false_ne_true, escape?_append stands]
    simp only [readDouble_skipped]
    rw [ih rfl column', Gap.behind_of_isEmpty rfl, List.reverse_cons, List.append_assoc,
      List.singleton_append, List.cons_append, List.append_assoc, Mark.pastAll_cons,
      Mark.pastAll_append _ sequence]

-- ============================================================================
-- The token of a scalar
-- ============================================================================

theorem onOneLine_append {front behind : List Char} :
    onOneLine (front ++ behind) = (onOneLine front && onOneLine behind) := List.all_append

theorem onOneLine_of_staysPlain {white : Bool} {text : List Char}
    (stays : staysPlain white text = true) : onOneLine text = true := by
  induction text generalizing white with
  | nil => rfl
  | cons c cs ih =>
    rw [staysPlain] at stays
    rw [onOneLine, List.all_cons, Bool.and_eq_true, Bool.not_eq_true']
    cases space : isSpace c with
    | true =>
      rw [if_pos space] at stays
      exact ⟨isBreak_of_isSpace space, ih stays⟩
    | false =>
      rw [if_neg (by simp [space])] at stays
      simp only [Bool.and_eq_true, Bool.not_eq_true'] at stays
      exact ⟨stays.1.1.1, ih stays.2⟩

theorem onOneLine_flatMap_singleQuoted {text : List Char} (line : onOneLine text = true) :
    onOneLine (text.flatMap singleQuoted) = true := by
  induction text with
  | nil => rfl
  | cons c cs ih =>
    rw [onOneLine, List.all_cons, Bool.and_eq_true] at line
    have here : onOneLine (singleQuoted c) = true := by
      rw [singleQuoted]
      split
      · rfl
      · simpa [onOneLine] using line.1
    rw [List.flatMap_cons, onOneLine_append, here, ih line.2, Bool.and_true]

theorem DoubleQuoted.onOneLine {body text : List Char} (written : DoubleQuoted body text) :
    onOneLine body = true := by
  induction written with
  | none => rfl
  | literal _ inside _ ih => simpa [Document.onOneLine, inside] using ih
  | @escaped sequence body _ _ _ line _ ih =>
    have whole : Document.onOneLine (['\\'] ++ (sequence ++ body)) = true := by
      rw [onOneLine_append, onOneLine_append, line, ih]
      rfl
    exact whole

namespace Spelled

variable {written : List Char} {s : Scalar}

theorem onOneLine (h : Spelled written s) : Document.onOneLine written = true := by
  cases h with
  | plain plain =>
    rw [isPlain, Bool.and_eq_true] at plain
    exact onOneLine_of_staysPlain plain.2
  | @single text line =>
    have whole : Document.onOneLine (['\''] ++ (text.flatMap singleQuoted ++ ['\''])) = true := by
      rw [onOneLine_append, onOneLine_append, onOneLine_flatMap_singleQuoted line]
      rfl
    exact whole
  | @double body text inside =>
    have whole : Document.onOneLine (['"'] ++ (body ++ ['"'])) = true := by
      rw [onOneLine_append, onOneLine_append, inside.onOneLine]
      rfl
    exact whole

theorem exists_cons (h : Spelled written s) :
    ∃ c cs, written = c :: cs ∧ beginsToken c = true ∧ c ≠ '%' := by
  cases h with
  | plain plain =>
    cases written with
    | nil => exact absurd plain (by decide)
    | cons c cs =>
      rw [isPlain, Bool.and_eq_true, Bool.and_eq_true, decide_eq_true_eq, List.head?_cons] at plain
      obtain ⟨⟨starts, noMark⟩, -⟩ := plain
      have other {d : Char} (not : (⟨false, 0⟩ : Place).startsPlain (d :: cs) = false) : c ≠ d := by
        rintro rfl
        exact absurd starts (by simp [not])
      have shown : isSpace c = false ∧ isBreak c = false := by
        rw [Place.startsPlain] at starts
        grind
      refine ⟨c, cs, rfl, ?_, other rfl⟩
      simp only [beginsToken, shown, Bool.and_eq_true, bne_iff_ne, Bool.not_false, true_and]
      exact ⟨other rfl, fun same => noMark (congrArg some same)⟩
  | single line => exact ⟨'\'', _, rfl, rfl, by decide⟩
  | double inside => exact ⟨'"', _, rfl, rfl, by decide⟩

end Spelled

/-- Where plain text may end, no quote stands. -/
theorem head?_of_endsPlain {margin : Nat} {m : Mark} {z : Idle} {filler rest : List Char}
    (idle : Idle.behind.nextAll filler = some z) (ends : EndsPlain margin m z rest) :
    (filler ++ rest).head? ≠ some '\'' := by
  cases filler with
  | nil =>
    cases idle
    cases ends with
    | nothing => simp
    | colon => simp
  | cons c cs =>
    obtain ⟨next, step, -⟩ := Idle.nextAll_cons idle
    rw [List.cons_append, List.head?_cons]
    cases step with
    | lineEnd ends =>
      rintro ⟨⟩
      exact absurd ends (by decide)
    | white _ space =>
      rintro ⟨⟩
      exact absurd space (by decide)
    | opens apart => simp

/-- Plain text that can begin in front of nothing can begin in front of anything. -/
theorem startsPlain_append {margin : Nat} {text : List Char}
    (starts : (⟨false, 0⟩ : Place).startsPlain text = true) (rest : List Char) :
    (⟨false, margin⟩ : Place).startsPlain (text ++ rest) = true := by
  cases text with
  | nil => exact absurd starts (by decide)
  | cons c cs =>
    have apart : atSpace cs = false → atSpace (cs ++ rest) = false := by
      cases cs with
      | nil => exact fun ended => absurd ended (by decide)
      | cons d cs => exact id
    rw [List.cons_append, Place.startsPlain]
    rw [Place.startsPlain] at starts
    grind

namespace Layout

/-- The layout behind the token of a scalar. -/
def pushScalar (l : Layout) (s : Scalar) (keyAllowed : Bool) (after : Cursor) : Layout :=
  { l with keyAllowed }.push (.scalar s.style s.text) after

theorem readQuotes_of_some {l : Layout} {quote : Char} {text : List Char} {after : Cursor}
    (read : readQuoted quote (l.mark.past quote) l.rest.tail = some (text, after)) :
    l.readQuotes quote =
      l.mayBeKey.map fun l => l.pushScalar { style := .quoted, text } false after := by
  rw [readQuotes, read]
  unfold Layout.readValue
  cases l.mayBeKey <;> rfl

theorem readWords_of_some {l : Layout} {p : PlainText}
    (read : readPlain l.place [] {} l.mark l.rest = some p) :
    l.readWords =
      l.mayBeKey.map fun l => l.pushScalar { text := p.text } p.crossesLine p.after := by
  rw [readWords, read]
  cases l.mayBeKey <;> rfl

theorem atTriple_of_ne {mark c : Char} (other : c ≠ mark) (cs : List Char) :
    atTriple mark (c :: cs) = false := by
  rcases cs with _ | ⟨b, _ | ⟨d, cs⟩⟩ <;> simp [atTriple, other]

/-- The token of quoted text is read up to where the quote is closed. -/
theorem readToken_of_quote {l : Layout} {quote : Char} {behind text : List Char} {after : Cursor}
    (quotes : quote = '\'' ∨ quote = '"') (here : l.rest = quote :: behind)
    (read : readQuoted quote (l.mark.past quote) behind = some (text, after)) :
    l.readToken =
      l.mayBeKey.map fun l => l.pushScalar { style := .quoted, text } false after := by
  have tail : l.rest.tail = behind := by rw [here, List.tail_cons]
  rw [← tail] at read
  refine Eq.trans ?_ (readQuotes_of_some read)
  unfold readToken
  rw [here]
  obtain rfl | rfl := quotes
  · rw [atTriple_of_ne (by decide), atTriple_of_ne (by decide)]
    simp [Place.startsPlain, isSpace, isBreak, indicators]
  · rw [atTriple_of_ne (by decide), atTriple_of_ne (by decide)]
    simp [Place.startsPlain, isSpace, isBreak, indicators]

/-- The token of plain text is read up to what ends it. -/
theorem readToken_of_plain {l : Layout} {text filler rest : List Char} {z : Idle}
    (plain : isPlain text = true) (block : l.outer = []) (here : l.rest = text ++ (filler ++ rest))
    (near : l.margin ≤ l.mark.column + 1)
    (unmarked : l.mark.column = 0 → atMarker l.rest = false)
    (idle : Idle.behind.nextAll filler = some z)
    (ends : EndsPlain l.margin (l.mark.pastAll (text ++ filler)) z rest) :
    ∃ k after, l.readToken = l.mayBeKey.map (fun l => l.pushScalar { text } k after) ∧
      skipSpace false k false after.mark after.rest =
        skipSpace false false false (l.mark.pastAll text) (filler ++ rest) := by
  have noDirective : (l.mark.column = 0 && l.rest.head? = some '%') = false := by
    obtain ⟨c, cs, rfl, -, other⟩ := (Spelled.plain plain).exists_cons
    simp [here, other]
  have noMarker : (l.mark.column = 0 && atTriple '-' l.rest) = false ∧
      (l.mark.column = 0 && atTriple '.' l.rest) = false := by
    rcases Nat.eq_zero_or_pos l.mark.column with first | later
    · have none := unmarked first
      rw [atMarker, Bool.or_eq_false_iff] at none
      simp [none]
    · simp [Nat.ne_of_gt later]
  have place : l.place = ⟨false, l.margin⟩ := by simp [Layout.place, inFlow, block]
  rw [isPlain, Bool.and_eq_true, Bool.and_eq_true] at plain
  obtain ⟨⟨starts, -⟩, stays⟩ := plain
  have read : readPlain ⟨false, l.margin⟩ [] {} l.mark (text ++ (filler ++ rest)) =
      readPlain ⟨false, l.margin⟩ (text.reverse ++ []) {} (l.mark.pastAll text)
        (filler ++ rest) := readPlain_stays stays rfl rfl near (by simp) _
  rw [List.append_nil, ← place, ← here] at read
  rw [Mark.pastAll_append] at ends
  obtain ⟨k, after, ended, skips⟩ : ∃ k after,
      readPlain ⟨false, l.margin⟩ text.reverse {} (l.mark.pastAll text) (filler ++ rest) =
        some { text := text.reverse.reverse, crossesLine := k, after } ∧
      skipSpace false k false after.mark after.rest =
        skipSpace false false false (l.mark.pastAll text) (filler ++ rest) :=
    readPlain_idle idle Gap.at_behind (by decide) ends
  rw [List.reverse_reverse, ← place] at ended
  refine ⟨k, after, ?_, skips⟩
  unfold readToken
  rw [if_neg (by simp [noDirective]), if_neg (by simp [noMarker]), if_neg (by simp [noMarker]),
    if_pos (by rw [place, here]; exact startsPlain_append starts _),
    readWords_of_some (read.trans ended)]

/-- The token of a scalar is read wherever the scalar stands in a mapping, and skipping
    white space goes on behind what the scalar is written as. -/
theorem readToken_spelled {l : Layout} {written filler rest : List Char} {s : Scalar} {z : Idle}
    (spelled : Spelled written s) (block : l.outer = [])
    (here : l.rest = written ++ (filler ++ rest))
    (near : l.margin ≤ l.mark.column + 1)
    (unmarked : l.mark.column = 0 → atMarker l.rest = false)
    (idle : Idle.behind.nextAll filler = some z)
    (ends : EndsPlain l.margin (l.mark.pastAll (written ++ filler)) z rest) :
    ∃ k after, l.readToken = l.mayBeKey.map (fun l => l.pushScalar s k after) ∧
      skipSpace false k false after.mark after.rest =
        skipSpace false false false (l.mark.pastAll written) (filler ++ rest) := by
  cases spelled with
  | plain plain => exact readToken_of_plain plain block here near unmarked idle ends
  | @single text line =>
    have read : readQuoted '\'' (l.mark.past '\'')
        (text.flatMap singleQuoted ++ '\'' :: (filler ++ rest)) =
        some (text, ⟨l.mark.pastAll ('\'' :: (text.flatMap singleQuoted ++ ['\''])),
          filler ++ rest⟩) := by
      rw [readQuoted, if_neg (by decide),
        readSingle_written line rfl (l.mark.column_past_pos rfl) (head?_of_endsPlain idle ends)]
      rfl
    rw [List.cons_append, List.append_assoc, List.singleton_append] at here
    exact ⟨false, ⟨_, filler ++ rest⟩, readToken_of_quote (.inl rfl) here read, rfl⟩
  | @double body text inside =>
    have read : readQuoted '"' (l.mark.past '"') (body ++ '"' :: (filler ++ rest)) =
        some (text, ⟨l.mark.pastAll ('"' :: (body ++ ['"'])), filler ++ rest⟩) := by
      rw [readQuoted, if_pos rfl, readDouble_written inside rfl (l.mark.column_past_pos rfl)]
      rfl
    rw [List.cons_append, List.append_assoc, List.singleton_append] at here
    exact ⟨false, ⟨_, filler ++ rest⟩, readToken_of_quote (.inr rfl) here read, rfl⟩

end Layout

end NoteTape.Document
