/-
  NoteTape.Proofs.Device.Lines

  Lines read from a feed, however it is cut into arrivals. The reader keeps what
  arrived behind the line just read; with that in front, the pieces of the feed that
  is left give the answers still to come (`LineReader.answers`). Each read takes the
  first of them (`LineReader.leads`), whether the line ends in what was kept, in a
  later arrival or at an end of input, or is lost to a refusal. So the answers are
  those of the pieces, and arrivals that come to the same pieces cannot be told
  apart.
-/

import Mathlib.Data.List.TakeDrop
import Mathlib.Data.List.TakeWhile
import Mathlib.Logic.Relation
import NoteTape.Proofs.Device.Reads

namespace NoteTape

variable {line bytes : List UInt8}

-- ============================================================================
-- One line
-- ============================================================================

theorem spanned_of_open (whole : newline ∉ line) : ∀ byte ∈ line, decide (byte ≠ newline) = true :=
  fun _ mem => decide_eq_true fun same => whole (same ▸ mem)

theorem cutLine?_of_open (whole : newline ∉ bytes) : cutLine? bytes = none := by
  rw [cutLine?, List.span_eq_takeWhile_dropWhile,
    List.dropWhile_eq_nil_iff.2 (spanned_of_open whole)]

theorem cutLine?_of_ended (whole : newline ∉ line) (behind : List UInt8) :
    cutLine? (line ++ newline :: behind) = some (line ++ [newline], behind) := by
  have line_spanned := spanned_of_open whole
  rw [cutLine?, List.span_eq_takeWhile_dropWhile, List.takeWhile_append_of_pos line_spanned,
    List.dropWhile_append_of_pos line_spanned]
  simp

/-- What is cut off is a line with its end. -/
theorem ended_of_cutLine? {rest behind : List UInt8} (cut : cutLine? bytes = some (rest, behind)) :
    ∃ line, newline ∉ line ∧ rest = line ++ [newline] ∧ bytes = line ++ newline :: behind := by
  by_cases ends : newline ∈ bytes
  · obtain ⟨line, behind', rfl, whole⟩ := List.eq_append_cons_of_mem ends
    rw [cutLine?_of_ended whole] at cut
    cases cut
    exact ⟨line, whole, rfl, rfl⟩
  · rw [cutLine?_of_open ends] at cut
    cases cut

theorem open_of_cutLine? (uncut : cutLine? bytes = none) : newline ∉ bytes := by
  intro ends
  obtain ⟨line, behind, rfl, whole⟩ := List.eq_append_cons_of_mem ends
  rw [cutLine?_of_ended whole] at uncut
  cases uncut

/-- The unit of a line is that of its text, whether its end was read or not. -/
theorem unitOfLine_eq (whole : newline ∉ line) {stop : List UInt8}
    (ending : stop = [] ∨ stop = [newline]) : unitOfLine (line ++ stop) = unitOfText line := by
  cases line with
  | nil => obtain rfl | rfl := ending <;> rfl
  | cons first rest =>
    have other : first ≠ newline := fun same => whole (same ▸ List.mem_cons_self)
    simp only [List.cons_append, unitOfLine, unitOfText, other, false_or]

theorem unitOfLine_of_open (whole : newline ∉ line) : unitOfLine line = unitOfText line := by
  rw [← unitOfLine_eq whole (.inl rfl), List.append_nil]

theorem linesOn_of_open (whole : newline ∉ bytes) (line : List UInt8) :
    linesOn line bytes = ([], line ++ bytes) := by
  induction bytes generalizing line with
  | nil => rw [linesOn, List.append_nil]
  | cons byte bytes ih =>
    rw [List.mem_cons, not_or] at whole
    rw [linesOn, if_neg (Ne.symm whole.1), ih whole.2, List.append_assoc, List.singleton_append]

theorem linesOn_of_ended (whole : newline ∉ bytes) (line behind : List UInt8) :
    linesOn line (bytes ++ newline :: behind) =
      ((line ++ bytes) :: (linesOn [] behind).1, (linesOn [] behind).2) := by
  induction bytes generalizing line with
  | nil => rw [List.nil_append, List.append_nil, linesOn, if_pos rfl]
  | cons byte bytes ih =>
    rw [List.mem_cons, not_or] at whole
    rw [List.cons_append, linesOn, if_neg (Ne.symm whole.1), ih whole.2, List.append_assoc,
      List.singleton_append]

-- ============================================================================
-- The answers of the pieces
-- ============================================================================

namespace Piece

theorem lineAnswers_of_pause (whole : newline ∉ bytes) :
    lineAnswers ⟨bytes, .pause⟩ = [.ok (unitOfText bytes)] := by
  rw [lineAnswers, linesOn_of_open whole]
  rfl

theorem lineAnswers_of_refusal (whole : newline ∉ bytes) (e : DeviceError) :
    lineAnswers ⟨bytes, .refusal e⟩ = [.error e] := by
  rw [lineAnswers, linesOn_of_open whole]
  rfl

theorem lineAnswers_of_ended (whole : newline ∉ line) (behind : List UInt8) (border : Border) :
    lineAnswers ⟨line ++ newline :: behind, border⟩ =
      .ok (unitOfText line) :: lineAnswers ⟨behind, border⟩ := by
  rw [lineAnswers, linesOn_of_ended whole]
  rfl

end Piece

namespace Feed

/-- What arrived before is in front of the bytes of the first piece. -/
theorem exists_piecesOn (feed : Feed) : ∃ more border pieces,
    ∀ bytes, feed.piecesOn bytes = ⟨bytes ++ more, border⟩ :: pieces := by
  induction feed with
  | nil => exact ⟨[], .pause, [], fun bytes => by rw [piecesOn, List.append_nil]⟩
  | cons arrival later ih =>
    obtain ⟨more, border, pieces, all⟩ := ih
    cases arrival with
    | data arrived =>
      by_cases nothing : arrived.isEmpty
      · refine ⟨[], .pause, piecesOn [] later, fun bytes => ?_⟩
        rw [piecesOn, if_pos nothing, List.append_nil]
      · refine ⟨arrived ++ more, border, pieces, fun bytes => ?_⟩
        rw [piecesOn, if_neg nothing, all, List.append_assoc]
    | failure e =>
      by_cases again : e.isInterrupted
      · refine ⟨more, border, pieces, fun bytes => ?_⟩
        rw [piecesOn, if_pos again, all]
      · refine ⟨[], .refusal e, piecesOn [] later, fun bytes => ?_⟩
        rw [piecesOn, if_neg again, List.append_nil]

/-- What reading lines answers to the feed behind `bytes`. -/
def lineAnswersOn (bytes : List UInt8) (feed : Feed) : List Answer :=
  (feed.piecesOn bytes).flatMap Piece.lineAnswers

theorem lineAnswersOn_of_ended (whole : newline ∉ line) (behind : List UInt8) (feed : Feed) :
    feed.lineAnswersOn (line ++ newline :: behind) =
      .ok (unitOfText line) :: feed.lineAnswersOn behind := by
  obtain ⟨more, border, pieces, all⟩ := feed.exists_piecesOn
  rw [lineAnswersOn, lineAnswersOn, all, all, List.flatMap_cons, List.flatMap_cons,
    List.append_assoc, List.cons_append, Piece.lineAnswers_of_ended whole, List.cons_append]

end Feed

-- ============================================================================
-- A reader
-- ============================================================================

namespace LineReader

/-- The answers to come. -/
def answers (r : LineReader) : List Answer := r.feed.lineAnswersOn r.pending

/-- What was kept is in front of the first line, which it may end. -/
theorem leads_ended (whole : newline ∉ line) (behind : List UInt8) (feed : Feed) :
    Leads (feed.lineAnswersOn (line ++ newline :: behind))
      (.ok (unitOfLine (line ++ [newline]))) (answers ⟨behind, feed⟩) := by
  rw [Feed.lineAnswersOn_of_ended whole, unitOfLine_eq whole (.inr rfl)]
  exact .cons _ _

/-- Completing a line takes the first answer, and the others come behind it. -/
theorem leads_complete (whole : newline ∉ line) (feed : Feed) :
    Leads (feed.lineAnswersOn line) ((complete line feed).1.map unitOfLine)
      (complete line feed).2.answers := by
  fun_induction complete line feed with
  | case1 line =>
    rw [Feed.lineAnswersOn, Feed.piecesOn, List.flatMap_singleton,
      Piece.lineAnswers_of_pause whole, ← unitOfLine_of_open whole]
    exact .last _
  | case2 line bytes later nothing =>
    rw [Feed.lineAnswersOn, Feed.piecesOn, if_pos nothing, List.flatMap_cons,
      Piece.lineAnswers_of_pause whole, ← unitOfLine_of_open whole]
    exact .cons _ _
  | case3 line bytes later some rest behind cut =>
    -- The line ends in what arrived.
    obtain ⟨more, whole', rfl, rfl⟩ := ended_of_cutLine? cut
    have whole'' : newline ∉ line ++ more := List.not_mem_append whole whole'
    rw [Feed.lineAnswersOn, Feed.piecesOn, if_neg some, ← List.append_assoc, ← List.append_assoc]
    exact leads_ended whole'' behind later
  | case4 line bytes later some uncut ih =>
    rw [Feed.lineAnswersOn, Feed.piecesOn, if_neg some]
    exact ih (List.not_mem_append whole (open_of_cutLine? uncut))
  | case5 line e later again ih =>
    rw [Feed.lineAnswersOn, Feed.piecesOn, if_pos again]
    exact ih whole
  | case6 line e later refused =>
    rw [Feed.lineAnswersOn, Feed.piecesOn, if_neg refused, List.flatMap_cons,
      Piece.lineAnswers_of_refusal whole]
    exact .cons _ _

theorem leads (r : LineReader) : Leads r.answers (Source.read r).1 (Source.read r).2.answers := by
  show Leads r.answers (r.readLine.1.map unitOfLine) r.readLine.2.answers
  unfold readLine
  cases cut : cutLine? r.pending with
  | none => exact leads_complete (open_of_cutLine? cut) r.feed
  | some parts =>
    obtain ⟨rest, behind⟩ := parts
    obtain ⟨line, whole, rfl, pending⟩ := ended_of_cutLine? cut
    rw [answers, pending]
    exact leads_ended whole behind r.feed

end LineReader

-- ============================================================================
-- Arrivals that come to the same
-- ============================================================================

namespace Feed

/-- The second feed brings the bytes of one arrival in two, or is interrupted once
    more. -/
inductive Recut : Feed → Feed → Prop where
  | split (before after : Feed) {first rest : List UInt8} (some : first ≠ []) (more : rest ≠ []) :
    Recut (before ++ .data (first ++ rest) :: after)
      (before ++ .data first :: .data rest :: after)
  | interrupt (before after : Feed) {e : DeviceError} (again : e.isInterrupted = true) :
    Recut (before ++ after) (before ++ .failure e :: after)

theorem piecesOn_data {arrived : List UInt8} (some : arrived ≠ []) (bytes : List UInt8)
    (later : Feed) :
    piecesOn bytes (.data arrived :: later) = piecesOn (bytes ++ arrived) later := by
  rw [piecesOn, if_neg (mt List.isEmpty_iff.1 some)]

theorem piecesOn_congr {feed feed' : Feed} (before : Feed)
    (same : ∀ bytes, feed.piecesOn bytes = feed'.piecesOn bytes) (bytes : List UInt8) :
    (before ++ feed).piecesOn bytes = (before ++ feed').piecesOn bytes := by
  induction before generalizing bytes with
  | nil => exact same bytes
  | cons arrival before ih =>
    cases arrival with
    | data arrived => rw [List.cons_append, List.cons_append, piecesOn, piecesOn, ih, ih]
    | failure e => rw [List.cons_append, List.cons_append, piecesOn, piecesOn, ih, ih]

theorem Recut.pieces_eq {feed feed' : Feed} (recut : Recut feed feed') :
    feed.pieces = feed'.pieces := by
  cases recut with
  | @split before after first rest some more =>
    apply piecesOn_congr
    intro bytes
    rw [piecesOn_data (List.append_ne_nil_of_left_ne_nil some rest), piecesOn_data some,
      piecesOn_data more, List.append_assoc]
  | @interrupt before after e again =>
    apply piecesOn_congr
    intro bytes
    rw [piecesOn, if_pos again]

theorem pieces_eq_of_recut {feed feed' : Feed} (recut : Relation.EqvGen Recut feed feed') :
    feed.pieces = feed'.pieces := by
  induction recut with
  | rel _ _ recut => exact recut.pieces_eq
  | refl => rfl
  | symm _ _ _ ih => exact ih.symm
  | trans _ _ _ _ _ ih ih' => exact ih.trans ih'

end Feed

/-- Reading lines from a feed again and again answers what is read off its pieces, so
    how the bytes of a piece arrive and how often reads are interrupted makes no
    difference. -/
theorem lines_read_off_pieces (feed : Feed) (n : Nat) :
    (Source.reads n (LineReader.mk [] feed)).1 =
      (List.range n).map (nthAnswer feed.lineAnswers) ∧
    ∀ feed', Relation.EqvGen Feed.Recut feed feed' →
      (Source.reads n (LineReader.mk [] feed')).1 = (Source.reads n (LineReader.mk [] feed)).1 := by
  have reads (feed : Feed) : (Source.reads n (LineReader.mk [] feed)).1 =
      (List.range n).map (nthAnswer feed.lineAnswers) :=
    Source.reads_of_leads LineReader.answers LineReader.leads n ⟨[], feed⟩
  refine ⟨reads feed, fun feed' recut => ?_⟩
  rw [reads, reads, Feed.lineAnswers, Feed.lineAnswers, Feed.pieces_eq_of_recut recut]

/-- A line that arrives in two parts, with an interruption between them. -/
theorem lines_read_off_pieces_interrupted :
    (Source.reads 2 (LineReader.mk [] [.data [104], .failure ⟨.interrupted, ""⟩,
      .data [105, 10]])).1 = (Source.reads 2 (LineReader.mk [] [.data [104, 105, 10]])).1 := by
  have split : Feed.Recut [.data ([104] ++ [105, 10])] [.data [104], .data [105, 10]] :=
    .split [] [] (by decide) (by decide)
  have interrupt : Feed.Recut ([.data [104]] ++ [.data [105, 10]])
      ([.data [104]] ++ .failure ⟨.interrupted, ""⟩ :: [.data [105, 10]]) :=
    .interrupt [.data [104]] [.data [105, 10]] rfl
  exact (lines_read_off_pieces _ 2).2 _ (.trans _ _ _ (.rel _ _ split) (.rel _ _ interrupt))

end NoteTape
