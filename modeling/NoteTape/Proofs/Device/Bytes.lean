/-
  NoteTape.Proofs.Device.Bytes

  Bytes read from a feed, from a slice and from a queue. The answers of a byte reader
  are those of the arrivals one after another (`ByteReader.leads`). A source supplies
  some bytes if it gives just those and then no input (`Source.Supplying`): a slice
  supplies what is behind its mark, a queue what is in it, and a byte reader what its
  feed delivers in arrivals that are not empty, interruptions apart.
-/

import NoteTape.Proofs.Device.Reads
import NoteTape.Proofs.Device.Store

namespace NoteTape

-- ============================================================================
-- The answers of a byte reader
-- ============================================================================

namespace Feed

theorem byteAnswers_cons (arrival : Arrival) (later : Feed) :
    byteAnswers (arrival :: later) = arrival.byteAnswers ++ byteAnswers later :=
  List.flatMap_cons

/-- A read takes the first answer, and leaves the others. -/
theorem leads_nextByte (feed : Feed) :
    Leads feed.byteAnswers feed.nextByte.1 feed.nextByte.2.byteAnswers := by
  fun_induction nextByte feed with
  | case1 => exact .nil
  | case2 later => exact .cons _ _
  | case3 byte later => exact .cons _ _
  | case4 byte bytes later more =>
    have some : bytes.isEmpty = false := List.isEmpty_eq_false_iff.2 more
    have front : byteAnswers (.data (byte :: bytes) :: later) =
        .ok (.some byte) :: byteAnswers (.data bytes :: later) := by
      simp only [byteAnswers_cons, Arrival.byteAnswers, List.isEmpty_cons, some,
        Bool.false_eq_true, if_false, List.map_cons, List.cons_append]
    rw [front]
    exact .cons _ _
  | case5 e later again ih =>
    rw [byteAnswers_cons, Arrival.byteAnswers, if_pos again]
    exact ih
  | case6 e later refused =>
    rw [byteAnswers_cons, Arrival.byteAnswers, if_neg refused]
    exact .cons _ _

end Feed

theorem ByteReader.leads (r : ByteReader) :
    Leads r.feed.byteAnswers (Source.read r).1 (Source.read r).2.feed.byteAnswers :=
  r.feed.leads_nextByte

-- ============================================================================
-- What a source supplies
-- ============================================================================

/-- A source that supplies some bytes gives the first of them and supplies the others;
    one that supplies none has no input. -/
structure Source.Supplying {σ : Type} [Source σ] (supplies : σ → List UInt8 → Prop) : Prop where
  nothing : ∀ {s : σ}, supplies s [] → ∃ s', Source.read s = (.ok none, s') ∧ supplies s' []
  next : ∀ {s : σ} {byte : UInt8} {rest : List UInt8}, supplies s (byte :: rest) →
    ∃ s', Source.read s = (.ok (some byte), s') ∧ supplies s' rest

namespace Slice

/-- A slice supplies what is behind its mark. -/
def Supplies (s : Slice) (bytes : List UInt8) : Prop := s.toList = bytes

theorem supplying : Source.Supplying Supplies where
  nothing := by
    intro s nothing
    refine ⟨s, ?_, nothing⟩
    show ((.ok s.next.1, s.next.2) : Answer × Slice) = _
    rw [next_of_nil nothing]
  next := by
    intro s byte rest all
    have left : s.toList ≠ [] := by
      rw [all]
      exact List.cons_ne_nil byte rest
    obtain ⟨byte', s', next, front⟩ := next_of_ne_nil left
    obtain ⟨rfl, behind⟩ := List.cons.inj (all.symm.trans front)
    refine ⟨s', ?_, behind.symm⟩
    show ((.ok s.next.1, s.next.2) : Answer × Slice) = _
    rw [next]

end Slice

/-- A queue supplies what is in it, in order. -/
def QueueSupplies (q : Std.Queue UInt8) (bytes : List UInt8) : Prop := q.toArray.toList = bytes

theorem queue_toList (q : Std.Queue UInt8) : q.toArray.toList = q.dList ++ q.eList.reverse := by
  simp [Std.Queue.toArray]

theorem dequeue?_of_nil {q : Std.Queue UInt8} (nothing : QueueSupplies q []) :
    q.dequeue? = none := by
  rw [QueueSupplies, queue_toList, List.append_eq_nil_iff] at nothing
  rw [Std.Queue.dequeue?, nothing.1, nothing.2]

theorem dequeue?_of_cons {q : Std.Queue UInt8} {byte : UInt8} {rest : List UInt8}
    (all : QueueSupplies q (byte :: rest)) :
    ∃ q', q.dequeue? = some (byte, q') ∧ QueueSupplies q' rest := by
  rw [QueueSupplies, queue_toList] at all
  cases front : q.dList with
  | cons first others =>
    rw [front] at all
    obtain ⟨rfl, behind⟩ := List.cons.inj all
    refine ⟨{ eList := q.eList, dList := others }, by rw [Std.Queue.dequeue?, front], ?_⟩
    rw [QueueSupplies, queue_toList]
    exact behind
  | nil =>
    -- What was put in last is turned round and taken from the front.
    rw [front, List.nil_append] at all
    refine ⟨{ dList := rest }, by rw [Std.Queue.dequeue?, front, all], ?_⟩
    rw [QueueSupplies, queue_toList, List.reverse_nil, List.append_nil]

theorem queue_supplying : Source.Supplying QueueSupplies where
  nothing := by
    intro q nothing
    refine ⟨q, ?_, nothing⟩
    show ((.ok (nextOfQueue q).1, (nextOfQueue q).2) : Answer × Std.Queue UInt8) = _
    rw [nextOfQueue, dequeue?_of_nil nothing]
  next := by
    intro q byte rest all
    obtain ⟨q', taken, left⟩ := dequeue?_of_cons all
    refine ⟨q', ?_, left⟩
    show ((.ok (nextOfQueue q).1, (nextOfQueue q).2) : Answer × Std.Queue UInt8) = _
    rw [nextOfQueue, taken]

namespace Feed

/-- The bytes arrive in parts that are not empty, with interruptions anywhere. -/
inductive Delivers : Feed → List UInt8 → Prop where
  | nothing : Delivers [] []
  | data {bytes rest : List UInt8} {later : Feed} (some : bytes ≠ [])
    (delivers : Delivers later rest) : Delivers (.data bytes :: later) (bytes ++ rest)
  | interrupt {e : DeviceError} {rest : List UInt8} {later : Feed}
    (again : e.isInterrupted = true) (delivers : Delivers later rest) :
    Delivers (.failure e :: later) rest

theorem Delivers.nextByte_of_nil {feed : Feed} {all : List UInt8} (delivers : feed.Delivers all)
    (nothing : all = []) : feed.nextByte = (.ok none, []) := by
  induction delivers with
  | nothing => rfl
  | data some => exact absurd (List.append_eq_nil_iff.1 nothing).1 some
  | interrupt again _ ih =>
    rw [nextByte, if_pos again]
    exact ih nothing

theorem Delivers.nextByte_of_cons {feed : Feed} {all : List UInt8} (delivers : feed.Delivers all)
    {byte : UInt8} {rest : List UInt8} (more : all = byte :: rest) :
    ∃ later, feed.nextByte = (.ok (some byte), later) ∧ later.Delivers rest := by
  induction delivers with
  | nothing => cases more
  | @data bytes behind later some delivers =>
    obtain ⟨first, others, rfl⟩ := List.exists_cons_of_ne_nil some
    obtain ⟨rfl, rfl⟩ := List.cons.inj more
    cases others with
    | nil => exact ⟨later, rfl, delivers⟩
    | cons second others =>
      exact ⟨.data (second :: others) :: later, rfl, .data (List.cons_ne_nil _ _) delivers⟩
  | interrupt again _ ih =>
    rw [nextByte, if_pos again]
    exact ih more

end Feed

namespace ByteReader

/-- A byte reader supplies what its feed delivers. -/
def Supplies (r : ByteReader) (bytes : List UInt8) : Prop := r.feed.Delivers bytes

theorem supplying : Source.Supplying Supplies where
  nothing := by
    intro r delivers
    refine ⟨⟨[]⟩, ?_, .nothing⟩
    show ((r.feed.nextByte.1, ⟨r.feed.nextByte.2⟩) : Answer × ByteReader) = _
    rw [delivers.nextByte_of_nil rfl]
  next := by
    intro r byte rest delivers
    obtain ⟨later, next, left⟩ := delivers.nextByte_of_cons rfl
    refine ⟨⟨later⟩, ?_, left⟩
    show ((r.feed.nextByte.1, ⟨r.feed.nextByte.2⟩) : Answer × ByteReader) = _
    rw [next]

end ByteReader

end NoteTape
