/-
  NoteTape.Proofs.Machine.Interchange

  Sources between which a machine sees no difference. Two sources that supply the same
  bytes answer the same and go on supplying the same, read by read
  (`Source.Supplying.alike`); so a run comes to the same on both, whatever the program,
  the map, the machine and the sink (`Machine.runsAlike_of_supplying`). A byte reader,
  a slice and a queue of the same bytes are such sources.
-/

import NoteTape.Proofs.Device.Bytes
import NoteTape.Proofs.Machine.Alike

namespace NoteTape

variable {σ τ κ : Type} [Source σ] [Source τ] [Sink κ]
  {S : σ → List UInt8 → Prop} {T : τ → List UInt8 → Prop}

theorem Source.Supplying.alike (left : Source.Supplying S) (right : Source.Supplying T)
    {s : σ} {t : τ} {bytes : List UInt8} (supplies : S s bytes) (supplies' : T t bytes) :
    (Source.read s).1 = (Source.read t).1 ∧
      ∃ bytes', S (Source.read s).2 bytes' ∧ T (Source.read t).2 bytes' := by
  cases bytes with
  | nil =>
    obtain ⟨s', read, after⟩ := left.nothing supplies
    obtain ⟨t', read', after'⟩ := right.nothing supplies'
    rw [read, read']
    exact ⟨rfl, [], after, after'⟩
  | cons byte rest =>
    obtain ⟨s', read, after⟩ := left.next supplies
    obtain ⟨t', read', after'⟩ := right.next supplies'
    rw [read, read']
    exact ⟨rfl, rest, after, after'⟩

/-- The two sources supply the same bytes, and the sinks are the same. -/
structure Wired.SuppliedAlike (S : σ → List UInt8 → Prop) (T : τ → List UInt8 → Prop)
    (w : Wired σ κ) (v : Wired τ κ) : Prop where
  supply : ∃ bytes, S w.source bytes ∧ T v.source bytes
  sink : w.sink = v.sink

theorem Wired.alike_supplied (left : Source.Supplying S) (right : Source.Supplying T) :
    Device.Alike (Wired.SuppliedAlike S T : Wired σ κ → Wired τ κ → Prop) where
  read := by
    rintro w v ⟨⟨bytes, supplies, supplies'⟩, sink⟩
    obtain ⟨answer, after⟩ := left.alike right supplies supplies'
    exact ⟨answer, after, sink⟩
  write := by
    rintro byte ⟨s, k⟩ ⟨t, k'⟩ ⟨supply, rfl⟩
    exact ⟨rfl, supply, rfl⟩

theorem Wired.flushAlike_supplied :
    Device.FlushAlike (Wired.SuppliedAlike S T : Wired σ κ → Wired τ κ → Prop) := by
  rintro ⟨s, k⟩ ⟨t, k'⟩ ⟨supply, rfl⟩
  exact ⟨rfl, supply, rfl⟩

namespace Machine

variable {p : Program} {map : BracketMap} {m m' : Machine} {k k' : κ}
  {answer : Except Fault Unit} {s : σ} {t : τ}

/-- The run on the source and the sink ends so, and leaves the sink so. -/
def EndsWith (p : Program) (map : BracketMap) (m : Machine) (s : σ) (k : κ)
    (answer : Except Fault Unit) (m' : Machine) (k' : κ) : Prop :=
  ∃ s', Ends p map m (Wired.mk s k) answer m' (Wired.mk s' k')

/-- The runs on the two sources come to the same on the sink: they end with the same
    answer, the same machine and the same in the sink, or both go on forever. -/
structure RunsAlike (p : Program) (map : BracketMap) (m : Machine) (k : κ) (s : σ) (t : τ) :
    Prop where
  ends : ∀ answer m' k', EndsWith p map m s k answer m' k' ↔ EndsWith p map m t k answer m' k'
  diverges : Diverges p map m (Wired.mk s k) ↔ Diverges p map m (Wired.mk t k)

theorem runsAlike_of_supplying (left : Source.Supplying S) (right : Source.Supplying T)
    {bytes : List UInt8} (supplies : S s bytes) (supplies' : T t bytes) (p : Program)
    (map : BracketMap) (m : Machine) (k : κ) : RunsAlike p map m k s t := by
  have related : Wired.SuppliedAlike S T (Wired.mk s k) (Wired.mk t k) :=
    ⟨⟨bytes, supplies, supplies'⟩, rfl⟩
  have same (n : Nat) := run_alike (Wired.alike_supplied left right) Wired.flushAlike_supplied
    p map n m related
  -- A run that ends on one source ends on the other, with a source that is not the same
  -- but supplies the same.
  refine ⟨fun answer m' k' => ?_, diverges_iff_of_alike same⟩
  constructor
  · rintro ⟨s', ends⟩
    obtain ⟨⟨t', k''⟩, ends', -, rfl⟩ := ends.alike same
    exact ⟨t', ends'⟩
  · rintro ⟨t', ends⟩
    obtain ⟨⟨s', k''⟩, ends', -, rfl⟩ := ends.of_alike same
    exact ⟨s', ends'⟩

/-- The answers of a byte reader are those of the arrivals, one after another. Where the
    feed delivers just the bytes of a slice and of a queue, the three cannot be told
    apart by a run on any sink. -/
theorem byte_sources_interchange :
    (∀ (feed : Feed) (n : Nat), (Source.reads n (ByteReader.mk feed)).1 =
      (List.range n).map (nthAnswer feed.byteAnswers)) ∧
    ∀ (feed : Feed) (bytes : List UInt8) (q : Std.Queue UInt8), feed.Delivers bytes →
      q.toArray.toList = bytes →
      ∀ {κ : Type} [Sink κ] (p : Program) (map : BracketMap) (m : Machine) (k : κ),
        RunsAlike p map m k (ByteReader.mk feed) (Slice.ofList bytes) ∧
        RunsAlike p map m k (Slice.ofList bytes) q := by
  constructor
  · intro feed n
    exact Source.reads_of_leads (fun r : ByteReader => r.feed.byteAnswers) ByteReader.leads n ⟨feed⟩
  · intro feed bytes q delivers holds κ _ p map m k
    have slice : (Slice.ofList bytes).Supplies bytes := Slice.toList_ofList bytes
    constructor
    · exact runsAlike_of_supplying ByteReader.supplying Slice.supplying delivers slice p map m k
    · exact runsAlike_of_supplying Slice.supplying queue_supplying slice holds p map m k

/-- Three bytes that arrive in two parts with an interruption between them, and a queue
    of which the last two are still to be turned round. -/
theorem byte_sources_interchange_interrupted :
    RunsAlike (.ofList [.input, .output]) .empty .fresh ({} : Recorder)
      (ByteReader.mk [.data [1], .failure ⟨.interrupted, ""⟩, .data [2, 3]])
      (Slice.ofList [1, 2, 3]) ∧
    RunsAlike (.ofList [.input, .output]) .empty .fresh ({} : Recorder)
      (Slice.ofList [1, 2, 3]) (⟨[3, 2], [1]⟩ : Std.Queue UInt8) := by
  have delivers : Feed.Delivers [.data [1], .failure ⟨.interrupted, ""⟩, .data [2, 3]]
      ([1] ++ ([2, 3] ++ [])) :=
    .data (List.cons_ne_nil _ _)
      (.interrupt rfl (.data (List.cons_ne_nil _ _) .nothing))
  have holds : (⟨[3, 2], [1]⟩ : Std.Queue UInt8).toArray.toList = [1, 2, 3] := queue_toList _
  exact byte_sources_interchange.2 _ [1, 2, 3] ⟨[3, 2], [1]⟩ delivers holds _ _ _ _

end Machine

end NoteTape
