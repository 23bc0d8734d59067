/-
  NoteTape.Proofs.Device.Reads

  The answers of a source read again and again. If what is to come of a source can
  be listed, and each read answers the first of the list and leaves a source whose
  list is the rest (`Leads`), then so many reads answer so many of the list
  (`Source.reads_of_leads`). Behind the end of a list there is no input.
-/

import NoteTape.Device.Pieces
import NoteTape.Device.Reads

namespace NoteTape

/-- Read off `answers`, `answer` comes first, and then what is read off `later`. -/
structure Leads (answers : List Answer) (answer : Answer) (later : List Answer) : Prop where
  first : nthAnswer answers 0 = answer
  rest : ∀ n, nthAnswer answers (n + 1) = nthAnswer later n

namespace Leads

theorem nil : Leads [] (.ok none) [] := ⟨rfl, fun _ => rfl⟩

theorem cons (answer : Answer) (later : List Answer) : Leads (answer :: later) answer later :=
  ⟨rfl, fun _ => rfl⟩

/-- Behind the last answer it makes no difference to say once more that there is no
    input. -/
theorem last (answer : Answer) : Leads [answer] answer [.ok none] := by
  refine ⟨rfl, fun n => ?_⟩
  cases n with
  | zero => rfl
  | succ n => rfl

end Leads

theorem Source.reads_of_leads {σ : Type} [Source σ] (answers : σ → List Answer)
    (leads : ∀ s : σ, Leads (answers s) (Source.read s).1 (answers (Source.read s).2))
    (n : Nat) (s : σ) : (Source.reads n s).1 = (List.range n).map (nthAnswer (answers s)) := by
  induction n generalizing s with
  | zero => rfl
  | succ n ih =>
    have later : nthAnswer (answers s) ∘ Nat.succ = nthAnswer (answers (Source.read s).2) :=
      funext (leads s).rest
    rw [List.range_succ_eq_map, List.map_cons, List.map_map, later, ← ih, (leads s).first]
    rfl

end NoteTape
