/-
  NoteTape.Proofs.Program.Text

  A program and its text. Reading keeps exactly the symbols of a text, so a text
  means what its symbols mean: what a program is written as is read back as the
  program, the text of what was read is the symbols of the text, a text is read part
  by part, and characters inserted between the others change nothing unless one of
  them is a symbol. All of it hangs on `symbol_filterMap_ofSymbol?`.
-/

import NoteTape.Program

namespace NoteTape

namespace Instruction

/-- The characters that are written for an instruction. -/
def symbols : List Char := ['>', '<', '+', '-', '.', ',', '[', ']']

/-- Whether a character is written for an instruction. -/
def isSymbol (c : Char) : Bool := symbols.contains c

theorem map_symbol_all : all.map symbol = symbols := rfl

theorem isSymbol_symbol (i : Instruction) : isSymbol i.symbol = true := by
  cases i <;> rfl

theorem ofSymbol?_eq_none_iff {c : Char} : ofSymbol? c = none ↔ isSymbol c = false := by
  constructor
  · intro unread
    cases symbol : isSymbol c with
    | false => rfl
    | true =>
      have listed : c ∈ all.map Instruction.symbol := by
        rw [map_symbol_all]
        simpa [isSymbol] using symbol
      obtain ⟨i, -, written⟩ := List.mem_map.mp listed
      rw [← written, ofSymbol?_symbol] at unread
      exact absurd unread (Option.some_ne_none i)
  · intro other
    cases read : ofSymbol? c with
    | none => rfl
    | some i =>
      rw [← symbol_of_ofSymbol? read, isSymbol_symbol] at other
      exact absurd other (by decide)

/-- What is written for the instructions that are read is the symbols that were
    there. -/
theorem symbol_filterMap_ofSymbol? (cs : List Char) :
    (cs.filterMap ofSymbol?).map symbol = cs.filter isSymbol := by
  induction cs with
  | nil => rfl
  | cons c cs ih =>
    cases read : ofSymbol? c with
    | none =>
      have other := ofSymbol?_eq_none_iff.mp read
      rw [List.filterMap_cons_none read, ih, List.filter_cons_of_neg (by simp [other])]
    | some i =>
      have written := symbol_of_ofSymbol? read
      have kept : isSymbol c = true := written ▸ isSymbol_symbol i
      rw [List.filterMap_cons_some read, List.map_cons, ih, written,
        List.filter_cons_of_pos kept]

theorem filterMap_ofSymbol?_map_symbol (is : List Instruction) :
    (is.map symbol).filterMap ofSymbol? = is := by
  induction is with
  | nil => rfl
  | cons i is ih =>
    rw [List.map_cons, List.filterMap_cons_some (ofSymbol?_symbol i), ih]

theorem filterMap_ofSymbol?_of_no_symbol {cs : List Char} (none_of : ∀ c ∈ cs, isSymbol c = false) :
    cs.filterMap ofSymbol? = [] := by
  rw [List.filterMap_eq_nil_iff]
  intro c mem
  exact ofSymbol?_eq_none_iff.mpr (none_of c mem)

end Instruction

namespace Program

open Instruction

@[simp] theorem toList_ofText (text : String) :
    (ofText text).toList = text.toList.filterMap ofSymbol? := rfl

/-- The first text with characters that are no symbols inserted anywhere is the
    second. -/
inductive Commented : List Char → List Char → Prop where
  | done : Commented [] []
  | keep {plain commented : List Char} (c : Char) :
    Commented plain commented → Commented (c :: plain) (c :: commented)
  | insert {plain commented : List Char} {c : Char} (comment : isSymbol c = false) :
    Commented plain commented → Commented plain (c :: commented)

theorem ofText_toText (p : Program) : ofText p.toText = p := by
  apply ext_toList
  rw [toList_ofText, toText, String.toList_ofList, filterMap_ofSymbol?_map_symbol]

theorem toText_ofText (text : String) :
    (ofText text).toText = String.ofList (text.toList.filter isSymbol) := by
  rw [toText, toList_ofText, symbol_filterMap_ofSymbol?]

theorem ofText_append (front behind : String) :
    ofText (front ++ behind) = ofText front ++ ofText behind := by
  rw [ofText, String.toList_append, List.filterMap_append, ofList_append]
  rfl

theorem Commented.filterMap_eq {plain commented : List Char} (h : Commented plain commented) :
    commented.filterMap ofSymbol? = plain.filterMap ofSymbol? := by
  induction h with
  | done => rfl
  | keep c _ ih => rw [List.filterMap_cons, List.filterMap_cons, ih]
  | insert comment _ ih =>
    rw [List.filterMap_cons_none (ofSymbol?_eq_none_iff.mpr comment), ih]

theorem ofText_of_commented {plain commented : String}
    (h : Commented plain.toList commented.toList) : ofText commented = ofText plain := by
  apply ext_toList
  rw [toList_ofText, toList_ofText, h.filterMap_eq]

/-- A text behind a program's own adds nothing if no character of it is a symbol. -/
theorem ofText_toText_append {p : Program} {comment : String}
    (none_of : ∀ c ∈ comment.toList, isSymbol c = false) : ofText (p.toText ++ comment) = p := by
  apply ext_toList
  rw [ofText_append, ofText_toText, toList_append, toList_ofText,
    filterMap_ofSymbol?_of_no_symbol none_of, List.append_nil]

end Program

end NoteTape
