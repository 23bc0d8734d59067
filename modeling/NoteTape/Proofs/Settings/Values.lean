/-
  NoteTape.Proofs.Settings.Values

  What a scalar says. `Names` says which name a scalar is and `Numbers` which number a
  text is, without the reader; `name?_eq_some_iff` and `number?_eq_some_iff` say that the
  reader takes exactly these, and of the numbers those that have 64 bits.
-/

import NoteTape.Proofs.Text.Digits
import NoteTape.Settings.Load

namespace NoteTape.Settings

open Document

/-- The name that a scalar is: its text, unless it has a tag of its own; then the
    name is in the tag, and nothing else is written. -/
inductive Names : Scalar → List Char → Prop where
  | text {s : Scalar} (common : ∀ name, s.tag ≠ some ('!' :: name)) : Names s s.text
  | tag {s : Scalar} {name : List Char} (own : s.tag = some ('!' :: name))
    (plain : s.style = .plain) (nothing : s.text ∈ nullWords) : Names s name

/-- The marks of the bases other than ten. -/
def baseMarks : List (Char × Nat) := [('x', 16), ('o', 8), ('b', 2)]

/-- A number without a sign: decimal digits, the first of them no zero unless it is
    alone, or digits of another base behind a zero and its mark. -/
inductive Unsigned : List Char → Nat → Prop where
  | decimal {cs : List Char} {n : Nat} (digits : Text.numeral? 10 cs = some n)
    (tidy : hasSpareZero cs = false) : Unsigned cs n
  | marked {mark : Char} {base : Nat} {cs : List Char} {n : Nat}
    (known : (mark, base) ∈ baseMarks) (digits : Text.numeral? base cs = some n) :
    Unsigned ('0' :: mark :: cs) n

/-- A number, before which a plus may stand. -/
inductive Numbers : List Char → Nat → Prop where
  | bare {cs : List Char} {n : Nat} (number : Unsigned cs n) : Numbers cs n
  | plus {cs : List Char} {n : Nat} (number : Unsigned cs n) : Numbers ('+' :: cs) n

/-- A scalar that is taken for a number if its text is one: it is written plainly, or
    as literal text that a tag calls a number. -/
def Counts (s : Scalar) : Prop :=
  s.style = .plain ∨ (s.style = .literal ∧ s.tag = some numberTag)

theorem name?_of_common {s : Scalar} (common : ∀ name, s.tag ≠ some ('!' :: name)) :
    name? (.scalar s) = some s.text := by
  simp only [name?]

theorem name?_of_own {s : Scalar} {name : List Char} (own : s.tag = some ('!' :: name)) :
    name? (.scalar s) =
      if s.style = .plain && nullWords.contains s.text then some name else none := by
  simp only [name?, own]

theorem name?_eq_some_iff {s : Scalar} {name : List Char} :
    name? (.scalar s) = some name ↔ Names s name := by
  constructor
  · intro named
    by_cases own : ∃ name, s.tag = some ('!' :: name)
    · obtain ⟨name', own⟩ := own
      rw [name?_of_own own, Option.ite_none_right_eq_some, Bool.and_eq_true, decide_eq_true_eq,
        List.contains_iff_mem] at named
      obtain ⟨⟨plain, nothing⟩, same⟩ := named
      cases same
      exact .tag own plain nothing
    · have common : ∀ name, s.tag ≠ some ('!' :: name) := fun name h => own ⟨name, h⟩
      rw [name?_of_common common] at named
      cases named
      exact .text common
  · rintro (common | ⟨own, plain, nothing⟩)
    · exact name?_of_common common
    · rw [name?_of_own own, if_pos (by simp [plain, nothing])]

theorem digits?_eq_some_iff {base n : Nat} {cs : List Char} (pos : 0 < base) :
    digits? base cs = some n ↔ Text.numeral? base cs = some n ∧ n < Text.wordLimit := by
  rw [← Text.readDigits_eq_ok_iff pos, digits?]
  cases Text.readDigits base cs <;> simp

/-- Behind a mark there are digits of its base and no others. -/
theorem unsigned_marked_iff {mark : Char} {base n : Nat} {cs : List Char}
    (known : (mark, base) ∈ baseMarks) :
    Unsigned ('0' :: mark :: cs) n ↔ Text.numeral? base cs = some n := by
  have marks : Text.digitValue? 10 mark = none ∧ ∀ base', (mark, base') ∈ baseMarks →
      base' = base := by
    simp only [baseMarks, List.mem_cons, Prod.mk.injEq, List.not_mem_nil, or_false] at known
    obtain ⟨rfl, rfl⟩ | ⟨rfl, rfl⟩ | ⟨rfl, rfl⟩ := known <;>
      exact ⟨by decide, by simp [baseMarks]⟩
  constructor
  · generalize whole : '0' :: mark :: cs = text
    rintro (⟨digits, -⟩ | ⟨other, digits⟩)
    · subst whole
      simp [Text.numeral?, Text.digitBehind, marks.1] at digits
    · cases whole
      rwa [← marks.2 _ other]
  · exact .marked known

/-- Without a mark there are decimal digits. -/
theorem unsigned_iff_of_unmarked {cs : List Char} {n : Nat}
    (unmarked : ∀ mark base rest, (mark, base) ∈ baseMarks → cs ≠ '0' :: mark :: rest) :
    Unsigned cs n ↔ Text.numeral? 10 cs = some n ∧ hasSpareZero cs = false := by
  constructor
  · rintro (⟨digits, tidy⟩ | ⟨known, -⟩)
    · exact ⟨digits, tidy⟩
    · exact absurd rfl (unmarked _ _ _ known)
  · rintro ⟨digits, tidy⟩
    exact .decimal digits tidy

/-- Behind a plus a number has no sign. -/
theorem number?_plus_eq_some_iff {cs : List Char} {n : Nat} :
    number? ('+' :: cs) = some n ↔ Unsigned cs n ∧ n < Text.wordLimit := by
  have hexadecimal : (('x', 16) : Char × Nat) ∈ baseMarks := by decide
  have octal : (('o', 8) : Char × Nat) ∈ baseMarks := by decide
  have binary : (('b', 2) : Char × Nat) ∈ baseMarks := by decide
  unfold number?
  simp only
  split
  · rw [unsigned_marked_iff hexadecimal, digits?_eq_some_iff (by decide)]
  · rw [unsigned_marked_iff octal, digits?_eq_some_iff (by decide)]
  · rw [unsigned_marked_iff binary, digits?_eq_some_iff (by decide)]
  · rename_i noHexadecimal noOctal noBinary
    have unmarked : ∀ mark base rest, (mark, base) ∈ baseMarks → cs ≠ '0' :: mark :: rest := by
      intro mark base rest known
      simp only [baseMarks, List.mem_cons, Prod.mk.injEq, List.not_mem_nil, or_false] at known
      obtain ⟨rfl, -⟩ | ⟨rfl, -⟩ | ⟨rfl, -⟩ := known
      · exact noHexadecimal rest
      · exact noOctal rest
      · exact noBinary rest
    rw [unsigned_iff_of_unmarked unmarked, Option.ite_none_left_eq_some,
      digits?_eq_some_iff (by decide), Bool.not_eq_true]
    constructor
    · rintro ⟨tidy, digits, fits⟩
      exact ⟨⟨digits, tidy⟩, fits⟩
    · rintro ⟨⟨digits, tidy⟩, fits⟩
      exact ⟨tidy, digits, fits⟩

/-- A plus is no part of a number without a sign. -/
theorem not_unsigned_plus {cs : List Char} {n : Nat} : ¬ Unsigned ('+' :: cs) n := by
  generalize whole : '+' :: cs = text
  rintro (⟨digits, -⟩ | -)
  · subst whole
    simp [Text.numeral?, Text.digitBehind, Text.digitValue?] at digits
  · cases whole

theorem number?_eq_some_iff {cs : List Char} {n : Nat} :
    number? cs = some n ↔ Numbers cs n ∧ n < Text.wordLimit := by
  by_cases signed : ∃ rest, cs = '+' :: rest
  · obtain ⟨rest, rfl⟩ := signed
    rw [number?_plus_eq_some_iff]
    refine and_congr_left fun _ => ⟨.plus, ?_⟩
    rintro (bare | number)
    · exact absurd bare not_unsigned_plus
    · exact number
  · have same : number? cs = number? ('+' :: cs) := by
      cases cs with
      | nil => rfl
      | cons c cs =>
        have unsigned : c ≠ '+' := fun plus => signed ⟨cs, plus ▸ rfl⟩
        unfold number?
        simp [unsigned]
    rw [same, number?_plus_eq_some_iff]
    refine and_congr_left fun _ => ⟨.bare, ?_⟩
    rintro (number | number)
    · exact number
    · exact absurd ⟨_, rfl⟩ signed

end NoteTape.Settings
