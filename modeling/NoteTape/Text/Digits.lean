/-
  NoteTape.Text.Digits

  Unsigned whole numbers of 64 bits, written in digits of a base. The digits are
  read one by one, and of two things wrong with a text the earlier one counts.
-/

namespace NoteTape.Text

/-- The first number that is too large. -/
def wordLimit : Nat := UInt64.size

/-- Why a text is not a number. -/
inductive NumberFault where
  | empty
  | badDigit
  | tooLarge
  deriving DecidableEq, Repr, Inhabited

/-- What is said of a text that is not a number. -/
def NumberFault.message : NumberFault → String
  | .empty => "cannot parse integer from empty string"
  | .badDigit => "invalid digit found in string"
  | .tooLarge => "number too large to fit in target type"

/-- The value of a digit or letter, if it is a digit of the base. -/
def digitValue? (base : Nat) (c : Char) : Option Nat :=
  let value :=
    if '0' ≤ c ∧ c ≤ '9' then c.toNat - '0'.toNat
    else if 'a' ≤ c ∧ c ≤ 'z' then c.toNat - 'a'.toNat + 10
    else if 'A' ≤ c ∧ c ≤ 'Z' then c.toNat - 'A'.toNat + 10
    else base
  if value < base then some value else none

/-- Goes on with a number of which `value` was read. -/
def readDigitsOn (base value : Nat) : List Char → Except NumberFault Nat
  | [] => .ok value
  | c :: cs =>
    match digitValue? base c with
    | none => .error .badDigit
    | some digit =>
      let value := value * base + digit
      if value < wordLimit then readDigitsOn base value cs else .error .tooLarge

/-- Reads a number without a sign. -/
def readDigits (base : Nat) : List Char → Except NumberFault Nat
  | [] => .error .empty
  | cs => readDigitsOn base 0 cs

/-- Reads a decimal number, before which a plus may stand. -/
def readNumber : List Char → Except NumberFault Nat
  | ['+'] => .error .badDigit
  | '+' :: cs => readDigits 10 cs
  | cs => readDigits 10 cs

end NoteTape.Text
