/-
  NoteTape.Text.Range

  Ranges of characters by their code points.
-/

namespace NoteTape.Text

/-- Whether the code point of a character is in a range, ends included. -/
def within (lo hi : Nat) (c : Char) : Bool := lo ≤ c.toNat && c.toNat ≤ hi

end NoteTape.Text
