import Woos.Notepad.Table

/-!
# Saving and loading again

When a document that has been saved is loaded again, the lines come back if and only if they are
short and plain, `RoundTrips`: the loader replaces every byte that is neither a tab nor a printable
ASCII character, and it begins a new row after 72 bytes even where the line ends there, so that an
empty row follows each row of exactly 72.
-/

namespace Notepad

/-- The bytes that are loaded as they are. -/
def Plain (c : UInt8) : Prop := c = 9 ∨ 32 ≤ c ∧ c ≤ 126

/-- Behind a line of exactly 72 bytes there are only empty ones, to the end of a table of `n`. -/
def Fits (n : Nat) (ls : List (List UInt8)) : Prop :=
  ∀ as l bs, ls = as ++ l :: bs → l.length = 72 → ls.length = n ∧ ∀ b ∈ bs, b = []

/-- The rows that the loader makes of the lines: one more behind each that fills a row. -/
def wrap (ls : List (List UInt8)) : List (List UInt8) :=
  ls.flatMap fun l => if l.length = 72 then [l, []] else [l]

namespace Document

/-! ### Blocks -/

end Document

/-! ### Full rows -/

namespace Document

end Document

namespace Editor

end Editor

end Notepad
