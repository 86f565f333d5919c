import Mathlib.Data.Nat.ModEq

/-!
# Positions on a cycle

`gap n c i` is the number of positions that lie between `c` and `i` when one goes round a cycle of
`n` positions from `c` on.  The position after `c` has gap zero, and `c` itself the largest gap.
-/

namespace Cyclic

variable {n c i k : Nat}

end Cyclic
