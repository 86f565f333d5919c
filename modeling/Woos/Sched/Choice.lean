import Woos.Lib.Cyclic
import Woos.Sched.Calls

/-!
# The choice of a thread

Which threads the two schedule functions choose.  `schedule_interrupt` takes the first thread that
is ready in cyclic order after the current one, `schedule_irq` one of the highest priority.  From
the first it follows that a thread that stays ready waits for fewer switches than there are threads,
as long as no interrupt switches and no thread is made: `StaysReady` follows the thread through the
run, and `Sched.gap`, its distance from the current thread, decreases at each switch.
-/

open Cyclic

namespace Sched

section

variable (s : Sched)

end

end Sched

namespace Kernel

/-! ### The timer -/

section

variable {k k' : Kernel} {rsp : UInt64}

end

end Kernel
