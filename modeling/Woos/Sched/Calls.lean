import Woos.Sched.Create
import Woos.Sched.Switch

/-!
# Calls of the kernel

`Kernel.Call` lists what threads and interrupts do, each one step of the kernel, and
`Kernel.call` executes it and returns the frame at which the processor goes on, `0` for the
frame it came with.

`Sched.Main` says that the first thread is always ready or running.  As long as it holds, the
schedule functions never force the current thread to run: `Schedules` says all they can do.
-/

namespace Kernel

/-- A call of the current thread, an interrupt, or a change of what is outside the scheduler
and the queue of messages. -/
inductive Call where
  | timer (rsp : UInt64)
  | yield (rsp : UInt64)
  | irq (events : List InputEvent) (rsp : UInt64)
  | block (rsp : UInt64)
  | unblockAll
  | exit (rsp : UInt64)
  | threadCreate (entryPoint : UInt64)
  | processCreate
  | spawn (path : Option CString)
  | send (destId type arg1 arg2 arg3 arg4 arg5 : UInt32)
  | recv
  | other (k : Kernel)

/-- `woos_ipc_send` -/
def ipcSend (k : Kernel) (destId type arg1 arg2 arg3 arg4 arg5 : UInt32) : Kernel :=
  let r := woosIpcSend k.ipc k.sched.schedCurrentThreadId destId type arg1 arg2 arg3 arg4 arg5
  if r.1 = 0 then schedUnblockAll { k with ipc := r.2 } else { k with ipc := r.2 }

/-- `woos_ipc_recv`: the message, if there is one. -/
def ipcRecv (k : Kernel) : Kernel × Option IpcMsg :=
  let r := woosIpcRecv k.ipc k.sched.schedCurrentThreadId
  ({ k with ipc := r.2 }, r.1)

/-- What is outside the scheduler and the queue of messages is that of `k'`. -/
def changeRest (k k' : Kernel) : Kernel :=
  { k with
    heap := k'.heap
    windows := k'.windows
    phys := k'.phys
    pmm := k'.pmm
    cpu := { k.cpu with fpu := k'.cpu.fpu }
    timer := k'.timer
    input := k'.input }

/-- Execute a call. -/
def call (k : Kernel) : Call → Option (Kernel × UInt64)
  | .timer rsp => some (k.scheduleInterrupt rsp)
  | .yield rsp => some (k.threadYield rsp)
  | .irq events rsp => some (k.scheduleIrq events rsp)
  | .block rsp => some (k.schedBlockCurrent rsp)
  | .unblockAll => some (k.schedUnblockAll, 0)
  | .exit rsp => k.threadExit rsp
  | .threadCreate entryPoint => some (k.threadCreate entryPoint, 0)
  | .processCreate => some (k.processCreate, 0)
  | .spawn path => some ((k.woosSystemSpawn path).1, 0)
  | .send destId type arg1 arg2 arg3 arg4 arg5 =>
      some (k.ipcSend destId type arg1 arg2 arg3 arg4 arg5, 0)
  | .recv => some (k.ipcRecv.1, 0)
  | .other k' => some (k.changeRest k', 0)

/-- The frame with which a call comes. -/
def Call.frame : Call → UInt64
  | .timer rsp | .yield rsp | .irq _ rsp | .block rsp | .exit rsp => rsp
  | _ => 0

/-- The state after a call. -/
def step (k : Kernel) (c : Call) : Option Kernel := (k.call c).map Prod.fst

/-! ### The first thread -/

end Kernel

namespace Sched

/-- The first thread runs when it is the current one, and is ready otherwise. -/
structure Main (s : Sched) : Prop where
  current_lt : s.current < s.numThreads
  state_zero : s.state 0 = if s.current = 0 then .running else .ready

section

variable {s : Sched}

theorem Main.numThreads_pos (h : Main s) :
  0 < s.numThreads
  := Nat.zero_lt_of_lt h.current_lt

theorem Main.state_zero_ne (h : Main s) :
  s.state 0 ≠ .blocked ∧ s.state 0 ≠ .terminated
  := by
  rw [h.state_zero]
  split
  · exact ⟨nofun, nofun⟩
  · exact ⟨nofun, nofun⟩

theorem Main.of_eq {s' : Sched} (h : Main s) (hcurrent : s'.current = s.current)
    (hnum : s.numThreads ≤ s'.numThreads) (hstate : s'.state 0 = s.state 0) :
  Main s'
  := by
  constructor
  · rw [hcurrent]
    exact Nat.lt_of_lt_of_le h.current_lt hnum
  · rw [hstate, hcurrent, h.state_zero]

theorem Main.wake (h : Main s) (b : Bool) :
  Main (s.wake b)
  := by
  apply h.of_eq (wake_current s b) (Nat.le_of_eq (wake_numThreads s b).symm)
  rw [wake_state, if_neg]
  exact fun hcon => h.state_zero_ne.1 hcon.2.2

theorem Main.setState (h : Main s) {i : Nat} (hi : i ≠ 0) (st : ThreadState) :
  Main (s.setState i st)
  := by
  refine h.of_eq rfl (Nat.le_refl _) ?_
  exact s.setState_state_ne st hi.symm

theorem Main.modify (h : Main s) {i : Nat} (hi : i ≠ 0) (f : Thread → Thread) :
  Main (s.modify i f)
  := by
  refine h.of_eq rfl (Nat.le_refl _) ?_
  rw [state, modify_threads_ne _ _ hi.symm, state]

end

end Sched

namespace Kernel

/-! ### Schedule functions -/

/-- A schedule function returns to the frame it came with, or switches to a thread that is
ready after the current one has been saved. -/
def Schedules (k : Kernel) (rsp : UInt64) (r : Kernel × UInt64) : Prop :=
  r = (k, 0) ∨ ∃ next < k.sched.numThreads, (saveCurrent k.sched rsp).state next = .ready
    ∧ r = (k.save rsp).switchTo next

section

variable {k : Kernel} {rsp : UInt64} {r : Kernel × UInt64}

/-- The first thread is ready after the current one has been saved, when it was ready or
running. -/
theorem saveCurrent_main (h : k.sched.Main) (rsp : UInt64) :
  (saveCurrent k.sched rsp).state 0 = .ready
  := by
  rw [saveCurrent_state]
  by_cases hcurrent : k.sched.current = 0
  · rw [if_pos]
    rw [h.state_zero, if_pos hcurrent]
    exact ⟨hcurrent.symm, rfl⟩
  · rw [if_neg (fun hcon => hcurrent hcon.1.symm), h.state_zero, if_neg hcurrent]

/-- `schedule_interrupt` switches unless there is only one thread. -/
theorem roundRobin_switches (h : k.sched.Main) (rsp : UInt64) :
  (k.roundRobin rsp = (k, 0) ∧ (k.sched.ready = false ∨ k.sched.numThreads ≤ 1))
    ∨ ∃ next < k.sched.numThreads, (saveCurrent k.sched rsp).state next = .ready
      ∧ k.roundRobin rsp = (k.save rsp).switchTo next
  := by
  rcases k.roundRobin_cases rsp with hstay | ⟨-, hnone⟩ | hswitch
  · exact Or.inl hstay
  · exact absurd (saveCurrent_main h rsp) (hnone 0 h.numThreads_pos)
  · exact Or.inr hswitch

theorem roundRobin_schedules (h : k.sched.Main) (rsp : UInt64) :
  Schedules k rsp (k.roundRobin rsp)
  := by
  rcases roundRobin_switches h rsp with ⟨hstay, -⟩ | hswitch
  · exact Or.inl hstay
  · exact Or.inr hswitch

theorem switchToBest_schedules (h : k.sched.Main) (rsp : UInt64) :
  Schedules k rsp (k.switchToBest rsp)
  := by
  rcases k.switchToBest_cases rsp with hstay | ⟨next, hne, ⟨hlt, hready⟩ | ⟨rfl, -⟩, hswitch⟩
  · exact Or.inl hstay
  · refine Or.inr ⟨next, hlt, ?_, hswitch⟩
    rw [saveCurrent_state, if_neg (fun hcon => hne hcon.1), hready]
  · exact Or.inr ⟨0, h.numThreads_pos, saveCurrent_main h rsp, hswitch⟩

/-- What a schedule function keeps. -/
structure Keeps (s s' : Sched) : Prop where
  numThreads : s'.numThreads = s.numThreads
  terminated : ∀ i, s'.state i = .terminated ↔ s.state i = .terminated
  same : ∀ i, (s.threads i).Same (s'.threads i)

theorem Keeps.refl (s : Sched) :
  Keeps s s
  := ⟨rfl, fun _ => Iff.rfl, fun _ => rfl⟩

theorem Keeps.trans {s s' s'' : Sched} (h : Keeps s s') (h' : Keeps s' s'') :
  Keeps s s''
  where
  numThreads := h'.numThreads.trans h.numThreads
  terminated i := (h'.terminated i).trans (h.terminated i)
  same i := (h.same i).trans (h'.same i)

theorem wake_keeps (s : Sched) (b : Bool) :
  Keeps s (s.wake b)
  := ⟨s.wake_numThreads b, s.wake_terminated b, s.wake_same b⟩

theorem saveCurrent_keeps (s : Sched) (rsp : UInt64) :
  Keeps s (saveCurrent s rsp)
  where
  numThreads := saveCurrent_numThreads s rsp
  terminated i := by
    rw [saveCurrent_state]
    split
    case isTrue h => simp [h.2]
    case isFalse => rfl
  same := saveCurrent_same s rsp

theorem switchTo_keeps {next : Nat} (h : k.sched.state next = .ready) :
  Keeps k.sched (k.switchTo next).1.sched
  where
  numThreads := rfl
  terminated i := by
    rw [switchTo_state]
    split
    case isTrue hi => simp [hi, h]
    case isFalse => rfl
  same := k.switchTo_same next

/-- A schedule function ends no thread, and leaves the first one ready or running. -/
theorem Schedules.keeps (h : k.sched.Main) (hr : Schedules k rsp r) :
  Keeps k.sched r.1.sched ∧ r.1.sched.Main
  := by
  rcases hr with rfl | ⟨next, hlt, hready, rfl⟩
  · exact ⟨Keeps.refl _, h⟩
  · constructor
    · exact (saveCurrent_keeps k.sched rsp).trans
        (switchTo_keeps (k := k.save rsp) hready)
    · constructor
      · exact Nat.lt_of_lt_of_eq hlt (saveCurrent_numThreads k.sched rsp).symm
      · rw [switchTo_state, save_sched, saveCurrent_main h rsp]
        change _ = if next = 0 then _ else _
        simp only [eq_comm]

/-! ### Calls that end no thread and make none -/

theorem Wakes.keeps {b : Bool} {k' : Kernel} (h : Wakes b k k') (hmain : k.sched.Main) :
  Keeps k.sched k'.sched ∧ k'.sched.Main
  := by
  rw [h.sched]
  exact ⟨wake_keeps k.sched b, hmain.wake b⟩

theorem threadYield_keeps (h : k.sched.Main) (rsp : UInt64) :
  Keeps k.sched (k.threadYield rsp).1.sched ∧ (k.threadYield rsp).1.sched.Main
  := by
  let k₁ : Kernel := { k with sched := { k.sched with isYield := false } }
  have hmain : k₁.sched.Main := ⟨h.current_lt, h.state_zero⟩
  obtain ⟨hkeeps, hmain'⟩ := Schedules.keeps hmain (roundRobin_schedules hmain rsp)
  exact ⟨⟨hkeeps.numThreads, hkeeps.terminated, hkeeps.same⟩, hmain'⟩

theorem scheduleInterrupt_keeps (h : k.sched.Main) (rsp : UInt64) :
  Keeps k.sched (k.scheduleInterrupt rsp).1.sched ∧ (k.scheduleInterrupt rsp).1.sched.Main
  := by
  have hrobin : ∀ k₁ : Kernel, k₁.sched.Main → Keeps k₁.sched
      (roundRobin { k₁ with sched := { k₁.sched with isYield := false } } rsp).1.sched
      ∧ (roundRobin { k₁ with sched := { k₁.sched with isYield := false } } rsp).1.sched.Main :=
    fun k₁ h₁ => threadYield_keeps h₁ rsp
  rw [scheduleInterrupt]
  split
  · apply hrobin k h
  · obtain ⟨hkeeps, hmain⟩ := (timerHandler_wakes k).keeps h
    obtain ⟨hkeeps', hmain'⟩ := hrobin _ hmain
    exact ⟨hkeeps.trans hkeeps', hmain'⟩

theorem scheduleIrq_keeps (h : k.sched.Main) (events : List InputEvent) (rsp : UInt64) :
  Keeps k.sched (k.scheduleIrq events rsp).1.sched ∧ (k.scheduleIrq events rsp).1.sched.Main
  := by
  obtain ⟨hkeeps, hmain⟩ := (events_wakes k events).keeps h
  obtain ⟨hkeeps', hmain'⟩ := Schedules.keeps hmain (switchToBest_schedules hmain rsp)
  exact ⟨hkeeps.trans hkeeps', hmain'⟩

/-- The state of a live thread, which is not the first, becomes that of another live thread. -/
theorem setState_keeps {s : Sched} (h : s.Main) {i : Nat} (st : ThreadState) (hi : i ≠ 0)
    (hlive : s.state i ≠ .terminated) (hst : st ≠ .terminated) :
  Keeps s (s.setState i st) ∧ (s.setState i st).Main
  := by
  constructor
  · use rfl
    · intro j
      by_cases hj : j = i
      · subst hj
        rw [s.setState_state_self]
        exact iff_of_false hst hlive
      · rw [s.setState_state_ne st hj]
    · intro j
      by_cases hj : j = i
      · subst hj
        rw [Sched.setState, Sched.modify_threads_self]
        rfl
      · rw [Sched.setState, Sched.modify_threads_ne _ _ hj]
        rfl
  · exact h.setState hi st

theorem ipcSend_keeps (h : k.sched.Main) (destId type arg1 arg2 arg3 arg4 arg5 : UInt32) :
  Keeps k.sched (k.ipcSend destId type arg1 arg2 arg3 arg4 arg5).sched
    ∧ (k.ipcSend destId type arg1 arg2 arg3 arg4 arg5).sched.Main
  := by
  rw [ipcSend]
  split
  · exact (schedUnblockAll_wakes _).keeps h
  · exact ⟨Keeps.refl _, h⟩

/-- The call neither ends a thread nor makes one. -/
def Quiet (k : Kernel) : Call → Prop
  | .block _ => k.sched.current ≠ 0 ∧ k.sched.state k.sched.current ≠ .terminated
  | .exit _ | .threadCreate _ | .processCreate | .spawn _ => False
  | _ => True

theorem call_keeps {c : Call} (h : k.sched.Main) (hc : k.Quiet c) (hr : k.call c = some r) :
  Keeps k.sched r.1.sched ∧ r.1.sched.Main
  := by
  cases c with
  | timer rsp =>
      obtain rfl := Option.some.inj hr
      apply scheduleInterrupt_keeps h
  | yield rsp =>
      obtain rfl := Option.some.inj hr
      apply threadYield_keeps h
  | irq events rsp =>
      obtain rfl := Option.some.inj hr
      apply scheduleIrq_keeps h
  | block rsp =>
      obtain rfl := Option.some.inj hr
      obtain ⟨hkeeps, hmain⟩ := setState_keeps h .blocked hc.1 hc.2 nofun
      obtain ⟨hkeeps', hmain'⟩ := threadYield_keeps
        (k := { k with sched := k.sched.setState k.sched.current .blocked }) hmain rsp
      exact ⟨hkeeps.trans hkeeps', hmain'⟩
  | unblockAll =>
      obtain rfl := Option.some.inj hr
      exact (schedUnblockAll_wakes k).keeps h
  | exit rsp => exact hc.elim
  | threadCreate entryPoint => exact hc.elim
  | processCreate => exact hc.elim
  | spawn path => exact hc.elim
  | send destId type arg1 arg2 arg3 arg4 arg5 =>
      obtain rfl := Option.some.inj hr
      apply ipcSend_keeps h
  | recv =>
      obtain rfl := Option.some.inj hr
      exact ⟨Keeps.refl _, h⟩
  | other k' =>
      obtain rfl := Option.some.inj hr
      exact ⟨Keeps.refl _, h⟩

/-- `thread_exit` destroys windows, which may wake threads, ends the current thread, wakes all
threads and yields. -/
theorem threadExit_cases (h : k.threadExit rsp = some r) :
  ∃ b k₁, Wakes b k k₁ ∧ r = threadYield
    (schedUnblockAll { k₁ with sched := endThread (k.sched.wake b) k.sched.current }) rsp
  := by
  obtain ⟨k₁, hdestroy, heq⟩ := Option.bind_eq_some_iff.mp h
  obtain ⟨b, hwakes⟩ := destroyLoop_wakes hdestroy
  refine ⟨b, k₁, hwakes, ?_⟩
  rw [← Option.some.inj heq, hwakes.sched, Sched.wake_current]

/-- Apart from the end of the current thread, `thread_exit` does nothing to the table that
matters to others. -/
theorem threadExit_keeps (hmain : k.sched.Main) (hcurrent : k.sched.current ≠ 0)
    (h : k.threadExit rsp = some r) :
  ∃ b, Keeps (endThread (k.sched.wake b) k.sched.current) r.1.sched ∧ r.1.sched.Main
  := by
  obtain ⟨b, k₁, -, rfl⟩ := threadExit_cases h
  use b
  have hended : (endThread (k.sched.wake b) k.sched.current).Main :=
    (hmain.wake b).modify hcurrent _
  obtain ⟨hkeeps, hmain'⟩ := (schedUnblockAll_wakes
    { k₁ with sched := endThread (k.sched.wake b) k.sched.current }).keeps hended
  obtain ⟨hkeeps', hmain''⟩ := threadYield_keeps hmain' rsp
  exact ⟨hkeeps.trans hkeeps', hmain''⟩

/-! ### Initialization -/

theorem schedInit_main (k : Kernel) :
  k.schedInit.sched.Main
  := by
  constructor
  · exact Nat.one_pos
  · simp only [Sched.state, schedInit, Function.update_self]
    rfl

end

end Kernel
