import Woos.Lib.Run
import Woos.Sched.Switch

/-!
# Counting timer ticks

The two steps of `thread_yield`, which sets the yield flag and then raises the interrupt of the
timer, interleaved with the interrupts of the timer and of other devices.  `Yielding` adds to the
kernel what the count is about: the threads that are between the two steps, the interrupts of the
timer, and the calls of `timer_handler`.

Every step but one keeps the sum of the calls of `timer_handler` and of the threads that are between
the two steps equal to the sum of the interrupts and of the flag.  The exception is a thread that
sets the flag while it is set: that thread's interrupt counts as one of the timer.
-/

/-- The kernel, the threads that have set the flag and not raised the interrupt yet, and the numbers
of the interrupts of the timer and of the calls of `timer_handler` so far. -/
structure Yielding where
  kernel : Kernel
  between : List Nat
  interrupts : Nat
  handlers : Nat

namespace Yielding

/-- The start of the count: no thread is between the two steps. -/
def init (k : Kernel) : Yielding where
  kernel := k
  between := []
  interrupts := 0
  handlers := 0

/-- What happens: the current thread makes one of the two steps of `thread_yield`, the timer or
another device interrupts it, or it does anything else. -/
inductive Act where
  | setYield
  | raise (rsp : UInt64)
  | timer (rsp : UInt64)
  | irq (events : List InputEvent) (rsp : UInt64)
  | other (k : Kernel)

/-- Whether the yield flag is set. -/
def flag (s : Yielding) : Bool := s.kernel.sched.isYield

/-- `schedule_interrupt`, which calls `timer_handler` unless the flag is set. -/
def interrupted (s : Yielding) (rsp : UInt64) : Yielding :=
  { s with
    kernel := (s.kernel.scheduleInterrupt rsp).1
    handlers := s.handlers + if s.flag then 0 else 1 }

/-- One step: a thread makes the second step of `thread_yield` after the first one, and whatever
else it does leaves the flag, the count of ticks and the current thread alone. -/
def step (s : Yielding) : Act → Option Yielding
  | .setYield =>
    if s.kernel.sched.current ∈ s.between then none
    else some { s with
      kernel := s.kernel.setYield
      between := s.kernel.sched.current :: s.between }
  | .raise rsp =>
    if s.kernel.sched.current ∈ s.between then
      some ({ s with between := s.between.erase s.kernel.sched.current }.interrupted rsp)
    else none
  | .timer rsp => some ({ s with interrupts := s.interrupts + 1 }.interrupted rsp)
  | .irq events rsp => some { s with kernel := (s.kernel.scheduleIrq events rsp).1 }
  | .other k =>
    if k.sched.current = s.kernel.sched.current ∧ k.sched.isYield = s.flag
        ∧ k.timer.ticks = s.kernel.timer.ticks then
      some { s with kernel := k }
    else none

/-- A thread sets the flag only while it is clear. -/
def SetsClear (s : Yielding) (a : Act) : Prop := a = .setYield → s.flag = false

/-- The calls of `timer_handler` are never more than the interrupts of the timer, and at most as
many fewer as threads are between the two steps. -/
def Counted (s : Yielding) : Prop :=
  s.handlers ≤ s.interrupts ∧ s.interrupts ≤ s.handlers + s.between.length

/-! ### The schedule functions -/

section

variable (k : Kernel) (rsp : UInt64)

theorem saveCurrent_isYield (s : Sched) :
  (Kernel.saveCurrent s rsp).isYield = s.isYield
  := by
  rw [Kernel.saveCurrent]
  split
  · rfl
  · rfl

theorem roundRobin_kept :
  (k.roundRobin rsp).1.sched.isYield = k.sched.isYield ∧ (k.roundRobin rsp).1.timer = k.timer
  := by
  rcases k.roundRobin_cases rsp with ⟨h, -⟩ | ⟨h, -⟩ | ⟨next, -, -, h⟩
  · rw [h]
    exact ⟨rfl, rfl⟩
  · rw [h]
    exact ⟨saveCurrent_isYield rsp k.sched, rfl⟩
  · rw [h]
    use saveCurrent_isYield rsp k.sched
    rfl

theorem switchToBest_kept :
  (k.switchToBest rsp).1.sched.isYield = k.sched.isYield ∧ (k.switchToBest rsp).1.timer = k.timer
  := by
  rcases k.switchToBest_cases rsp with h | ⟨next, -, -, h⟩
  · rw [h]
    exact ⟨rfl, rfl⟩
  · rw [h]
    use saveCurrent_isYield rsp k.sched
    rfl

theorem inputPush_kept (event : InputEvent) :
  (k.inputPush event).sched.isYield = k.sched.isYield ∧ (k.inputPush event).timer = k.timer
  := by
  rw [Kernel.inputPush]
  split
  · exact ⟨rfl, rfl⟩
  · exact ⟨rfl, rfl⟩

theorem scheduleIrq_kept (events : List InputEvent) :
  (k.scheduleIrq events rsp).1.sched.isYield = k.sched.isYield
    ∧ (k.scheduleIrq events rsp).1.timer = k.timer
  := by
  rw [Kernel.scheduleIrq, (switchToBest_kept _ rsp).1, (switchToBest_kept _ rsp).2]
  induction events generalizing k with
  | nil => exact ⟨rfl, rfl⟩
  | cons event events ih =>
      rw [List.foldl_cons, (ih _).1, (ih _).2]
      exact inputPush_kept k event

/-- `schedule_interrupt` clears the flag. -/
theorem scheduleInterrupt_isYield :
  (k.scheduleInterrupt rsp).1.sched.isYield = false
  := (roundRobin_kept _ rsp).1

theorem timerHandler_ticks :
  k.timerHandler.timer.ticks = k.timer.ticks + 1
  := by
  rw [Kernel.timerHandler]
  dsimp only
  split
  · rw [(inputPush_kept _ _).2]
  · rfl

/-- `schedule_interrupt` counts a tick unless the flag is set. -/
theorem scheduleInterrupt_ticks :
  (k.scheduleInterrupt rsp).1.timer.ticks
    = k.timer.ticks + if k.sched.isYield then 0 else 1
  := by
  rw [Kernel.scheduleInterrupt, (roundRobin_kept _ rsp).2]
  split
  · exact (UInt32.add_zero _).symm
  · exact timerHandler_ticks k

end

/-! ### The balance -/

/-- What the interrupts and the flag exceed the calls and the threads between the two steps by. -/
def balance (s : Yielding) : Int :=
  s.interrupts + (if s.flag then 1 else 0) - (s.handlers + s.between.length)

section

variable {s s' : Yielding}

/-- The interrupt consumes the flag or is counted. -/
theorem interrupted_balance (s : Yielding) (rsp : UInt64) :
  (s.interrupted rsp).balance = s.balance - 1
  := by
  have hflag : (s.interrupted rsp).flag = false := scheduleInterrupt_isYield s.kernel rsp
  rw [balance, balance, hflag, interrupted]
  cases s.flag with
  | true =>
      simp only [Bool.false_eq_true, if_true, if_false]
      omega
  | false =>
      simp only [Bool.false_eq_true, if_false]
      omega

/-- A step that leaves the counts alone and keeps the flag keeps the balance. -/
theorem balance_congr {k : Kernel} (h : k.sched.isYield = s.flag) :
  { s with kernel := k }.balance = s.balance
  := by
  rw [balance, balance, flag, h]

/-- A step keeps the balance, unless a thread sets the flag while it is set, which lowers it. -/
theorem step_balance {a : Act} (h : step s a = some s') :
  (SetsClear s a → s'.balance = s.balance) ∧ (¬ SetsClear s a → s'.balance < s.balance)
  := by
  cases a with
  | setYield =>
      obtain ⟨-, h⟩ := Option.ite_none_left_eq_some.mp h
      obtain rfl := Option.some.inj h
      have hbalance : balance
          { s with kernel := s.kernel.setYield, between := s.kernel.sched.current :: s.between }
          = s.balance - if s.flag then 1 else 0 := by
        rw [balance, balance, List.length_cons]
        change _ + 1 - _ = _
        cases s.flag with
        | true =>
            simp only [if_true]
            omega
        | false =>
            simp only [Bool.false_eq_true, if_false]
            omega
      rw [hbalance]
      constructor
      · intro hclear
        rw [hclear rfl]
        simp
      · intro hset
        have hflag : s.flag = true := by
          apply eq_true_of_ne_false
          intro hflag
          apply hset
          intro
          exact hflag
        rw [hflag, if_pos rfl]
        omega
  | raise rsp =>
      obtain ⟨hmem, h⟩ := Option.ite_none_right_eq_some.mp h
      obtain rfl := Option.some.inj h
      have hlength := List.length_erase_add_one hmem
      have hkept : balance ({ s with between := s.between.erase s.kernel.sched.current }.interrupted rsp)
          = s.balance := by
        rw [interrupted_balance, balance, balance, flag, flag]
        dsimp only
        omega
      exact ⟨fun _ => hkept, fun hset => (hset nofun).elim⟩
  | timer rsp =>
      obtain rfl := Option.some.inj h
      have hkept : balance ({ s with interrupts := s.interrupts + 1 }.interrupted rsp) = s.balance := by
        rw [interrupted_balance, balance, balance, flag, flag]
        dsimp only
        omega
      exact ⟨fun _ => hkept, fun hset => (hset nofun).elim⟩
  | irq events rsp =>
      obtain rfl := Option.some.inj h
      have hkept := balance_congr (scheduleIrq_kept s.kernel rsp events).1
      exact ⟨fun _ => hkept, fun hset => (hset nofun).elim⟩
  | other k =>
      obtain ⟨⟨-, hflag, -⟩, h⟩ := Option.ite_none_right_eq_some.mp h
      obtain rfl := Option.some.inj h
      have hkept := balance_congr hflag
      exact ⟨fun _ => hkept, fun hset => (hset nofun).elim⟩

/-- While the flag is set, some thread is between the two steps. -/
theorem step_between {a : Act} (hinv : s.flag = true → s.between ≠ []) (h : step s a = some s') :
  s'.flag = true → s'.between ≠ []
  := by
  intro hset
  cases a with
  | setYield =>
      obtain ⟨-, h⟩ := Option.ite_none_left_eq_some.mp h
      obtain rfl := Option.some.inj h
      exact List.cons_ne_nil _ _
  | raise rsp =>
      obtain ⟨-, h⟩ := Option.ite_none_right_eq_some.mp h
      obtain rfl := Option.some.inj h
      cases (scheduleInterrupt_isYield s.kernel rsp).symm.trans hset
  | timer rsp =>
      obtain rfl := Option.some.inj h
      cases (scheduleInterrupt_isYield s.kernel rsp).symm.trans hset
  | irq events rsp =>
      obtain rfl := Option.some.inj h
      apply hinv
      exact (scheduleIrq_kept s.kernel rsp events).1.symm.trans hset
  | other k =>
      obtain ⟨⟨-, hflag, -⟩, h⟩ := Option.ite_none_right_eq_some.mp h
      obtain rfl := Option.some.inj h
      exact hinv (hflag.symm.trans hset)

/-- The count of ticks grows with the calls of `timer_handler`. -/
theorem step_ticks {a : Act} {start : UInt32}
    (hinv : s.kernel.timer.ticks = start + UInt32.ofNat s.handlers) (h : step s a = some s') :
  s'.kernel.timer.ticks = start + UInt32.ofNat s'.handlers
  := by
  have hinterrupted (t : Yielding) (ht : t.kernel.timer.ticks = start + UInt32.ofNat t.handlers)
      (rsp : UInt64) :
      (t.interrupted rsp).kernel.timer.ticks = start + UInt32.ofNat (t.interrupted rsp).handlers := by
    rw [interrupted, scheduleInterrupt_ticks, ht, flag, UInt32.ofNat_add, UInt32.add_assoc]
    split
    · rfl
    · rfl
  cases a with
  | setYield =>
      obtain ⟨-, h⟩ := Option.ite_none_left_eq_some.mp h
      obtain rfl := Option.some.inj h
      exact hinv
  | raise rsp =>
      obtain ⟨-, h⟩ := Option.ite_none_right_eq_some.mp h
      obtain rfl := Option.some.inj h
      apply hinterrupted
      exact hinv
  | timer rsp =>
      obtain rfl := Option.some.inj h
      apply hinterrupted
      exact hinv
  | irq events rsp =>
      obtain rfl := Option.some.inj h
      rw [(scheduleIrq_kept s.kernel rsp events).2]
      exact hinv
  | other k =>
      obtain ⟨⟨-, -, hticks⟩, h⟩ := Option.ite_none_right_eq_some.mp h
      obtain rfl := Option.some.inj h
      exact hticks.trans hinv

/-! ### Runs -/

/-- What holds in every state: the timer has counted the calls of `timer_handler`, some thread is
between the two steps while the flag is set, and the balance is not positive. -/
structure Inv (start : UInt32) (s : Yielding) : Prop where
  ticks : s.kernel.timer.ticks = start + UInt32.ofNat s.handlers
  between : s.flag = true → s.between ≠ []
  balance : s.balance ≤ 0

theorem inv_init {k : Kernel} (h : k.sched.isYield = false) :
  Inv k.timer.ticks (init k) ∧ (init k).balance = 0
  := by
  have hbalance : (init k).balance = 0 := by
    rw [balance, flag, init, h]
    rfl
  refine ⟨⟨(UInt32.add_zero _).symm, ?_, hbalance.le⟩, hbalance⟩
  intro hset
  cases h.symm.trans hset

theorem inv_step {a : Act} {start : UInt32} (hinv : Inv start s) (h : step s a = some s') :
  Inv start s'
  := by
  refine ⟨step_ticks hinv.ticks h, step_between hinv.between h, ?_⟩
  have hle := hinv.balance
  obtain ⟨hkept, hlowered⟩ := step_balance h
  by_cases hclear : SetsClear s a
  · rw [hkept hclear]
    exact hle
  · exact (hlowered hclear).le.trans hle

/-- A run keeps the balance when no thread sets the flag while it is set, and lowers it
otherwise. -/
theorem run_balance {start : UInt32} (acts : List Act) (hinv : Inv start s)
    (h : Run.exec step s acts = some s') :
  Inv start s' ∧ (Run.Guarded step SetsClear s acts → s'.balance = s.balance)
    ∧ (¬ Run.Guarded step SetsClear s acts → s'.balance < s.balance)
  := by
  induction acts generalizing s with
  | nil =>
      cases h
      exact ⟨hinv, fun _ => rfl, fun hnot => (hnot trivial).elim⟩
  | cons a acts ih =>
      obtain ⟨t, ht, hrest⟩ := Option.bind_eq_some_iff.mp h
      obtain ⟨hinv', hmeets, hmisses⟩ := ih (inv_step hinv ht) hrest
      obtain ⟨hkept, hlowered⟩ := step_balance ht
      have hle : s'.balance ≤ t.balance := by
        by_cases hguard : Run.Guarded step SetsClear t acts
        · exact (hmeets hguard).le
        · exact (hmisses hguard).le
      refine ⟨hinv', ?_, ?_⟩
      · rintro ⟨hclear, hguard⟩
        rw [hmeets (hguard t ht), hkept hclear]
      · intro hnot
        by_cases hclear : SetsClear s a
        · rw [← hkept hclear]
          apply hmisses
          intro hguard
          exact hnot (Run.guarded_cons hclear ht hguard)
        · exact hle.trans_lt (hlowered hclear)

/-- A balance of zero is a correct count. -/
theorem Inv.counted {start : UInt32} (hinv : Inv start s) (h : s.balance = 0) :
  s.Counted
  := by
  rw [Yielding.balance] at h
  by_cases hflag : s.flag = true
  · have hpos := List.length_pos_iff.mpr (hinv.between hflag)
    rw [if_pos hflag] at h
    constructor <;> omega
  · rw [if_neg hflag] at h
    constructor <;> omega

/-- Without threads between the two steps, a correct count is a balance of zero. -/
theorem Counted.balance (hnone : s.between = []) (hinv : s.flag = true → s.between ≠ [])
    (h : s.Counted) :
  s.balance = 0
  := by
  have hflag : s.flag ≠ true := fun hset => hinv hset hnone
  obtain ⟨hle, hge⟩ := h
  rw [hnone, List.length_nil] at hge
  rw [Yielding.balance, if_neg hflag, hnone, List.length_nil]
  omega

/-- Ticks are counted correctly at every moment of a run in which every thread sets the flag while
it is clear; when all threads have finished their calls of `thread_yield`, the count is correct
only then. -/
theorem ticks_counted {k : Kernel} {acts : List Act} (hclear : k.sched.isYield = false)
    (h : Run.exec step (init k) acts = some s) :
  (Run.Guarded step SetsClear (init k) acts → s.Counted)
    ∧ (s.between = [] → s.Counted → Run.Guarded step SetsClear (init k) acts)
  := by
  obtain ⟨hinit, hzero⟩ := inv_init hclear
  obtain ⟨hinv, hmeets, hmisses⟩ := run_balance acts hinit h
  constructor
  · intro hguard
    exact hinv.counted ((hmeets hguard).trans hzero)
  · intro hnone hcounted
    by_contra hnot
    have hlt := hmisses hnot
    rw [hzero, hcounted.balance hnone hinv.between] at hlt
    exact hlt.false

end

/-- A kernel with two threads, of which the first runs and the second is ready. -/
def twoThreads : Kernel :=
  { Kernel.boot with
    sched :=
      { Kernel.boot.sched with
        threads := fun i =>
          { Kernel.boot.sched.threads i with state := if i = 0 then .running else .ready }
        numThreads := 2
        ready := true } }

/-- The case of a thread that is interrupted between the two steps. -/
theorem ticks_counted_once :
  ∃ s, Run.exec step (init twoThreads) [.setYield, .timer 0x100, .timer 0x200, .raise 0x100] = some s
    ∧ s.Counted
  := by
  have hguard : Run.Guarded step SetsClear (init twoThreads)
      [.setYield, .timer 0x100, .timer 0x200, .raise 0x100] :=
    ⟨fun _ => rfl, fun _ _ => ⟨nofun, fun _ _ => ⟨nofun, fun _ _ => ⟨nofun, fun _ _ => trivial⟩⟩⟩⟩
  obtain ⟨s, hs⟩ : ∃ s, Run.exec step (init twoThreads)
      [.setYield, .timer 0x100, .timer 0x200, .raise 0x100] = some s := ⟨_, rfl⟩
  exact ⟨s, hs, (ticks_counted rfl hs).1 hguard⟩

/-- Two threads that both set the flag before either raises the interrupt: no interrupt of the
timer, and one call of `timer_handler`. -/
theorem not_ticks_counted :
  ∃ s, Run.exec step (init twoThreads) [.setYield, .irq [] 0x100, .setYield, .raise 0x200, .raise 0x100]
      = some s
    ∧ s.interrupts < s.handlers
  := ⟨_, rfl, by decide⟩

end Yielding
