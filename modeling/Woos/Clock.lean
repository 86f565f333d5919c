import Mathlib.Tactic.Ring
import Woos.Lib.Word
import Woos.Sched.Kernel

/-!
# The millisecond clock

The readings of the time that are made from the tick counter: `sys_now`, on which the network
stack runs its timers, and the uptime that applications are told.  Both multiply the counter by
1000 in 32 bits before they divide by the frequency; `clock_faithful_iff` says at which ticks this
loses nothing.
-/

namespace Word

/-- A remainder can be taken before a division exactly when the divisor divides what is cut off. -/
theorem mod_div_eq_div_mod_iff {m d : Nat} (x : Nat) (hd : 0 < d) (hle : d ≤ m) :
  x % m / d = x / d % m ↔ d ∣ x / m
  := by
  have hx := Nat.div_add_mod x m
  have hq := Nat.div_add_mod (x / m) d
  have hr : x % m < m := Nat.mod_lt _ (by omega)
  have hb : x / m % d < d := Nat.mod_lt _ hd
  generalize x % m = r at *
  generalize x / m % d = b at *
  generalize x / m = q at *
  generalize q / d = a at *
  have hdiv : x / d = m * a + (m * b + r) / d := by
    have hsum : x = d * (m * a) + (m * b + r) := by
      rw [← hx, ← hq]
      ring
    rw [hsum, Nat.mul_add_div hd]
  have hlt : (m * b + r) / d < m := by
    have hmul := Nat.mul_le_mul_left m (Nat.succ_le_of_lt hb)
    rw [Nat.mul_succ] at hmul
    rw [Nat.div_lt_iff_lt_mul hd]
    omega
  rw [hdiv, Nat.mul_add_mod, Nat.mod_eq_of_lt hlt]
  constructor
  · intro heq
    have hzero : b = 0 := by
      by_contra hne
      have hmul := Nat.le_mul_of_pos_right m (Nat.pos_of_ne_zero hne)
      have hmore : (d + r) / d ≤ (m * b + r) / d := by
        apply Nat.div_le_div_right
        omega
      rw [Nat.add_div_left r hd] at hmore
      omega
    use a
    rw [← hq, hzero, Nat.add_zero]
  · intro hdvd
    have hzero : b = 0 := by
      apply Nat.eq_zero_of_dvd_of_lt _ hb
      rw [← hq] at hdvd
      exact (Nat.dvd_add_right (Nat.dvd_mul_right d a)).mp hdvd
    rw [hzero, Nat.mul_zero, Nat.zero_add]

end Word

namespace Timer

/-- The counter and the frequency after `timer_init`. -/
def timerInit (tickHz : UInt32) : Timer where
  tickHz := if tickHz = 0 then 20 else tickHz
  ticks := 0

/-- `timer_ticks` -/
def timerTicks (timer : Timer) : UInt32 := timer.ticks

/-- `timer_frequency_hz` -/
def timerFrequencyHz (timer : Timer) : UInt32 := timer.tickHz

/-- The tick counter in milliseconds. -/
def milliseconds (timer : Timer) : UInt32 :=
  let hz := if timer.timerFrequencyHz = 0 then 20 else timer.timerFrequencyHz
  timer.timerTicks * 1000 / hz

end Timer

namespace Kernel

/-- `sys_now` -/
def sysNow (k : Kernel) : UInt32 := k.timer.milliseconds

/-- `uptime_ms` of `wasi_system_get_status` -/
def uptimeMs (k : Kernel) : UInt32 := k.timer.milliseconds

/-- The kernel after `timer_init` and `n` interrupts of the timer. -/
def ticked (k : Kernel) (tickHz : UInt32) (n : Nat) : Kernel :=
  timerHandler^[n] { k with timer := Timer.timerInit tickHz }

/-- The milliseconds since boot at tick `n`. -/
def elapsed (tickHz : UInt32) (n : Nat) : Nat :=
  1000 * n / (Timer.timerInit tickHz).tickHz.toNat

/-- Both clocks show the milliseconds since boot, modulo `2 ^ 32`. -/
def ClockExact (k : Kernel) (tickHz : UInt32) (n : Nat) : Prop :=
  (k.ticked tickHz n).sysNow = UInt32.ofNat (elapsed tickHz n)
    ∧ (k.ticked tickHz n).uptimeMs = UInt32.ofNat (elapsed tickHz n)

/-- The clocks are exact at both ticks, and their difference is the time between the two, when that
is less than `2 ^ 32` milliseconds. -/
structure Faithful (k : Kernel) (tickHz : UInt32) (n m : Nat) : Prop where
  first : k.ClockExact tickHz n
  second : k.ClockExact tickHz m
  difference : n ≤ m → elapsed tickHz m - elapsed tickHz n < 2 ^ 32 →
    ((k.ticked tickHz m).sysNow - (k.ticked tickHz n).sysNow).toNat
        = elapsed tickHz m - elapsed tickHz n
      ∧ ((k.ticked tickHz m).uptimeMs - (k.ticked tickHz n).uptimeMs).toNat
        = elapsed tickHz m - elapsed tickHz n

/-! ### Ticks -/

theorem inputPush_timer (k : Kernel) (event : InputEvent) :
  (k.inputPush event).timer = k.timer
  := by
  rw [inputPush]
  split
  · rfl
  · rfl

theorem timerHandler_timer (k : Kernel) :
  k.timerHandler.timer = { k.timer with ticks := k.timer.ticks + 1 }
  := by
  rw [timerHandler]
  dsimp only
  split
  · apply inputPush_timer
  · rfl

/-- The counter holds the number of ticks modulo `2 ^ 32`. -/
theorem ticked_timer (k : Kernel) (tickHz : UInt32) (n : Nat) :
  (k.ticked tickHz n).timer = { Timer.timerInit tickHz with ticks := UInt32.ofNat n }
  := by
  induction n with
  | zero => rfl
  | succ n ih =>
      rw [ticked, Function.iterate_succ_apply', timerHandler_timer]
      rw [ticked] at ih
      rw [ih, UInt32.ofNat_add]
      rfl

theorem tickHz_ne_zero (tickHz : UInt32) :
  (Timer.timerInit tickHz).tickHz ≠ 0
  := by
  rw [Timer.timerInit]
  dsimp only
  split
  · decide
  · assumption

/-! ### Readings -/

/-- A reading as the code computes it. -/
theorem ticked_milliseconds (k : Kernel) (tickHz : UInt32) (n : Nat) :
  (k.ticked tickHz n).timer.milliseconds.toNat
    = 1000 * n % 2 ^ 32 / (Timer.timerInit tickHz).tickHz.toNat
  := by
  have hhz : (k.ticked tickHz n).timer.timerFrequencyHz = (Timer.timerInit tickHz).tickHz := by
    rw [Timer.timerFrequencyHz, ticked_timer]
  have hticks : ((k.ticked tickHz n).timer.timerTicks * 1000).toNat = 1000 * n % 2 ^ 32 := by
    have hthousand : (1000 : UInt32).toNat = 1000 := rfl
    rw [Timer.timerTicks, ticked_timer, UInt32.toNat_mul, UInt32.toNat_ofNat', hthousand,
      Nat.mod_mul_mod, Nat.mul_comm]
  rw [Timer.milliseconds, hhz, if_neg (tickHz_ne_zero tickHz), UInt32.toNat_div, hticks]

/-- The clocks are exact when the frequency divides the number of times the product has wrapped. -/
theorem clockExact_iff (k : Kernel) (tickHz : UInt32) (n : Nat) :
  k.ClockExact tickHz n ↔ (Timer.timerInit tickHz).tickHz.toNat ∣ 1000 * n / 2 ^ 32
  := by
  have hpos : 0 < (Timer.timerInit tickHz).tickHz.toNat := by
    rw [Nat.pos_iff_ne_zero, ← UInt32.toNat_zero, ne_eq, UInt32.toNat_inj]
    apply tickHz_ne_zero
  have hlt := (Timer.timerInit tickHz).tickHz.toNat_lt
  rw [ClockExact, sysNow, uptimeMs, and_self, ← UInt32.toNat_inj, ticked_milliseconds,
    UInt32.toNat_ofNat']
  apply Word.mod_div_eq_div_mod_iff _ hpos hlt.le

/-- The difference of two readings of an exact clock. -/
theorem toNat_sub_ofNat {a b : Nat} (hle : a ≤ b) (hlt : b - a < 2 ^ 32) :
  (UInt32.ofNat b - UInt32.ofNat a).toNat = b - a
  := by
  have hsum : UInt32.ofNat b = UInt32.ofNat (b - a) + UInt32.ofNat a := by
    rw [← UInt32.ofNat_add, Nat.sub_add_cancel hle]
  rw [hsum, UInt32.add_sub_cancel]
  apply UInt32.toNat_ofNat_of_lt' hlt

theorem elapsed_le (tickHz : UInt32) {n m : Nat} (h : n ≤ m) :
  elapsed tickHz n ≤ elapsed tickHz m
  := by
  apply Nat.div_le_div_right
  omega

/-- For every frequency and any two ticks, the clocks are faithful exactly when at both the frequency
divides the number of times that the product of the counter has wrapped. -/
theorem clock_faithful_iff (k : Kernel) (tickHz : UInt32) (n m : Nat) :
  Faithful k tickHz n m
    ↔ (Timer.timerInit tickHz).tickHz.toNat ∣ 1000 * n / 2 ^ 32
      ∧ (Timer.timerInit tickHz).tickHz.toNat ∣ 1000 * m / 2 ^ 32
  := by
  rw [← clockExact_iff k, ← clockExact_iff k]
  constructor
  · intro hfaithful
    exact ⟨hfaithful.first, hfaithful.second⟩
  · rintro ⟨hfirst, hsecond⟩
    constructor
    · exact hfirst
    · exact hsecond
    · intro hle hlt
      rw [hfirst.1, hfirst.2, hsecond.1, hsecond.2]
      have hdifference := toNat_sub_ofNat (elapsed_le tickHz hle) hlt
      use hdifference, hdifference

/-- At 100 ticks in a second the clocks jump back after twelve hours. -/
theorem not_clock_faithful :
  ¬ ∀ (k : Kernel) (tickHz : UInt32) (n m : Nat), Faithful k tickHz n m
  := by
  intro hfaithful
  have hexact := (hfaithful boot 100 4294968 4294968).first.1
  rw [← UInt32.toNat_inj, sysNow, ticked_milliseconds] at hexact
  revert hexact
  decide

end Kernel
