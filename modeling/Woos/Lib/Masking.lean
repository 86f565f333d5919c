import Mathlib.Data.List.Basic

/-!
# The interrupt flag

`Masked σ` is a state together with the interrupt flag of the processor and the values that the
flag has had since the code was entered.  The steps of the code change the state (`act`) or the
flag (`cli`, `sti`, `irqRestore`); after a step that leaves the flag set, interrupts may be taken,
and `env` is what they do to the state.

A function is `Disciplined` from one such state to another when it leaves the flag as it was on
entry and does not set it on the way, if it was clear.
-/

/-- A state with the interrupt flag. -/
structure Masked (σ : Type*) where
  state : σ
  flag : Bool
  /-- the flag after each step, the last one first -/
  trace : List Bool

namespace Masked

variable {σ : Type*}

/-- Code is entered with the given flag. -/
def enter (s : σ) (flag : Bool) : Masked σ := ⟨s, flag, []⟩

section

variable (env : ℕ → σ → σ)

/-- A step that changes the state and leaves the flag with the given value. -/
def step (flag : Bool) (f : σ → σ) (m : Masked σ) : Masked σ where
  state := if flag then env m.trace.length (f m.state) else f m.state
  flag := flag
  trace := flag :: m.trace

/-- A step that does not concern the flag. -/
def act (f : σ → σ) (m : Masked σ) : Masked σ := step env m.flag f m

/-- `cli` -/
def cli (m : Masked σ) : Masked σ := step env false id m

/-- `sti` -/
def sti (m : Masked σ) : Masked σ := step env true id m

/-- `irq_restore`; `irq_save` is `cli`, with the flag of before as its value. -/
def irqRestore (flags : Bool) (m : Masked σ) : Masked σ := step env flags id m

variable (f : σ → σ) (m : Masked σ) (flags : Bool)

@[simp]
theorem act_flag :
  (act env f m).flag = m.flag
  := rfl

@[simp]
theorem act_trace :
  (act env f m).trace = m.flag :: m.trace
  := rfl

@[simp]
theorem cli_flag :
  (cli env m).flag = false
  := rfl

@[simp]
theorem cli_trace :
  (cli env m).trace = false :: m.trace
  := rfl

@[simp]
theorem cli_state :
  (cli env m).state = m.state
  := rfl

@[simp]
theorem sti_flag :
  (sti env m).flag = true
  := rfl

@[simp]
theorem sti_trace :
  (sti env m).trace = true :: m.trace
  := rfl

@[simp]
theorem irqRestore_flag :
  (irqRestore env flags m).flag = flags
  := rfl

@[simp]
theorem irqRestore_trace :
  (irqRestore env flags m).trace = flags :: m.trace
  := rfl

end

/-- No interrupt changes the state. -/
def idle : ℕ → σ → σ := fun _ s => s

@[simp]
theorem step_idle_state (flag : Bool) (f : σ → σ) (m : Masked σ) :
  (step idle flag f m).state = f m.state
  := ite_self _

@[simp]
theorem act_idle_state (f : σ → σ) (m : Masked σ) :
  (act idle f m).state = f m.state
  := ite_self _

@[simp]
theorem sti_idle_state (m : Masked σ) :
  (sti idle m).state = m.state
  := rfl

@[simp]
theorem irqRestore_idle_state (flags : Bool) (m : Masked σ) :
  (irqRestore idle flags m).state = m.state
  := ite_self _

/-- The flag is as it was on entry, and has not been set if it was clear. -/
structure Disciplined (entry exit : Masked σ) : Prop where
  restored : exit.flag = entry.flag
  masked : entry.flag = false → ∀ b ∈ exit.trace, b = false

/-- Code that is entered with the flag set is disciplined when it leaves it set. -/
theorem Disciplined.of_set {entry exit : Masked σ} (hentry : entry.flag = true)
    (hexit : exit.flag = true) :
  Disciplined entry exit
  := by
  constructor
  · rw [hexit, hentry]
  · intro hclear
    rw [hclear] at hentry
    cases hentry

/-- Code that is entered with the flag clear is not disciplined when it sets it. -/
theorem Disciplined.not_of_clear {entry exit : Masked σ} (hentry : entry.flag = false)
    (hset : true ∈ exit.trace) :
  ¬ Disciplined entry exit
  := by
  intro h
  cases h.masked hentry true hset

end Masked
