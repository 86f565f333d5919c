import Woos.Lib.CString
import Mathlib.Logic.Function.Basic

/-!
# The thread table

`Sched` is the state of the scheduler of `sched.c`: the table of threads, the number of the
current one, and the flag of a voluntary yield.  The functions here are the loops of
`sched.c` over the table; what they do to the rest of the kernel is in `Woos.Sched.Kernel`.
-/

/-- `thread_state_t` -/
inductive ThreadState where
  | ready
  | running
  | blocked
  | terminated
  deriving DecidableEq, Repr

/-- The area that `fxsave` writes. -/
abbrev FpuArea := Fin 512 → UInt8

/-- `thread_t` -/
structure Thread where
  rsp : UInt64
  id : UInt64
  state : ThreadState
  stackLimit : UInt64
  stackPagesCount : UInt32
  cr3 : UInt64
  kernelStackTop : UInt64
  appPath : CString
  fpuState : FpuArea

/-- `g_threads`, `g_num_threads`, `g_current_thread_idx`, `g_is_yield`, `g_sched_ready` and
`g_kernel_cr3` -/
structure Sched where
  threads : Nat → Thread
  numThreads : Nat
  current : Nat
  isYield : Bool
  ready : Bool
  kernelCr3 : UInt64

namespace Sched

/-- `MAX_THREADS` -/
def maxThreads : Nat := 16

/-- `THREAD_STACK_PAGES` -/
def threadStackPages : UInt32 := 128

/-- Change the entry of a thread. -/
def modify (s : Sched) (i : Nat) (f : Thread → Thread) : Sched :=
  { s with threads := Function.update s.threads i (f (s.threads i)) }

/-- The state of a thread. -/
def state (s : Sched) (i : Nat) : ThreadState := (s.threads i).state

/-- `g_threads[i].state = state` -/
def setState (s : Sched) (i : Nat) (state : ThreadState) : Sched :=
  s.modify i (fun t => { t with state := state })

/-- The entry of a thread of the table after `sched_unblock_all`. -/
def unblocked (t : Thread) : Thread :=
  if t.state = .blocked then { t with state := .ready } else t

/-- `sched_unblock_all` -/
def schedUnblockAll (s : Sched) : Sched :=
  { s with threads := fun i => if i < s.numThreads then unblocked (s.threads i) else s.threads i }

/-- `sched_current_thread_id` -/
def schedCurrentThreadId (s : Sched) : UInt32 := (s.threads s.current).id.toUInt32

/-! ### Choosing a thread -/

/-- The loop of `schedule_interrupt` that looks for the next thread that is ready, at most
`n` rounds from `nextIdx` on. -/
def nextReady (s : Sched) : Nat → Nat → Nat
  | 0, nextIdx => nextIdx
  | n + 1, nextIdx =>
      if s.state nextIdx ≠ .ready then nextReady s n ((nextIdx + 1) % s.numThreads) else nextIdx

/-- The priority of a thread for `schedule_irq`. -/
def priority (i : Nat) : Nat :=
  if i = 1 then 2 else if i = 0 then 0 else 1

/-- The thread with which the search of `schedule_irq` begins, and its priority. -/
def irqDefault (s : Sched) : Nat × Nat :=
  if s.state s.current = .running then (s.current, priority s.current) else (0, 0)

/-- One round of the loop of `schedule_irq`. -/
def betterReady (s : Sched) (best : Nat × Nat) (i : Nat) : Nat × Nat :=
  if s.state i = .ready ∧ best.2 < priority i then (i, priority i) else best

/-- The thread that `schedule_irq` chooses. -/
def bestReady (s : Sched) : Nat :=
  ((List.range s.numThreads).foldl (betterReady s) s.irqDefault).1

/-- The loop that looks for the slot of an ended thread, `n` rounds from `i` on. -/
def findTerminated (s : Sched) : Nat → Nat → Option Nat
  | 0, _ => none
  | n + 1, i => if s.state i = .terminated then some i else findTerminated s n (i + 1)

/-- The slot for a new thread: that of an ended thread, or the one behind the table. -/
def freeSlot (s : Sched) : Nat :=
  (s.findTerminated (s.numThreads - 1) 1).getD s.numThreads

/-! ### Paths -/

/-- A letter in upper case, as `app_paths_match` computes it. -/
def upper (c : UInt8) : UInt8 := if 97 ≤ c ∧ c ≤ 122 then c - 32 else c

/-- The loop that skips slashes. -/
def skipSlashes (p : List UInt8) : List UInt8 := p.dropWhile (fun c => c == 47)

/-- The loop of `app_paths_match` over both paths: what remains of them, `none` when a letter
differs. -/
def matchLoop : List UInt8 → List UInt8 → Option (List UInt8 × List UInt8)
  | c₁ :: p₁, c₂ :: p₂ => if upper c₁ ≠ upper c₂ then none else matchLoop p₁ p₂
  | p₁, p₂ => some (p₁, p₂)

/-- `app_paths_match` -/
def appPathsMatch (p₁ p₂ : CString) : Bool :=
  match matchLoop (skipSlashes p₁.bytes) (skipSlashes p₂.bytes) with
  | none => false
  | some (r₁, r₂) => (skipSlashes r₁).isEmpty && (skipSlashes r₂).isEmpty

/-- The loop of `woos_system_spawn` that looks for a thread that runs the path, `n` rounds
from `i` on. -/
def findInstance (s : Sched) (path : CString) : Nat → Nat → Option Nat
  | 0, _ => none
  | n + 1, i =>
      if s.state i ≠ .terminated ∧ appPathsMatch (s.threads i).appPath path then some i
      else findInstance s path n (i + 1)

/-! ### Properties -/

section

variable (s : Sched) {i j : Nat} (st : ThreadState)

@[simp]
theorem modify_threads_self (f : Thread → Thread) :
  (s.modify i f).threads i = f (s.threads i)
  := Function.update_self _ _ _

@[simp]
theorem modify_threads_ne (f : Thread → Thread) (h : i ≠ j) :
  (s.modify j f).threads i = s.threads i
  := Function.update_of_ne h _ _

@[simp]
theorem modify_numThreads (f : Thread → Thread) :
  (s.modify i f).numThreads = s.numThreads
  := rfl

@[simp]
theorem modify_current (f : Thread → Thread) :
  (s.modify i f).current = s.current
  := rfl

/-- A change that keeps the state of the thread keeps the states of all. -/
theorem modify_state {f : Thread → Thread} (h : (f (s.threads j)).state = (s.threads j).state)
    (i : Nat) :
  (s.modify j f).state i = s.state i
  := by
  by_cases hij : i = j
  · subst hij
    rw [state, modify_threads_self, h, state]
  · rw [state, modify_threads_ne _ _ hij, state]

@[simp]
theorem setState_state_self :
  (s.setState i st).state i = st
  := by
  rw [state, setState, modify_threads_self]

theorem setState_state_ne (h : i ≠ j) :
  (s.setState j st).state i = s.state i
  := by
  rw [state, setState, modify_threads_ne _ _ h, state]

@[simp]
theorem setState_numThreads :
  (s.setState i st).numThreads = s.numThreads
  := rfl

@[simp]
theorem setState_current :
  (s.setState i st).current = s.current
  := rfl

theorem schedUnblockAll_state (i : Nat) :
  s.schedUnblockAll.state i
    = if i < s.numThreads ∧ s.state i = .blocked then .ready else s.state i
  := by
  simp only [state, schedUnblockAll, unblocked]
  by_cases hi : i < s.numThreads
  · by_cases hb : (s.threads i).state = .blocked
    · simp [hi, hb]
    · simp [hi, hb]
  · simp [hi]

/-- Only the states of threads change when all threads are unblocked. -/
theorem schedUnblockAll_threads (i : Nat) :
  s.schedUnblockAll.threads i = { s.threads i with state := s.schedUnblockAll.state i }
  := by
  simp only [state, schedUnblockAll, unblocked]
  split
  · split
    · rfl
    · rfl
  · rfl

/-! ### The choice -/

theorem nextReady_lt (n : Nat) (hi : i < s.numThreads) :
  s.nextReady n i < s.numThreads
  := by
  induction n generalizing i with
  | zero => exact hi
  | succ n ih =>
      rw [nextReady]
      split
      · apply ih
        apply Nat.mod_lt
        omega
      · exact hi

/-- When the search ends at a thread that is not ready, no thread that it has met is. -/
theorem not_ready_of_nextReady {n : Nat} (hi : i < s.numThreads)
    (h : s.state (s.nextReady n i) ≠ .ready) {m : Nat} (hm : m ≤ n) :
  s.state ((i + m) % s.numThreads) ≠ .ready
  := by
  induction n generalizing i m with
  | zero =>
      rw [Nat.le_zero.mp hm, Nat.add_zero, Nat.mod_eq_of_lt hi]
      exact h
  | succ n ih =>
      rw [nextReady] at h
      split at h
      case isFalse hready => exact absurd h hready
      case isTrue hready =>
        cases m with
        | zero =>
            rw [Nat.add_zero, Nat.mod_eq_of_lt hi]
            exact hready
        | succ m =>
            have hrest := ih (Nat.mod_lt _ (by omega)) h (Nat.le_of_succ_le_succ hm)
            rw [Nat.mod_add_mod, Nat.add_assoc, Nat.add_comm 1 m] at hrest
            exact hrest

/-- The search finds a ready thread when there is one. -/
theorem nextReady_ready (hi : i < s.numThreads) (hj : j < s.numThreads) (h : s.state j = .ready) :
  s.state (s.nextReady s.numThreads i) = .ready
  := by
  by_contra hcon
  rcases Nat.le_total i j with hle | hle
  · apply s.not_ready_of_nextReady hi hcon (m := j - i) (by omega)
    rw [Nat.add_sub_cancel' hle, Nat.mod_eq_of_lt hj]
    exact h
  · apply s.not_ready_of_nextReady hi hcon (m := j + s.numThreads - i) (by omega)
    rw [Nat.add_sub_cancel' (by omega), Nat.add_mod_right, Nat.mod_eq_of_lt hj]
    exact h

/-- The choice of `schedule_irq` is the thread it begins with, or one that is ready. -/
theorem bestReady_spec :
  s.bestReady = s.irqDefault.1 ∨ (s.bestReady < s.numThreads ∧ s.state s.bestReady = .ready)
  := by
  have hfold : ∀ (is : List Nat) (best : Nat × Nat), (∀ i ∈ is, i < s.numThreads)
      → best.1 = s.irqDefault.1 ∨ (best.1 < s.numThreads ∧ s.state best.1 = .ready)
      → (is.foldl (betterReady s) best).1 = s.irqDefault.1
        ∨ ((is.foldl (betterReady s) best).1 < s.numThreads
          ∧ s.state (is.foldl (betterReady s) best).1 = .ready) := by
    intro is
    induction is with
    | nil => exact fun _ _ h => h
    | cons i is ih =>
        intro best his hbest
        apply ih
        · exact fun j hj => his j (List.mem_cons_of_mem i hj)
        · rw [betterReady]
          split
          case isTrue h => exact Or.inr ⟨his i List.mem_cons_self, h.1⟩
          case isFalse => exact hbest
  apply hfold
  · exact fun i hi => List.mem_range.mp hi
  · exact Or.inl rfl

/-! ### Free slots -/

theorem findTerminated_spec {n i : Nat} :
  match s.findTerminated n i with
    | none => ∀ j, i ≤ j → j < i + n → s.state j ≠ .terminated
    | some r => i ≤ r ∧ r < i + n ∧ s.state r = .terminated
        ∧ ∀ j, i ≤ j → j < r → s.state j ≠ .terminated
  := by
  induction n generalizing i with
  | zero =>
      intro j hle hlt
      omega
  | succ n ih =>
      rw [findTerminated]
      by_cases hi : s.state i = .terminated
      · rw [if_pos hi]
        refine ⟨Nat.le_refl _, by omega, hi, ?_⟩
        intro j hle hlt
        omega
      · rw [if_neg hi]
        have hrest := ih (i := i + 1)
        cases hfind : s.findTerminated n (i + 1) with
        | none =>
            rw [hfind] at hrest
            intro j hle hlt
            rcases Nat.eq_or_lt_of_le hle with rfl | hlt'
            · exact hi
            · apply hrest j hlt'
              omega
        | some r =>
            rw [hfind] at hrest
            obtain ⟨hle, hlt, hr, hbefore⟩ := hrest
            refine ⟨by omega, by omega, hr, ?_⟩
            intro j hij hjr
            rcases Nat.eq_or_lt_of_le hij with rfl | hlt'
            · exact hi
            · apply hbefore j hlt' hjr

/-- The free slot is the first one of an ended thread, or, when no thread has ended, the one
behind the table; the first thread's is never free. -/
theorem freeSlot_spec (hn : 0 < s.numThreads) :
  0 < s.freeSlot ∧ (s.freeSlot < s.numThreads ∧ s.state s.freeSlot = .terminated
      ∨ s.freeSlot = s.numThreads)
    ∧ ∀ j, 0 < j → j < s.freeSlot → s.state j ≠ .terminated
  := by
  have hspec := s.findTerminated_spec (n := s.numThreads - 1) (i := 1)
  rw [freeSlot]
  cases hfind : s.findTerminated (s.numThreads - 1) 1 with
  | none =>
      rw [hfind] at hspec
      rw [Option.getD_none]
      refine ⟨hn, Or.inr rfl, ?_⟩
      intro j hpos hlt
      apply hspec j hpos
      omega
  | some r =>
      rw [hfind] at hspec
      obtain ⟨hle, hlt, hr, hbefore⟩ := hspec
      rw [Option.getD_some]
      exact ⟨hle, Or.inl ⟨by omega, hr⟩, hbefore⟩

/-! ### Instances -/

/-- The instance found is the first thread that has not ended and whose path matches. -/
theorem findInstance_spec (path : CString) {n i : Nat} :
  match s.findInstance path n i with
    | none => ∀ j, i ≤ j → j < i + n → s.state j ≠ .terminated
        → appPathsMatch (s.threads j).appPath path = false
    | some r => i ≤ r ∧ r < i + n ∧ s.state r ≠ .terminated
        ∧ appPathsMatch (s.threads r).appPath path = true
        ∧ ∀ j, i ≤ j → j < r → s.state j ≠ .terminated
          → appPathsMatch (s.threads j).appPath path = false
  := by
  induction n generalizing i with
  | zero =>
      intro j hle hlt
      omega
  | succ n ih =>
      rw [findInstance]
      by_cases hi : s.state i ≠ .terminated ∧ appPathsMatch (s.threads i).appPath path = true
      · rw [if_pos hi]
        refine ⟨Nat.le_refl _, by omega, hi.1, hi.2, ?_⟩
        intro j hle hlt
        omega
      · rw [if_neg hi]
        have hfirst : s.state i ≠ .terminated
            → appPathsMatch (s.threads i).appPath path = false := by
          intro hlive
          rw [Bool.eq_false_iff]
          intro hmatch
          exact hi ⟨hlive, hmatch⟩
        have hrest := ih (i := i + 1)
        cases hfind : s.findInstance path n (i + 1) with
        | none =>
            rw [hfind] at hrest
            intro j hle hlt
            rcases Nat.eq_or_lt_of_le hle with rfl | hlt'
            · exact hfirst
            · apply hrest j hlt'
              omega
        | some r =>
            rw [hfind] at hrest
            obtain ⟨hle, hlt, hlive, hmatch, hbefore⟩ := hrest
            refine ⟨by omega, by omega, hlive, hmatch, ?_⟩
            intro j hij hjr
            rcases Nat.eq_or_lt_of_le hij with rfl | hlt'
            · exact hfirst
            · apply hbefore j hlt' hjr

end

end Sched
