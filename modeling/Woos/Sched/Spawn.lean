import Woos.Sched.Calls

/-!
# Spawning in one step

`woos_system_spawn` brings an instance of the application to the front, or starts a new thread.
`spawnTable` is the thread table from which it does the latter: an instance without a window
has been ended there.  `woosSystemSpawn_cases` and `spawnNew_cases` say all it can do.
-/

namespace Kernel

/-- The thread table with which `woos_system_spawn` starts a new thread, if it does. -/
def spawnTable (k : Kernel) (path : CString) : Option Sched :=
  if path = CString.empty then
    none
  else
    match findInstance k.sched path with
    | none => some k.sched
    | some i =>
        if (k.woosGraphicsBringThreadToFront (k.sched.threads i).id.toUInt32).2 = 0 then none
        else some (endThread k.sched i)

/-- The slot in which a new thread for a path is made, if it is. -/
def newMade (k : Kernel) (path : CString) : Option Nat :=
  threadMade { k with sched := storePath k.sched k.sched.freeSlot path }

/-- The slot in which `woos_system_spawn` makes a thread, if it does. -/
def spawnMade (k : Kernel) (path : CString) : Option Nat :=
  (k.spawnTable path).bind (fun s => newMade { k with sched := s } path)

section

variable (k : Kernel) (path : CString)

theorem woosGraphicsBringToFront_cases (windowId : UInt32) :
  k.woosGraphicsBringToFront windowId = (k, -1)
    ∨ ∃ b k', Wakes b k k' ∧ k.woosGraphicsBringToFront windowId = (k', 0)
  := by
  rw [woosGraphicsBringToFront]
  split
  case h_1 => exact Or.inl rfl
  case h_2 windows _ =>
    have hwindows : Wakes false k { k with windows := windows } :=
      ⟨k.heap, windows, k.timer, k.input, rfl⟩
    exact Or.inr ⟨_, _, hwindows.trans (windowChanged_wakes _), rfl⟩

/-- Bringing a thread to the front changes nothing when it fails. -/
theorem woosGraphicsBringThreadToFront_cases (threadId : UInt32) :
  k.woosGraphicsBringThreadToFront threadId = (k, -1)
    ∨ ∃ b k', Wakes b k k' ∧ k.woosGraphicsBringThreadToFront threadId = (k', 0)
  := by
  rw [woosGraphicsBringThreadToFront]
  split
  · apply woosGraphicsBringToFront_cases
  · exact Or.inl rfl

/-- `woos_system_spawn` refuses the path or brings an instance to the front, or it starts a new
thread from `spawnTable`. -/
theorem woosSystemSpawn_cases :
  (k.spawnTable path = none ∧ ∃ b, Wakes b k (k.woosSystemSpawn (some path)).1)
    ∨ ∃ s, k.spawnTable path = some s
      ∧ k.woosSystemSpawn (some path) = spawnNew { k with sched := s } path
  := by
  rw [woosSystemSpawn, spawnTable]
  by_cases hempty : path = CString.empty
  · rw [if_pos hempty, if_pos hempty]
    exact Or.inl ⟨rfl, false, Wakes.refl k⟩
  · rw [if_neg hempty, if_neg hempty]
    cases findInstance k.sched path with
    | none => exact Or.inr ⟨_, rfl, rfl⟩
    | some i =>
        dsimp only
        rcases k.woosGraphicsBringThreadToFront_cases (k.sched.threads i).id.toUInt32
          with heq | ⟨b, k', hwakes, heq⟩
        · rw [heq]
          exact Or.inr ⟨_, rfl, rfl⟩
        · rw [heq]
          exact Or.inl ⟨rfl, b, hwakes⟩

variable {k path} in
/-- A new thread is started from the table as it is when there is no instance, and from one in
which the instance has been ended otherwise. -/
theorem spawnTable_cases {s : Sched} (h : k.spawnTable path = some s) :
  (findInstance k.sched path = none ∧ s = k.sched)
    ∨ ∃ i, findInstance k.sched path = some i ∧ s = endThread k.sched i
  := by
  rw [spawnTable] at h
  split at h
  case isTrue => cases h
  case isFalse =>
    split at h
    case h_1 hnone =>
      cases h
      exact Or.inl ⟨hnone, rfl⟩
    case h_2 i hi =>
      split at h
      · cases h
      · cases h
        exact Or.inr ⟨i, hi, rfl⟩

/-! ### The new thread -/

/-- The slot in which the path is stored is the one `thread_create` chooses. -/
theorem storePath_freeSlot (s : Sched) (slot : Nat) :
  (storePath s slot path).freeSlot = s.freeSlot
  := by
  have hstate : (storePath s slot path).state = s.state := by
    funext i
    apply Sched.modify_state
    rfl
  have hfind : ∀ n i, (storePath s slot path).findTerminated n i = s.findTerminated n i := by
    intro n
    induction n with
    | zero => exact fun _ => rfl
    | succ n ih =>
        intro i
        rw [Sched.findTerminated, Sched.findTerminated, ih, hstate]
  rw [Sched.freeSlot, hfind]
  rfl

theorem storePath_edits (slot : Nat) :
  ∃ t, Edits slot t k { k with sched := storePath k.sched slot path }
    ∧ t.state = (k.sched.threads slot).state ∧ t.id = (k.sched.threads slot).id
    ∧ t.appPath = path.truncate 63
  := ⟨_, ⟨k.phys, k.pmm, k.defaultFpu, rfl⟩, rfl, rfl, rfl⟩

theorem Edits.creates {slot : Nat} {t u : Thread} {k k' k'' : Kernel} (h : Edits slot t k k')
    (h' : Creates slot u k' k'') :
  Creates slot u k k''
  := by
  obtain ⟨k₁, hedits, heq, hstate, hid⟩ := h'
  exact ⟨k₁, h.trans hedits, heq, hstate, hid⟩

/-- A new thread leaves the first one alone. -/
theorem Creates.main {slot : Nat} {t : Thread} {k k' : Kernel} (h : Creates slot t k k')
    (hmain : k.sched.Main) (hslot : slot ≠ 0) :
  k'.sched.Main
  := by
  apply hmain.of_eq h.rest.1
  · rw [h.numThreads]
    split
    · apply Nat.le_succ
    · apply Nat.le_refl
  · rw [h.state, if_neg hslot.symm]

/-- A slot that is not in use can be written. -/
theorem Edits.main {slot : Nat} {t : Thread} {k k' : Kernel} (h : Edits slot t k k')
    (hmain : k.sched.Main) (hslot : slot ≠ 0) :
  k'.sched.Main
  := by
  obtain ⟨phys, pmm, fpu, rfl⟩ := h
  refine hmain.of_eq rfl (Nat.le_refl _) ?_
  exact congrArg Thread.state (Function.update_of_ne hslot.symm _ _)

theorem threadCreate_main {k : Kernel} (h : k.sched.Main) (entryPoint : UInt64) :
  (k.threadCreate entryPoint).sched.Main
  := by
  have hpos := (k.sched.freeSlot_spec h.numThreads_pos).1.ne'
  rcases k.threadCreate_cases entryPoint with ⟨-, t, hedits, -⟩ | ⟨-, -, t, hcreates, -⟩
  · exact hedits.main h hpos
  · exact hcreates.main h hpos

theorem processCreate_main {k : Kernel} (h : k.sched.Main) :
  k.processCreate.sched.Main
  := by
  rcases k.processCreate_cases with ⟨-, t, hedits, -⟩ | ⟨-, -, t, hcreates⟩
  · exact hedits.main h h.numThreads_pos.ne'
  · exact hcreates.main h h.numThreads_pos.ne'

/-- Starting a new thread leaves no more than the path in a slot that is not in use, or makes a
thread there, with the path. -/
theorem spawnNew_cases :
  (k.newMade path = none ∧ ∃ t, Edits k.sched.freeSlot t k (k.spawnNew path).1
      ∧ t.state = (k.sched.threads k.sched.freeSlot).state
      ∧ t.id = (k.sched.threads k.sched.freeSlot).id)
    ∨ (k.newMade path = some k.sched.freeSlot ∧ k.sched.freeSlot < Sched.maxThreads
      ∧ ∃ t, Creates k.sched.freeSlot t k (k.spawnNew path).1 ∧ t.appPath = path.truncate 63)
  := by
  obtain ⟨t₁, h₁, hstate₁, hid₁, hpath₁⟩ := k.storePath_edits path k.sched.freeSlot
  have hcases := threadCreate_cases
    { k with sched := storePath k.sched k.sched.freeSlot path } k.runnerEntry
  rw [storePath_freeSlot] at hcases
  rw [spawnNew, newMade]
  by_cases hfull : Sched.maxThreads ≤ k.sched.freeSlot
  · rw [if_pos hfull, threadMade, storePath_freeSlot,
      if_neg (fun hcon => Nat.not_lt.mpr hfull hcon.1)]
    exact Or.inl ⟨rfl, _, Edits.refl k _, rfl, rfl⟩
  · rw [if_neg hfull]
    rcases hcases with ⟨hnone, t, hedits, hkeeps⟩ | ⟨hsome, hlt, t, hcreates, hpath⟩
    · left
      rw [h₁.thread] at hkeeps
      exact ⟨hnone, t, h₁.trans hedits, hkeeps.state.trans hstate₁, hkeeps.id.trans hid₁⟩
    · right
      rw [h₁.thread] at hpath
      exact ⟨hsome, hlt, t, h₁.creates hcreates, hpath.trans hpath₁⟩

end

/-! ### The lifetimes of threads -/

/-- The slot in which a call makes a thread, if it does. -/
def made (k : Kernel) : Call → Option Nat
  | .threadCreate _ => k.threadMade
  | .processCreate => k.processMade
  | .spawn (some path) => k.spawnMade path
  | _ => none

/-- The thread that a call ends, if it ends one. -/
def ended (k : Kernel) : Call → Option Nat
  | .exit _ => some k.sched.current
  | .spawn (some path) => (k.spawnTable path).bind (fun _ => findInstance k.sched path)
  | _ => none

section

variable {k k' : Kernel} {c : Call} {rsp : UInt64} {r : Kernel × UInt64}

theorem switchTo_ipc (k : Kernel) (next : Nat) :
  (k.switchTo next).1.ipc = k.ipc
  := rfl

theorem Schedules.ipc (h : Schedules k rsp r) :
  r.1.ipc = k.ipc
  := by
  rcases h with rfl | ⟨next, -, -, rfl⟩
  · rfl
  · rfl

theorem threadYield_ipc (h : k.sched.Main) (rsp : UInt64) :
  (k.threadYield rsp).1.ipc = k.ipc
  := by
  let k₁ : Kernel := { k with sched := { k.sched with isYield := false } }
  have hmain : k₁.sched.Main := ⟨h.current_lt, h.state_zero⟩
  have hipc := Schedules.ipc (roundRobin_schedules hmain rsp)
  exact hipc

theorem threadExit_ipc (h : k.sched.Main) (hcurrent : k.sched.current ≠ 0)
    (hr : k.threadExit rsp = some r) :
  r.1.ipc = k.ipc
  := by
  obtain ⟨b, k₁, hwakes, rfl⟩ := threadExit_cases hr
  have hended : (endThread (k.sched.wake b) k.sched.current).Main := (h.wake b).modify hcurrent _
  obtain ⟨-, hmain⟩ := (schedUnblockAll_wakes
    { k₁ with sched := endThread (k.sched.wake b) k.sched.current }).keeps hended
  rw [threadYield_ipc hmain]
  exact hwakes.ipc

/-- Only sends and receives change the queue of messages. -/
theorem call_ipc (h : k.sched.Main) (hc : k.Quiet c) (hr : k.call c = some r)
    (hsend : ∀ d t a₁ a₂ a₃ a₄ a₅, c ≠ .send d t a₁ a₂ a₃ a₄ a₅) (hrecv : c ≠ .recv) :
  r.1.ipc = k.ipc
  := by
  cases c with
  | timer rsp =>
      obtain rfl := Option.some.inj hr
      rw [scheduleInterrupt]
      split
      · exact threadYield_ipc h rsp
      · have hwakes := timerHandler_wakes k
        rw [← hwakes.ipc]
        exact threadYield_ipc (hwakes.keeps h).2 rsp
  | yield rsp =>
      obtain rfl := Option.some.inj hr
      apply threadYield_ipc h
  | irq events rsp =>
      obtain rfl := Option.some.inj hr
      have hwakes := events_wakes k events
      rw [← hwakes.ipc]
      exact Schedules.ipc (switchToBest_schedules (hwakes.keeps h).2 rsp)
  | block rsp =>
      obtain rfl := Option.some.inj hr
      exact threadYield_ipc (k := { k with sched := k.sched.setState k.sched.current .blocked })
        (h.setState hc.1 _) rsp
  | send d t a₁ a₂ a₃ a₄ a₅ => exact absurd rfl (hsend d t a₁ a₂ a₃ a₄ a₅)
  | recv => exact absurd rfl hrecv
  | unblockAll =>
      obtain rfl := Option.some.inj hr
      rfl
  | other k' =>
      obtain rfl := Option.some.inj hr
      rfl
  | exit rsp => exact hc.elim
  | threadCreate entryPoint => exact hc.elim
  | processCreate => exact hc.elim
  | spawn path => exact hc.elim

end

end Kernel
