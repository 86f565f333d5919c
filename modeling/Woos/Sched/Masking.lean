import Woos.Lib.Masking
import Woos.Sched.Calls

/-!
# Interrupt masking

The functions of the kernel that disable interrupts, instruction by instruction as far as the
interrupt flag is concerned: `sched_unblock_all`, `input_push`, `woos_ipc_send`, `woos_ipc_recv`
and `woos_system_spawn` with the window functions that it calls.  Between the instructions, where
the flag is set, `env` changes the kernel.

`sched_unblock_all` and the functions of `sched.c` end with `sti`, whatever the flag was when they
were entered; so they break the critical section of a caller, and with them `input_push`, which
saves and restores the flag itself.
-/

namespace Kernel

open Masked

section

variable (env : ℕ → Kernel → Kernel)

/-! ### Queues -/

/-- `sched_unblock_all` -/
def maskedUnblockAll (m : Masked Kernel) : Masked Kernel :=
  sti env (act env schedUnblockAll (cli env m))

/-- `input_push`: the result, and the state. -/
def maskedInputPush (event : InputEvent) (m : Masked Kernel) : Bool × Masked Kernel :=
  let flags := m.flag
  let m := cli env m
  let (pushed, input) := m.state.input.inputPush event
  let m := act env (fun k => { k with input := input }) m
  if pushed then (true, irqRestore env flags (maskedUnblockAll env m))
  else (false, irqRestore env flags m)

/-- `woos_ipc_send` -/
def maskedIpcSend (destId type arg1 arg2 arg3 arg4 arg5 : UInt32) (m : Masked Kernel) :
    Int32 × Masked Kernel :=
  let m := cli env m
  let (status, ipc) := woosIpcSend m.state.ipc m.state.sched.schedCurrentThreadId destId type
    arg1 arg2 arg3 arg4 arg5
  let m := act env (fun k => { k with ipc := ipc }) m
  if status = 0 then (0, sti env (maskedUnblockAll env m)) else (-1, sti env m)

/-- `woos_ipc_recv` -/
def maskedIpcRecv (m : Masked Kernel) : Option IpcMsg × Masked Kernel :=
  let m := cli env m
  let (msg, ipc) := woosIpcRecv m.state.ipc m.state.sched.schedCurrentThreadId
  (msg, sti env (act env (fun k => { k with ipc := ipc }) m))

/-! ### Spawning -/

/-- `woos_graphics_bring_to_front` -/
def maskedBringToFront (windowId : UInt32) (m : Masked Kernel) : Int32 × Masked Kernel :=
  let flags := m.flag
  let m := cli env m
  match m.state.windows.bringToFront windowId with
  | none => (-1, irqRestore env flags m)
  | some windows =>
    let m := irqRestore env flags (act env (fun k => { k with windows := windows }) m)
    let (_, m) := maskedInputPush env ⟨.windowChange, 0, 0, 0⟩ m
    (0, maskedUnblockAll env m)

/-- `woos_graphics_bring_thread_to_front` -/
def maskedBringThreadToFront (threadId : UInt32) (m : Masked Kernel) : Int32 × Masked Kernel :=
  let flags := m.flag
  let m := cli env m
  let targetId := m.state.windows.bottomOfThread threadId
  let m := irqRestore env flags m
  if targetId ≠ 0 then maskedBringToFront env targetId m else (-1, m)

/-- The part of `woos_system_spawn` that starts a new thread. -/
def maskedSpawnNew (path : CString) (m : Masked Kernel) : Int32 × Masked Kernel :=
  let slot := m.state.sched.freeSlot
  if Sched.maxThreads ≤ slot then
    (-1, sti env m)
  else
    let m := act env (fun k => { k with sched := storePath k.sched slot path }) m
    let m := sti env m
    (0, act env (fun k => k.threadCreate k.runnerEntry) m)

/-- `woos_system_spawn` -/
def maskedSpawn : Option CString → Masked Kernel → Int32 × Masked Kernel
  | none, m => (-1, m)
  | some path, m =>
    if path = CString.empty then
      (-1, m)
    else
      let m := cli env m
      match findInstance m.state.sched path with
      | none => maskedSpawnNew env path m
      | some i =>
        let m := sti env m
        let (r, m) := maskedBringThreadToFront env (m.state.sched.threads i).id.toUInt32 m
        if r = 0 then
          (0, m)
        else
          let m := cli env m
          let m := act env (fun k => { k with sched := endThread k.sched i }) m
          maskedSpawnNew env path (sti env m)

/-! ### Calls -/

/-- The functions whose discipline is in question. -/
inductive MaskedCall where
  | inputPush (event : InputEvent)
  | schedUnblockAll
  | ipcSend (destId type arg1 arg2 arg3 arg4 arg5 : UInt32)
  | ipcRecv
  | spawn (path : Option CString)

/-- The state in which a call returns. -/
def maskedCall : MaskedCall → Masked Kernel → Masked Kernel
  | .inputPush event, m => (maskedInputPush env event m).2
  | .schedUnblockAll, m => maskedUnblockAll env m
  | .ipcSend destId type arg1 arg2 arg3 arg4 arg5, m =>
    (maskedIpcSend env destId type arg1 arg2 arg3 arg4 arg5 m).2
  | .ipcRecv, m => (maskedIpcRecv env m).2
  | .spawn path, m => (maskedSpawn env path m).2

/-! ### The flag -/

section

variable (m : Masked Kernel)

@[simp]
theorem maskedUnblockAll_flag :
  (maskedUnblockAll env m).flag = true
  := rfl

@[simp]
theorem maskedUnblockAll_trace :
  (maskedUnblockAll env m).trace = true :: false :: false :: m.trace
  := rfl

/-- `input_push` restores the flag. -/
@[simp]
theorem maskedInputPush_flag (event : InputEvent) :
  (maskedInputPush env event m).2.flag = m.flag
  := by
  simp only [maskedInputPush]
  split
  · rfl
  · rfl

/-- Into a queue that has room, `input_push` wakes the threads, which sets the flag. -/
theorem maskedInputPush_trace (event : InputEvent)
    (h : m.state.input.size < m.state.input.capacity) :
  true ∈ (maskedInputPush env event m).2.trace
  := by
  have hpushed : (m.state.input.inputPush event).1 = true := by
    rw [InputQueue.inputPush, if_neg (UInt16.not_le.mpr h)]
  simp [maskedInputPush, hpushed]

theorem maskedInputPush_trace_full (event : InputEvent)
    (h : m.state.input.capacity ≤ m.state.input.size) :
  (maskedInputPush env event m).2.trace = m.flag :: false :: false :: m.trace
  := by
  have hpushed : (m.state.input.inputPush event).1 = false := by
    rw [InputQueue.inputPush, if_pos h]
  simp [maskedInputPush, hpushed]

@[simp]
theorem maskedIpcSend_flag (destId type arg1 arg2 arg3 arg4 arg5 : UInt32) :
  (maskedIpcSend env destId type arg1 arg2 arg3 arg4 arg5 m).2.flag = true
  := by
  simp only [maskedIpcSend]
  split
  · rfl
  · rfl

@[simp]
theorem maskedIpcRecv_flag :
  (maskedIpcRecv env m).2.flag = true
  := rfl

variable {m} in
theorem maskedBringToFront_flag (windowId : UInt32) (h : m.flag = true) :
  (maskedBringToFront env windowId m).2.flag = true
  := by
  simp only [maskedBringToFront]
  split
  · exact h
  · rfl

variable {m} in
theorem maskedBringThreadToFront_flag (threadId : UInt32) (h : m.flag = true) :
  (maskedBringThreadToFront env threadId m).2.flag = true
  := by
  simp only [maskedBringThreadToFront]
  split
  · apply maskedBringToFront_flag
    exact h
  · exact h

@[simp]
theorem maskedSpawnNew_flag (path : CString) :
  (maskedSpawnNew env path m).2.flag = true
  := by
  simp only [maskedSpawnNew]
  split
  · rfl
  · rfl

/-- `woos_system_spawn` leaves the flag set, unless there is no path. -/
theorem maskedSpawn_flag {path : CString} (h : path ≠ CString.empty) :
  (maskedSpawn env (some path) m).2.flag = true
  := by
  simp only [maskedSpawn, if_neg h]
  split
  · apply maskedSpawnNew_flag
  · split
    · apply maskedBringThreadToFront_flag
      rfl
    · apply maskedSpawnNew_flag

end

/-! ### Discipline -/

/-- The calls that wake no thread and execute no `sti`: a push into a full queue, and the spawn of
no path. -/
def MaskedCall.Quiet (k : Kernel) : MaskedCall → Prop
  | .inputPush _ => k.input.capacity ≤ k.input.size
  | .spawn path => path = none ∨ path = some CString.empty
  | _ => False

/-- What a call that is entered with the flag set leaves in it. -/
theorem maskedCall_flag (k : Kernel) (c : MaskedCall) :
  (maskedCall env c (enter k true)).flag = true
  := by
  cases c with
  | inputPush event => apply maskedInputPush_flag
  | schedUnblockAll => rfl
  | ipcSend => apply maskedIpcSend_flag
  | ipcRecv => rfl
  | spawn path =>
      cases path with
      | none => rfl
      | some path =>
          by_cases h : path = CString.empty
          · rw [maskedCall, maskedSpawn, if_pos h]
            rfl
          · apply maskedSpawn_flag env _ h

/-- A function leaves the flag as it was and does not set it in between if and only if it is entered
with the flag set, or is one of the quiet calls. -/
theorem masking_disciplined_iff (k : Kernel) (flag : Bool) (c : MaskedCall) :
  Disciplined (enter k flag) (maskedCall env c (enter k flag)) ↔ flag = true ∨ c.Quiet k
  := by
  cases flag with
  | true =>
      apply iff_of_true
      · apply Disciplined.of_set rfl
        apply maskedCall_flag
      · left
        rfl
  | false =>
      rw [or_iff_right (by decide)]
      have hset {exit : Masked Kernel} (h : exit.flag = true) :
          ¬ Disciplined (enter k false) exit := by
        intro hd
        rw [hd.restored] at h
        cases h
      cases c with
      | inputPush event =>
          rw [MaskedCall.Quiet]
          constructor
          · intro h
            by_contra hfull
            have hroom : k.input.size < k.input.capacity := UInt16.not_le.mp hfull
            apply Disciplined.not_of_clear rfl (maskedInputPush_trace env (enter k false) event hroom) h
          · intro hfull
            constructor
            · apply maskedInputPush_flag
            · intro _ b hb
              rw [maskedCall, maskedInputPush_trace_full env (enter k false) event hfull] at hb
              simpa [enter] using hb
      | schedUnblockAll => exact iff_of_false (hset rfl) id
      | ipcSend => exact iff_of_false (hset (maskedIpcSend_flag _ _ _ _ _ _ _ _ _)) id
      | ipcRecv => exact iff_of_false (hset rfl) id
      | spawn path =>
          cases path with
          | none =>
              apply iff_of_true
              · exact ⟨rfl, fun _ b hb => by cases hb⟩
              · left
                rfl
          | some path =>
              by_cases h : path = CString.empty
              · apply iff_of_true
                · rw [maskedCall, maskedSpawn, if_pos h]
                  exact ⟨rfl, fun _ b hb => by cases hb⟩
                · right
                  rw [h]
              · apply iff_of_false (hset (maskedSpawn_flag env _ h))
                rw [MaskedCall.Quiet]
                simpa using h

end

/-- The timer interrupt pushes an event into an empty queue. -/
theorem not_masking_disciplined :
  ¬ ∀ (env : ℕ → Kernel → Kernel) (k : Kernel) (flag : Bool) (c : MaskedCall),
    Disciplined (enter k flag) (maskedCall env c (enter k flag))
  := by
  intro h
  apply Disciplined.not_of_clear rfl _
    (h idle boot.schedInit false (.inputPush ⟨.timerTick, 0, 0, 0⟩))
  apply maskedInputPush_trace
  decide

/-! ### Without interrupts -/

section

variable (m : Masked Kernel)

@[simp]
theorem maskedUnblockAll_idle :
  (maskedUnblockAll idle m).state = m.state.schedUnblockAll
  := by
  rw [maskedUnblockAll, sti_idle_state, act_idle_state, cli_state]

@[simp]
theorem maskedInputPush_idle (event : InputEvent) :
  (maskedInputPush idle event m).2.state = m.state.inputPush event
  := by
  rw [inputPush]
  split
  case h_1 input h => simp [maskedInputPush, h]
  case h_2 input h => simp [maskedInputPush, h]

theorem maskedIpcSend_idle (destId type arg1 arg2 arg3 arg4 arg5 : UInt32) :
  (maskedIpcSend idle destId type arg1 arg2 arg3 arg4 arg5 m).2.state
    = m.state.ipcSend destId type arg1 arg2 arg3 arg4 arg5
  := by
  by_cases h : (woosIpcSend m.state.ipc m.state.sched.schedCurrentThreadId destId type arg1 arg2
      arg3 arg4 arg5).1 = 0
  · simp [maskedIpcSend, ipcSend, h]
  · simp [maskedIpcSend, ipcSend, h]

theorem maskedIpcRecv_idle :
  (maskedIpcRecv idle m).2.state = m.state.ipcRecv.1
  := by
  simp [maskedIpcRecv, ipcRecv]

theorem maskedBringToFront_idle (windowId : UInt32) :
  (maskedBringToFront idle windowId m).1 = (m.state.woosGraphicsBringToFront windowId).2
    ∧ (maskedBringToFront idle windowId m).2.state = (m.state.woosGraphicsBringToFront windowId).1
  := by
  simp only [maskedBringToFront, woosGraphicsBringToFront, cli_state]
  cases m.state.windows.bringToFront windowId with
  | none => simp
  | some windows => simp [windowChanged]

theorem maskedBringThreadToFront_idle (threadId : UInt32) :
  (maskedBringThreadToFront idle threadId m).1
      = (m.state.woosGraphicsBringThreadToFront threadId).2
    ∧ (maskedBringThreadToFront idle threadId m).2.state
      = (m.state.woosGraphicsBringThreadToFront threadId).1
  := by
  by_cases h : m.state.windows.bottomOfThread threadId = 0
  · simp [maskedBringThreadToFront, woosGraphicsBringThreadToFront, h]
  · have hfront := maskedBringToFront_idle (irqRestore idle m.flag (cli idle m))
      (m.state.windows.bottomOfThread threadId)
    rw [irqRestore_idle_state, cli_state] at hfront
    simpa [maskedBringThreadToFront, woosGraphicsBringThreadToFront, h] using hfront

theorem maskedSpawnNew_idle (path : CString) :
  (maskedSpawnNew idle path m).1 = (m.state.spawnNew path).2
    ∧ (maskedSpawnNew idle path m).2.state = (m.state.spawnNew path).1
  := by
  simp only [maskedSpawnNew, spawnNew]
  split
  · simp
  · simp

/-- Without interrupts, spawning is the one step that `woosSystemSpawn` describes. -/
theorem maskedSpawn_idle (path : Option CString) :
  (maskedSpawn idle path m).1 = (m.state.woosSystemSpawn path).2
    ∧ (maskedSpawn idle path m).2.state = (m.state.woosSystemSpawn path).1
  := by
  cases path with
  | none => exact ⟨rfl, rfl⟩
  | some path =>
      by_cases hempty : path = CString.empty
      · simp [maskedSpawn, woosSystemSpawn, hempty]
      · cases hfound : findInstance m.state.sched path with
        | none =>
            have hnew := maskedSpawnNew_idle (cli idle m) path
            rw [cli_state] at hnew
            simpa [maskedSpawn, woosSystemSpawn, hempty, hfound] using hnew
        | some i =>
            have hbring := maskedBringThreadToFront_idle (sti idle (cli idle m))
              (m.state.sched.threads i).id.toUInt32
            rw [sti_idle_state, cli_state] at hbring
            by_cases hr : (m.state.woosGraphicsBringThreadToFront
                (m.state.sched.threads i).id.toUInt32).2 = 0
            · simp [maskedSpawn, woosSystemSpawn, hempty, hfound, hbring, hr]
            · have hnew := maskedSpawnNew_idle (sti idle (act idle
                (fun k => { k with sched := endThread k.sched i })
                (cli idle (maskedBringThreadToFront idle (m.state.sched.threads i).id.toUInt32
                  (sti idle (cli idle m))).2))) path
              rw [sti_idle_state, act_idle_state, cli_state, hbring.2] at hnew
              simpa [maskedSpawn, woosSystemSpawn, hempty, hfound, hbring.1, hr] using hnew

/-- Without interrupts, the calls are those of the kernel. -/
theorem maskedCall_idle (c : MaskedCall) :
  (maskedCall idle c m).state = match c with
    | .inputPush event => m.state.inputPush event
    | .schedUnblockAll => m.state.schedUnblockAll
    | .ipcSend destId type arg1 arg2 arg3 arg4 arg5 =>
      m.state.ipcSend destId type arg1 arg2 arg3 arg4 arg5
    | .ipcRecv => m.state.ipcRecv.1
    | .spawn path => (m.state.woosSystemSpawn path).1
  := by
  cases c with
  | inputPush event => apply maskedInputPush_idle
  | schedUnblockAll => apply maskedUnblockAll_idle
  | ipcSend => apply maskedIpcSend_idle
  | ipcRecv => apply maskedIpcRecv_idle
  | spawn path => apply (maskedSpawn_idle m path).2

end

end Kernel
