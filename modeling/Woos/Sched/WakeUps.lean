import Woos.Sched.Spawn

/-!
# Waiting for messages and events

`wasi_ipc_wait_message` and `wasi_input_wait_event` test a queue and, when it is empty, mark the
thread as blocked and yield.  `Waits` is the kernel together with the point that each thread has
reached in these functions.  Between the test and the mark interrupts are enabled, so that a send
or an interrupt may come in; it wakes the threads that are blocked, and this one is not blocked yet.

`Drowsy k k'` says that a thread that is blocked in `k'` was so in `k`, and that its queues have not
been filled in between.  All calls of the kernel are of this kind, since they wake all threads
when they fill a queue.
-/

/-- The queues on which a thread waits. -/
inductive WaitQueue where
  | messages
  | events
  deriving DecidableEq

/-- How far a thread is in a wait function: `tested` when it found the queue empty and is about to
block, `blocked` when it has marked itself. -/
inductive WaitPoint where
  | outside
  | tested (q : WaitQueue)
  | blocked (q : WaitQueue)
  deriving DecidableEq

namespace Kernel

/-- There is nothing in a queue for the thread in a slot. -/
def EmptyFor (k : Kernel) (i : Nat) : WaitQueue → Prop
  | .messages => ∀ msg ∈ k.ipc.contents, msg.destId ≠ (k.sched.threads i).id.toUInt32
  | .events => k.input.size = 0

/-- The test of a wait function: `woos_ipc_pending() == 0`, `input_queue_size() == 0`. -/
def testEmpty (k : Kernel) : WaitQueue → Bool
  | .messages => woosIpcPending k.ipc k.sched.schedCurrentThreadId = 0
  | .events => k.input.size = 0

/-- The call blocks the thread, or changes what is outside the scheduler in any way. -/
def Call.foreign : Call → Bool
  | .block _ | .other _ => true
  | _ => false

end Kernel

/-- The kernel, and where each thread is in the wait functions. -/
structure Waits where
  kernel : Kernel
  point : Nat → WaitPoint

namespace Waits

open Kernel (Call EmptyFor testEmpty)

/-- The steps between which other threads and interrupts may come in. -/
inductive Step where
  /-- a call of the current thread or an interrupt, which is not one of the following -/
  | call (c : Call)
  /-- what is outside the scheduler and the two queues becomes that of `k'` -/
  | outside (k' : Kernel)
  /-- `input_pop` -/
  | pop
  /-- the event with which a window function ends -/
  | windowChanged
  /-- the test of a wait function -/
  | test (q : WaitQueue)
  /-- `sched_block_current` up to `thread_yield`, which is a call -/
  | mark

/-- The current thread is between the test and the mark, or between the mark and the yield. -/
def busy (s : Waits) : Bool :=
  (match s.point s.kernel.sched.current with | .tested _ => true | _ => false)
    || s.kernel.sched.state s.kernel.sched.current = .blocked

/-- Execute a step. -/
def step (s : Waits) : Step → Option Waits
  | .call c =>
    if c.foreign then none
    else (s.kernel.step c).map (fun k =>
      ⟨k, fun i => if s.kernel.made c = some i then .outside else s.point i⟩)
  | .outside k' => some { s with kernel := { s.kernel.changeRest k' with input := s.kernel.input } }
  | .pop => some { s with kernel := { s.kernel with input := s.kernel.input.inputPop.2 } }
  | .windowChanged => some { s with kernel := s.kernel.windowChanged }
  | .test q =>
    if s.busy then none
    else
      let p := if testEmpty s.kernel q then .tested q else .outside
      some { s with point := Function.update s.point s.kernel.sched.current p }
  | .mark =>
    let i := s.kernel.sched.current
    match s.point i with
    | .tested q => some {
        kernel := { s.kernel with sched := s.kernel.sched.setState i .blocked }
        point := Function.update s.point i (.blocked q) }
    | _ => none

/-- The state after `sched_init`. -/
def init (k : Kernel) : Waits := ⟨k.schedInit, fun _ => .outside⟩

/-- A thread marks itself as blocked only while the queue is still empty for it. -/
def InTime (s : Waits) : Step → Prop
  | .mark => ∀ q, s.point s.kernel.sched.current = .tested q
      → EmptyFor s.kernel s.kernel.sched.current q
  | _ => True

/-- Every blocked thread is in a wait function, and its queue is empty for it. -/
def Attentive (s : Waits) : Prop :=
  ∀ i < s.kernel.sched.numThreads, s.kernel.sched.state i = .blocked →
    ∃ q, s.point i = .blocked q ∧ EmptyFor s.kernel i q

end Waits

namespace Kernel

/-! ### What calls do to blocked threads -/

/-- A thread that is blocked afterwards was blocked before, and its queues have not been filled. -/
def Drowsy (k k' : Kernel) : Prop :=
  ∀ i < k'.sched.numThreads, k'.sched.state i = .blocked →
    i < k.sched.numThreads ∧ k.sched.state i = .blocked
      ∧ (k'.sched.threads i).id = (k.sched.threads i).id
      ∧ (∀ msg ∈ k'.ipc.contents, msg ∈ k.ipc.contents)
      ∧ (k.input.size = 0 → k'.input.size = 0)

section

variable {k k' k'' : Kernel}

theorem Drowsy.refl (k : Kernel) :
  Drowsy k k
  := fun _ hi hstate => ⟨hi, hstate, rfl, fun _ hmsg => hmsg, fun h => h⟩

theorem Drowsy.trans (h : Drowsy k k') (h' : Drowsy k' k'') :
  Drowsy k k''
  := by
  intro i hi hstate
  obtain ⟨hi', hstate', hid', hmsgs', hinput'⟩ := h' i hi hstate
  obtain ⟨hi'', hstate'', hid'', hmsgs'', hinput''⟩ := h i hi' hstate'
  exact ⟨hi'', hstate'', hid'.trans hid'', fun msg hmsg => hmsgs'' msg (hmsgs' msg hmsg),
    fun hzero => hinput' (hinput'' hzero)⟩

theorem Drowsy.emptyFor (h : Drowsy k k') {i : Nat} (hi : i < k'.sched.numThreads)
    (hstate : k'.sched.state i = .blocked) {q : WaitQueue} (hempty : EmptyFor k i q) :
  EmptyFor k' i q
  := by
  obtain ⟨-, -, hid, hmsgs, hinput⟩ := h i hi hstate
  cases q with
  | messages =>
      intro msg hmsg
      rw [hid]
      apply hempty msg (hmsgs msg hmsg)
  | events => apply hinput hempty

/-- No thread is blocked afterwards. -/
theorem drowsy_of_awake (h : ∀ i < k'.sched.numThreads, k'.sched.state i ≠ .blocked) :
  Drowsy k k'
  := fun i hi hstate => absurd hstate (h i hi)

/-- The queues are as before, and every thread that is blocked afterwards was so before. -/
theorem drowsy_of_table (hipc : k'.ipc = k.ipc) (hinput : k'.input = k.input)
    (h : ∀ i < k'.sched.numThreads, k'.sched.state i = .blocked → i < k.sched.numThreads
      ∧ k.sched.state i = .blocked ∧ (k'.sched.threads i).id = (k.sched.threads i).id) :
  Drowsy k k'
  := by
  intro i hi hstate
  obtain ⟨hi', hstate', hid⟩ := h i hi hstate
  rw [hipc, hinput]
  exact ⟨hi', hstate', hid, fun _ hmsg => hmsg, fun hzero => hzero⟩

theorem drowsy_of_sched (hsched : k'.sched = k.sched) (hipc : k'.ipc = k.ipc)
    (hinput : k'.input = k.input) :
  Drowsy k k'
  := by
  apply drowsy_of_table hipc hinput
  rw [hsched]
  exact fun i hi hstate => ⟨hi, hstate, rfl⟩

theorem Wakes.drowsy (h : Wakes true k k') :
  Drowsy k k'
  := by
  apply drowsy_of_awake
  intro i hi
  rw [h.sched, Sched.wake_numThreads] at hi
  rw [h.sched, Sched.wake_state]
  split
  case isTrue => nofun
  case isFalse hnot => exact fun hstate => hnot ⟨rfl, hi, hstate⟩

/-- An event that is accepted wakes all threads; one that is not leaves the queue as it is. -/
theorem inputPush_drowsy (k : Kernel) (event : InputEvent) :
  Drowsy k (k.inputPush event)
  := by
  have hwakes := (k.inputPush_wakes event).1
  cases hroom : k.inputRoom with
  | true =>
      rw [hroom] at hwakes
      exact hwakes.drowsy
  | false =>
      have hfull : k.input.capacity ≤ k.input.size := UInt16.not_lt.mp (of_decide_eq_false hroom)
      have hpush : k.inputPush event
          = { k with input := { k.input with dropped := k.input.dropped + 1 } } := by
        rw [inputPush, InputQueue.inputPush, if_pos hfull]
      rw [hpush]
      exact fun i hi hstate => ⟨hi, hstate, rfl, fun _ hmsg => hmsg, fun hzero => hzero⟩

theorem events_drowsy (k : Kernel) (events : List InputEvent) :
  Drowsy k (events.foldl inputPush k)
  := by
  induction events generalizing k with
  | nil => apply Drowsy.refl
  | cons event events ih =>
      apply (k.inputPush_drowsy event).trans
      apply ih

theorem timerHandler_drowsy (k : Kernel) :
  Drowsy k k.timerHandler
  := by
  have hticks : Drowsy k { k with timer := { k.timer with ticks := k.timer.ticks + 1 } } :=
    drowsy_of_sched rfl rfl rfl
  rw [timerHandler]
  dsimp only
  split
  · apply hticks.trans
    apply inputPush_drowsy
  · exact hticks

/-! ### Schedule functions -/

theorem saveCurrent_blocked (s : Sched) (rsp : UInt64) (i : Nat) :
  (saveCurrent s rsp).state i = .blocked ↔ s.state i = .blocked
  := by
  rw [saveCurrent_state]
  split
  case isTrue h => simp [h.2]
  case isFalse => rfl

theorem switchTo_drowsy (k : Kernel) (rsp : UInt64) (next : Nat) :
  Drowsy k ((k.save rsp).switchTo next).1
  := by
  refine drowsy_of_table rfl rfl ?_
  intro i hi hstate
  have hnum : i < k.sched.numThreads := by
    rw [← saveCurrent_numThreads k.sched rsp]
    exact hi
  rw [switchTo_state] at hstate
  split at hstate
  case isTrue => cases hstate
  case isFalse =>
    have hsame := (saveCurrent_same k.sched rsp i).trans (switchTo_same (k.save rsp) next i)
    refine ⟨hnum, (saveCurrent_blocked k.sched rsp i).mp hstate, ?_⟩
    rw [hsame]

theorem roundRobin_drowsy (k : Kernel) (rsp : UInt64) :
  Drowsy k (k.roundRobin rsp).1
  := by
  rcases k.roundRobin_cases rsp with ⟨h, -⟩ | ⟨h, -⟩ | ⟨next, -, -, h⟩
  · rw [h]
    apply Drowsy.refl
  · rw [h]
    refine drowsy_of_table rfl rfl ?_
    intro i hi hstate
    have hnum : i < k.sched.numThreads := by
      rw [← saveCurrent_numThreads k.sched rsp]
      exact hi
    have hne : i ≠ k.sched.current := by
      rintro rfl
      rw [Sched.setState_state_self] at hstate
      cases hstate
    rw [Sched.setState_state_ne _ _ hne, saveCurrent_blocked] at hstate
    refine ⟨hnum, hstate, ?_⟩
    rw [Sched.setState, Sched.modify_threads_ne _ _ hne, saveCurrent_same k.sched rsp i]
  · rw [h]
    apply switchTo_drowsy

theorem switchToBest_drowsy (k : Kernel) (rsp : UInt64) :
  Drowsy k (k.switchToBest rsp).1
  := by
  rcases k.switchToBest_cases rsp with h | ⟨next, -, -, h⟩
  · rw [h]
    apply Drowsy.refl
  · rw [h]
    apply switchTo_drowsy

theorem threadYield_drowsy (k : Kernel) (rsp : UInt64) :
  Drowsy k (k.threadYield rsp).1
  := roundRobin_drowsy { k with sched := { k.sched with isYield := false } } rsp

theorem scheduleInterrupt_drowsy (k : Kernel) (rsp : UInt64) :
  Drowsy k (k.scheduleInterrupt rsp).1
  := by
  rw [scheduleInterrupt]
  split
  · exact roundRobin_drowsy { k with sched := { k.sched with isYield := false } } rsp
  · apply k.timerHandler_drowsy.trans
    exact roundRobin_drowsy
      { k.timerHandler with sched := { k.timerHandler.sched with isYield := false } } rsp

theorem scheduleIrq_drowsy (k : Kernel) (events : List InputEvent) (rsp : UInt64) :
  Drowsy k (k.scheduleIrq events rsp).1
  := by
  apply (k.events_drowsy events).trans
  apply switchToBest_drowsy

/-! ### Windows and exit -/

theorem woosGraphicsDestroyWindow_drowsy {windowId : UInt32} {r : Int32}
    (h : k.woosGraphicsDestroyWindow windowId = some (k', r)) :
  Drowsy k k'
  := by
  obtain ⟨⟨m, r'⟩, -, heq⟩ := Option.bind_eq_some_iff.mp h
  have hm : Drowsy k { k with heap := m.heap, windows := m.stack } := drowsy_of_sched rfl rfl rfl
  dsimp only at heq
  split at heq
  · cases heq
    apply hm.trans
    apply (windowChanged_wakes _).drowsy
  · cases heq
    exact hm

theorem destroyLoop_drowsy {threadId : UInt32} {n : Nat}
    (h : destroyLoop threadId n k = some k') :
  Drowsy k k'
  := by
  induction n generalizing k with
  | zero => cases h
  | succ n ih =>
      rw [destroyLoop] at h
      dsimp only at h
      split at h
      · cases h
        apply Drowsy.refl
      · obtain ⟨⟨k₁, r⟩, hdestroy, hrest⟩ := Option.bind_eq_some_iff.mp h
        apply (woosGraphicsDestroyWindow_drowsy hdestroy).trans
        apply ih hrest

theorem woosGraphicsBringThreadToFront_drowsy (k : Kernel) (threadId : UInt32) :
  Drowsy k (k.woosGraphicsBringThreadToFront threadId).1
  := by
  rw [woosGraphicsBringThreadToFront]
  split
  · rw [woosGraphicsBringToFront]
    split
    · apply Drowsy.refl
    · next windows _ =>
        have hwindows : Drowsy k { k with windows := windows } := drowsy_of_sched rfl rfl rfl
        apply hwindows.trans
        apply (windowChanged_wakes _).drowsy
  · apply Drowsy.refl

/-- Ending a thread unblocks it. -/
theorem endThread_drowsy (k : Kernel) (i : Nat) :
  Drowsy k { k with sched := endThread k.sched i }
  := by
  refine drowsy_of_table rfl rfl ?_
  intro j hj hstate
  have hne : j ≠ i := by
    rintro rfl
    rw [Sched.state, endThread, Sched.modify_threads_self] at hstate
    cases hstate
  rw [Sched.state, endThread, Sched.modify_threads_ne _ _ hne] at hstate
  rw [endThread, Sched.modify_threads_ne _ _ hne]
  exact ⟨hj, hstate, rfl⟩

theorem threadExit_drowsy {rsp : UInt64} {r : Kernel × UInt64} (h : k.threadExit rsp = some r) :
  Drowsy k r.1
  := by
  obtain ⟨k₁, hdestroy, heq⟩ := Option.bind_eq_some_iff.mp h
  obtain rfl := Option.some.inj heq
  apply (destroyLoop_drowsy hdestroy).trans
  apply (k₁.endThread_drowsy k₁.sched.current).trans
  apply (schedUnblockAll_wakes _).drowsy.trans
  apply threadYield_drowsy

/-! ### New threads -/

/-- A slot is written whose state and id stay as they are. -/
theorem Edits.drowsy {slot : Nat} {t : Thread} (h : Edits slot t k k')
    (hstate : t.state = (k.sched.threads slot).state) (hid : t.id = (k.sched.threads slot).id) :
  Drowsy k k'
  := by
  obtain ⟨phys, pmm, fpu, rfl⟩ := h
  refine drowsy_of_table rfl rfl ?_
  intro i hi hblocked
  have hentry : (Function.update k.sched.threads slot t i).state = (k.sched.threads i).state
      ∧ (Function.update k.sched.threads slot t i).id = (k.sched.threads i).id := by
    rw [Function.update_apply]
    split
    case isTrue heq =>
      rw [heq]
      exact ⟨hstate, hid⟩
    case isFalse => exact ⟨rfl, rfl⟩
  exact ⟨hi, hentry.1.symm.trans hblocked, hentry.2⟩

/-- A new thread is ready. -/
theorem Creates.drowsy {slot : Nat} {t : Thread} (h : Creates slot t k k') :
  Drowsy k k'
  := by
  obtain ⟨-, -, -, -, -, hinput, hipc⟩ := h.rest
  apply drowsy_of_table hipc hinput
  intro i hi hstate
  rw [h.state] at hstate
  split at hstate
  case isTrue => cases hstate
  case isFalse hne =>
    rw [h.numThreads] at hi
    rw [h.threads, Function.update_of_ne hne]
    refine ⟨?_, hstate, rfl⟩
    split at hi
    case isTrue heq => omega
    case isFalse => exact hi

theorem threadCreate_drowsy (k : Kernel) (entryPoint : UInt64) :
  Drowsy k (k.threadCreate entryPoint)
  := by
  rcases k.threadCreate_cases entryPoint with ⟨-, t, hedits, hkeeps⟩ | ⟨-, -, t, hcreates, -⟩
  · apply hedits.drowsy hkeeps.state hkeeps.id
  · apply hcreates.drowsy

theorem processCreate_drowsy (k : Kernel) :
  Drowsy k k.processCreate
  := by
  rcases k.processCreate_cases with ⟨-, t, hedits, hkeeps⟩ | ⟨-, -, t, hcreates⟩
  · apply hedits.drowsy hkeeps.state hkeeps.id
  · apply hcreates.drowsy

theorem spawnNew_drowsy (k : Kernel) (path : CString) :
  Drowsy k (k.spawnNew path).1
  := by
  rcases k.spawnNew_cases path with ⟨-, t, hedits, hstate, hid⟩ | ⟨-, -, t, hcreates, -⟩
  · apply hedits.drowsy hstate hid
  · apply hcreates.drowsy

theorem woosSystemSpawn_drowsy (k : Kernel) (path : Option CString) :
  Drowsy k (k.woosSystemSpawn path).1
  := by
  cases path with
  | none => apply Drowsy.refl
  | some path =>
      rw [woosSystemSpawn]
      split
      · apply Drowsy.refl
      · split
        · apply spawnNew_drowsy
        · next i _ =>
            dsimp only
            have hfront := k.woosGraphicsBringThreadToFront_drowsy (k.sched.threads i).id.toUInt32
            split
            · exact hfront
            · apply hfront.trans
              apply (endThread_drowsy _ i).trans
              apply spawnNew_drowsy

/-! ### Messages -/

/-- A message that is sent wakes all threads. -/
theorem ipcSend_drowsy (k : Kernel) (destId type arg1 arg2 arg3 arg4 arg5 : UInt32) :
  Drowsy k (k.ipcSend destId type arg1 arg2 arg3 arg4 arg5)
  := by
  rw [ipcSend]
  split
  · apply drowsy_of_awake
    intro i hi
    have hstate := k.sched.wake_state true i
    rw [Sched.wake, if_pos rfl] at hstate
    show k.sched.schedUnblockAll.state i ≠ .blocked
    rw [hstate]
    split
    case isTrue =>
      intro hcon
      cases hcon
    case isFalse hnot => exact fun hblocked => hnot ⟨rfl, hi, hblocked⟩
  · next hfull =>
      rw [woosIpcSend] at hfull ⊢
      split
      case isTrue => apply Drowsy.refl
      case isFalse hroom => simp [hroom] at hfull

theorem ipcRecv_drowsy (k : Kernel) :
  Drowsy k k.ipcRecv.1
  := by
  intro i hi hstate
  refine ⟨hi, hstate, rfl, ?_, fun hzero => hzero⟩
  intro msg hmsg
  have hcontents : (woosIpcRecv k.ipc k.sched.schedCurrentThreadId).2.contents
      = k.ipc.contents.eraseP (fun msg => msg.destId = k.sched.schedCurrentThreadId) :=
    (congrArg Prod.snd (woosIpcRecv_refines k.ipc k.sched.schedCurrentThreadId)).symm
  have hmem : msg ∈ (woosIpcRecv k.ipc k.sched.schedCurrentThreadId).2.contents := hmsg
  rw [hcontents] at hmem
  apply List.mem_of_mem_eraseP hmem

/-- No call of the kernel fills a queue and leaves a thread blocked. -/
theorem call_drowsy {c : Call} {r : Kernel × UInt64} (hc : c.foreign = false)
    (h : k.call c = some r) :
  Drowsy k r.1
  := by
  cases c with
  | timer rsp =>
      obtain rfl := Option.some.inj h
      apply scheduleInterrupt_drowsy
  | yield rsp =>
      obtain rfl := Option.some.inj h
      apply threadYield_drowsy
  | irq events rsp =>
      obtain rfl := Option.some.inj h
      apply scheduleIrq_drowsy
  | block rsp => cases hc
  | unblockAll =>
      obtain rfl := Option.some.inj h
      apply (schedUnblockAll_wakes k).drowsy
  | exit rsp => apply threadExit_drowsy h
  | threadCreate entryPoint =>
      obtain rfl := Option.some.inj h
      apply threadCreate_drowsy
  | processCreate =>
      obtain rfl := Option.some.inj h
      apply processCreate_drowsy
  | spawn path =>
      obtain rfl := Option.some.inj h
      apply woosSystemSpawn_drowsy
  | send destId type arg1 arg2 arg3 arg4 arg5 =>
      obtain rfl := Option.some.inj h
      apply ipcSend_drowsy
  | recv =>
      obtain rfl := Option.some.inj h
      apply ipcRecv_drowsy
  | other k' => cases hc

/-- A thread that a call makes is not blocked. -/
theorem made_awake {c : Call} {r : Kernel × UInt64} {i : Nat} (hmade : k.made c = some i)
    (h : k.call c = some r) :
  r.1.sched.state i ≠ .blocked
  := by
  have hready {slot : Nat} {t : Thread} {k₀ k₁ : Kernel} (hcreates : Creates slot t k₀ k₁) :
      k₁.sched.state slot ≠ .blocked := by
    rw [hcreates.state, if_pos rfl]
    nofun
  cases c with
  | threadCreate entryPoint =>
      obtain rfl := Option.some.inj h
      rcases k.threadCreate_cases entryPoint with ⟨hnone, -⟩ | ⟨hsome, -, t, hcreates, -⟩
      · rw [made, hnone] at hmade
        cases hmade
      · rw [made, hsome] at hmade
        cases hmade
        exact hready hcreates
  | processCreate =>
      obtain rfl := Option.some.inj h
      rcases k.processCreate_cases with ⟨hnone, -⟩ | ⟨hsome, -, t, hcreates⟩
      · rw [made, hnone] at hmade
        cases hmade
      · rw [made, hsome] at hmade
        cases hmade
        exact hready hcreates
  | spawn path =>
      obtain rfl := Option.some.inj h
      cases path with
      | none => cases hmade
      | some path =>
          rw [made, spawnMade] at hmade
          rcases k.woosSystemSpawn_cases path with ⟨hnone, -⟩ | ⟨s, hsome, heq⟩
          · rw [hnone] at hmade
            cases hmade
          · rw [hsome, Option.bind_some] at hmade
            show (k.woosSystemSpawn (some path)).1.sched.state i ≠ .blocked
            rw [heq]
            rcases spawnNew_cases { k with sched := s } path
              with ⟨hnone, -⟩ | ⟨hmade', -, t, hcreates, -⟩
            · rw [hnone] at hmade
              cases hmade
            · rw [hmade'] at hmade
              cases hmade
              exact hready hcreates
  | _ => cases hmade

end

end Kernel

namespace Waits

open Kernel (Call EmptyFor testEmpty Drowsy)

variable {s s' : Waits}

/-- A step that fills no queue keeps the threads attentive, when it leaves the points of those that
are blocked. -/
theorem Attentive.drowsy (h : s.Attentive) (hdrowsy : Drowsy s.kernel s'.kernel)
    (hpoint : ∀ i < s'.kernel.sched.numThreads, s'.kernel.sched.state i = .blocked →
      s'.point i = s.point i) :
  s'.Attentive
  := by
  intro i hi hstate
  obtain ⟨hi', hstate', -⟩ := hdrowsy i hi hstate
  obtain ⟨q, hq, hempty⟩ := h i hi' hstate'
  use q
  rw [hpoint i hi hstate]
  exact ⟨hq, hdrowsy.emptyFor hi hstate hempty⟩

theorem inputPop_size (q : InputQueue) (h : q.size = 0) :
  q.inputPop.2.size = 0
  := by
  rw [InputQueue.inputPop, if_pos h]
  exact h

/-- Which messages are for a thread does not depend on the states of the threads. -/
theorem emptyFor_setState {k : Kernel} {i j : Nat} {st : ThreadState} {q : WaitQueue}
    (h : EmptyFor k i q) :
  EmptyFor { k with sched := k.sched.setState j st } i q
  := by
  cases q with
  | events => exact h
  | messages =>
      have hid : ((k.sched.setState j st).threads i).id = (k.sched.threads i).id := by
        rcases eq_or_ne i j with rfl | hne
        · rw [Sched.setState, Sched.modify_threads_self]
        · rw [Sched.setState, Sched.modify_threads_ne _ _ hne]
      intro msg hmsg
      rw [hid]
      apply h msg hmsg

/-- A step keeps the threads attentive, when the current one marks itself in time. -/
theorem Attentive.step (h : s.Attentive) {a : Step} (hintime : s.InTime a)
    (hs : s.step a = some s') :
  s'.Attentive
  := by
  cases a with
  | call c =>
      rw [Waits.step] at hs
      split at hs
      case isTrue => cases hs
      case isFalse hforeign =>
        obtain ⟨k, hk, rfl⟩ := Option.map_eq_some_iff.mp hs
        obtain ⟨r, hr, rfl⟩ := Option.map_eq_some_iff.mp hk
        apply h.drowsy (Kernel.call_drowsy (Bool.not_eq_true _ |>.mp hforeign) hr)
        intro i _ hstate
        have hmade : s.kernel.made c ≠ some i := fun hmade => Kernel.made_awake hmade hr hstate
        exact if_neg hmade
  | outside k' =>
      obtain rfl := Option.some.inj hs
      apply h.drowsy (Kernel.drowsy_of_sched rfl rfl rfl)
      exact fun _ _ _ => rfl
  | pop =>
      obtain rfl := Option.some.inj hs
      apply h.drowsy
      · exact fun i hi hstate => ⟨hi, hstate, rfl, fun _ hmsg => hmsg, inputPop_size _⟩
      · exact fun _ _ _ => rfl
  | windowChanged =>
      obtain rfl := Option.some.inj hs
      apply h.drowsy (Kernel.windowChanged_wakes s.kernel).drowsy
      exact fun _ _ _ => rfl
  | test q =>
      rw [Waits.step] at hs
      split at hs
      case isTrue => cases hs
      case isFalse hbusy =>
        obtain rfl := Option.some.inj hs
        refine h.drowsy (Drowsy.refl s.kernel) ?_
        intro i _ hstate
        have hne : i ≠ s.kernel.sched.current := by
          rintro rfl
          apply hbusy
          rw [busy, decide_eq_true hstate, Bool.or_true]
        exact Function.update_of_ne hne _ _
  | mark =>
      rw [Waits.step] at hs
      cases hpoint : s.point s.kernel.sched.current with
      | outside => simp [hpoint] at hs
      | blocked q => simp [hpoint] at hs
      | tested q =>
          simp only [hpoint, Option.some.injEq] at hs
          subst hs
          intro i hi hstate
          by_cases hcurrent : i = s.kernel.sched.current
          · subst hcurrent
            use q, Function.update_self _ _ _
            apply emptyFor_setState
            exact hintime q hpoint
          · rw [Sched.setState_state_ne _ _ hcurrent] at hstate
            obtain ⟨q', hq', hempty⟩ := h i hi hstate
            use q'
            constructor
            · rw [← hq']
              exact Function.update_of_ne hcurrent _ _
            · apply emptyFor_setState hempty

theorem init_attentive (k : Kernel) :
  (init k).Attentive
  := by
  intro i hi hstate
  obtain rfl : i = 0 := Nat.lt_one_iff.mp hi
  exact absurd hstate (Kernel.schedInit_main k).state_zero_ne.1

/-- In every run in which threads mark themselves in time, every thread that is blocked is in a wait
function, and its queue is empty for it. -/
theorem no_lost_wake_up (k : Kernel) (steps : List Step) {s : Waits}
    (h : Run.Guarded step InTime (init k) steps) (hs : Run.exec step (init k) steps = some s) :
  s.Attentive
  := by
  have hstep (s : Waits) (a : Step) (s' : Waits) (hs : s.Attentive) (ha : s.InTime a)
      (h : s.step a = some s') : s'.Attentive :=
    hs.step ha h
  apply Run.exec_safe hstep (init_attentive k) h hs

/-- The first thread yields to a new one, which finds no events. -/
def waiting : List Step := [.call (.threadCreate 0x9000), .call (.yield 0x8F000), .test .events]

/-- The case of a thread that waits for events when there are none. -/
theorem no_lost_wake_up_events :
  ∃ s, Run.exec step (init Kernel.boot) (waiting ++ [.mark]) = some s ∧ s.Attentive
  := by
  have htested : (Run.exec step (init Kernel.boot) waiting).map
      (fun s => (s.point s.kernel.sched.current, s.kernel.input.size))
        = some (.tested .events, 0) := by
    decide +kernel
  obtain ⟨s, hs, hreads⟩ := Option.map_eq_some_iff.mp htested
  obtain ⟨hpoint, hsize⟩ := Prod.mk.inj hreads
  have hguard : Run.Guarded step InTime (init Kernel.boot) (waiting ++ [.mark]) := by
    apply Run.guarded_concat
    · exact ⟨trivial, fun _ _ => ⟨trivial, fun _ _ => ⟨trivial, fun _ _ => trivial⟩⟩⟩
    · intro s' hs'
      obtain rfl := Option.some.inj (hs.symm.trans hs')
      intro q hq
      obtain rfl : WaitQueue.events = q := WaitPoint.tested.inj (hpoint.symm.trans hq)
      exact hsize
  have hmark : (Run.exec step (init Kernel.boot) (waiting ++ [.mark])).isSome = true := by
    decide +kernel
  obtain ⟨s', hs'⟩ := Option.isSome_iff_exists.mp hmark
  exact ⟨s', hs', no_lost_wake_up Kernel.boot _ hguard hs'⟩

/-- A key that is pressed between the test and the mark leaves the thread blocked. -/
theorem not_no_lost_wake_up :
  ¬ ∀ (k : Kernel) (steps : List Step) (s : Waits),
    Run.exec step (init k) steps = some s → s.Attentive
  := by
  have hlost : (Run.exec step (init Kernel.boot)
      (waiting ++ [.call (.irq [⟨.keyDown, 65, 0, 0⟩] 0x17F000), .mark])).map
        (fun s => (s.kernel.sched.numThreads, s.kernel.sched.state 1, s.kernel.input.size,
          s.point 1)) = some (2, .blocked, 1, .blocked .events) := by
    decide +kernel
  obtain ⟨s, hs, hreads⟩ := Option.map_eq_some_iff.mp hlost
  simp only [Prod.mk.injEq] at hreads
  obtain ⟨hnum, hstate, hsize, hpoint⟩ := hreads
  intro hattentive
  obtain ⟨q, hq, hempty⟩ := hattentive Kernel.boot _ s hs 1 (by omega) hstate
  obtain rfl : WaitQueue.events = q := WaitPoint.blocked.inj (hpoint.symm.trans hq)
  have hzero : s.kernel.input.size = 0 := hempty
  rw [hsize] at hzero
  cases hzero

end Waits
