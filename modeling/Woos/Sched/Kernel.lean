import Woos.Ipc
import Woos.Input
import Woos.Vmm.Basic
import Woos.Sched.Table
import Woos.Window.Buffers

/-!
# The kernel

`Kernel` puts the scheduler together with what its functions use: the kernel heap and the
windows, physical memory and the page allocator, the address space and the stacks installed in
the processor, the timer, and the queues of input events and messages.  The functions of
`sched.c` are here as the code computes them, each as one step.  `thread_create` is also given
in the parts of which it is made.

The kernel heap lies in a range of addresses that the page allocator never hands out, so that
the memory of the heap and that of the pages are kept apart.
-/

/-- What a switch between threads installs: `cr3`, the kernel stack in the task state segment,
`g_current_kernel_stack_top`, and the floating-point registers. -/
structure Cpu where
  cr3 : UInt64
  rsp0 : UInt64
  kernelStackTop : UInt64
  fpu : FpuArea

/-- `g_tick_hz` and `g_ticks` -/
structure Timer where
  tickHz : UInt32
  ticks : UInt32

/-- The number of ticks between the events of `timer_handler`. -/
def Timer.divisor (timer : Timer) : UInt32 :=
  if timer.tickHz / 2 = 0 then 1 else timer.tickHz / 2

/-- The state of the kernel.  `runnerEntry` is the address of `wasm_dynamic_runner_thread`,
and `defaultFpu` the area that the first call of `thread_create` saves. -/
structure Kernel where
  image : KernelImage
  runnerEntry : UInt64
  heap : KHeap
  windows : WindowStack
  phys : Memory
  pmm : Pmm
  kernelPml4 : UInt64
  sched : Sched
  cpu : Cpu
  timer : Timer
  input : InputQueue
  ipc : IpcQueue
  defaultFpu : Option FpuArea

namespace Kernel

/-! ### Waking threads -/

/-- `sched_unblock_all` -/
def schedUnblockAll (k : Kernel) : Kernel :=
  { k with sched := k.sched.schedUnblockAll }

/-- `input_push` -/
def inputPush (k : Kernel) (event : InputEvent) : Kernel :=
  match k.input.inputPush event with
  | (true, input) => schedUnblockAll { k with input := input }
  | (false, input) => { k with input := input }

/-- The event and the waking of all threads with which a window call ends. -/
def windowChanged (k : Kernel) : Kernel :=
  (k.inputPush ⟨.windowChange, 0, 0, 0⟩).schedUnblockAll

/-- `timer_handler` -/
def timerHandler (k : Kernel) : Kernel :=
  let ticks := k.timer.ticks + 1
  let k := { k with timer := { k.timer with ticks := ticks } }
  if ticks % k.timer.divisor = 0 then k.inputPush ⟨.timerTick, 0, 0, 0⟩ else k

/-! ### Switching -/

/-- `vmm_switch`: the table that is installed. -/
def vmmSwitch (k : Kernel) (pml4 : UInt64) : UInt64 :=
  if pml4 = 0 then k.kernelPml4 else pml4

/-- The part of the schedule functions that saves the frame of the current thread. -/
def saveCurrent (s : Sched) (currentRsp : UInt64) : Sched :=
  let s := s.modify s.current (fun t => { t with rsp := currentRsp })
  if s.state s.current = .running then s.setState s.current .ready else s

/-- The end of the schedule functions: the switch to the thread `next`, and its frame. -/
def switchTo (k : Kernel) (next : Nat) : Kernel × UInt64 :=
  let s := k.sched.modify k.sched.current (fun t => { t with fpuState := k.cpu.fpu })
  let s := { s.setState next .running with current := next }
  let t := s.threads next
  let cpu : Cpu := ⟨k.vmmSwitch t.cr3, t.kernelStackTop, t.kernelStackTop, t.fpuState⟩
  ({ k with sched := s, cpu := cpu }, t.rsp)

/-- The part of `schedule_interrupt` after the timer: the frame to return to, `0` for the one
that was interrupted. -/
def roundRobin (k : Kernel) (currentRsp : UInt64) : Kernel × UInt64 :=
  if k.sched.ready = false ∨ k.sched.numThreads ≤ 1 then
    (k, 0)
  else
    let s := saveCurrent k.sched currentRsp
    let next := s.nextReady s.numThreads ((s.current + 1) % s.numThreads)
    if s.state next ≠ .ready then
      ({ k with sched := s.setState s.current .running }, 0)
    else
      switchTo { k with sched := s } next

/-- `schedule_interrupt` -/
def scheduleInterrupt (k : Kernel) (currentRsp : UInt64) : Kernel × UInt64 :=
  let k := if k.sched.isYield then k else k.timerHandler
  roundRobin { k with sched := { k.sched with isYield := false } } currentRsp

/-- The part of `schedule_irq` after the handler. -/
def switchToBest (k : Kernel) (currentRsp : UInt64) : Kernel × UInt64 :=
  if k.sched.ready = false ∨ k.sched.numThreads ≤ 1 then
    (k, 0)
  else
    let best := k.sched.bestReady
    if best = k.sched.current then
      (k, 0)
    else
      switchTo { k with sched := saveCurrent k.sched currentRsp } best

/-- `schedule_irq` for an interrupt whose handler pushes the given input events. -/
def scheduleIrq (k : Kernel) (events : List InputEvent) (currentRsp : UInt64) : Kernel × UInt64 :=
  switchToBest (events.foldl inputPush k) currentRsp

/-- The first step of `thread_yield`. -/
def setYield (k : Kernel) : Kernel :=
  { k with sched := { k.sched with isYield := true } }

/-- `thread_yield`, whose frame is at `currentRsp` -/
def threadYield (k : Kernel) (currentRsp : UInt64) : Kernel × UInt64 :=
  k.setYield.scheduleInterrupt currentRsp

/-! ### Windows -/

/-- What the window calls change. -/
def winMgr (k : Kernel) : WinMgr := ⟨k.heap, k.windows⟩

/-- `woos_graphics_destroy_window` -/
def woosGraphicsDestroyWindow (k : Kernel) (windowId : UInt32) : Option (Kernel × Int32) := do
  let (m, r) ← k.winMgr.woosGraphicsDestroyWindow windowId
  let k := { k with heap := m.heap, windows := m.stack }
  some (if r = 0 then k.windowChanged else k, r)

/-- The loop of `woos_graphics_destroy_thread_windows`. -/
def destroyLoop (threadId : UInt32) : Nat → Kernel → Option Kernel
  | 0, _ => none
  | n + 1, k =>
      let targetId := k.windows.topOfThread threadId
      if targetId = 0 then
        some k
      else do
        let (k, _) ← k.woosGraphicsDestroyWindow targetId
        destroyLoop threadId n k

/-- `woos_graphics_destroy_thread_windows`; its count is not used. -/
def woosGraphicsDestroyThreadWindows (k : Kernel) (threadId : UInt32) : Option Kernel :=
  destroyLoop threadId (k.windows.windows.length + 1) k

/-- `woos_graphics_bring_to_front` -/
def woosGraphicsBringToFront (k : Kernel) (windowId : UInt32) : Kernel × Int32 :=
  match k.windows.bringToFront windowId with
  | none => (k, -1)
  | some windows => ({ k with windows := windows }.windowChanged, 0)

/-- `woos_graphics_bring_thread_to_front` -/
def woosGraphicsBringThreadToFront (k : Kernel) (threadId : UInt32) : Kernel × Int32 :=
  let targetId := k.windows.bottomOfThread threadId
  if targetId ≠ 0 then k.woosGraphicsBringToFront targetId else (k, -1)

/-! ### Blocking and exit -/

/-- `sched_block_current` -/
def schedBlockCurrent (k : Kernel) (currentRsp : UInt64) : Kernel × UInt64 :=
  threadYield { k with sched := k.sched.setState k.sched.current .blocked } currentRsp

/-- The entry of a thread that `thread_exit` or `woos_system_spawn` has ended. -/
def endThread (s : Sched) (i : Nat) : Sched :=
  s.modify i (fun t => { t with state := .terminated, appPath := CString.empty })

/-- `thread_exit` -/
def threadExit (k : Kernel) (currentRsp : UInt64) : Option (Kernel × UInt64) := do
  let k ← k.woosGraphicsDestroyThreadWindows k.sched.schedCurrentThreadId
  let k := { k with sched := endThread k.sched k.sched.current }
  some (k.schedUnblockAll.threadYield currentRsp)

/-! ### Threads -/

/-- Write words, one after the other, from an address on. -/
def storeWords (m : Memory) (a : Nat) : List UInt64 → Memory
  | [] => m
  | v :: vs => storeWords (m.store 8 a v.toNat) (a + 8) vs

/-- Write bytes, one after the other, from an address on. -/
def storeBytes (m : Memory) (a : Nat) : List UInt8 → Memory
  | [] => m
  | v :: vs => storeBytes (Function.update m a v) (a + 1) vs

/-- `sizeof(context_t)` -/
def contextSize : UInt64 := 160

/-- The bytes of a stack. -/
def stackSize : UInt64 := Sched.threadStackPages.toUInt64 * 4096

/-- A context at `ctx`: 15 registers that are zero, and the frame of `iretq`. -/
def storeContext (m : Memory) (ctx rip cs rflags rsp ss : UInt64) : Memory :=
  storeWords m ctx.toNat (List.replicate 15 0 ++ [rip, cs, rflags, rsp, ss])

/-- The part of `thread_create` that frees the address space of a former process. -/
def releaseSpace (k : Kernel) (slot : Nat) : Kernel :=
  let t := k.sched.threads slot
  if t.cr3 ≠ 0 ∧ t.cr3 ≠ k.sched.kernelCr3 then
    { k with
      pmm := Vmm.vmmDestroyAddressSpace k.image k.kernelPml4 k.phys k.pmm t.cr3
      sched := k.sched.modify slot (fun t => { t with cr3 := k.sched.kernelCr3 }) }
  else k

/-- The part of `thread_create` that frees a stack of another size. -/
def releaseStack (k : Kernel) (slot : Nat) : Kernel :=
  let t := k.sched.threads slot
  if t.stackLimit ≠ 0 ∧ t.stackPagesCount ≠ Sched.threadStackPages then
    { k with
      pmm := k.pmm.pmmFreePagesMulti t.stackLimit t.stackPagesCount
      sched := k.sched.modify slot (fun t => { t with stackLimit := 0, stackPagesCount := 0 }) }
  else k

/-- The part of `thread_create` that allocates a stack, unless there is one: whether the thread
has a stack. -/
def allocStack (k : Kernel) (slot : Nat) : Kernel × Bool :=
  if (k.sched.threads slot).stackLimit = 0 then
    let (pmm, stackPages) := k.pmm.pmmAllocPagesMulti Sched.threadStackPages
    if stackPages = 0 then
      ({ k with pmm := pmm }, false)
    else
      ({ k with
        pmm := pmm
        sched := k.sched.modify slot (fun t =>
          { t with stackLimit := stackPages, stackPagesCount := Sched.threadStackPages }) }, true)
  else (k, true)

/-- The part of `thread_create` that sets the id of the thread and builds its context on its
stack. -/
def buildContext (k : Kernel) (slot : Nat) (entryPoint : UInt64) : Kernel :=
  let stackTop := (k.sched.threads slot).stackLimit + stackSize
  let ctx := stackTop - contextSize
  { k with
    phys := storeContext k.phys ctx entryPoint 0x18 0x202 stackTop 0x20
    sched := k.sched.modify slot (fun t => { t with id := UInt64.ofNat slot, rsp := ctx }) }

/-- The part of `thread_create` after the thread has been made ready. -/
def finishThread (k : Kernel) (slot : Nat) : Kernel :=
  let fpu := k.defaultFpu.getD k.cpu.fpu
  { k with
    sched := k.sched.modify slot (fun t =>
      { t with
        cr3 := k.sched.kernelCr3
        kernelStackTop := t.stackLimit + stackSize
        fpuState := fpu })
    defaultFpu := some fpu }

/-- The end of `thread_create`: a thread behind the table becomes part of it. -/
def countThread (k : Kernel) (slot : Nat) : Kernel :=
  if slot = k.sched.numThreads then
    { k with sched := { k.sched with numThreads := k.sched.numThreads + 1 } }
  else k

/-- `thread_create` in a slot that has been chosen. -/
def createIn (k : Kernel) (slot : Nat) (entryPoint : UInt64) : Kernel :=
  match ((k.releaseSpace slot).releaseStack slot).allocStack slot with
  | (k, false) => k
  | (k, true) =>
      let k := k.buildContext slot entryPoint
      let k := { k with sched := k.sched.setState slot .ready }
      (k.finishThread slot).countThread slot

/-- `thread_create` -/
def threadCreate (k : Kernel) (entryPoint : UInt64) : Kernel :=
  if Sched.maxThreads ≤ k.sched.freeSlot then k else k.createIn k.sched.freeSlot entryPoint

/-! ### Processes -/

/-- `user_code` of `process_create` -/
def userCode : List UInt8 :=
  [0xb8, 0x01, 0x00, 0x00, 0x00,
    0xbf, 0x01, 0x00, 0x00, 0x00,
    0x48, 0xbe, 0x40, 0x00, 0x00, 0x00, 0x01, 0x00, 0x00, 0x00,
    0xba, 0x13, 0x00, 0x00, 0x00,
    0x0f, 0x05,
    0xb8, 0x3c, 0x00, 0x00, 0x00,
    0xbf, 0x00, 0x00, 0x00, 0x00,
    0x0f, 0x05]

/-- The bytes of "Hello from Ring 3!\n". -/
def userMessage : List UInt8 :=
  [72, 101, 108, 108, 111, 32, 102, 114, 111, 109, 32, 82, 105, 110, 103, 32, 51, 33, 10]

/-- The flags of the pages of a process. -/
def userPage : UInt64 := Vmm.pageUser ||| Vmm.pageWritable ||| Vmm.pagePresent

/-- The part of `process_create` that makes the address space of the process: the memory, the
page allocator, the table and the kernel stack of the process, when there are enough
pages. -/
def processMemory (image : KernelImage) (kernelPml4 : UInt64) (m : Memory) (pmm : Pmm) :
    Memory × Pmm × Option (UInt64 × UInt64) :=
  let (m, pmm, pml4) := Vmm.vmmCreateAddressSpace image kernelPml4 m pmm
  if pml4 = 0 then
    (m, pmm, none)
  else
    let (pmm, userCodePhys) := pmm.pmmAllocPage
    if userCodePhys = 0 then
      (m, pmm, none)
    else
      let m := m.fill userCodePhys.toNat 0 4096
      let m := storeBytes m userCodePhys.toNat userCode
      let m := storeBytes m (userCodePhys + 0x40).toNat userMessage
      let (m, pmm, _) := Vmm.vmmMapPage kernelPml4 m pmm pml4 0x100000000 userCodePhys userPage
      let (pmm, userStackPhys) := pmm.pmmAllocPage
      if userStackPhys = 0 then
        (m, pmm, none)
      else
        let m := m.fill userStackPhys.toNat 0 4096
        let (m, pmm, _) := Vmm.vmmMapPage kernelPml4 m pmm pml4 0x100001000 userStackPhys userPage
        let (pmm, kernelStackPage) := pmm.pmmAllocPagesMulti Sched.threadStackPages
        if kernelStackPage = 0 then
          (m, pmm, none)
        else
          (m.fill kernelStackPage.toNat 0 stackSize.toNat, pmm, some (pml4, kernelStackPage))

/-- The entry of the thread of a process. -/
def processThread (t : Thread) (slot : Nat) (pml4 kernelStackPage : UInt64) : Thread :=
  { t with
    id := UInt64.ofNat slot
    stackLimit := kernelStackPage
    stackPagesCount := Sched.threadStackPages
    kernelStackTop := kernelStackPage + stackSize
    cr3 := pml4
    rsp := kernelStackPage + stackSize - contextSize
    state := .ready }

/-- The part of `process_create` that makes the thread of the process, behind the table. -/
def addProcess (k : Kernel) (pml4 kernelStackPage : UInt64) : Kernel :=
  let slot := k.sched.numThreads
  let ctx := kernelStackPage + stackSize - contextSize
  let s := k.sched.modify slot (fun t => processThread t slot pml4 kernelStackPage)
  { k with
    phys := storeContext k.phys ctx 0x100000000 0x33 0x202 0x100002000 0x2B
    sched := { s with numThreads := slot + 1 } }

/-- `process_create` -/
def processCreate (k : Kernel) : Kernel :=
  if Sched.maxThreads ≤ k.sched.numThreads then
    k
  else
    match processMemory k.image k.kernelPml4 k.phys k.pmm with
    | (phys, pmm, none) => { k with phys := phys, pmm := pmm }
    | (phys, pmm, some (pml4, kernelStackPage)) =>
        addProcess { k with phys := phys, pmm := pmm } pml4 kernelStackPage

/-! ### Spawning -/

/-- The loop of `woos_system_spawn` that stores the path for the thread in a slot. -/
def storePath (s : Sched) (slot : Nat) (path : CString) : Sched :=
  s.modify slot (fun t => { t with appPath := path.truncate 63 })

/-- The part of `woos_system_spawn` that starts a new thread. -/
def spawnNew (k : Kernel) (path : CString) : Kernel × Int32 :=
  let slot := k.sched.freeSlot
  if Sched.maxThreads ≤ slot then
    (k, -1)
  else
    (threadCreate { k with sched := storePath k.sched slot path } k.runnerEntry, 0)

/-- The search of `woos_system_spawn` for a thread that runs the path. -/
def findInstance (s : Sched) (path : CString) : Option Nat :=
  s.findInstance path (s.numThreads - 1) 1

/-- `woos_system_spawn` -/
def woosSystemSpawn (k : Kernel) : Option CString → Kernel × Int32
  | none => (k, -1)
  | some path =>
      if path = CString.empty then
        (k, -1)
      else
        match findInstance k.sched path with
        | none => k.spawnNew path
        | some i =>
            let (k, r) := k.woosGraphicsBringThreadToFront (k.sched.threads i).id.toUInt32
            if r = 0 then
              (k, 0)
            else
              spawnNew { k with sched := endThread k.sched i } path

/-! ### Initialization -/

/-- `sched_init`, with the value of `cr3` and the floating-point registers of the processor -/
def schedInit (k : Kernel) : Kernel :=
  let main := { k.sched.threads 0 with
    id := 0
    rsp := 0
    state := .running
    stackLimit := 0
    cr3 := k.cpu.cr3
    kernelStackTop := 0x0009F000
    fpuState := k.cpu.fpu }
  { k with
    sched := { k.sched with
      threads := Function.update k.sched.threads 0 main
      numThreads := 1
      current := 0
      ready := true
      kernelCr3 := k.cpu.cr3 }
    cpu := { k.cpu with kernelStackTop := 0x0009F000 } }

/-- An entry of the thread table at boot. -/
def zeroThread : Thread where
  rsp := 0
  id := 0
  state := .ready
  stackLimit := 0
  stackPagesCount := 0
  cr3 := 0
  kernelStackTop := 0
  appPath := CString.empty
  fpuState := fun _ => 0

/-- A page allocator for which all pages from the second megabyte on are free. -/
def upperPages : Pmm where
  lastSearchIdx := 0
  totalPages := 131072
  freePages := 130816
  ready := true
  bitmap := fun i => if i < 32 then 0xFF else 0

/-- The image of the kernel ends with the first megabyte. -/
theorem image_stop_lt :
  (0x100000 : UInt64).toNat + 4096 < 2 ^ 64
  := by
  decide

/-- A kernel at boot, before `sched_init`: the data of the scheduler is zero. -/
def boot : Kernel where
  image := ⟨0x8000, 0x100000, image_stop_lt⟩
  runnerEntry := 0x9000
  heap := KHeap.kheapInit (fun _ => 0)
  windows := WindowStack.init
  phys := fun _ => 0
  pmm := upperPages
  kernelPml4 := 0x1000
  sched := ⟨fun _ => zeroThread, 0, 0, false, false, 0⟩
  cpu := ⟨0x1000, 0, 0, fun _ => 0⟩
  timer := ⟨100, 0⟩
  input := InputQueue.init (fun _ => ⟨.mouseMove, 0, 0, 0⟩)
  ipc := IpcQueue.init
  defaultFpu := none

end Kernel
