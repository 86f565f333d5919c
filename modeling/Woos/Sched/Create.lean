import Woos.Sched.Kernel

/-!
# What creating a thread does to the thread table

`Edits slot t k k'` says that a function wrote the entry `t` into the slot of the thread table,
and otherwise changed the memory of pages and the page allocator only.  `createIn_cases` and
`processCreate_cases` say what the two ways to create a thread can do.
-/

namespace Kernel

/-- The function changed the memory of pages, the page allocator, and the entry of a slot of
the thread table, which is `t` now. -/
def Edits (slot : Nat) (t : Thread) (k k' : Kernel) : Prop :=
  ∃ phys pmm defaultFpu, k' = { k with
    phys := phys
    pmm := pmm
    defaultFpu := defaultFpu
    sched := { k.sched with threads := Function.update k.sched.threads slot t } }

/-- The parts of an entry that the allocation of a stack leaves alone. -/
structure KeepsEntry (t u : Thread) : Prop where
  state : u.state = t.state
  id : u.id = t.id
  appPath : u.appPath = t.appPath

/-- The function made the thread `t`, which is ready, in a slot of the thread table. -/
def Creates (slot : Nat) (t : Thread) (k k' : Kernel) : Prop :=
  ∃ k₁, Edits slot t k k₁ ∧ k' = k₁.countThread slot ∧ t.state = .ready ∧ t.id = UInt64.ofNat slot

/-- `thread_create` finds a stack for a slot. -/
def stackFound (k : Kernel) (slot : Nat) : Bool :=
  (((k.releaseSpace slot).releaseStack slot).allocStack slot).2

/-- The slot in which `thread_create` makes a thread, if it does. -/
def threadMade (k : Kernel) : Option Nat :=
  if k.sched.freeSlot < Sched.maxThreads ∧ k.stackFound k.sched.freeSlot = true then
    some k.sched.freeSlot
  else none

/-- The slot in which `process_create` makes a thread, if it does. -/
def processMade (k : Kernel) : Option Nat :=
  if k.sched.numThreads < Sched.maxThreads
      ∧ (processMemory k.image k.kernelPml4 k.phys k.pmm).2.2.isSome = true then
    some k.sched.numThreads
  else none

section

variable {slot : Nat} {t u : Thread} {k k' k'' : Kernel}

theorem KeepsEntry.trans {t u v : Thread} (h : KeepsEntry t u) (h' : KeepsEntry u v) :
  KeepsEntry t v
  := ⟨h'.state.trans h.state, h'.id.trans h.id, h'.appPath.trans h.appPath⟩

theorem Edits.trans (h : Edits slot t k k') (h' : Edits slot u k' k'') :
  Edits slot u k k''
  := by
  obtain ⟨phys, pmm, fpu, rfl⟩ := h
  obtain ⟨phys', pmm', fpu', rfl⟩ := h'
  use phys', pmm', fpu'
  simp only [Function.update_idem]

theorem Edits.thread (h : Edits slot t k k') :
  k'.sched.threads slot = t
  := by
  obtain ⟨phys, pmm, fpu, rfl⟩ := h
  exact Function.update_self _ _ _

theorem Edits.threads (h : Edits slot t k k') :
  k'.sched.threads = Function.update k.sched.threads slot t
  := by
  obtain ⟨phys, pmm, fpu, rfl⟩ := h
  rfl

theorem Edits.refl (k : Kernel) (slot : Nat) :
  Edits slot (k.sched.threads slot) k k
  := by
  use k.phys, k.pmm, k.defaultFpu
  rw [Function.update_eq_self]

theorem modify_edits (k : Kernel) (slot : Nat) (f : Thread → Thread) (phys : Memory) (pmm : Pmm)
    (defaultFpu : Option FpuArea) :
  Edits slot (f (k.sched.threads slot)) k
    { k with
      phys := phys
      pmm := pmm
      defaultFpu := defaultFpu
      sched := k.sched.modify slot f }
  := ⟨phys, pmm, defaultFpu, rfl⟩

theorem releaseSpace_edits (k : Kernel) (slot : Nat) :
  ∃ t, Edits slot t k (k.releaseSpace slot) ∧ KeepsEntry (k.sched.threads slot) t
  := by
  rw [releaseSpace]
  split
  · exact ⟨_, ⟨k.phys, _, k.defaultFpu, rfl⟩, ⟨rfl, rfl, rfl⟩⟩
  · exact ⟨_, Edits.refl k slot, ⟨rfl, rfl, rfl⟩⟩

theorem releaseStack_edits (k : Kernel) (slot : Nat) :
  ∃ t, Edits slot t k (k.releaseStack slot) ∧ KeepsEntry (k.sched.threads slot) t
  := by
  rw [releaseStack]
  split
  · exact ⟨_, ⟨k.phys, _, k.defaultFpu, rfl⟩, ⟨rfl, rfl, rfl⟩⟩
  · exact ⟨_, Edits.refl k slot, ⟨rfl, rfl, rfl⟩⟩

theorem allocStack_edits (k : Kernel) (slot : Nat) :
  ∃ t, Edits slot t k (k.allocStack slot).1 ∧ KeepsEntry (k.sched.threads slot) t
  := by
  rw [allocStack]
  split
  · dsimp only
    split
    · use k.sched.threads slot
      constructor
      · use k.phys, (k.pmm.pmmAllocPagesMulti Sched.threadStackPages).1, k.defaultFpu
        rw [Function.update_eq_self]
      · exact ⟨rfl, rfl, rfl⟩
    · exact ⟨_, ⟨k.phys, _, k.defaultFpu, rfl⟩, ⟨rfl, rfl, rfl⟩⟩
  · exact ⟨_, Edits.refl k slot, ⟨rfl, rfl, rfl⟩⟩

/-- The stack of a slot, allocated when there is none. -/
theorem stack_edits (k : Kernel) (slot : Nat) :
  ∃ t, Edits slot t k (((k.releaseSpace slot).releaseStack slot).allocStack slot).1
    ∧ KeepsEntry (k.sched.threads slot) t
  := by
  obtain ⟨t₁, h₁, hkeeps₁⟩ := releaseSpace_edits k slot
  obtain ⟨t₂, h₂, hkeeps₂⟩ := releaseStack_edits (k.releaseSpace slot) slot
  obtain ⟨t₃, h₃, hkeeps₃⟩ := allocStack_edits ((k.releaseSpace slot).releaseStack slot) slot
  rw [h₁.thread] at hkeeps₂
  rw [h₂.thread] at hkeeps₃
  exact ⟨t₃, (h₁.trans h₂).trans h₃, (hkeeps₁.trans hkeeps₂).trans hkeeps₃⟩

theorem buildContext_edits (k : Kernel) (slot : Nat) (entryPoint : UInt64) :
  ∃ t, Edits slot t k (k.buildContext slot entryPoint) ∧ t.id = UInt64.ofNat slot
    ∧ t.state = (k.sched.threads slot).state ∧ t.appPath = (k.sched.threads slot).appPath
  := ⟨_, ⟨_, k.pmm, k.defaultFpu, rfl⟩, rfl, rfl, rfl⟩

theorem setReady_edits (k : Kernel) (slot : Nat) :
  ∃ t, Edits slot t k { k with sched := k.sched.setState slot .ready } ∧ t.state = .ready
    ∧ t.id = (k.sched.threads slot).id ∧ t.appPath = (k.sched.threads slot).appPath
  := ⟨_, ⟨k.phys, k.pmm, k.defaultFpu, rfl⟩, rfl, rfl, rfl⟩

theorem finishThread_edits (k : Kernel) (slot : Nat) :
  ∃ t, Edits slot t k (k.finishThread slot) ∧ KeepsEntry (k.sched.threads slot) t
  := ⟨_, ⟨k.phys, k.pmm, _, rfl⟩, ⟨rfl, rfl, rfl⟩⟩

/-- `thread_create` in a slot fails, without an effect on the state, the id and the path of the
slot, or makes a thread there. -/
theorem createIn_cases (k : Kernel) (slot : Nat) (entryPoint : UInt64) :
  (k.stackFound slot = false ∧ ∃ t, Edits slot t k (k.createIn slot entryPoint)
      ∧ KeepsEntry (k.sched.threads slot) t)
    ∨ (k.stackFound slot = true ∧ ∃ t, Creates slot t k (k.createIn slot entryPoint)
      ∧ t.appPath = (k.sched.threads slot).appPath)
  := by
  obtain ⟨t₁, h₁, hkeeps⟩ := stack_edits k slot
  rw [createIn, stackFound]
  split
  case h_1 k₁ hstack =>
    rw [hstack] at h₁ ⊢
    exact Or.inl ⟨rfl, t₁, h₁, hkeeps⟩
  case h_2 k₁ hstack =>
    rw [hstack] at h₁ ⊢
    obtain ⟨t₂, h₂, hid₂, hstate₂, hpath₂⟩ := buildContext_edits k₁ slot entryPoint
    obtain ⟨t₃, h₃, hstate₃, hid₃, hpath₃⟩ := setReady_edits (k₁.buildContext slot entryPoint) slot
    obtain ⟨t₄, h₄, hkeeps₄⟩ := finishThread_edits
      { k₁.buildContext slot entryPoint with
        sched := (k₁.buildContext slot entryPoint).sched.setState slot .ready } slot
    rw [h₁.thread] at hpath₂
    rw [h₂.thread] at hid₃ hpath₃
    rw [h₃.thread] at hkeeps₄
    right
    refine ⟨rfl, t₄, ⟨_, ((h₁.trans h₂).trans h₃).trans h₄, rfl, ?_, ?_⟩, ?_⟩
    · rw [hkeeps₄.state, hstate₃]
    · rw [hkeeps₄.id, hid₃, hid₂]
    · rw [hkeeps₄.appPath, hpath₃, hpath₂, hkeeps.appPath]

/-- `thread_create` fails, without an effect on the thread table that matters to others, or
makes a thread in the free slot. -/
theorem threadCreate_cases (k : Kernel) (entryPoint : UInt64) :
  (k.threadMade = none ∧ ∃ t, Edits k.sched.freeSlot t k (k.threadCreate entryPoint)
      ∧ KeepsEntry (k.sched.threads k.sched.freeSlot) t)
    ∨ (k.threadMade = some k.sched.freeSlot ∧ k.sched.freeSlot < Sched.maxThreads
      ∧ ∃ t, Creates k.sched.freeSlot t k (k.threadCreate entryPoint)
        ∧ t.appPath = (k.sched.threads k.sched.freeSlot).appPath)
  := by
  rw [threadCreate, threadMade]
  by_cases hfull : Sched.maxThreads ≤ k.sched.freeSlot
  · rw [if_pos hfull, if_neg (fun hcon => Nat.not_lt.mpr hfull hcon.1)]
    exact Or.inl ⟨rfl, _, Edits.refl k _, ⟨rfl, rfl, rfl⟩⟩
  · have hroom := Nat.not_le.mp hfull
    rw [if_neg hfull]
    rcases createIn_cases k k.sched.freeSlot entryPoint with ⟨hno, hedits⟩ | ⟨hfound, hcreates⟩
    · rw [hno, if_neg (fun hcon => nomatch hcon.2)]
      exact Or.inl ⟨rfl, hedits⟩
    · rw [if_pos ⟨hroom, hfound⟩]
      exact Or.inr ⟨rfl, hroom, hcreates⟩

theorem processThread_ready (t : Thread) (slot : Nat) (pml4 kernelStackPage : UInt64) :
  (processThread t slot pml4 kernelStackPage).state = .ready
    ∧ (processThread t slot pml4 kernelStackPage).id = UInt64.ofNat slot
  := by
  rw [processThread]
  exact ⟨rfl, rfl⟩

theorem addProcess_creates (k : Kernel) (phys : Memory) (pmm : Pmm) (pml4 kernelStackPage : UInt64) :
  ∃ t, Creates k.sched.numThreads t k
    (addProcess { k with phys := phys, pmm := pmm } pml4 kernelStackPage)
  := by
  have hedits := modify_edits k k.sched.numThreads
    (fun t => processThread t k.sched.numThreads pml4 kernelStackPage)
    (storeContext phys (kernelStackPage + stackSize - contextSize) 0x100000000 0x33 0x202
      0x100002000 0x2B) pmm k.defaultFpu
  refine ⟨_, _, hedits, ?_, processThread_ready _ _ _ _⟩
  exact (if_pos rfl).symm

/-- `process_create` fails, without an effect on the thread table, or makes a thread behind
it. -/
theorem processCreate_cases (k : Kernel) :
  (k.processMade = none ∧ ∃ t, Edits k.sched.numThreads t k k.processCreate
      ∧ KeepsEntry (k.sched.threads k.sched.numThreads) t)
    ∨ (k.processMade = some k.sched.numThreads ∧ k.sched.numThreads < Sched.maxThreads
      ∧ ∃ t, Creates k.sched.numThreads t k k.processCreate)
  := by
  rw [processCreate, processMade]
  by_cases hfull : Sched.maxThreads ≤ k.sched.numThreads
  · rw [if_pos hfull, if_neg (fun hcon => Nat.not_lt.mpr hfull hcon.1)]
    exact Or.inl ⟨rfl, _, Edits.refl k _, ⟨rfl, rfl, rfl⟩⟩
  · have hroom := Nat.not_le.mp hfull
    rw [if_neg hfull]
    rcases hmemory : processMemory k.image k.kernelPml4 k.phys k.pmm
      with ⟨phys, pmm, _ | ⟨pml4, kernelStackPage⟩⟩
    · rw [if_neg (fun hcon => nomatch hcon.2)]
      refine Or.inl ⟨rfl, k.sched.threads k.sched.numThreads, ⟨phys, pmm, k.defaultFpu, ?_⟩,
        ⟨rfl, rfl, rfl⟩⟩
      rw [Function.update_eq_self]
    · rw [if_pos ⟨hroom, rfl⟩]
      obtain ⟨t, ht⟩ := addProcess_creates k phys pmm pml4 kernelStackPage
      exact Or.inr ⟨rfl, hroom, t, ht⟩

/-! ### The thread that was made -/

theorem Creates.numThreads (h : Creates slot t k k') :
  k'.sched.numThreads = if slot = k.sched.numThreads then k.sched.numThreads + 1
    else k.sched.numThreads
  := by
  obtain ⟨k₁, ⟨phys, pmm, fpu, rfl⟩, rfl, -⟩ := h
  rw [countThread]
  split
  · rfl
  · rfl

theorem Creates.threads (h : Creates slot t k k') :
  k'.sched.threads = Function.update k.sched.threads slot t
  := by
  obtain ⟨k₁, ⟨phys, pmm, fpu, rfl⟩, rfl, -⟩ := h
  rw [countThread]
  split
  · rfl
  · rfl

/-- Making a thread changes no more than its slot and the number of threads. -/
theorem Creates.rest (h : Creates slot t k k') :
  k'.sched.current = k.sched.current ∧ k'.sched.ready = k.sched.ready ∧ k'.cpu = k.cpu
    ∧ k'.heap = k.heap ∧ k'.windows = k.windows ∧ k'.input = k.input ∧ k'.ipc = k.ipc
  := by
  obtain ⟨k₁, ⟨phys, pmm, fpu, rfl⟩, rfl, -⟩ := h
  rw [countThread]
  split
  · exact ⟨rfl, rfl, rfl, rfl, rfl, rfl, rfl⟩
  · exact ⟨rfl, rfl, rfl, rfl, rfl, rfl, rfl⟩

theorem Creates.state (h : Creates slot t k k') (i : Nat) :
  k'.sched.state i = if i = slot then .ready else k.sched.state i
  := by
  rw [Sched.state, h.threads, Function.update_apply]
  obtain ⟨-, -, -, hready, -⟩ := h
  split
  · exact hready
  · rfl

theorem Edits.state (h : Edits slot t k k') (hkeeps : KeepsEntry (k.sched.threads slot) t) (i : Nat) :
  k'.sched.state i = k.sched.state i
  := by
  rw [Sched.state, h.threads, Function.update_apply]
  split
  case isTrue heq =>
    rw [hkeeps.state, heq]
    rfl
  case isFalse => rfl

end

end Kernel
