import Woos.Sched.Spawn

/-!
# Messages and the lifetimes of threads

`History` is the kernel together with a clock, the time at which the thread in each slot was
made, and the queued messages with the times at which they were sent.  A thread is addressed by
the number of its slot, which a later thread may get.  As long as no thread ends, and none is
made, while a message for its number is queued, and nothing is sent to a thread that has ended,
threads receive only messages that were sent during their lifetime, and no message for an ended
thread takes room in the queue.
-/

/-- The kernel, with the history of its threads and of the messages in its queue. -/
structure History where
  kernel : Kernel
  clock : Nat
  created : Nat → Nat
  queued : List (IpcMsg × Nat)

namespace History

open Kernel (Call)

/-- The number by which the thread in a slot is addressed. -/
def address (i : Nat) : UInt32 := (UInt64.ofNat i).toUInt32

/-- The message that the current thread receives next, with the time at which it was sent. -/
def next (s : History) : Option (IpcMsg × Nat) :=
  s.queued.find? (fun q => q.1.destId = s.kernel.sched.schedCurrentThreadId)

/-- The queued messages after a call. -/
def record (s : History) : Call → List (IpcMsg × Nat)
  | .send destId type arg1 arg2 arg3 arg4 arg5 =>
      let current := s.kernel.sched.schedCurrentThreadId
      if (woosIpcSend s.kernel.ipc current destId type arg1 arg2 arg3 arg4 arg5).1 = 0 then
        s.queued ++ [(⟨current, destId, type, arg1, arg2, arg3, arg4, arg5⟩, s.clock)]
      else s.queued
  | .recv => s.queued.eraseP (fun q => q.1.destId = s.kernel.sched.schedCurrentThreadId)
  | _ => s.queued

/-- Execute a call. -/
def step (s : History) (c : Call) : Option History :=
  (s.kernel.step c).map (fun k => {
    kernel := k
    clock := s.clock + 1
    created := fun i => if s.kernel.made c = some i then s.clock else s.created i
    queued := s.record c })

/-- The state after `sched_init`, with an empty queue. -/
def init (k : Kernel) : History where
  kernel := { k.schedInit with ipc := IpcQueue.init }
  clock := 0
  created := fun _ => 0
  queued := []

/-- The first thread neither blocks nor exits, and a thread blocks only while it is not
ended. -/
def Permitted (s : History) : Call → Prop
  | .block _ => s.kernel.sched.current ≠ 0
      ∧ s.kernel.sched.state s.kernel.sched.current ≠ .terminated
  | .exit _ => s.kernel.sched.current ≠ 0
  | _ => True

/-- No message for the number of a slot is queued. -/
def Unaddressed (s : History) (i : Nat) : Prop :=
  ∀ msg ∈ s.kernel.ipc.contents, msg.destId ≠ address i

/-- No message for a thread is queued when it ends, none for a slot when a thread is made there,
and none is sent to a thread that has ended. -/
structure Fits (s : History) (c : Call) : Prop where
  made : ∀ i, s.kernel.made c = some i → s.Unaddressed i
  ended : ∀ i, s.kernel.ended c = some i → s.Unaddressed i
  send : ∀ destId type arg1 arg2 arg3 arg4 arg5, c = .send destId type arg1 arg2 arg3 arg4 arg5
    → ∀ i < s.kernel.sched.numThreads, s.kernel.sched.state i = .terminated → destId ≠ address i

/-- The invariant. -/
structure Inv (s : History) : Prop where
  main : s.kernel.sched.Main
  numThreads_le : s.kernel.sched.numThreads ≤ Sched.maxThreads
  id : ∀ i < s.kernel.sched.numThreads, (s.kernel.sched.threads i).id = UInt64.ofNat i
  contents : s.queued.map Prod.fst = s.kernel.ipc.contents
  created_le : ∀ i, s.created i ≤ s.clock
  fresh : ∀ q ∈ s.queued, ∀ i < s.kernel.sched.numThreads, q.1.destId = address i
    → s.created i ≤ q.2
  unended : ∀ q ∈ s.queued, ∀ i < s.kernel.sched.numThreads, s.kernel.sched.state i = .terminated
    → q.1.destId ≠ address i

section

variable {s : History} {k : Kernel} {c : Call}

theorem Inv.current (h : s.Inv) :
  s.kernel.sched.schedCurrentThreadId = address s.kernel.sched.current
  := by
  rw [Sched.schedCurrentThreadId, h.id _ h.main.current_lt]
  rfl

theorem Inv.unaddressed (h : s.Inv) {i : Nat} (hi : s.Unaddressed i) {q : IpcMsg × Nat}
    (hq : q ∈ s.queued) :
  q.1.destId ≠ address i
  := by
  apply hi
  rw [← h.contents]
  apply List.mem_map_of_mem hq

/-- A call that changes the thread table but not the queue keeps the invariant, when the threads
that it makes or ends are not addressed. -/
theorem Inv.table (h : s.Inv) (hmade : ∀ i, s.kernel.made c = some i → s.Unaddressed i)
    (hmain : k.sched.Main) (hnum : k.sched.numThreads ≤ Sched.maxThreads)
    (hid : ∀ i < k.sched.numThreads, (k.sched.threads i).id = UInt64.ofNat i)
    (hipc : k.ipc = s.kernel.ipc)
    (hstate : ∀ i < k.sched.numThreads, s.kernel.made c ≠ some i → i < s.kernel.sched.numThreads
      ∧ (k.sched.state i = .terminated → s.kernel.sched.state i = .terminated ∨ s.Unaddressed i)) :
  Inv {
    kernel := k
    clock := s.clock + 1
    created := fun i => if s.kernel.made c = some i then s.clock else s.created i
    queued := s.queued }
  := by
  constructor
  case main => exact hmain
  case numThreads_le => exact hnum
  case id => exact hid
  case contents =>
    dsimp only
    rw [hipc, h.contents]
  case created_le =>
    intro i
    dsimp only
    split
    · apply Nat.le_succ
    · exact Nat.le_succ_of_le (h.created_le i)
  case fresh =>
    intro q hq i hi hdest
    dsimp only
    split
    case isTrue hm => exact absurd hdest (h.unaddressed (hmade i hm) hq)
    case isFalse hm => exact h.fresh q hq i (hstate i hi hm).1 hdest
  case unended =>
    intro q hq i hi hended
    by_cases hm : s.kernel.made c = some i
    · exact h.unaddressed (hmade i hm) hq
    · obtain ⟨hi', hcases⟩ := hstate i hi hm
      rcases hcases hended with hended' | hun
      · exact h.unended q hq i hi' hended'
      · exact h.unaddressed hun hq

/-- A call that changes the queue keeps the invariant, when what is added is sent now, and not to
a thread that has ended. -/
theorem Inv.queue (h : s.Inv) (hkeeps : Kernel.Keeps s.kernel.sched k.sched) (hmain : k.sched.Main)
    {l : List (IpcMsg × Nat)} (hl : l.map Prod.fst = k.ipc.contents)
    (hmem : ∀ q ∈ l, q ∈ s.queued ∨ q.2 = s.clock ∧ ∀ i < s.kernel.sched.numThreads,
      s.kernel.sched.state i = .terminated → q.1.destId ≠ address i) :
  Inv ⟨k, s.clock + 1, s.created, l⟩
  := by
  constructor
  case main => exact hmain
  case numThreads_le => exact hkeeps.numThreads ▸ h.numThreads_le
  case id =>
    intro i hi
    have hsame := hkeeps.same i
    rw [Thread.Same] at hsame
    dsimp only
    rw [hsame]
    exact h.id i (hkeeps.numThreads ▸ hi)
  case contents => exact hl
  case created_le => exact fun i => Nat.le_succ_of_le (h.created_le i)
  case fresh =>
    intro q hq i hi hdest
    rcases hmem q hq with hold | ⟨hnow, -⟩
    · exact h.fresh q hold i (hkeeps.numThreads ▸ hi) hdest
    · rw [hnow]
      exact h.created_le i
  case unended =>
    intro q hq i hi hended
    have hi' := hkeeps.numThreads ▸ hi
    have hended' := (hkeeps.terminated i).mp hended
    rcases hmem q hq with hold | ⟨-, hlive⟩
    · exact h.unended q hold i hi' hended'
    · exact hlive i hi' hended'

theorem created_of_none (h : s.kernel.made c = none) :
  (fun i => if s.kernel.made c = some i then s.clock else s.created i) = s.created
  := by
  funext i
  rw [h, if_neg nofun]

/-- A call that neither makes nor ends a thread, and leaves the queue alone. -/
theorem Inv.keeps (h : s.Inv) (hmade : s.kernel.made c = none)
    (hkeeps : Kernel.Keeps s.kernel.sched k.sched) (hmain : k.sched.Main)
    (hipc : k.ipc = s.kernel.ipc) :
  Inv {
    kernel := k
    clock := s.clock + 1
    created := fun i => if s.kernel.made c = some i then s.clock else s.created i
    queued := s.queued }
  := by
  rw [created_of_none hmade]
  apply h.queue hkeeps hmain
  · rw [hipc, h.contents]
  · exact fun q hq => Or.inl hq

theorem Inv.send (h : s.Inv) (destId type arg1 arg2 arg3 arg4 arg5 : UInt32)
    (hdest : ∀ i < s.kernel.sched.numThreads, s.kernel.sched.state i = .terminated
      → destId ≠ address i) :
  Inv ⟨s.kernel.ipcSend destId type arg1 arg2 arg3 arg4 arg5, s.clock + 1, s.created,
    s.record (.send destId type arg1 arg2 arg3 arg4 arg5)⟩
  := by
  obtain ⟨hkeeps, hmain⟩ := Kernel.ipcSend_keeps h.main destId type arg1 arg2 arg3 arg4 arg5
  have hrefines := woosIpcSend_refines s.kernel.ipc s.kernel.sched.schedCurrentThreadId destId type
    arg1 arg2 arg3 arg4 arg5
  have hipc : (s.kernel.ipcSend destId type arg1 arg2 arg3 arg4 arg5).ipc
      = (woosIpcSend s.kernel.ipc s.kernel.sched.schedCurrentThreadId destId type arg1 arg2 arg3
          arg4 arg5).2 := by
    rw [Kernel.ipcSend]
    split
    · rfl
    · rfl
  apply h.queue hkeeps hmain
  · rw [hipc, record]
    rw [Mailbox.send] at hrefines
    split at hrefines
    case isTrue =>
      obtain ⟨hstatus, hcontents⟩ := Prod.mk.inj hrefines
      rw [← hstatus, ← hcontents, if_neg (by decide), h.contents]
    case isFalse =>
      obtain ⟨hstatus, hcontents⟩ := Prod.mk.inj hrefines
      rw [← hstatus, ← hcontents, if_pos rfl, List.map_append, h.contents]
      rfl
  · intro q hq
    rw [record] at hq
    split at hq
    · rcases List.mem_append.mp hq with hold | hnew
      · exact Or.inl hold
      · rw [List.mem_singleton.mp hnew]
        exact Or.inr ⟨rfl, hdest⟩
    · exact Or.inl hq

theorem Inv.recv (h : s.Inv) :
  Inv ⟨s.kernel.ipcRecv.1, s.clock + 1, s.created, s.record .recv⟩
  := by
  have hrefines := woosIpcRecv_refines s.kernel.ipc s.kernel.sched.schedCurrentThreadId
  refine h.queue (k := s.kernel.ipcRecv.1) (Kernel.Keeps.refl _) h.main ?_ ?_
  · rw [Mailbox.recv, ← h.contents, List.eraseP_map] at hrefines
    exact congrArg Prod.snd hrefines
  · exact fun q hq => Or.inl (List.mem_of_mem_eraseP hq)

/-! ### Threads that end and threads that are made -/

theorem endThread_id (σ : Sched) (i j : Nat) :
  ((Kernel.endThread σ i).threads j).id = (σ.threads j).id
  := by
  by_cases hj : j = i
  · subst hj
    rw [Kernel.endThread, Sched.modify_threads_self]
  · rw [Kernel.endThread, Sched.modify_threads_ne _ _ hj]

theorem endThread_terminated {σ : Sched} {i j : Nat}
    (h : (Kernel.endThread σ i).state j = .terminated) :
  σ.state j = .terminated ∨ i = j
  := by
  by_cases hj : j = i
  · exact Or.inr hj.symm
  · rw [Sched.state, Kernel.endThread, Sched.modify_threads_ne _ _ hj] at h
    exact Or.inl h

theorem keeps_id {σ σ' : Sched} (h : Kernel.Keeps σ σ') (i : Nat) :
  (σ'.threads i).id = (σ.threads i).id
  := by
  have hsame := h.same i
  rw [Thread.Same] at hsame
  rw [hsame]

theorem Inv.exit {rsp : UInt64} {r : Kernel × UInt64} (h : s.Inv)
    (hcurrent : s.kernel.sched.current ≠ 0) (hun : s.Unaddressed s.kernel.sched.current)
    (hr : s.kernel.threadExit rsp = some r) :
  Inv {
    kernel := r.1
    clock := s.clock + 1
    created := fun i => if s.kernel.made (.exit rsp) = some i then s.clock else s.created i
    queued := s.queued }
  := by
  obtain ⟨b, hkeeps, hmain⟩ := Kernel.threadExit_keeps h.main hcurrent hr
  have hwake := Kernel.wake_keeps s.kernel.sched b
  have hnum : r.1.sched.numThreads = s.kernel.sched.numThreads :=
    hkeeps.numThreads.trans hwake.numThreads
  refine h.table (fun i hi => nomatch hi) hmain (hnum ▸ h.numThreads_le) ?_
    (Kernel.threadExit_ipc h.main hcurrent hr) ?_
  · intro i hi
    rw [keeps_id hkeeps, endThread_id, keeps_id hwake]
    exact h.id i (hnum ▸ hi)
  · intro i hi _
    use hnum ▸ hi
    intro hended
    rcases endThread_terminated ((hkeeps.terminated i).mp hended) with hold | rfl
    · exact Or.inl ((hwake.terminated i).mp hold)
    · exact Or.inr hun

/-- What remains to be shown of a thread that has been made, or has not. -/
theorem Inv.creates {σ : Sched} {slot : Nat} {t : Thread} (h : s.Inv)
    (hmade : s.kernel.made c = some slot) (hun : s.Unaddressed slot) (hslot : slot ≠ 0)
    (hlt : slot < Sched.maxThreads) (hσ : σ.Main) (hnum : σ.numThreads = s.kernel.sched.numThreads)
    (hid : ∀ i < σ.numThreads, (σ.threads i).id = UInt64.ofNat i)
    (hended : ∀ i < σ.numThreads, σ.state i = .terminated
      → s.kernel.sched.state i = .terminated ∨ s.Unaddressed i)
    (hcreates : Kernel.Creates slot t { s.kernel with sched := σ } k) :
  Inv {
    kernel := k
    clock := s.clock + 1
    created := fun i => if s.kernel.made c = some i then s.clock else s.created i
    queued := s.queued }
  := by
  have hle := h.numThreads_le
  have hother : ∀ i < k.sched.numThreads, i ≠ slot → i < σ.numThreads := by
    intro i hi hne
    rw [hcreates.numThreads] at hi
    dsimp only at hi
    split at hi
    · omega
    · exact hi
  have hthread : ∀ i, i ≠ slot → k.sched.threads i = σ.threads i := by
    intro i hi
    rw [hcreates.threads, Function.update_of_ne hi]
  refine h.table ?_ (hcreates.main hσ hslot) ?_ ?_ hcreates.rest.2.2.2.2.2.2 ?_
  · intro i hi
    rw [hmade] at hi
    cases hi
    exact hun
  · rw [hcreates.numThreads]
    dsimp only
    split
    · omega
    · omega
  · intro i hi
    by_cases his : i = slot
    · subst his
      rw [hcreates.threads, Function.update_self]
      obtain ⟨-, -, -, -, hid'⟩ := hcreates
      exact hid'
    · rw [hthread i his]
      exact hid i (hother i hi his)
  · intro i hi hm
    have his : i ≠ slot := by
      rintro rfl
      exact hm hmade
    have hi' := hother i hi his
    use hnum ▸ hi'
    rw [Sched.state, hthread i his]
    exact hended i hi'

theorem Inv.edits {σ : Sched} {slot : Nat} {t : Thread} (h : s.Inv) (hmade : s.kernel.made c = none)
    (hslot : slot ≠ 0) (hσ : σ.Main) (hnum : σ.numThreads = s.kernel.sched.numThreads)
    (hid : ∀ i < σ.numThreads, (σ.threads i).id = UInt64.ofNat i)
    (hended : ∀ i < σ.numThreads, σ.state i = .terminated
      → s.kernel.sched.state i = .terminated ∨ s.Unaddressed i)
    (hedits : Kernel.Edits slot t { s.kernel with sched := σ } k)
    (hstate : t.state = (σ.threads slot).state) (hid' : t.id = (σ.threads slot).id) :
  Inv {
    kernel := k
    clock := s.clock + 1
    created := fun i => if s.kernel.made c = some i then s.clock else s.created i
    queued := s.queued }
  := by
  have hmain := hedits.main hσ hslot
  have hthreads := hedits.threads
  obtain ⟨phys, pmm, fpu, rfl⟩ := hedits
  refine h.table ?_ hmain (hnum ▸ h.numThreads_le) ?_ rfl ?_
  · intro i hi
    rw [hmade] at hi
    cases hi
  · intro i hi
    rw [hthreads, Function.update_apply]
    split
    case isTrue his =>
      rw [hid', ← his]
      exact hid i hi
    case isFalse => exact hid i hi
  · intro i hi _
    use hnum ▸ hi
    rw [Sched.state, hthreads, Function.update_apply]
    split
    case isTrue his =>
      rw [hstate, ← his]
      exact hended i hi
    case isFalse => exact hended i hi

theorem Inv.spawn {path : CString} (h : s.Inv) (hfits : s.Fits (.spawn (some path))) :
  Inv {
    kernel := (s.kernel.woosSystemSpawn (some path)).1
    clock := s.clock + 1
    created := fun i => if s.kernel.made (.spawn (some path)) = some i then s.clock else s.created i
    queued := s.queued }
  := by
  have hmade := hfits.made
  have hended := hfits.ended
  rw [Kernel.made, Kernel.spawnMade] at hmade
  rw [Kernel.ended] at hended
  rcases s.kernel.woosSystemSpawn_cases path with ⟨hnone, b, hwakes⟩ | ⟨σ, hσ, heq⟩
  · obtain ⟨hkeeps, hmain⟩ := hwakes.keeps h.main
    refine h.keeps ?_ hkeeps hmain hwakes.ipc
    rw [Kernel.made, Kernel.spawnMade, hnone]
    rfl
  · rw [hσ, Option.bind_some] at hmade hended
    have hspec : σ.Main ∧ σ.numThreads = s.kernel.sched.numThreads
        ∧ (∀ i, (σ.threads i).id = (s.kernel.sched.threads i).id)
        ∧ ∀ i, σ.state i = .terminated
          → s.kernel.sched.state i = .terminated ∨ s.Unaddressed i := by
      rcases Kernel.spawnTable_cases hσ with ⟨-, rfl⟩ | ⟨i, hi, rfl⟩
      · exact ⟨h.main, rfl, fun _ => rfl, fun _ => Or.inl⟩
      · have hpos := s.kernel.sched.findInstance_spec path (n := s.kernel.sched.numThreads - 1)
          (i := 1)
        rw [Kernel.findInstance] at hi
        rw [hi] at hpos
        refine ⟨h.main.modify (by omega) _, rfl, endThread_id _ i, ?_⟩
        intro j hj
        rcases endThread_terminated hj with hold | rfl
        · exact Or.inl hold
        · exact Or.inr (hended i hi)
    obtain ⟨hmain, hnum, hid, hstate⟩ := hspec
    obtain ⟨hpos, -⟩ := σ.freeSlot_spec hmain.numThreads_pos
    have hid' : ∀ i < σ.numThreads, (σ.threads i).id = UInt64.ofNat i := by
      intro i hi
      rw [hid, h.id i (hnum ▸ hi)]
    have hspawn : s.kernel.made (.spawn (some path))
        = Kernel.newMade { s.kernel with sched := σ } path := by
      rw [Kernel.made, Kernel.spawnMade, hσ, Option.bind_some]
    rw [heq]
    rcases Kernel.spawnNew_cases { s.kernel with sched := σ } path
      with ⟨hnone, t, hedits, hst, htid⟩ | ⟨hsome, hlt, t, hcreates, -⟩
    · exact h.edits (hspawn.trans hnone) hpos.ne' hmain hnum hid' (fun i _ => hstate i) hedits hst
        htid
    · exact h.creates (hspawn.trans hsome) (hmade _ hsome) hpos.ne' hlt hmain hnum hid'
        (fun i _ => hstate i) hcreates

theorem Inv.threadCreate (h : s.Inv) (entryPoint : UInt64)
    (hfits : s.Fits (.threadCreate entryPoint)) :
  Inv {
    kernel := s.kernel.threadCreate entryPoint
    clock := s.clock + 1
    created := fun i => if s.kernel.made (.threadCreate entryPoint) = some i then s.clock
      else s.created i
    queued := s.queued }
  := by
  have hpos := (s.kernel.sched.freeSlot_spec h.main.numThreads_pos).1.ne'
  rcases s.kernel.threadCreate_cases entryPoint
    with ⟨hnone, t, hedits, hkeeps⟩ | ⟨hsome, hlt, t, hcreates, -⟩
  · exact h.edits hnone hpos h.main rfl h.id (fun _ _ => Or.inl) hedits hkeeps.state hkeeps.id
  · exact h.creates hsome (hfits.made _ hsome) hpos hlt h.main rfl h.id (fun _ _ => Or.inl) hcreates

theorem Inv.processCreate (h : s.Inv) (hfits : s.Fits .processCreate) :
  Inv {
    kernel := s.kernel.processCreate
    clock := s.clock + 1
    created := fun i => if s.kernel.made .processCreate = some i then s.clock else s.created i
    queued := s.queued }
  := by
  have hpos := h.main.numThreads_pos.ne'
  rcases s.kernel.processCreate_cases with ⟨hnone, t, hedits, hkeeps⟩ | ⟨hsome, hlt, t, hcreates⟩
  · exact h.edits hnone hpos h.main rfl h.id (fun _ _ => Or.inl) hedits hkeeps.state hkeeps.id
  · exact h.creates hsome (hfits.made _ hsome) hpos hlt h.main rfl h.id (fun _ _ => Or.inl) hcreates

/-! ### Runs -/

theorem Inv.step {s' : History} (h : s.Inv) (hc : s.Permitted c) (hfits : s.Fits c)
    (hstep : s.step c = some s') :
  s'.Inv
  := by
  obtain ⟨k, hk, rfl⟩ := Option.map_eq_some_iff.mp hstep
  obtain ⟨r, hcall, rfl⟩ := Option.map_eq_some_iff.mp hk
  have hquiet : s.kernel.Quiet c → (∀ d t a₁ a₂ a₃ a₄ a₅, c ≠ .send d t a₁ a₂ a₃ a₄ a₅) → c ≠ .recv
      → s.kernel.made c = none → Inv {
        kernel := r.1
        clock := s.clock + 1
        created := fun i => if s.kernel.made c = some i then s.clock else s.created i
        queued := s.queued } := by
    intro hq hsend hrecv hmade
    obtain ⟨hkeeps, hmain⟩ := Kernel.call_keeps h.main hq hcall
    exact h.keeps hmade hkeeps hmain (Kernel.call_ipc h.main hq hcall hsend hrecv)
  cases c with
  | exit rsp => exact h.exit hc (hfits.ended _ rfl) hcall
  | threadCreate entryPoint =>
      obtain rfl := Option.some.inj hcall
      exact h.threadCreate entryPoint hfits
  | processCreate =>
      obtain rfl := Option.some.inj hcall
      exact h.processCreate hfits
  | spawn path =>
      obtain rfl := Option.some.inj hcall
      cases path with
      | none => exact h.keeps rfl (Kernel.Keeps.refl _) h.main rfl
      | some path => exact h.spawn hfits
  | send destId type arg1 arg2 arg3 arg4 arg5 =>
      obtain rfl := Option.some.inj hcall
      rw [created_of_none rfl]
      exact h.send destId type arg1 arg2 arg3 arg4 arg5
        (hfits.send destId type arg1 arg2 arg3 arg4 arg5 rfl)
  | recv =>
      obtain rfl := Option.some.inj hcall
      rw [created_of_none rfl]
      exact h.recv
  | timer rsp => exact hquiet trivial nofun nofun rfl
  | yield rsp => exact hquiet trivial nofun nofun rfl
  | irq events rsp => exact hquiet trivial nofun nofun rfl
  | block rsp => exact hquiet hc nofun nofun rfl
  | unblockAll => exact hquiet trivial nofun nofun rfl
  | other k' => exact hquiet trivial nofun nofun rfl

theorem init_inv (k : Kernel) :
  (init k).Inv
  where
  main := ⟨k.schedInit_main.current_lt, k.schedInit_main.state_zero⟩
  numThreads_le := by
    change 1 ≤ 16
    decide
  id i hi := by
    obtain rfl : i = 0 := Nat.lt_one_iff.mp hi
    simp only [init, Kernel.schedInit, Function.update_self]
    rfl
  contents := rfl
  created_le _ := Nat.le_refl _
  fresh _ hq := absurd hq List.not_mem_nil
  unended _ hq := absurd hq List.not_mem_nil

end

end History
