import Mathlib.Data.FinEnum
import Woos.KHeap.Live
import Woos.Window.Buffers

/-!
# The order of the windows

`Window.unflagged` is a window without its flags, and `WindowStack.shape` the windows of a stack
without their flags.  Bringing a window to the front moves it to the end of the shape
(`bringToFront_shape`), and destroying one takes it out (`remove_shape`).

`destroyLoop_eq` follows the loop of `woos_graphics_destroy_thread_windows`, which looks for the
topmost window of the thread again after every removal: what is left are the windows of the other
threads, and the heap is the one after freeing the buffers of the windows of the thread, each once,
from the topmost down.
-/

/-- A window without its flags. -/
def Window.unflagged (v : Window) : Window := { v with flags := 0 }

namespace WindowStack

/-- The windows without their flags. -/
def shape (s : WindowStack) : List Window := s.windows.map Window.unflagged

/-- The ids of the windows are not zero, and distinct. -/
structure Identified (s : WindowStack) : Prop where
  ne_zero : ∀ v ∈ s.windows, v.id ≠ 0
  distinct : (s.windows.map Window.id).Nodup

theorem map_id_shape (s : WindowStack) :
  s.shape.map Window.id = s.windows.map Window.id
  := List.map_map

/-- The ids depend on the shape only. -/
theorem Identified.of_shape {s s' : WindowStack} (h : s.Identified)
    (hshape : s'.shape.Sublist s.shape) :
  s'.Identified
  := by
  have hids : (s'.windows.map Window.id).Sublist (s.windows.map Window.id) := by
    rw [← map_id_shape, ← map_id_shape]
    apply hshape.map
  constructor
  · intro v hv
    obtain ⟨u, hu, hid⟩ := List.mem_map.mp (hids.subset (List.mem_map_of_mem hv))
    rw [← hid]
    apply h.ne_zero u hu
  · apply hids.nodup h.distinct

/-! ### A window of the shape -/

section

variable {s : WindowStack} {below above : List Window} {v : Window}

/-- When ids are distinct, the search for the id of a window finds that window. -/
theorem find_of_shape (h : s.Identified) (hshape : s.shape = below ++ v :: above) :
  ∃ u, s.find v.id = some (below.length, u) ∧ u.unflagged = v
  := by
  obtain ⟨bs, rest, hwindows, rfl, hrest⟩ := List.map_eq_append_iff.mp hshape
  obtain ⟨u, as, rfl, rfl, rfl⟩ := List.map_eq_cons_iff.mp hrest
  have hids := h.distinct
  rw [hwindows, List.map_append, List.nodup_append] at hids
  have hindex : s.windows.findIdx? (fun w => w.id == u.unflagged.id) = some bs.length := by
    rw [hwindows, List.findIdx?_append]
    have hnone : bs.findIdx? (fun w => w.id == u.unflagged.id) = none := by
      rw [List.findIdx?_eq_none_iff]
      intro w hw
      have hne := hids.2.2 w.id (List.mem_map_of_mem hw) u.id List.mem_cons_self
      exact beq_eq_false_iff_ne.mpr hne
    rw [hnone, List.findIdx?_cons]
    simp [Window.unflagged]
  use u
  rw [find, hindex, List.length_map]
  simp [hwindows]

/-- Taking out the window that has been found. -/
theorem shape_eraseIdx (hshape : s.shape = below ++ v :: above) :
  (s.windows.eraseIdx below.length).map Window.unflagged = below ++ above
  := by
  have hmap : (s.windows.eraseIdx below.length).map Window.unflagged
      = s.shape.eraseIdx below.length := by
    rw [shape, List.eraseIdx_map]
  rw [hmap, hshape, List.eraseIdx_append_of_length_le le_rfl, Nat.sub_self, List.eraseIdx_cons_zero]

theorem focusTop_shape (s : WindowStack) :
  s.focusTop.shape = s.shape
  := focusTop_map (ignoresMarks_of_flags (fun _ _ => rfl))

/-- Bringing a window to the front moves it to the end. -/
theorem bringToFront_shape (h : s.Identified) (hshape : s.shape = below ++ v :: above) :
  ∃ s', s.bringToFront v.id = some s' ∧ s'.shape = below ++ above ++ [v]
    ∧ s'.nextWindowId = s.nextWindowId
  := by
  obtain ⟨u, hfind, -⟩ := find_of_shape h hshape
  let vs := (s.modify below.length clearMinimized).windows.map clearFocus
  have hvs : vs.map Window.unflagged = below ++ v :: above := by
    rw [← hshape, map_clearFocus (ignoresMarks_of_flags (fun _ _ => rfl))]
    apply map_modify
    intro w
    rfl
  have hlt : below.length < vs.length := by
    have hlength := congrArg List.length hvs
    rw [List.length_map, List.length_append, List.length_cons] at hlength
    omega
  have hmoved : vs[below.length].unflagged = v := by
    have hget := List.getElem_map Window.unflagged (l := vs) (i := below.length) (h := by simpa)
    simp only [hvs] at hget
    rw [← hget, List.getElem_append_right le_rfl]
    simp
  have hrest := shape_eraseIdx (s := { s with windows := vs }) hvs
  refine ⟨focusTop { s with windows := vs.eraseIdx below.length ++ [vs[below.length]] }, ?_, ?_, rfl⟩
  · rw [bringToFront, hfind]
    simp only [Option.bind_eq_bind, Option.bind_some]
    rw [List.getElem?_eq_getElem hlt, Option.bind_some]
  · rw [focusTop_shape, shape, List.map_append, hrest, List.map_singleton, hmoved]

/-- Destroying a window takes it out. -/
theorem remove_shape (h : s.Identified) (hshape : s.shape = below ++ v :: above) :
  ∃ u s', s.remove v.id = some (u, s') ∧ u.unflagged = v ∧ s'.shape = below ++ above
    ∧ s'.nextWindowId = s.nextWindowId
  := by
  obtain ⟨u, hfind, hu⟩ := find_of_shape h hshape
  refine ⟨u, focusTop { s with windows := s.windows.eraseIdx below.length }, ?_, hu, ?_, rfl⟩
  · rw [remove, hfind]
    rfl
  · rw [focusTop_shape, shape, shape_eraseIdx hshape]

end

/-! ### The windows of a thread -/

/-- The windows of a thread, the topmost first. -/
def ownedBy (threadId : UInt32) (vs : List Window) : List Window :=
  (vs.filter (fun v => v.threadId = threadId)).reverse

/-- The windows of the other threads. -/
def othersThan (threadId : UInt32) (vs : List Window) : List Window :=
  vs.filter (fun v => v.threadId ≠ threadId)

/-- A window of a thread, when no window above it is one of the thread. -/
theorem ownedBy_append_cons {threadId : UInt32} {below above : List Window} {v : Window}
    (hv : v.threadId = threadId) (habove : ∀ u ∈ above, u.threadId ≠ threadId) :
  ownedBy threadId (below ++ v :: above) = v :: ownedBy threadId (below ++ above)
  := by
  have hnil : above.filter (fun u => u.threadId = threadId) = [] := by
    rw [List.filter_eq_nil_iff]
    intro u hu
    simpa using habove u hu
  simp [ownedBy, List.filter_append, hv, hnil]

theorem othersThan_append_cons {threadId : UInt32} {below above : List Window} {v : Window}
    (hv : v.threadId = threadId) :
  othersThan threadId (below ++ v :: above) = othersThan threadId (below ++ above)
  := by
  simp [othersThan, List.filter_append, hv]

/-- The topmost window of a list with a property, and what is below and above it. -/
theorem exists_topmost (p : Window → Prop) [DecidablePred p] (vs : List Window) :
  (∀ v ∈ vs, ¬ p v)
    ∨ ∃ below v above, vs = below ++ v :: above ∧ p v ∧ ∀ u ∈ above, ¬ p u
  := by
  induction vs with
  | nil =>
      left
      intro v hv
      cases hv
  | cons w vs ih =>
      rcases ih with hnone | ⟨below, v, above, rfl, hv, habove⟩
      · rcases Decidable.em (p w) with hw | hw
        · right
          exact ⟨[], w, vs, rfl, hw, hnone⟩
        · left
          intro v hv
          rcases List.mem_cons.mp hv with rfl | hv
          · exact hw
          · exact hnone v hv
      · right
        exact ⟨w :: below, v, above, rfl, hv, habove⟩

/-- The search for the topmost window of a thread. -/
theorem topOfThread_of_shape {s : WindowStack} {threadId : UInt32} {below above : List Window}
    {v : Window} (hshape : s.shape = below ++ v :: above) (hv : v.threadId = threadId)
    (habove : ∀ u ∈ above, u.threadId ≠ threadId) :
  s.topOfThread threadId = v.id
  := by
  obtain ⟨bs, rest, hwindows, rfl, hrest⟩ := List.map_eq_append_iff.mp hshape
  obtain ⟨u, as, rfl, rfl, rfl⟩ := List.map_eq_cons_iff.mp hrest
  have hnone : as.reverse.find? (fun w => w.threadId == threadId) = none := by
    rw [List.find?_eq_none]
    intro w hw
    have hne := habove w.unflagged (List.mem_map_of_mem (List.mem_reverse.mp hw))
    exact mt eq_of_beq hne
  have hsome : s.windows.reverse.find? (fun w => w.threadId == threadId) = some u := by
    have hu : (u.threadId == threadId) = true := beq_iff_eq.mpr hv
    simp [hwindows, List.find?_append, hnone, hu]
  rw [topOfThread, hsome]
  rfl

theorem topOfThread_eq_zero {s : WindowStack} {threadId : UInt32}
    (hnone : ∀ v ∈ s.shape, v.threadId ≠ threadId) :
  s.topOfThread threadId = 0
  := by
  have hfind : s.windows.reverse.find? (fun w => w.threadId == threadId) = none := by
    rw [List.find?_eq_none]
    intro w hw
    have hne := hnone w.unflagged (List.mem_map_of_mem (List.mem_reverse.mp hw))
    exact mt eq_of_beq hne
  rw [topOfThread, hfind]

end WindowStack

namespace WinMgr

open WindowStack

/-! ### Destroying the windows of a thread -/

/-- Free a buffer, if there is one. -/
def freeBuffer (heap : KHeap) (buffer : UInt64) : Option KHeap :=
  if buffer ≠ 0 then heap.kheapFree buffer else some heap

/-- Free buffers one after the other. -/
def freeBuffers (heap : KHeap) : List UInt64 → Option KHeap
  | [] => some heap
  | buffer :: buffers => (freeBuffer heap buffer).bind (freeBuffers · buffers)

/-- Freeing a buffer in a well-formed heap ends, and frees it. -/
theorem freeBuffer_live {heap : KHeap} {L : List (Nat × Nat)} (hl : heap.Live L)
    (buffer : UInt64) :
  ∃ heap', freeBuffer heap buffer = some heap'
    ∧ heap'.Live (L.filter (fun x => buffer ≠ 0 → x.1 ≠ buffer.toNat))
  := by
  by_cases hzero : buffer = 0
  · use heap, if_neg (not_not.mpr hzero)
    simpa [hzero] using hl
  · obtain ⟨heap', hfree, hlive, -⟩ := KHeap.kheapFree_live hl buffer
    rw [freeBuffer, if_pos hzero]
    use heap', hfree
    simpa [hzero, KHeap.without] using hlive

/-- Freeing buffers in a well-formed heap ends, and frees each of them. -/
theorem freeBuffers_live {heap : KHeap} {L : List (Nat × Nat)} (hl : heap.Live L)
    (buffers : List UInt64) :
  ∃ heap', freeBuffers heap buffers = some heap'
    ∧ heap'.Live (L.filter (fun x => ∀ b ∈ buffers, b ≠ 0 → x.1 ≠ b.toNat))
  := by
  induction buffers generalizing heap L with
  | nil =>
      use heap, rfl
      simpa using hl
  | cons b buffers ih =>
      obtain ⟨heap₁, hfree₁, hl₁⟩ := freeBuffer_live hl b
      obtain ⟨heap', hfree, hlive⟩ := ih hl₁
      use heap'
      constructor
      · rw [freeBuffers, hfree₁, Option.bind_some, hfree]
      · rw [List.filter_filter] at hlive
        simpa [and_comm] using hlive

theorem woosGraphicsDestroyWindow_some {m : WinMgr} {windowId : UInt32} {v : Window}
    {stack : WindowStack} (h : m.stack.remove windowId = some (v, stack)) :
  m.woosGraphicsDestroyWindow windowId
    = (freeBuffer m.heap v.buffer).map (fun heap => (⟨heap, stack⟩, 0))
  := by
  rw [woosGraphicsDestroyWindow, h, freeBuffer]
  dsimp only
  split
  · cases m.heap.kheapFree v.buffer <;> rfl
  · rfl

/-- One round of the loop: the topmost window of the thread goes. -/
theorem destroyLoop_round {m : WinMgr} {threadId : UInt32} {below above : List Window} {v : Window}
    (h : m.stack.Identified) (hshape : m.stack.shape = below ++ v :: above)
    (hv : v.threadId = threadId) (habove : ∀ u ∈ above, u.threadId ≠ threadId) (n : Nat)
    (destroyed : Int32) :
  ∃ stack, stack.shape = below ++ above ∧ stack.nextWindowId = m.stack.nextWindowId
    ∧ destroyLoop threadId (n + 1) m destroyed
      = (freeBuffer m.heap v.buffer).bind
          (fun heap => destroyLoop threadId n ⟨heap, stack⟩ (destroyed + 1))
  := by
  obtain ⟨u, stack, hremove, rfl, hstack, hnext⟩ := remove_shape h hshape
  have hid : u.unflagged.id ≠ 0 := by
    have hmem : u.unflagged ∈ m.stack.shape := by
      rw [hshape]
      apply List.mem_append_right _ List.mem_cons_self
    obtain ⟨w, hw, heq⟩ := List.mem_map.mp hmem
    rw [← heq]
    exact h.ne_zero w hw
  refine ⟨stack, hstack, hnext, ?_⟩
  rw [destroyLoop, topOfThread_of_shape hshape hv habove]
  dsimp only
  rw [if_neg hid, woosGraphicsDestroyWindow_some hremove]
  have hbuffer : u.unflagged.buffer = u.buffer := rfl
  rw [hbuffer]
  cases freeBuffer m.heap u.buffer <;> rfl

/-- The loop frees the buffers of the windows of the thread and leaves the windows of the others. -/
theorem destroyLoop_eq {m : WinMgr} (threadId : UInt32) {n : Nat} (destroyed : Int32)
    (h : m.stack.Identified) (hn : (ownedBy threadId m.stack.shape).length < n) :
  ∃ stack, stack.shape = othersThan threadId m.stack.shape
    ∧ stack.nextWindowId = m.stack.nextWindowId
    ∧ destroyLoop threadId n m destroyed
      = (freeBuffers m.heap ((ownedBy threadId m.stack.shape).map Window.buffer)).map
          (fun heap =>
            (⟨heap, stack⟩, destroyed + Int32.ofNat (ownedBy threadId m.stack.shape).length))
  := by
  induction n generalizing m destroyed with
  | zero => omega
  | succ n ih =>
      rcases exists_topmost (fun v => v.threadId = threadId) m.stack.shape with
        hnone | ⟨below, v, above, hshape, hv, habove⟩
      · have howned : ownedBy threadId m.stack.shape = [] := by
          rw [ownedBy, List.reverse_eq_nil_iff, List.filter_eq_nil_iff]
          intro v hv
          simpa using hnone v hv
        refine ⟨m.stack, ?_, rfl, ?_⟩
        · rw [othersThan, List.filter_eq_self.mpr]
          intro v hv
          simpa using hnone v hv
        · rw [destroyLoop, topOfThread_eq_zero hnone, howned]
          simp [freeBuffers]
      · obtain ⟨stack, hstack, hnext, hround⟩ := destroyLoop_round h hshape hv habove n destroyed
        have hidentified : stack.Identified := by
          apply h.of_shape
          rw [hstack, hshape]
          apply List.Sublist.append_left
          apply List.sublist_cons_self
        rw [hshape, ownedBy_append_cons hv habove, List.length_cons] at hn
        rw [hshape, ownedBy_append_cons hv habove, othersThan_append_cons hv, ← hstack]
        cases hfree : freeBuffer m.heap v.buffer with
        | none =>
            obtain ⟨stack', hstack', hnext', -⟩ := ih (m := ⟨m.heap, stack⟩) 0 hidentified (by
              rw [hstack]
              omega)
            refine ⟨stack', hstack', hnext'.trans hnext, ?_⟩
            rw [hround, hfree, List.map_cons, freeBuffers, hfree]
            rfl
        | some heap =>
            obtain ⟨stack', hstack', hnext', hloop⟩ :=
              ih (m := ⟨heap, stack⟩) (destroyed + 1) hidentified (by
                rw [hstack]
                omega)
            refine ⟨stack', hstack', hnext'.trans hnext, ?_⟩
            have hcount : destroyed + 1 + Int32.ofNat (ownedBy threadId stack.shape).length
                = destroyed + Int32.ofNat ((ownedBy threadId stack.shape).length + 1) := by
              rw [Int32.ofNat_add, Int32.add_assoc, Int32.add_comm 1]
              rfl
            rw [hround, hfree, List.map_cons, freeBuffers, hfree, Option.bind_some, hloop,
              List.length_cons, hcount]
            rfl

/-! ### Reordering -/

/-- From `m` to `m'` the window `v` is brought to the front: the windows are the same but for their
flags, `v` comes last, and the others are in the order in which they were. -/
structure Raised (v : Window) (m m' : WinMgr) : Prop where
  heap : m'.heap = m.heap
  nextWindowId : m'.stack.nextWindowId = m.stack.nextWindowId
  perm : m'.stack.shape.Perm m.stack.shape
  order : ∃ below above, m.stack.shape = below ++ v.unflagged :: above
    ∧ m'.stack.shape = below ++ above ++ [v.unflagged]

/-- From `m` to `m'` the windows of a thread are destroyed: the windows of the others are left, in
their order and the same but for their flags, and each buffer of a window of the thread is freed
once. -/
structure Swept (threadId : UInt32) (m m' : WinMgr) : Prop where
  nextWindowId : m'.stack.nextWindowId = m.stack.nextWindowId
  windows : m'.stack.shape = othersThan threadId m.stack.shape
  freed : freeBuffers m.heap ((ownedBy threadId m.stack.shape).map Window.buffer) = some m'.heap

theorem woosGraphicsBringToFront_raised {m : WinMgr} (h : m.stack.Identified) {v : Window}
    (hv : v ∈ m.stack.windows) :
  ∃ m', m.woosGraphicsBringToFront v.id = (m', 0) ∧ Raised v m m'
  := by
  obtain ⟨below, above, hshape⟩ := List.append_of_mem (List.mem_map_of_mem (f := Window.unflagged) hv)
  obtain ⟨stack, hraise, hstack, hnext⟩ := bringToFront_shape h hshape
  use { m with stack := stack }
  constructor
  · have hid : v.unflagged.id = v.id := rfl
    rw [woosGraphicsBringToFront, ← hid, hraise, edit]
  · constructor
    · rfl
    · exact hnext
    · have hperm : (below ++ above ++ [v.unflagged]).Perm (below ++ v.unflagged :: above) := by
        rw [List.append_assoc]
        apply List.Perm.append_left
        apply List.perm_append_singleton
      change stack.shape.Perm m.stack.shape
      rw [hstack, shape, hshape]
      exact hperm
    · exact ⟨below, above, hshape, hstack⟩

/-- The number of rounds of the loop is enough. -/
theorem length_ownedBy_lt (threadId : UInt32) (s : WindowStack) :
  (ownedBy threadId s.shape).length < s.windows.length + 1
  := by
  have hle := List.length_filter_le (fun v : Window => v.threadId = threadId) s.shape
  rw [shape, List.length_map] at hle
  rw [ownedBy, List.length_reverse]
  apply Nat.lt_succ_of_le hle

/-- The two calls reorder and thin out the stack as they should: on every heap, the call that
destroys the windows of a thread does what freeing their buffers one after the other does to the
heap, and in a well-formed heap that ends. -/
theorem reorders (m : WinMgr) (h : m.stack.Identified) :
  (∀ v ∈ m.stack.windows, ∃ m', m.woosGraphicsBringToFront v.id = (m', 0) ∧ Raised v m m')
  ∧ (∀ threadId m' n, m.woosGraphicsDestroyThreadWindows threadId = some (m', n)
      → Swept threadId m m' ∧ n = Int32.ofNat (ownedBy threadId m.stack.shape).length)
  ∧ (∀ threadId heap,
      freeBuffers m.heap ((ownedBy threadId m.stack.shape).map Window.buffer) = some heap
      → ∃ m' n, m.woosGraphicsDestroyThreadWindows threadId = some (m', n))
  ∧ ∀ threadId L, m.heap.Live L
      → ∃ m' n, m.woosGraphicsDestroyThreadWindows threadId = some (m', n)
        ∧ m'.heap.Live (L.filter (fun x => ∀ v ∈ m.stack.windows, v.threadId = threadId
            → v.buffer ≠ 0 → x.1 ≠ v.buffer.toNat))
  := by
  have hloop (threadId : UInt32) :=
    destroyLoop_eq threadId 0 h (length_ownedBy_lt threadId m.stack)
  refine ⟨fun v hv => woosGraphicsBringToFront_raised h hv, ?_, ?_, ?_⟩
  · intro threadId m' n hdestroy
    obtain ⟨stack, hstack, hnext, heq⟩ := hloop threadId
    rw [woosGraphicsDestroyThreadWindows, heq] at hdestroy
    obtain ⟨heap, hfree, hresult⟩ := Option.map_eq_some_iff.mp hdestroy
    cases hresult
    constructor
    · exact ⟨hnext, hstack, hfree⟩
    · exact Int32.zero_add _
  · intro threadId heap hfree
    obtain ⟨stack, -, -, heq⟩ := hloop threadId
    rw [woosGraphicsDestroyThreadWindows, heq, hfree]
    exact ⟨_, _, rfl⟩
  · intro threadId L hl
    obtain ⟨stack, -, -, heq⟩ := hloop threadId
    obtain ⟨heap, hfree, hlive⟩ :=
      freeBuffers_live hl ((ownedBy threadId m.stack.shape).map Window.buffer)
    rw [woosGraphicsDestroyThreadWindows, heq, hfree]
    refine ⟨_, _, rfl, ?_⟩
    have hmem (b : UInt64) : b ∈ (ownedBy threadId m.stack.shape).map Window.buffer
        ↔ ∃ v ∈ m.stack.windows, v.threadId = threadId ∧ v.buffer = b := by
      simp [ownedBy, shape, Window.unflagged, and_assoc]
    have hfilter : (fun x : Nat × Nat => decide (∀ v ∈ m.stack.windows, v.threadId = threadId
          → v.buffer ≠ 0 → x.1 ≠ v.buffer.toNat))
        = (fun x => decide (∀ b ∈ (ownedBy threadId m.stack.shape).map Window.buffer,
            b ≠ 0 → x.1 ≠ b.toNat)) := by
      funext x
      rw [decide_eq_decide]
      constructor
      · intro hall b hb
        obtain ⟨v, hv, hthread, rfl⟩ := (hmem b).mp hb
        exact hall v hv hthread
      · intro hall v hv hthread
        exact hall v.buffer ((hmem _).mpr ⟨v, hv, hthread, rfl⟩)
    rw [hfilter]
    exact hlive

/-- Three windows, of which the first and the last are of the thread 1. -/
def threeWindows : WinMgr where
  heap := ⟨fun _ => 0, 0, 0⟩
  stack := ⟨[newWindow 1 1 10 10 0 none 0x1000, newWindow 2 2 10 10 0 none 0x2000,
    newWindow 3 1 10 10 0 none 0x3000], 4⟩

theorem threeWindows_identified :
  threeWindows.stack.Identified
  := by
  constructor
  · decide
  · decide

/-- The first of three windows is brought to the front. -/
theorem reorders_threeWindows :
  threeWindows.stack.Identified
    ∧ ∃ m', threeWindows.woosGraphicsBringToFront 1 = (m', 0)
      ∧ Raised (newWindow 1 1 10 10 0 none 0x1000) threeWindows m'
  := by
  use threeWindows_identified
  apply (reorders threeWindows threeWindows_identified).1 (newWindow 1 1 10 10 0 none 0x1000)
  apply List.mem_cons_self

end WinMgr
