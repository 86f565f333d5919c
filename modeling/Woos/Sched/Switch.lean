import Woos.Sched.Kernel
import Woos.Window.Ownership

/-!
# What the kernel does to the thread table

The lemmas here say once for each function of the kernel what it does to the thread table.
`wake b s` is the table after calls of `sched_unblock_all`, of which there was at least one when
`b` is `true`; `Wakes b k k'` says that a function did nothing else to the table.
`roundRobin_cases` and `switchToBest_cases` say what the two schedule functions can do.
-/

/-- The entries of a thread agree on all that scheduling leaves alone. -/
def Thread.Same (t u : Thread) : Prop :=
  u = { t with rsp := u.rsp, state := u.state, fpuState := u.fpuState }

namespace Thread

theorem Same.refl (t : Thread) :
  t.Same t
  := rfl

theorem Same.trans {t u v : Thread} (h : t.Same u) (h' : u.Same v) :
  t.Same v
  := by
  rw [Same] at h h' ⊢
  rw [h', h]

end Thread

namespace Sched

/-! ### Waking -/

/-- The table, after all threads have been unblocked when `b` is `true`. -/
def wake (b : Bool) (s : Sched) : Sched := if b then s.schedUnblockAll else s

section

variable (s : Sched) (b : Bool)

@[simp]
theorem wake_false :
  s.wake false = s
  := rfl

@[simp]
theorem wake_numThreads :
  (s.wake b).numThreads = s.numThreads
  := by
  cases b with
  | false => rfl
  | true => rfl

@[simp]
theorem wake_current :
  (s.wake b).current = s.current
  := by
  cases b with
  | false => rfl
  | true => rfl

@[simp]
theorem wake_ready :
  (s.wake b).ready = s.ready
  := by
  cases b with
  | false => rfl
  | true => rfl

theorem wake_state (i : Nat) :
  (s.wake b).state i
    = if b = true ∧ i < s.numThreads ∧ s.state i = .blocked then .ready else s.state i
  := by
  cases b with
  | false => simp
  | true => simpa [wake] using s.schedUnblockAll_state i

/-- Waking does not end a thread, nor make one that has ended live. -/
theorem wake_terminated (i : Nat) :
  (s.wake b).state i = .terminated ↔ s.state i = .terminated
  := by
  rw [wake_state]
  split
  case isTrue h => simp [h.2.2]
  case isFalse => rfl

theorem unblocked_same (t : Thread) :
  t.Same (unblocked t)
  := by
  rw [unblocked]
  split
  · rfl
  · rfl

theorem wake_same (i : Nat) :
  (s.threads i).Same ((s.wake b).threads i)
  := by
  cases b with
  | false => rfl
  | true =>
      simp only [wake, if_true, schedUnblockAll]
      split
      · apply unblocked_same
      · rfl

theorem wake_rsp (i : Nat) :
  ((s.wake b).threads i).rsp = (s.threads i).rsp
  := by
  cases b with
  | false => rfl
  | true => rw [wake, if_pos rfl, schedUnblockAll_threads]

theorem unblocked_unblocked (t : Thread) :
  unblocked (unblocked t) = unblocked t
  := by
  rw [unblocked, if_neg]
  rw [unblocked]
  split
  case isTrue => simp
  case isFalse h => exact h

theorem wake_wake (c : Bool) :
  (s.wake b).wake c = s.wake (b || c)
  := by
  cases b with
  | false => rfl
  | true =>
      cases c with
      | false => rfl
      | true =>
          simp only [wake, Bool.or_true, if_true, schedUnblockAll]
          congr 1
          funext i
          split
          · rw [unblocked_unblocked]
          · rfl

end

end Sched

namespace Kernel

/-- The function changed nothing but the heap, the windows, the timer and the input queue, and
has woken all threads when `b` is `true`. -/
def Wakes (b : Bool) (k k' : Kernel) : Prop :=
  ∃ heap windows timer input, k' = { k with
    heap := heap
    windows := windows
    timer := timer
    input := input
    sched := k.sched.wake b }

theorem Wakes.refl (k : Kernel) :
  Wakes false k k
  := ⟨k.heap, k.windows, k.timer, k.input, rfl⟩

theorem Wakes.trans {b c : Bool} {k k' k'' : Kernel} (h : Wakes b k k') (h' : Wakes c k' k'') :
  Wakes (b || c) k k''
  := by
  obtain ⟨heap, windows, timer, input, rfl⟩ := h
  obtain ⟨heap', windows', timer', input', rfl⟩ := h'
  use heap', windows', timer', input'
  rw [Sched.wake_wake]

theorem Wakes.sched {b : Bool} {k k' : Kernel} (h : Wakes b k k') :
  k'.sched = k.sched.wake b
  := by
  obtain ⟨heap, windows, timer, input, rfl⟩ := h
  rfl

theorem Wakes.cpu {b : Bool} {k k' : Kernel} (h : Wakes b k k') :
  k'.cpu = k.cpu
  := by
  obtain ⟨heap, windows, timer, input, rfl⟩ := h
  rfl

theorem Wakes.kernelPml4 {b : Bool} {k k' : Kernel} (h : Wakes b k k') :
  k'.kernelPml4 = k.kernelPml4
  := by
  obtain ⟨heap, windows, timer, input, rfl⟩ := h
  rfl

theorem Wakes.ipc {b : Bool} {k k' : Kernel} (h : Wakes b k k') :
  k'.ipc = k.ipc
  := by
  obtain ⟨heap, windows, timer, input, rfl⟩ := h
  rfl

/-- There is room for an event in the input queue. -/
def inputRoom (k : Kernel) : Bool := k.input.size < k.input.capacity

/-- An event is accepted when there is room, and then wakes all threads; otherwise the queue
stays full. -/
theorem inputPush_wakes (k : Kernel) (event : InputEvent) :
  Wakes k.inputRoom k (k.inputPush event)
    ∧ (k.inputRoom = false → (k.inputPush event).inputRoom = false)
  := by
  rw [inputPush, InputQueue.inputPush, inputRoom]
  by_cases hfull : k.input.capacity ≤ k.input.size
  · have hnot : ¬ k.input.size < k.input.capacity := UInt16.not_lt.mpr hfull
    rw [if_pos hfull, decide_eq_false hnot]
    constructor
    · exact ⟨k.heap, k.windows, k.timer, _, rfl⟩
    · intro _
      exact decide_eq_false hnot
  · rw [if_neg hfull, decide_eq_true (UInt16.not_le.mp hfull)]
    constructor
    · exact ⟨k.heap, k.windows, k.timer, _, rfl⟩
    · intro hcon
      cases hcon

theorem schedUnblockAll_wakes (k : Kernel) :
  Wakes true k k.schedUnblockAll
  := ⟨k.heap, k.windows, k.timer, k.input, rfl⟩

theorem windowChanged_wakes (k : Kernel) :
  Wakes true k k.windowChanged
  := by
  have hwakes := (k.inputPush_wakes ⟨.windowChange, 0, 0, 0⟩).1.trans (schedUnblockAll_wakes _)
  rw [Bool.or_true] at hwakes
  exact hwakes

/-- The timer pushes an event at this tick, and the queue has room for it. -/
def timerWakes (k : Kernel) : Bool :=
  decide ((k.timer.ticks + 1) % k.timer.divisor = 0) && k.inputRoom

theorem timerHandler_wakes (k : Kernel) :
  Wakes k.timerWakes k k.timerHandler
  := by
  let k' := { k with timer := { k.timer with ticks := k.timer.ticks + 1 } }
  have htimer : Wakes false k k' := ⟨k.heap, k.windows, _, k.input, rfl⟩
  by_cases h : (k.timer.ticks + 1) % k.timer.divisor = 0
  · have hpush : k.timerHandler = k'.inputPush ⟨.timerTick, 0, 0, 0⟩ := if_pos h
    rw [timerWakes, hpush, decide_eq_true h]
    exact htimer.trans (k'.inputPush_wakes _).1
  · have hpush : k.timerHandler = k' := if_neg h
    rw [timerWakes, hpush, decide_eq_false h]
    exact htimer

theorem events_wakes (k : Kernel) (events : List InputEvent) :
  Wakes (!events.isEmpty && k.inputRoom) k (events.foldl inputPush k)
  := by
  induction events generalizing k with
  | nil => exact Wakes.refl k
  | cons event events ih =>
      obtain ⟨hpush, hfull⟩ := k.inputPush_wakes event
      have hrest := hpush.trans (ih (k.inputPush event))
      cases hroom : k.inputRoom with
      | false =>
          rw [hroom, hfull hroom, Bool.and_false, Bool.or_false] at hrest
          exact hrest
      | true =>
          rw [hroom, Bool.true_or] at hrest
          exact hrest

/-! ### Windows -/

theorem woosGraphicsDestroyWindow_wakes {k k' : Kernel} {windowId : UInt32} {r : Int32}
    (h : k.woosGraphicsDestroyWindow windowId = some (k', r)) :
  ∃ b, Wakes b k k'
  := by
  obtain ⟨⟨m, r'⟩, -, heq⟩ := Option.bind_eq_some_iff.mp h
  have hm : Wakes false k { k with heap := m.heap, windows := m.stack } :=
    ⟨m.heap, m.stack, k.timer, k.input, rfl⟩
  dsimp only at heq
  split at heq
  · cases heq
    exact ⟨_, hm.trans (windowChanged_wakes _)⟩
  · cases heq
    exact ⟨_, hm⟩

theorem destroyLoop_wakes {threadId : UInt32} {n : Nat} {k k' : Kernel}
    (h : destroyLoop threadId n k = some k') :
  ∃ b, Wakes b k k'
  := by
  induction n generalizing k with
  | zero => cases h
  | succ n ih =>
      rw [destroyLoop] at h
      dsimp only at h
      split at h
      · cases h
        exact ⟨_, Wakes.refl _⟩
      · obtain ⟨⟨k₁, r⟩, hdestroy, hrest⟩ := Option.bind_eq_some_iff.mp h
        obtain ⟨b, hb⟩ := woosGraphicsDestroyWindow_wakes hdestroy
        obtain ⟨c, hc⟩ := ih hrest
        exact ⟨_, hb.trans hc⟩

theorem woosGraphicsBringThreadToFront_wakes (k : Kernel) (threadId : UInt32) :
  ∃ b, Wakes b k (k.woosGraphicsBringThreadToFront threadId).1
  := by
  rw [woosGraphicsBringThreadToFront]
  split
  · rw [woosGraphicsBringToFront]
    split
    · exact ⟨_, Wakes.refl k⟩
    · next windows _ =>
        have hwindows : Wakes false k { k with windows := windows } :=
          ⟨k.heap, windows, k.timer, k.input, rfl⟩
        exact ⟨_, hwindows.trans (windowChanged_wakes _)⟩
  · exact ⟨_, Wakes.refl k⟩

/-- Destroying the windows of a thread has a result when the windows have their buffers. -/
theorem destroyLoop_backed (threadId : UInt32) {n : Nat} {k : Kernel} {ps : List UInt64}
    (hk : k.winMgr.Backed ps) (hn : k.windows.windows.length < n) :
  ∃ k', destroyLoop threadId n k = some k' ∧ k'.winMgr.Backed ps
  := by
  induction n generalizing k with
  | zero => omega
  | succ n ih =>
      rw [destroyLoop]
      dsimp only
      by_cases htarget : k.windows.topOfThread threadId = 0
      · rw [if_pos htarget]
        exact ⟨k, rfl, hk⟩
      · obtain ⟨m, r, hdestroy, hm, hstack⟩ :=
          WinMgr.woosGraphicsDestroyWindow_backed hk (k.windows.topOfThread threadId)
        obtain ⟨v, s, hremove⟩ := WindowStack.remove_topOfThread htarget
        have hlength := WindowStack.remove_length hremove
        have hs := hstack v s hremove
        rw [if_neg htarget, woosGraphicsDestroyWindow, hdestroy]
        simp only [Option.bind_eq_bind, Option.bind_some]
        have hmgr : (if r = 0 then
            windowChanged { k with heap := m.heap, windows := m.stack }
            else { k with heap := m.heap, windows := m.stack }).winMgr = m := by
          split
          · rw [windowChanged, schedUnblockAll, inputPush]
            split
            · rfl
            · rfl
          · rfl
        apply ih
        · rw [hmgr]
          exact hm
        · have hwindows := congrArg (fun m => m.stack.windows.length) hmgr
          dsimp only [winMgr] at hwindows
          rw [hwindows, hs]
          omega

/-! ### Switching -/

/-- The kernel in which the schedule functions switch. -/
def save (k : Kernel) (rsp : UInt64) : Kernel := { k with sched := saveCurrent k.sched rsp }

section

@[simp]
theorem save_sched (k : Kernel) (rsp : UInt64) :
  (k.save rsp).sched = saveCurrent k.sched rsp
  := rfl

theorem saveCurrent_state (s : Sched) (rsp : UInt64) (i : Nat) :
  (saveCurrent s rsp).state i
    = if i = s.current ∧ s.state i = .running then .ready else s.state i
  := by
  have hsave := s.modify_state (f := fun t => { t with rsp := rsp }) (j := s.current) rfl
  rw [saveCurrent]
  rw [Sched.modify_current, hsave]
  by_cases hrunning : s.state s.current = .running
  · rw [if_pos hrunning]
    by_cases hi : i = s.current
    · subst hi
      rw [Sched.setState_state_self, if_pos ⟨rfl, hrunning⟩]
    · rw [Sched.setState_state_ne _ _ hi, hsave, if_neg (fun h => hi h.1)]
  · rw [if_neg hrunning, hsave, if_neg]
    rintro ⟨rfl, hcon⟩
    exact hrunning hcon

theorem saveCurrent_threads_ne (s : Sched) (rsp : UInt64) {i : Nat} (hi : i ≠ s.current) :
  (saveCurrent s rsp).threads i = s.threads i
  := by
  rw [saveCurrent]
  split
  · rw [Sched.setState, Sched.modify_current, Sched.modify_threads_ne _ _ hi,
      Sched.modify_threads_ne _ _ hi]
  · rw [Sched.modify_threads_ne _ _ hi]

theorem saveCurrent_rsp (s : Sched) (rsp : UInt64) :
  ((saveCurrent s rsp).threads s.current).rsp = rsp
  := by
  rw [saveCurrent]
  split
  · rw [Sched.setState, Sched.modify_current, Sched.modify_threads_self, Sched.modify_threads_self]
  · rw [Sched.modify_threads_self]

@[simp]
theorem saveCurrent_numThreads (s : Sched) (rsp : UInt64) :
  (saveCurrent s rsp).numThreads = s.numThreads
  := by
  rw [saveCurrent]
  split
  · rfl
  · rfl

@[simp]
theorem saveCurrent_current (s : Sched) (rsp : UInt64) :
  (saveCurrent s rsp).current = s.current
  := by
  rw [saveCurrent]
  split
  · rfl
  · rfl

theorem saveCurrent_same (s : Sched) (rsp : UInt64) (i : Nat) :
  (s.threads i).Same ((saveCurrent s rsp).threads i)
  := by
  by_cases hi : i = s.current
  · subst hi
    rw [saveCurrent]
    split
    · rw [Sched.setState, Sched.modify_current, Sched.modify_threads_self,
        Sched.modify_threads_self]
      rfl
    · rw [Sched.modify_threads_self]
      rfl
  · rw [saveCurrent_threads_ne s rsp hi]
    rfl

theorem switchTo_state (k : Kernel) (next i : Nat) :
  (k.switchTo next).1.sched.state i = if i = next then .running else k.sched.state i
  := by
  have hsave := k.sched.modify_state (f := fun t => { t with fpuState := k.cpu.fpu })
    (j := k.sched.current) rfl
  by_cases hi : i = next
  · subst hi
    rw [if_pos rfl]
    exact Sched.setState_state_self _ _
  · rw [if_neg hi, ← hsave]
    exact Sched.setState_state_ne _ _ hi

theorem switchTo_same (k : Kernel) (next i : Nat) :
  (k.sched.threads i).Same ((k.switchTo next).1.sched.threads i)
  := by
  have hmodify : ∀ (s : Sched) (j : Nat) (f : Thread → Thread), (∀ t : Thread, t.Same (f t))
      → (s.threads i).Same ((s.modify j f).threads i) := by
    intro s j f hf
    by_cases hi : i = j
    · subst hi
      rw [Sched.modify_threads_self]
      apply hf
    · rw [Sched.modify_threads_ne _ _ hi]
      rfl
  have hfirst := hmodify k.sched k.sched.current (fun t => { t with fpuState := k.cpu.fpu })
    (fun _ => rfl)
  apply hfirst.trans
  exact hmodify _ next (fun t => { t with state := .running }) (fun _ => rfl)

theorem switchTo_rsp (k : Kernel) (next i : Nat) :
  ((k.switchTo next).1.sched.threads i).rsp = (k.sched.threads i).rsp
  := by
  have hmodify : ∀ (s : Sched) (j : Nat) (f : Thread → Thread), (∀ t, (f t).rsp = t.rsp)
      → ((s.modify j f).threads i).rsp = (s.threads i).rsp := by
    intro s j f hf
    by_cases hi : i = j
    · subst hi
      rw [Sched.modify_threads_self, hf]
    · rw [Sched.modify_threads_ne _ _ hi]
  have hfirst := hmodify k.sched k.sched.current (fun t => { t with fpuState := k.cpu.fpu })
    (fun _ => rfl)
  rw [← hfirst]
  exact hmodify _ next (fun t => { t with state := .running }) (fun _ => rfl)

/-- `schedule_interrupt` leaves everything as it is when there is only one thread, forces the
current thread to run when no thread is ready, and otherwise switches to one that is. -/
theorem roundRobin_cases (k : Kernel) (rsp : UInt64) :
  (k.roundRobin rsp = (k, 0) ∧ (k.sched.ready = false ∨ k.sched.numThreads ≤ 1))
    ∨ (k.roundRobin rsp
          = ({ k with sched := (saveCurrent k.sched rsp).setState k.sched.current .running }, 0)
        ∧ ∀ i < k.sched.numThreads, (saveCurrent k.sched rsp).state i ≠ .ready)
    ∨ ∃ next < k.sched.numThreads, (saveCurrent k.sched rsp).state next = .ready
        ∧ k.roundRobin rsp = (k.save rsp).switchTo next
  := by
  rw [roundRobin]
  by_cases hguard : k.sched.ready = false ∨ k.sched.numThreads ≤ 1
  · left
    rw [if_pos hguard]
    exact ⟨rfl, hguard⟩
  · have hstart : (k.sched.current + 1) % k.sched.numThreads < k.sched.numThreads :=
      Nat.mod_lt _ (by omega)
    right
    rw [if_neg hguard]
    dsimp only
    rw [saveCurrent_current, saveCurrent_numThreads]
    split
    case isTrue hnone =>
      left
      use rfl
      intro i hi hready
      apply hnone
      rw [← saveCurrent_numThreads k.sched rsp] at hi hstart ⊢
      apply Sched.nextReady_ready _ hstart hi hready
    case isFalse hready =>
      right
      rw [← saveCurrent_numThreads k.sched rsp] at hstart
      have hlt := Sched.nextReady_lt _ k.sched.numThreads hstart
      rw [saveCurrent_numThreads] at hlt
      exact ⟨_, hlt, not_not.mp hready, rfl⟩

/-- `schedule_irq` leaves everything as it is, or switches to another thread, which is ready,
or is the first when the current one does not run. -/
theorem switchToBest_cases (k : Kernel) (rsp : UInt64) :
  k.switchToBest rsp = (k, 0)
    ∨ ∃ next, next ≠ k.sched.current
        ∧ ((next < k.sched.numThreads ∧ k.sched.state next = .ready)
          ∨ (next = 0 ∧ k.sched.state k.sched.current ≠ .running))
        ∧ k.switchToBest rsp = (k.save rsp).switchTo next
  := by
  rw [switchToBest]
  split
  case isTrue => exact Or.inl rfl
  case isFalse =>
    dsimp only
    split
    case isTrue => exact Or.inl rfl
    case isFalse hne =>
      right
      refine ⟨k.sched.bestReady, hne, ?_, rfl⟩
      rcases k.sched.bestReady_spec with hdefault | hready
      · right
        rw [hdefault] at hne ⊢
        rw [Sched.irqDefault] at hne ⊢
        split
        case isTrue hrunning => simp [hrunning] at hne
        case isFalse hrunning => exact ⟨rfl, hrunning⟩
      · left
        exact hready

end

end Kernel
