import Woos.Sched.Calls

/-!
# The states of threads

The scheduler as a state machine: `Sched.Valid` is the invariant of the thread table, and
`Kernel.StepOk` says what a call may do to the states of threads, and what a switch saves and
installs.  Both hold for every call of every run in which the first thread neither blocks nor
exits.
-/

/-- The current thread runs, no other does, and the first thread is ready unless it runs. -/
structure Sched.Valid (s : Sched) : Prop extends s.Main where
  ready : s.ready = true
  running : s.state s.current = .running
  eq_current : ∀ i < s.numThreads, s.state i = .running → i = s.current

namespace Kernel

/-- The calls of the state machine, of which the first thread does not make those that would
end it or make it wait. -/
def Schedulable (k : Kernel) : Call → Prop
  | .block _ | .exit _ => k.sched.current ≠ 0
  | .spawn _ => False
  | _ => True

/-- The call unblocks all threads. -/
def UnblocksAll (k : Kernel) : Call → Prop
  | .timer _ => k.sched.isYield = false ∧ k.timerWakes = true
  | .irq events _ => events ≠ [] ∧ k.inputRoom = true
  | .unblockAll | .exit _ => True
  | .send .. => k.ipc.head + 1 ≠ k.ipc.tail
  | _ => False

/-- The call makes a thread in the given slot of the table, unless it fails. -/
def MakesIn (k : Kernel) (c : Call) (i : Nat) : Prop :=
  (∃ entryPoint, c = .threadCreate entryPoint) ∧ i = k.sched.freeSlot

/-- What the call leaves of the thread that made it. -/
def leftState : Call → Option ThreadState
  | .block _ => some .blocked
  | .exit _ => some .terminated
  | _ => none

/-- The call switches: it saves the frame with which it came, and installs the frame, the kernel
stack and the address space of a thread that was ready. -/
structure Switches (k : Kernel) (c : Call) (k' : Kernel) (r : UInt64) : Prop where
  lt : k'.sched.current < k.sched.numThreads
  was_ready : k.sched.state k'.sched.current = .ready
    ∨ k.sched.state k'.sched.current = .blocked ∧ k.UnblocksAll c
  saved : (k'.sched.threads k.sched.current).rsp = c.frame
  frame : r = (k.sched.threads k'.sched.current).rsp
  kernelStackTop : k'.cpu.kernelStackTop = (k.sched.threads k'.sched.current).kernelStackTop
  rsp0 : k'.cpu.rsp0 = (k.sched.threads k'.sched.current).kernelStackTop
  cr3 : k'.cpu.cr3 = k.vmmSwitch (k.sched.threads k'.sched.current).cr3

/-- The entries agree on what a switch to the thread installs. -/
def SameContext (t u : Thread) : Prop :=
  u.rsp = t.rsp ∧ u.kernelStackTop = t.kernelStackTop ∧ u.cr3 = t.cr3

/-- What a call that goes on at the frame `r`, `0` for the frame it came with, may do. -/
structure StepOk (k : Kernel) (c : Call) (k' : Kernel) (r : UInt64) : Prop where
  valid : k'.sched.Valid
  terminated : ∀ i < k.sched.numThreads, k.sched.state i = .terminated
    → k'.sched.state i ≠ .terminated → k.MakesIn c i
  blocked : ∀ i < k.sched.numThreads, k.sched.state i = .blocked → k'.sched.state i ≠ .blocked
    → k.UnblocksAll c
  left : ∀ st, leftState c = some st → k'.sched.state k.sched.current = st
  switch : k'.sched.current ≠ k.sched.current → Switches k c k' r
  stay : k'.sched.current = k.sched.current → r = 0 ∨ r = c.frame
  kept : ∀ i < k.sched.numThreads, i ≠ k.sched.current → ¬ k.MakesIn c i
    → SameContext (k.sched.threads i) (k'.sched.threads i)

/-- With no thread that is ready or made ready by the call, the current thread continues. -/
def Continues (k : Kernel) (c : Call) (k' : Kernel) (r : UInt64) : Prop :=
  (∀ i < k.sched.numThreads, k.sched.state i ≠ .ready) → ¬ k.UnblocksAll c
    → k'.sched.current = k.sched.current ∧ k'.sched.state k.sched.current = .running
      ∧ (r = 0 ∨ r = c.frame)

theorem StepOk.continues {k k' : Kernel} {c : Call} {r : UInt64} (h : StepOk k c k' r) :
  Continues k c k' r
  := by
  intro hnone hno
  have hcurrent : k'.sched.current = k.sched.current := by
    by_contra hne
    have hswitch := h.switch hne
    rcases hswitch.was_ready with hready | ⟨-, hcon⟩
    · exact hnone _ hswitch.lt hready
    · exact hno hcon
  use hcurrent
  constructor
  · rw [← hcurrent, h.valid.running]
  · exact h.stay hcurrent

/-! ### Before the switch -/

/-- What a call does before it schedules: the blocked threads are ready now when `b` is `true`,
and the state of the current thread is `st`. -/
structure Prepared (b : Bool) (st : ThreadState) (k k' : Kernel) : Prop where
  current : k'.sched.current = k.sched.current
  numThreads : k'.sched.numThreads = k.sched.numThreads
  ready : k'.sched.ready = k.sched.ready
  kernelPml4 : k'.kernelPml4 = k.kernelPml4
  state : ∀ i < k.sched.numThreads, k'.sched.state i = if i = k.sched.current then st
    else if b = true ∧ k.sched.state i = .blocked then .ready else k.sched.state i
  context : ∀ i, SameContext (k.sched.threads i) (k'.sched.threads i)

section

variable {k k₁ k' : Kernel} {c : Call} {b : Bool} {st : ThreadState} {rsp : UInt64}

theorem SameContext.trans {t u v : Thread} (h : SameContext t u) (h' : SameContext u v) :
  SameContext t v
  := ⟨h'.1.trans h.1, h'.2.1.trans h.2.1, h'.2.2.trans h.2.2⟩

theorem sameContext_of_same {t u : Thread} (h : t.Same u) (hrsp : u.rsp = t.rsp) :
  SameContext t u
  := by
  rw [Thread.Same] at h
  rw [h]
  exact ⟨hrsp, rfl, rfl⟩

theorem wake_context (s : Sched) (b : Bool) (i : Nat) :
  SameContext (s.threads i) ((s.wake b).threads i)
  := sameContext_of_same (s.wake_same b i) (s.wake_rsp b i)

theorem Prepared.isYield (h : Prepared b st k k₁) (isYield : Bool) :
  Prepared b st k { k₁ with sched := { k₁.sched with isYield := isYield } }
  := ⟨h.current, h.numThreads, h.ready, h.kernelPml4, h.state, h.context⟩

/-- A call that only wakes threads leaves the current thread running. -/
theorem Wakes.prepared (hk : k.sched.Valid) (h : Wakes b k k₁) :
  Prepared b .running k k₁
  := by
  have hsched := h.sched
  constructor
  case current => rw [hsched, Sched.wake_current]
  case numThreads => rw [hsched, Sched.wake_numThreads]
  case ready => rw [hsched, Sched.wake_ready]
  case kernelPml4 => exact h.kernelPml4
  case state =>
    intro i hi
    rw [hsched, Sched.wake_state]
    by_cases hcurrent : i = k.sched.current
    · subst hcurrent
      rw [if_pos rfl, hk.running, if_neg]
      exact fun hcon => nomatch hcon.2.2
    · rw [if_neg hcurrent]
      simp only [hi, true_and]
  case context =>
    rw [hsched]
    apply wake_context

theorem Prepared.wake {k₂ : Kernel} {d : Bool} (h : Prepared b st k k₁) (hst : st ≠ .blocked)
    (hwakes : Wakes d k₁ k₂) :
  Prepared (b || d) st k k₂
  := by
  have hsched := hwakes.sched
  constructor
  case current => rw [hsched, Sched.wake_current, h.current]
  case numThreads => rw [hsched, Sched.wake_numThreads, h.numThreads]
  case ready => rw [hsched, Sched.wake_ready, h.ready]
  case kernelPml4 => rw [hwakes.kernelPml4, h.kernelPml4]
  case state =>
    intro i hi
    rw [hsched, Sched.wake_state, h.numThreads, h.state i hi]
    by_cases hcurrent : i = k.sched.current
    · rw [if_pos hcurrent, if_pos hcurrent, if_neg]
      exact fun hcon => hst hcon.2.2
    · rw [if_neg hcurrent, if_neg hcurrent]
      cases b with
      | true =>
          by_cases hblocked : k.sched.state i = .blocked
          · simp [hblocked]
          · simp [hblocked]
      | false => simp [hi]
  case context =>
    rw [hsched]
    exact fun i => (h.context i).trans (wake_context k₁.sched d i)

/-- A change of the state of the current thread, after all others have been woken when `b` is
`true`. -/
theorem setCurrent_prepared (k₁ : Kernel) {s : Sched} (hs : s = k.sched.wake b)
    (f : Thread → Thread)
    (hstate : ∀ t, (f t).state = st) (hcontext : ∀ t, SameContext t (f t)) :
  Prepared b st k { k₁ with kernelPml4 := k.kernelPml4, sched := s.modify k.sched.current f }
  := by
  subst hs
  constructor
  case current => exact Sched.wake_current _ _
  case numThreads => exact Sched.wake_numThreads _ _
  case ready => exact Sched.wake_ready _ _
  case kernelPml4 => rfl
  case state =>
    intro i hi
    by_cases hcurrent : i = k.sched.current
    · subst hcurrent
      rw [if_pos rfl, Sched.state, Sched.modify_threads_self, hstate]
    · rw [if_neg hcurrent, Sched.state, Sched.modify_threads_ne _ _ hcurrent]
      have hwake := k.sched.wake_state b i
      simp only [hi, true_and] at hwake
      exact hwake
  case context =>
    intro i
    apply (wake_context k.sched b i).trans
    by_cases hcurrent : i = k.sched.current
    · subst hcurrent
      dsimp only
      rw [Sched.modify_threads_self]
      apply hcontext
    · dsimp only
      rw [Sched.modify_threads_ne _ _ hcurrent]
      exact ⟨rfl, rfl, rfl⟩

theorem Prepared.main (hk : k.sched.Valid) (h : Prepared b st k k₁)
    (hst : st = .running ∨ k.sched.current ≠ 0) :
  k₁.sched.Main
  := by
  constructor
  case current_lt =>
    rw [h.current, h.numThreads]
    exact hk.current_lt
  case state_zero =>
    rw [h.state 0 hk.numThreads_pos, h.current]
    by_cases hcurrent : k.sched.current = 0
    · rw [if_pos hcurrent.symm, if_pos hcurrent]
      rcases hst with hst | hcon
      · exact hst
      · exact absurd hcurrent hcon
    · have hready : k.sched.state 0 = .ready := by rw [hk.state_zero, if_neg hcurrent]
      rw [if_neg (fun hcon => hcurrent hcon.symm), if_neg hcurrent, hready, if_neg]
      exact fun hcon => nomatch hcon.2

/-! ### The switch -/

theorem leftState_ne_running (h : leftState c = some st) :
  st ≠ .running
  := by
  cases c with
  | block rsp =>
      cases h
      nofun
  | exit rsp =>
      cases h
      nofun
  | _ => cases h

/-- A prepared call that stays at the thread that runs. -/
theorem stepOk_of_stay (hk : k.sched.Valid) (hp : Prepared b .running k k')
    (hb : b = true → k.UnblocksAll c) (hleft : leftState c = none) :
  StepOk k c k' 0
  where
  valid := by
    refine ⟨hp.main hk (Or.inl rfl), ?_, ?_, ?_⟩
    · rw [hp.ready, hk.ready]
    · rw [hp.current, hp.state _ hk.current_lt, if_pos rfl]
    · intro i hi hrunning
      rw [hp.numThreads] at hi
      rw [hp.current]
      rw [hp.state i hi] at hrunning
      split at hrunning
      case isTrue h => exact h
      case isFalse =>
        split at hrunning
        · cases hrunning
        · exact hk.eq_current i hi hrunning
  terminated i hi hterminated hleaves := by
    rw [hp.state i hi, hterminated, if_neg, if_neg] at hleaves
    · exact absurd rfl hleaves
    · exact fun hcon => nomatch hcon.2
    · rintro rfl
      rw [hk.running] at hterminated
      cases hterminated
  blocked i hi hblocked hleaves := by
    cases b with
    | true => exact hb rfl
    | false =>
        rw [hp.state i hi, hblocked, if_neg, if_neg] at hleaves
        · exact absurd rfl hleaves
        · exact fun hcon => nomatch hcon.1
        · rintro rfl
          rw [hk.running] at hblocked
          cases hblocked
  left st h := by
    rw [hleft] at h
    cases h
  switch h := absurd hp.current h
  stay _ := Or.inl rfl
  kept i _ _ _ := hp.context i

section

variable {next : Nat} (hk : k.sched.Valid) (hp : Prepared b st k k₁)

/-- The threads other than the one that leaves and the one that comes. -/
theorem switchTo_state_other (hp : Prepared b st k k₁) {i : Nat} (hi : i < k.sched.numThreads)
    (hcurrent : i ≠ k.sched.current) (hnext : i ≠ next) :
  ((k₁.save rsp).switchTo next).1.sched.state i
    = if b = true ∧ k.sched.state i = .blocked then .ready else k.sched.state i
  := by
  rw [switchTo_state, if_neg hnext, save_sched, saveCurrent_state, hp.current,
    if_neg (fun hcon => hcurrent hcon.1), hp.state i hi, if_neg hcurrent]

/-- The thread to which a call switches was ready, or has been unblocked by the call. -/
theorem ready_before (hp : Prepared b st k k₁) (hlt : next < k₁.sched.numThreads)
    (hready : (saveCurrent k₁.sched rsp).state next = .ready) (hne : next ≠ k.sched.current) :
  k.sched.state next = .ready ∨ k.sched.state next = .blocked ∧ b = true
  := by
  rw [hp.numThreads] at hlt
  rw [saveCurrent_state, hp.current, if_neg (fun hcon => hne hcon.1), hp.state next hlt,
    if_neg hne] at hready
  split at hready
  case isTrue h => exact Or.inr h.symm
  case isFalse => exact Or.inl hready

/-- What a switch saves is the frame of the thread that leaves. -/
theorem switchTo_saves (k : Kernel) (rsp : UInt64) (next : Nat) :
  (((k.save rsp).switchTo next).1.sched.threads k.sched.current).rsp = rsp
  := by
  rw [switchTo_rsp, save_sched]
  exact saveCurrent_rsp k.sched rsp

/-- The threads that have not been running keep what a switch to them installs. -/
theorem switchTo_context (k : Kernel) (rsp : UInt64) (next : Nat) {i : Nat}
    (hi : i ≠ k.sched.current) :
  SameContext (k.sched.threads i) (((k.save rsp).switchTo next).1.sched.threads i)
  := by
  have hsame := (k.save rsp).switchTo_same next i
  have hrsp := (k.save rsp).switchTo_rsp next i
  rw [save_sched, saveCurrent_threads_ne _ _ hi] at hsame hrsp
  exact sameContext_of_same hsame hrsp

/-- After a switch only the thread that comes runs. -/
theorem switchTo_eq_next (hk : k.sched.Valid) (hp : Prepared b st k k₁) {i : Nat}
    (hi : i < k.sched.numThreads)
    (hrunning : ((k₁.save rsp).switchTo next).1.sched.state i = .running) :
  i = next
  := by
  by_contra hne
  by_cases hcurrent : i = k.sched.current
  · rw [switchTo_state, if_neg hne, save_sched, saveCurrent_state] at hrunning
    split at hrunning
    case isTrue => cases hrunning
    case isFalse hnot => exact hnot ⟨hcurrent.trans hp.current.symm, hrunning⟩
  · rw [switchTo_state_other hp hi hcurrent hne] at hrunning
    split at hrunning
    · cases hrunning
    · exact hcurrent (hk.eq_current i hi hrunning)

/-- A prepared call that switches to a thread that is ready. -/
theorem stepOk_of_switchTo (hk : k.sched.Valid) (hp : Prepared b st k k₁)
    (hb : b = true → k.UnblocksAll c) (hmain : st = .running ∨ k.sched.current ≠ 0)
    (hst : st ≠ .ready) (hleft : ∀ st', leftState c = some st' → st = st')
    (hlt : next < k₁.sched.numThreads) (hready : (saveCurrent k₁.sched c.frame).state next = .ready) :
  StepOk k c ((k₁.save c.frame).switchTo next).1 ((k₁.save c.frame).switchTo next).2
  := by
  have hkeeps := Schedules.keeps (hp.main hk hmain) (Or.inr ⟨next, hlt, hready, rfl⟩)
  have hwas := ready_before hp hlt hready
  constructor
  case valid =>
    refine ⟨hkeeps.2, ?_, ?_, ?_⟩
    · have hsame : (saveCurrent k₁.sched c.frame).ready = k₁.sched.ready := by
        rw [saveCurrent]
        split
        · rfl
        · rfl
      exact (hsame.trans hp.ready).trans hk.ready
    · exact (switchTo_state _ next next).trans (if_pos rfl)
    · intro i hi hrunning
      rw [hkeeps.1.numThreads, hp.numThreads] at hi
      exact switchTo_eq_next hk hp hi hrunning
  case terminated =>
    intro i hi hterminated hleaves
    have hcurrent : i ≠ k.sched.current := by
      rintro rfl
      rw [hk.running] at hterminated
      cases hterminated
    have hnext : i ≠ next := by
      rintro rfl
      rcases hwas hcurrent with hcon | ⟨hcon, -⟩
      · rw [hcon] at hterminated
        cases hterminated
      · rw [hcon] at hterminated
        cases hterminated
    rw [switchTo_state_other hp hi hcurrent hnext, hterminated, if_neg] at hleaves
    · exact absurd rfl hleaves
    · rintro ⟨-, hcon⟩
      cases hcon
  case blocked =>
    intro i hi hblocked hleaves
    have hcurrent : i ≠ k.sched.current := by
      rintro rfl
      rw [hk.running] at hblocked
      cases hblocked
    by_cases hnext : i = next
    · subst hnext
      rcases hwas hcurrent with hcon | ⟨-, hb'⟩
      · rw [hcon] at hblocked
        cases hblocked
      · exact hb hb'
    · rw [switchTo_state_other hp hi hcurrent hnext, hblocked] at hleaves
      cases b with
      | true => exact hb rfl
      | false =>
          have hnot : ¬ (false = true ∧ ThreadState.blocked = ThreadState.blocked) := by
            rintro ⟨hcon, -⟩
            cases hcon
          rw [if_neg hnot] at hleaves
          exact absurd rfl hleaves
  case left =>
    intro st' hst'
    have hne := leftState_ne_running hst'
    obtain rfl := hleft st' hst'
    have hsaved : (saveCurrent k₁.sched c.frame).state k.sched.current = st := by
      rw [saveCurrent_state, hp.state _ hk.current_lt, if_pos rfl, if_neg]
      exact fun hcon => hne hcon.2
    have hcurrent : k.sched.current ≠ next := by
      rintro rfl
      rw [hsaved] at hready
      exact hst hready
    rw [switchTo_state, if_neg hcurrent]
    exact hsaved
  case switch =>
    intro hne
    have hne' : next ≠ k₁.sched.current := by
      rw [hp.current]
      exact hne
    have hcontext := (hp.context next).trans (switchTo_context k₁ c.frame next hne')
    constructor
    case lt =>
      rw [← hp.numThreads]
      exact hlt
    case was_ready => exact (hwas hne).imp id (fun h => ⟨h.1, hb h.2⟩)
    case saved =>
      rw [← hp.current]
      apply switchTo_saves
    case frame => exact hcontext.1
    case kernelStackTop => exact hcontext.2.1
    case rsp0 => exact hcontext.2.1
    case cr3 =>
      have hinstalled : ((k₁.save c.frame).switchTo next).1.cpu.cr3
          = k₁.vmmSwitch (((k₁.save c.frame).switchTo next).1.sched.threads next).cr3 := rfl
      rw [hinstalled, hcontext.2.2, vmmSwitch, vmmSwitch, hp.kernelPml4]
      rfl
  case stay =>
    intro heq
    have heq' : next = k₁.sched.current := heq.trans hp.current.symm
    subst heq'
    right
    apply switchTo_saves
  case kept =>
    intro i _ hi _
    rw [← hp.current] at hi
    exact (hp.context i).trans (switchTo_context k₁ c.frame next hi)

end

/-- A prepared call that leaves the current thread running. -/
theorem stepOk_of_schedules {r : Kernel × UInt64} (hk : k.sched.Valid)
    (hp : Prepared b .running k k₁) (hb : b = true → k.UnblocksAll c) (hleft : leftState c = none)
    (hr : Schedules k₁ c.frame r) :
  StepOk k c r.1 r.2
  := by
  rcases hr with rfl | ⟨next, hlt, hready, rfl⟩
  · exact stepOk_of_stay hk hp hb hleft
  · refine stepOk_of_switchTo hk hp hb (Or.inl rfl) nofun ?_ hlt hready
    intro st hst
    rw [hleft] at hst
    cases hst

/-- A call after which the current thread, which is not the first, does not run any more. -/
theorem stepOk_of_leave (hk : k.sched.Valid) (hp : Prepared b st k k₁)
    (hb : b = true → k.UnblocksAll c) (hcurrent : k.sched.current ≠ 0)
    (hst : st ≠ .ready) (hleft : leftState c = some st) :
  StepOk k c (k₁.roundRobin c.frame).1 (k₁.roundRobin c.frame).2
  := by
  have hmain := hp.main hk (Or.inr hcurrent)
  rcases roundRobin_switches hmain c.frame with ⟨-, hready | hone⟩ | ⟨next, hlt, hready, heq⟩
  · rw [hp.ready, hk.ready] at hready
    cases hready
  · have hlt := hk.current_lt
    rw [hp.numThreads] at hone
    omega
  · rw [heq]
    refine stepOk_of_switchTo hk hp hb (Or.inr hcurrent) hst ?_ hlt hready
    intro st' hst'
    exact Option.some.inj (hleft.symm.trans hst')

/-- A call that writes an entry that is not in use, or makes a thread there. -/
theorem stepOk_of_slot {slot : Nat} {t : Thread} (hk : k.sched.Valid) (hleft : leftState c = none)
    (hslot : slot ≠ 0) (hfree : slot < k.sched.numThreads → k.sched.state slot = .terminated
      ∧ k.MakesIn c slot)
    (hthreads : k'.sched.threads = Function.update k.sched.threads slot t)
    (ht : t.state = .ready
      ∨ t.state = k.sched.state slot ∧ k'.sched.numThreads = k.sched.numThreads)
    (hcurrent : k'.sched.current = k.sched.current) (hready : k'.sched.ready = k.sched.ready)
    (hnum : k'.sched.numThreads = k.sched.numThreads
      ∨ slot = k.sched.numThreads ∧ k'.sched.numThreads = k.sched.numThreads + 1) :
  StepOk k c k' 0
  := by
  have hne : k.sched.current ≠ slot := by
    rintro heq
    have hterminated := (hfree (heq ▸ hk.current_lt)).1
    rw [← heq, hk.running] at hterminated
    cases hterminated
  have hstate : ∀ i, i ≠ slot → k'.sched.state i = k.sched.state i := by
    intro i hi
    rw [Sched.state, hthreads, Function.update_of_ne hi]
    rfl
  have hstate' : k'.sched.state slot = t.state := by
    rw [Sched.state, hthreads, Function.update_self]
  constructor
  case valid =>
    refine ⟨hk.toMain.of_eq hcurrent ?_ (hstate 0 hslot.symm), ?_, ?_, ?_⟩
    · omega
    · rw [hready, hk.ready]
    · rw [hcurrent, hstate _ hne, hk.running]
    · intro i hi hrunning
      rw [hcurrent]
      by_cases his : i = slot
      · subst his
        rw [hstate'] at hrunning
        rcases ht with ht | ⟨ht, hsame⟩
        · rw [ht] at hrunning
          cases hrunning
        · rw [hsame] at hi
          rw [ht] at hrunning
          exact hk.eq_current i hi hrunning
      · rw [hstate i his] at hrunning
        apply hk.eq_current i _ hrunning
        omega
  case terminated =>
    intro i hi hterminated hleaves
    by_cases his : i = slot
    · subst his
      exact (hfree hi).2
    · rw [hstate i his] at hleaves
      exact absurd hterminated hleaves
  case blocked =>
    intro i hi hblocked hleaves
    by_cases his : i = slot
    · subst his
      rw [(hfree hi).1] at hblocked
      cases hblocked
    · rw [hstate i his] at hleaves
      exact absurd hblocked hleaves
  case left =>
    intro st hst
    rw [hleft] at hst
    cases hst
  case switch => exact fun hcon => absurd hcurrent hcon
  case stay => exact fun _ => Or.inl rfl
  case kept =>
    intro i hi _ hmakes
    have his : i ≠ slot := by
      rintro rfl
      exact hmakes (hfree hi).2
    rw [hthreads, Function.update_of_ne his]
    exact ⟨rfl, rfl, rfl⟩

theorem stepOk_of_edits {slot : Nat} {t : Thread} (hk : k.sched.Valid)
    (hleft : leftState c = none) (hslot : slot ≠ 0)
    (hfree : slot < k.sched.numThreads → k.sched.state slot = .terminated ∧ k.MakesIn c slot)
    (h : Edits slot t k k') (hkeeps : KeepsEntry (k.sched.threads slot) t) :
  StepOk k c k' 0
  := by
  have hthreads := h.threads
  obtain ⟨phys, pmm, fpu, rfl⟩ := h
  exact stepOk_of_slot hk hleft hslot hfree hthreads (Or.inr ⟨hkeeps.state, rfl⟩) rfl rfl
    (Or.inl rfl)

theorem stepOk_of_creates {slot : Nat} {t : Thread} (hk : k.sched.Valid)
    (hleft : leftState c = none) (hslot : slot ≠ 0)
    (hfree : slot < k.sched.numThreads → k.sched.state slot = .terminated ∧ k.MakesIn c slot)
    (h : Creates slot t k k') :
  StepOk k c k' 0
  := by
  obtain ⟨hcurrent, hready, -⟩ := h.rest
  refine stepOk_of_slot hk hleft hslot hfree h.threads (Or.inl ?_) hcurrent hready ?_
  · obtain ⟨-, -, -, hstate, -⟩ := h
    exact hstate
  · rw [h.numThreads]
    split
    case isTrue heq => exact Or.inr ⟨heq, rfl⟩
    case isFalse => exact Or.inl rfl

/-! ### The calls -/

/-- A call that leaves the scheduler alone. -/
theorem prepared_of_sched_eq (k' : Kernel) (hk : k.sched.Valid) (hsched : k'.sched = k.sched)
    (hpml4 : k'.kernelPml4 = k.kernelPml4) :
  Prepared false .running k k'
  := by
  constructor
  case current => rw [hsched]
  case numThreads => rw [hsched]
  case ready => rw [hsched]
  case kernelPml4 => exact hpml4
  case state =>
    rw [hsched]
    exact ((Wakes.refl k).prepared hk).state
  case context =>
    rw [hsched]
    exact fun _ => ⟨rfl, rfl, rfl⟩

theorem scheduleInterrupt_stepOk (hk : k.sched.Valid) (rsp : UInt64) :
  StepOk k (.timer rsp) (k.scheduleInterrupt rsp).1 (k.scheduleInterrupt rsp).2
  := by
  rw [scheduleInterrupt]
  cases hyield : k.sched.isYield with
  | true =>
      have hp := ((Wakes.refl k).prepared hk).isYield false
      exact stepOk_of_schedules hk hp (by simp) rfl (roundRobin_schedules (hp.main hk (Or.inl rfl)) rsp)
  | false =>
      have hp := ((timerHandler_wakes k).prepared hk).isYield false
      exact stepOk_of_schedules hk hp (fun h => ⟨hyield, h⟩) rfl
        (roundRobin_schedules (hp.main hk (Or.inl rfl)) rsp)

theorem threadYield_stepOk (hk : k.sched.Valid) (rsp : UInt64) :
  StepOk k (.yield rsp) (k.threadYield rsp).1 (k.threadYield rsp).2
  := by
  have hp := ((Wakes.refl k).prepared hk).isYield false
  exact stepOk_of_schedules hk hp nofun rfl (roundRobin_schedules (hp.main hk (Or.inl rfl)) rsp)

theorem scheduleIrq_stepOk (hk : k.sched.Valid) (events : List InputEvent) (rsp : UInt64) :
  StepOk k (.irq events rsp) (k.scheduleIrq events rsp).1 (k.scheduleIrq events rsp).2
  := by
  have hp := (events_wakes k events).prepared hk
  refine stepOk_of_schedules hk hp ?_ rfl (switchToBest_schedules (hp.main hk (Or.inl rfl)) rsp)
  intro h
  rw [Bool.and_eq_true, Bool.not_eq_true', List.isEmpty_eq_false_iff] at h
  exact h

theorem schedBlockCurrent_stepOk (hk : k.sched.Valid) (rsp : UInt64) (hcurrent : k.sched.current ≠ 0) :
  StepOk k (.block rsp) (k.schedBlockCurrent rsp).1 (k.schedBlockCurrent rsp).2
  := by
  have hp := setCurrent_prepared (k := k) k (k.sched.wake_false).symm
    (fun t => { t with state := .blocked }) (fun _ => rfl) (fun _ => ⟨rfl, rfl, rfl⟩)
  exact stepOk_of_leave hk (hp.isYield false) nofun hcurrent nofun rfl

theorem threadExit_stepOk {r : Kernel × UInt64} (hk : k.sched.Valid)
    (hcurrent : k.sched.current ≠ 0) (h : k.threadExit rsp = some r) :
  StepOk k (.exit rsp) r.1 r.2
  := by
  obtain ⟨b, k₁, hwakes, rfl⟩ := threadExit_cases h
  have hended := setCurrent_prepared (k := k) (b := b) k₁ rfl
    (fun t => { t with state := .terminated, appPath := CString.empty }) (fun _ => rfl)
    (fun _ => ⟨rfl, rfl, rfl⟩)
  rw [← hwakes.kernelPml4] at hended
  have hp := hended.wake nofun (schedUnblockAll_wakes _)
  exact stepOk_of_leave hk (hp.isYield false) (fun _ => trivial) hcurrent nofun rfl

theorem threadCreate_stepOk (hk : k.sched.Valid) (entryPoint : UInt64) :
  StepOk k (.threadCreate entryPoint) (k.threadCreate entryPoint) 0
  := by
  obtain ⟨hpos, hfree, -⟩ := k.sched.freeSlot_spec hk.numThreads_pos
  have hfree' : k.sched.freeSlot < k.sched.numThreads → k.sched.state k.sched.freeSlot = .terminated
      ∧ k.MakesIn (.threadCreate entryPoint) k.sched.freeSlot := by
    intro hlt
    rcases hfree with ⟨-, hterminated⟩ | heq
    · exact ⟨hterminated, ⟨entryPoint, rfl⟩, rfl⟩
    · omega
  rcases k.threadCreate_cases entryPoint with ⟨-, t, hedits, hkeeps⟩ | ⟨-, -, t, hcreates, -⟩
  · exact stepOk_of_edits hk rfl hpos.ne' hfree' hedits hkeeps
  · exact stepOk_of_creates hk rfl hpos.ne' hfree' hcreates

theorem processCreate_stepOk (hk : k.sched.Valid) :
  StepOk k .processCreate k.processCreate 0
  := by
  have hfree : k.sched.numThreads < k.sched.numThreads
      → k.sched.state k.sched.numThreads = .terminated
        ∧ k.MakesIn .processCreate k.sched.numThreads :=
    fun hcon => absurd hcon (Nat.lt_irrefl _)
  rcases k.processCreate_cases with ⟨-, t, hedits, hkeeps⟩ | ⟨-, -, t, hcreates⟩
  · exact stepOk_of_edits hk rfl hk.numThreads_pos.ne' hfree hedits hkeeps
  · exact stepOk_of_creates hk rfl hk.numThreads_pos.ne' hfree hcreates

theorem ipcSend_stepOk (hk : k.sched.Valid) (destId type arg1 arg2 arg3 arg4 arg5 : UInt32) :
  StepOk k (.send destId type arg1 arg2 arg3 arg4 arg5)
    (k.ipcSend destId type arg1 arg2 arg3 arg4 arg5) 0
  := by
  rw [ipcSend]
  split
  case isTrue hsent =>
    have hp := (prepared_of_sched_eq { k with ipc := (woosIpcSend k.ipc
      k.sched.schedCurrentThreadId destId type arg1 arg2 arg3 arg4 arg5).2 } hk rfl rfl).wake (by simp)
      (schedUnblockAll_wakes _)
    apply stepOk_of_stay hk hp _ rfl
    rintro - hfull
    rw [woosIpcSend, if_pos hfull] at hsent
    cases hsent
  case isFalse => exact stepOk_of_stay hk (prepared_of_sched_eq _ hk rfl rfl) (by simp) rfl

theorem call_stepOk {r : Kernel × UInt64} (hk : k.sched.Valid) (hc : k.Schedulable c)
    (h : k.call c = some r) :
  StepOk k c r.1 r.2
  := by
  cases c with
  | timer rsp =>
      obtain rfl := Option.some.inj h
      exact scheduleInterrupt_stepOk hk rsp
  | yield rsp =>
      obtain rfl := Option.some.inj h
      exact threadYield_stepOk hk rsp
  | irq events rsp =>
      obtain rfl := Option.some.inj h
      exact scheduleIrq_stepOk hk events rsp
  | block rsp =>
      obtain rfl := Option.some.inj h
      exact schedBlockCurrent_stepOk hk rsp hc
  | unblockAll =>
      obtain rfl := Option.some.inj h
      exact stepOk_of_stay hk ((schedUnblockAll_wakes k).prepared hk) (fun _ => trivial) rfl
  | exit rsp => exact threadExit_stepOk hk hc h
  | threadCreate entryPoint =>
      obtain rfl := Option.some.inj h
      exact threadCreate_stepOk hk entryPoint
  | processCreate =>
      obtain rfl := Option.some.inj h
      exact processCreate_stepOk hk
  | spawn path => exact hc.elim
  | send destId type arg1 arg2 arg3 arg4 arg5 =>
      obtain rfl := Option.some.inj h
      exact ipcSend_stepOk hk destId type arg1 arg2 arg3 arg4 arg5
  | recv =>
      obtain rfl := Option.some.inj h
      exact stepOk_of_stay hk (prepared_of_sched_eq _ hk rfl rfl) nofun rfl
  | other k' =>
      obtain rfl := Option.some.inj h
      exact stepOk_of_stay hk (prepared_of_sched_eq _ hk rfl rfl) nofun rfl

theorem threadExit_total {ps : List UInt64} (hps : k.winMgr.Backed ps) (rsp : UInt64) :
  ∃ r, k.threadExit rsp = some r
  := by
  obtain ⟨k₁, hdestroy, -⟩ := destroyLoop_backed k.sched.schedCurrentThreadId hps
    (Nat.lt_succ_self _)
  rw [threadExit, woosGraphicsDestroyThreadWindows, hdestroy]
  exact ⟨_, rfl⟩

/-- Every call has a result, `thread_exit` when the windows own their buffers. -/
theorem call_total (k : Kernel) (c : Call)
    (hexit : ∀ rsp, c = .exit rsp → ∃ ps, k.winMgr.Backed ps) :
  ∃ r, k.call c = some r
  := by
  cases c with
  | exit rsp =>
      obtain ⟨ps, hps⟩ := hexit rsp rfl
      exact threadExit_total hps rsp
  | _ => exact ⟨_, rfl⟩

/-! ### Runs -/

theorem schedInit_valid (k : Kernel) :
  k.schedInit.sched.Valid
  := by
  have hmain := schedInit_main k
  exact ⟨hmain, rfl, hmain.state_zero, fun i hi _ => Nat.lt_one_iff.mp hi⟩

end

/-- In every state that calls reach from the initial one, the thread table is valid, every call
has a result, and it changes the states of threads and switches between them as `StepOk`
says. -/
theorem states_valid (k₀ : Kernel) (calls : List Call)
    (hcalls : Run.Guarded step Schedulable k₀.schedInit calls) {k : Kernel}
    (hrun : Run.exec step k₀.schedInit calls = some k) :
  k.sched.Valid ∧ ∀ c, k.Schedulable c
    → ((∀ rsp, c = .exit rsp → ∃ ps, k.winMgr.Backed ps) → ∃ r, k.call c = some r)
      ∧ ∀ k' r, k.call c = some (k', r) → StepOk k c k' r ∧ Continues k c k' r
  := by
  have hstep : ∀ (k : Kernel) (c : Call) (k' : Kernel), k.sched.Valid → k.Schedulable c
      → k.step c = some k' → k'.sched.Valid := by
    intro k c k' hk hc hstep
    obtain ⟨r, hcall, rfl⟩ := Option.map_eq_some_iff.mp hstep
    exact (call_stepOk hk hc hcall).valid
  have hvalid : k.sched.Valid := Run.exec_safe hstep (schedInit_valid k₀) hcalls hrun
  use hvalid
  intro c hc
  use k.call_total c
  intro k' r h
  have hok := call_stepOk hvalid hc h
  exact ⟨hok, hok.continues⟩

/-- The case of a thread that is created, to which the first one yields, and which blocks. -/
theorem states_valid_block :
  ∃ k, Run.exec step boot.schedInit [.threadCreate 0x9000, .yield 0x8F000, .block 0x17F000] = some k
    ∧ k.sched.Valid
  := by
  have hcurrent : (Run.exec step boot.schedInit [.threadCreate 0x9000, .yield 0x8F000]).map
      (fun k => k.sched.current) = some 1 := by
    decide +kernel
  obtain ⟨k, hk, hone⟩ := Option.map_eq_some_iff.mp hcurrent
  have hguard : Run.Guarded step Schedulable boot.schedInit
      ([.threadCreate 0x9000, .yield 0x8F000] ++ [.block 0x17F000]) := by
    apply Run.guarded_concat
    · exact ⟨trivial, fun _ _ => ⟨trivial, fun _ _ => trivial⟩⟩
    · intro s hs
      obtain rfl := Option.some.inj (hk.symm.trans hs)
      rw [Schedulable, hone]
      exact one_ne_zero
  have hrun : Run.exec step boot.schedInit
      ([.threadCreate 0x9000, .yield 0x8F000] ++ [.block 0x17F000])
        = some (k.schedBlockCurrent 0x17F000).1 := by
    rw [Run.exec_append hk]
    rfl
  exact ⟨_, hrun, (states_valid boot _ hguard hrun).1⟩

end Kernel
