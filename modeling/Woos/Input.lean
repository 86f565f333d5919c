import Woos.Lib.CountedRing
import Woos.Lib.Run

/-!
# The input queue

`InputQueue` is the queue of input events of `input.c`, a circular buffer with a count of its
entries.  Waking the waiting threads after a push is left to the kernel.

`Fifo` is a list that takes a new entry as long as it is shorter than its capacity, and gives the
oldest one.  `fifo_run` says that every run of pushes and pops has the same results on both.
-/

/-- `input_event_type_t` -/
inductive InputEventType where
  | mouseMove
  | mouseButton
  | mouseRelease
  | timerTick
  | keyDown
  | keyUp
  | windowChange
  | mouseWheel
  deriving DecidableEq, Repr

/-- `input_event_t` -/
structure InputEvent where
  type : InputEventType
  x : UInt16
  y : UInt16
  buttons : UInt8
  deriving DecidableEq, Repr

/-- `input_queue_t` -/
structure InputQueue where
  buffer : Nat → InputEvent
  capacity : UInt16
  head : UInt16
  tail : UInt16
  size : UInt16
  dropped : UInt16

namespace InputQueue

/-- `INPUT_QUEUE_CAPACITY` -/
def queueCapacity : UInt16 := 256

/-- The queue after `input_init`, on a buffer with the given content. -/
def init (buffer : Nat → InputEvent) : InputQueue where
  buffer := buffer
  capacity := queueCapacity
  head := 0
  tail := 0
  size := 0
  dropped := 0

/-- `input_push`: whether there was room for the event, and the queue. -/
def inputPush (q : InputQueue) (event : InputEvent) : Bool × InputQueue :=
  if q.capacity ≤ q.size then
    (false, { q with dropped := q.dropped + 1 })
  else
    (true, { q with
      buffer := Function.update q.buffer q.tail.toNat event
      tail := (q.tail + 1) % q.capacity
      size := q.size + 1 })

/-- `input_pop`: the event, if there is one, and the queue. -/
def inputPop (q : InputQueue) : Option InputEvent × InputQueue :=
  if q.size = 0 then
    (none, q)
  else
    (some (q.buffer q.head.toNat), { q with
      head := (q.head + 1) % q.capacity
      size := q.size - 1 })

/-- `input_queue_size` -/
def inputQueueSize (q : InputQueue) : UInt32 := q.size.toUInt32

/-- A call of the queue. -/
inductive Call where
  | push (event : InputEvent)
  | pop

/-- What a call returns. -/
inductive Answer where
  | pushed (stored : Bool)
  | popped (event : Option InputEvent)
  deriving DecidableEq

/-- A call, one atomic step. -/
def call (q : InputQueue) : Call → Answer × InputQueue
  | .push event => let (stored, q) := q.inputPush event; (.pushed stored, q)
  | .pop => let (event, q) := q.inputPop; (.popped event, q)

end InputQueue

/-! ### Lists of bounded length -/

namespace Fifo

open InputQueue

/-- A new event goes to the end of the list, unless this has its full length. -/
def push (cap : Nat) (l : List InputEvent) (event : InputEvent) : Bool × List InputEvent :=
  if l.length < cap then (true, l ++ [event]) else (false, l)

/-- The first event, if there is one, is taken off the list. -/
def pop (l : List InputEvent) : Option InputEvent × List InputEvent := (l.head?, l.tail)

/-- A call of the list. -/
def call (cap : Nat) (l : List InputEvent) : Call → Answer × List InputEvent
  | .push event => let (stored, l) := push cap l event; (.pushed stored, l)
  | .pop => let (event, l) := pop l; (.popped event, l)

end Fifo

namespace InputQueue

/-- The queue holds the events of a list, the oldest first. -/
structure Holds (q : InputQueue) (l : List InputEvent) : Prop where
  capacity : q.capacity = queueCapacity
  head : q.head.toNat < 256
  size : q.size.toNat ≤ 256
  tail : q.tail.toNat = (q.head.toNat + q.size.toNat) % 256
  contents : CountedRing.contents q.buffer 256 q.head.toNat q.size.toNat = l

variable {q : InputQueue} {l : List InputEvent}

theorem Holds.length (h : q.Holds l) :
  l.length = q.size.toNat
  := by
  rw [← h.contents, CountedRing.length_contents]

theorem init_holds (buffer : Nat → InputEvent) :
  (init buffer).Holds []
  := ⟨rfl, Nat.zero_lt_succ 255, Nat.zero_le 256, rfl, rfl⟩

/-- The next index in the buffer. -/
theorem toNat_next {i : UInt16} (h : i.toNat < 256) :
  ((i + 1) % queueCapacity).toNat = (i.toNat + 1) % 256
  := by
  have hone : (1 : UInt16).toNat = 1 := rfl
  have hcapacity : queueCapacity.toNat = 256 := rfl
  have hsmall : (i.toNat + 1) % 2 ^ 16 = i.toNat + 1 := Nat.mod_eq_of_lt (by omega)
  rw [UInt16.toNat_mod, UInt16.toNat_add, hone, hcapacity, hsmall]

theorem inputPush_holds (h : q.Holds l) (event : InputEvent) :
  (q.inputPush event).1 = (Fifo.push 256 l event).1
    ∧ (q.inputPush event).2.Holds (Fifo.push 256 l event).2
  := by
  have hcapacity : q.capacity.toNat = 256 := congrArg UInt16.toNat h.capacity
  have htail : q.tail.toNat < 256 := by
    rw [h.tail]
    exact Nat.mod_lt _ (by decide)
  rw [inputPush, Fifo.push, h.length]
  by_cases hfull : q.capacity ≤ q.size
  · have hle := UInt16.le_iff_toNat_le.mp hfull
    rw [if_pos hfull, if_neg (by omega)]
    exact ⟨rfl, h.capacity, h.head, h.size, h.tail, h.contents⟩
  · have hlt : q.size.toNat < 256 := by
      rw [UInt16.le_iff_toNat_le] at hfull
      omega
    have hsize : (q.size + 1).toNat = q.size.toNat + 1 := by
      have hone : (1 : UInt16).toNat = 1 := rfl
      rw [UInt16.toNat_add, hone]
      omega
    rw [if_neg hfull, if_pos (by omega)]
    refine ⟨rfl, h.capacity, h.head, ?_, ?_, ?_⟩
    all_goals dsimp only
    · rw [hsize]
      omega
    · rw [hsize, h.capacity, toNat_next htail, h.tail]
      omega
    · rw [hsize, ← h.contents]
      apply CountedRing.contents_push event hlt
      · rw [← h.tail, Function.update_self]
      · intro k _ hne
        rw [← h.tail] at hne
        exact Function.update_of_ne hne _ _

theorem inputPop_holds (h : q.Holds l) :
  q.inputPop.1 = (Fifo.pop l).1 ∧ q.inputPop.2.Holds (Fifo.pop l).2
  := by
  have hzero : (0 : UInt16).toNat = 0 := rfl
  rw [inputPop, Fifo.pop]
  by_cases hempty : q.size = 0
  · have hnil : l = [] := List.eq_nil_of_length_eq_zero (by rw [h.length, hempty, hzero])
    rw [hnil] at h ⊢
    rw [if_pos hempty]
    exact ⟨rfl, h⟩
  · have hpos : q.size.toNat ≠ 0 := fun heq => hempty (UInt16.toNat_inj.mp heq)
    have hone : (1 : UInt16).toNat = 1 := rfl
    have hsize : (q.size - 1).toNat = q.size.toNat - 1 := by
      apply UInt16.toNat_sub_of_le
      rw [UInt16.le_iff_toNat_le, hone]
      omega
    obtain ⟨n, hn⟩ : ∃ n, q.size.toNat = n + 1 := ⟨q.size.toNat - 1, by omega⟩
    have hcontents := h.contents
    rw [hn, CountedRing.contents_pop, Nat.mod_eq_of_lt h.head] at hcontents
    have hsize' := h.size
    have htail := h.tail
    have hnext := toNat_next h.head
    rw [if_neg hempty, ← hcontents]
    refine ⟨rfl, h.capacity, ?_, ?_, ?_, ?_⟩
    all_goals dsimp only
    · rw [h.capacity, hnext]
      exact Nat.mod_lt _ (by decide)
    · rw [hsize]
      omega
    · rw [h.capacity, hnext, hsize, htail]
      omega
    · rw [h.capacity, hnext, hsize, hn]
      rfl

/-- A call does to the queue what it does to the list. -/
theorem call_holds (a : Call) (h : q.Holds l) :
  (q.call a).1 = (Fifo.call 256 l a).1 ∧ (q.call a).2.Holds (Fifo.call 256 l a).2
  := by
  cases a with
  | push event =>
      obtain ⟨hstored, hnext⟩ := inputPush_holds h event
      exact ⟨congrArg Answer.pushed hstored, hnext⟩
  | pop =>
      obtain ⟨hevent, hnext⟩ := inputPop_holds h
      exact ⟨congrArg Answer.popped hevent, hnext⟩

/-- In every run the calls return what they return on a list of at most 256 events, which the queue
then holds, and the size reported is the length of the list. -/
theorem fifo_run (buffer : Nat → InputEvent) (calls : List Call) :
  (Run.trace call (init buffer) calls).1 = (Run.trace (Fifo.call 256) [] calls).1
    ∧ (Run.trace call (init buffer) calls).2.Holds (Run.trace (Fifo.call 256) [] calls).2
    ∧ (Run.trace call (init buffer) calls).2.inputQueueSize.toNat
      = (Run.trace (Fifo.call 256) [] calls).2.length
  := by
  obtain ⟨hanswers, hholds⟩ :=
    Run.trace_related (fun _ _ a h => call_holds a h) (init_holds buffer) calls
  use hanswers, hholds
  rw [hholds.length, inputQueueSize, UInt16.toNat_toUInt32]

end InputQueue
