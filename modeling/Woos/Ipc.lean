import Woos.Lib.RingBuffer
import Woos.Lib.Run

/-!
# The IPC queue

`IpcQueue` is the queue of messages of `sched.c`, a ring of 32 slots.  `woosIpcSend`,
`woosIpcRecv` and `woosIpcPending` are the three calls as the code computes them.

`Mailbox` is what the queue is for: a list of at most 31 messages, to which a send appends,
and from which a receive takes the first message addressed to the receiver.
`ipc_refines_mailbox` shows that the queue is such a list, wherever head and tail stand.
-/

/-- `woos_ipc_msg_t` -/
structure IpcMsg where
  senderId : UInt32
  destId : UInt32
  type : UInt32
  arg1 : UInt32
  arg2 : UInt32
  arg3 : UInt32
  arg4 : UInt32
  arg5 : UInt32
  deriving DecidableEq, Repr

/-- `IPC_MAX_MSG` -/
abbrev ipcMaxMsg : Nat := 32

instance : NeZero ipcMaxMsg := ⟨Nat.succ_ne_zero 31⟩

/-- `g_ipc_queue`, `g_ipc_head` and `g_ipc_tail` -/
abbrev IpcQueue := RingBuffer IpcMsg ipcMaxMsg

/-- The queue at boot, all zero. -/
def IpcQueue.init : IpcQueue where
  slots := fun _ => ⟨0, 0, 0, 0, 0, 0, 0, 0⟩
  head := 0
  tail := 0

/-! ### The calls -/

/-- `woos_ipc_send`, called by the thread `current`: the status and the queue. -/
def woosIpcSend (q : IpcQueue) (current destId type arg1 arg2 arg3 arg4 arg5 : UInt32) :
    Int32 × IpcQueue :=
  let nextHead := q.head + 1
  if nextHead = q.tail then
    (-1, q)
  else
    (0, { q with
      slots := Function.update q.slots q.head ⟨current, destId, type, arg1, arg2, arg3, arg4, arg5⟩
      head := nextHead })

/-- The loop of `woos_ipc_recv` and `woos_ipc_pending` that looks for a message to
`current` from the slot `scan` on.  It makes less than `ipcMaxMsg` rounds. -/
def ipcScan (q : IpcQueue) (current : UInt32) : Nat → Fin ipcMaxMsg → Option (Fin ipcMaxMsg)
  | 0, _ => none
  | n + 1, scan =>
      if scan = q.head then none
      else if (q.slots scan).destId = current then some scan
      else ipcScan q current n (scan + 1)

/-- The loop of `woos_ipc_recv` that moves the messages behind the slot `shift`. -/
def ipcShift (head : Fin ipcMaxMsg) :
    Nat → (Fin ipcMaxMsg → IpcMsg) → Fin ipcMaxMsg → (Fin ipcMaxMsg → IpcMsg)
  | 0, slots, _ => slots
  | n + 1, slots, shift =>
      let next := shift + 1
      if shift = head then slots
      else if next = head then slots
      else ipcShift head n (Function.update slots shift (slots next)) next

/-- `woos_ipc_recv`, called by the thread `current`: the message, if the result is `1`, and
the queue. -/
def woosIpcRecv (q : IpcQueue) (current : UInt32) : Option IpcMsg × IpcQueue :=
  match ipcScan q current ipcMaxMsg q.tail with
  | none => (none, q)
  | some scan =>
      (some (q.slots scan), { q with
        slots := ipcShift q.head ipcMaxMsg q.slots scan
        head := if q.head = 0 then 31 else q.head - 1 })

/-- `woos_ipc_pending`, called by the thread `current`. -/
def woosIpcPending (q : IpcQueue) (current : UInt32) : UInt32 :=
  match ipcScan q current ipcMaxMsg q.tail with
  | none => 0
  | some _ => 1

/-! ### The mailbox -/

/-- The messages waiting, the oldest first. -/
abbrev Mailbox := List IpcMsg

namespace Mailbox

/-- Append a message, unless there are 31. -/
def send (l : Mailbox) (msg : IpcMsg) : Int32 × Mailbox :=
  if l.length = 31 then (-1, l) else (0, l ++ [msg])

/-- Take the oldest message addressed to `t`. -/
def recv (l : Mailbox) (t : UInt32) : Option IpcMsg × Mailbox :=
  (l.find? (fun msg => msg.destId = t), l.eraseP (fun msg => msg.destId = t))

/-- Is there a message addressed to `t`? -/
def pending (l : Mailbox) (t : UInt32) : UInt32 :=
  if ∃ msg ∈ l, msg.destId = t then 1 else 0

/-- The messages addressed to `t`. -/
def addressed (l : Mailbox) (t : UInt32) : List IpcMsg :=
  l.filter (fun msg => msg.destId = t)

end Mailbox

/-! ### The loops -/

/-- The scan finds the first message to `current` in the segment before the head. -/
theorem ipcScan_spec
    (q : IpcQueue) (current : UInt32) {n k : Nat} {scan : Fin ipcMaxMsg}
    (hk : (q.head - scan).val = k) (hn : k < n) :
  match ipcScan q current n scan with
    | none => ∀ msg ∈ RingBuffer.segment q.slots scan k, msg.destId ≠ current
    | some p => (p - scan).val < k ∧ (q.slots p).destId = current
        ∧ ∀ msg ∈ RingBuffer.segment q.slots scan (p - scan).val, msg.destId ≠ current
  := by
  induction k generalizing n scan with
  | zero =>
      obtain ⟨n, rfl⟩ := Nat.exists_eq_add_one_of_ne_zero (by omega : n ≠ 0)
      rw [ipcScan, if_pos (RingBuffer.dist_eq_zero_iff.mp hk)]
      simp [RingBuffer.segment]
  | succ k ih =>
      obtain ⟨n, rfl⟩ := Nat.exists_eq_add_one_of_ne_zero (by omega : n ≠ 0)
      have hne : scan ≠ q.head := by
        rintro rfl
        simp at hk
      have hstep := RingBuffer.dist_succ hne
      rw [ipcScan, if_neg hne]
      by_cases hdest : (q.slots scan).destId = current
      · rw [if_pos hdest]
        simp [hdest, RingBuffer.segment]
      · rw [if_neg hdest]
        have hk' : (q.head - (scan + 1)).val = k := by omega
        have hrest := ih (n := n) hk' (by omega)
        cases hscan : ipcScan q current n (scan + 1) with
        | none =>
            rw [hscan] at hrest
            simpa [RingBuffer.segment, hdest] using hrest
        | some p =>
            rw [hscan] at hrest
            obtain ⟨hlt, hp, hbefore⟩ := hrest
            have hpne : scan ≠ p := by
              rintro rfl
              exact hdest hp
            have hpstep := RingBuffer.dist_succ hpne
            have hsucc : (p - scan).val = (p - (scan + 1)).val + 1 := hpstep.symm
            constructor
            · omega
            · use hp
              rw [hsucc]
              simpa [RingBuffer.segment, hdest] using hbefore

/-- Slots outside the ones the shift writes are unchanged. -/
theorem ipcShift_before
    {head : Fin ipcMaxMsg} {slots : Fin ipcMaxMsg → IpcMsg} {n k : Nat} {shift j : Fin ipcMaxMsg}
    (hk : (head - shift).val = k) (hj : k ≤ (j - shift).val) :
  ipcShift head n slots shift j = slots j
  := by
  induction n generalizing slots shift k with
  | zero => rfl
  | succ n ih =>
      rw [ipcShift]
      split
      case isTrue => rfl
      case isFalse hne =>
        split
        case isTrue => rfl
        case isFalse hnext =>
          have hstep := RingBuffer.dist_succ hne
          have hpos : (head - (shift + 1)).val ≠ 0 := by
            rw [ne_eq, RingBuffer.dist_eq_zero_iff]
            exact hnext
          have hsj : shift ≠ j := by
            rintro rfl
            rw [sub_self, Fin.val_zero] at hj
            omega
          have hjstep := RingBuffer.dist_succ hsj
          rw [ih rfl (by omega)]
          apply Function.update_of_ne hsj.symm

/-- The shift moves the messages behind a slot one slot towards the tail. -/
theorem ipcShift_segment
    {head : Fin ipcMaxMsg} {slots : Fin ipcMaxMsg → IpcMsg} {n k : Nat} {shift : Fin ipcMaxMsg}
    (hk : (head - shift).val = k + 1) (hn : k < n) :
  RingBuffer.segment (ipcShift head n slots shift) shift k = RingBuffer.segment slots (shift + 1) k
  := by
  induction k generalizing n slots shift with
  | zero => rfl
  | succ k ih =>
      obtain ⟨n, rfl⟩ := Nat.exists_eq_add_one_of_ne_zero (by omega : n ≠ 0)
      have hne : shift ≠ head := by
        rintro rfl
        simp at hk
      have hstep := RingBuffer.dist_succ hne
      have hnext : shift + 1 ≠ head := by
        rintro heq
        rw [heq, sub_self, Fin.val_zero] at hstep
        omega
      have hpred := RingBuffer.dist_pred shift
      rw [ipcShift, if_neg hne, if_neg hnext, RingBuffer.segment, RingBuffer.segment]
      congr 1
      · rw [ipcShift_before rfl (by omega), Function.update_self]
      · rw [ih (by omega) (by omega)]
        apply RingBuffer.segment_congr (by omega)
        intro j hj
        apply Function.update_of_ne
        intro heq
        rw [heq] at hj
        have hself : shift + 1 ≠ shift := by
          intro hloop
          rw [hloop, sub_self, Fin.val_zero] at hpred
          cases hpred
        have hfar := RingBuffer.dist_succ hself
        have hlt := (head - shift).is_lt
        omega

/-! ### The calls are those of the mailbox -/

theorem woosIpcSend_refines (q : IpcQueue) (current destId type arg1 arg2 arg3 arg4 arg5 : UInt32) :
  Mailbox.send q.contents ⟨current, destId, type, arg1, arg2, arg3, arg4, arg5⟩
    = ((woosIpcSend q current destId type arg1 arg2 arg3 arg4 arg5).1,
        (woosIpcSend q current destId type arg1 arg2 arg3 arg4 arg5).2.contents)
  := by
  rw [woosIpcSend, Mailbox.send]
  by_cases hfull : q.head + 1 = q.tail
  · have hlen : q.contents.length = 31 := (RingBuffer.full_iff q).mp hfull
    simp only [if_pos hfull, if_pos hlen]
  · have hlen : ¬ q.contents.length = 31 := (RingBuffer.full_iff q).not.mp hfull
    simp only [if_neg hfull, if_neg hlen]
    rw [RingBuffer.contents_push _ _ hfull]

/-- The contents around the message that the scan finds. -/
theorem contents_of_ipcScan
    {q : IpcQueue} {current : UInt32} {p : Fin ipcMaxMsg}
    (h : ipcScan q current ipcMaxMsg q.tail = some p) :
  (p - q.tail).val < (q.head - q.tail).val ∧ (q.slots p).destId = current
    ∧ ∀ msg ∈ RingBuffer.segment q.slots q.tail (p - q.tail).val, msg.destId ≠ current
  := by
  have hspec := ipcScan_spec q current rfl (q.head - q.tail).is_lt
  rw [h] at hspec
  exact hspec

theorem woosIpcRecv_refines (q : IpcQueue) (current : UInt32) :
  Mailbox.recv q.contents current
    = ((woosIpcRecv q current).1, (woosIpcRecv q current).2.contents)
  := by
  rw [woosIpcRecv, Mailbox.recv]
  cases hscan : ipcScan q current ipcMaxMsg q.tail with
  | none =>
      have hnone := ipcScan_spec q current rfl (q.head - q.tail).is_lt
      rw [hscan] at hnone
      have hfind : q.contents.find? (fun msg => msg.destId = current) = none := by
        simpa [RingBuffer.contents] using hnone
      have herase : q.contents.eraseP (fun msg => msg.destId = current) = q.contents := by
        apply List.eraseP_of_forall_not
        simpa [RingBuffer.contents] using hnone
      rw [hfind, herase]
  | some p =>
      obtain ⟨hp, hdest, hbefore⟩ := contents_of_ipcScan hscan
      have hadd := RingBuffer.dist_add hp.le
      have hback : (if q.head = 0 then 31 else q.head - 1) = q.head - 1 := by
        split
        case isTrue hzero => rw [hzero]; rfl
        case isFalse => rfl
      have hremove := RingBuffer.contents_remove q hp
        (fun j hj => ipcShift_before (n := ipcMaxMsg) rfl hj)
        (ipcShift_segment (by omega) (by omega))
      have hnot : ∀ msg ∈ RingBuffer.segment q.slots q.tail (p - q.tail).val,
          ¬ decide (msg.destId = current) = true := by
        simpa using hbefore
      rw [hback, hremove, RingBuffer.contents_split q hp, List.find?_append,
        List.find?_eq_none.mpr hnot, List.eraseP_append_right _ hnot]
      simp [hdest]

theorem woosIpcPending_refines (q : IpcQueue) (current : UInt32) :
  Mailbox.pending q.contents current = woosIpcPending q current
  := by
  rw [woosIpcPending, Mailbox.pending]
  cases hscan : ipcScan q current ipcMaxMsg q.tail with
  | none =>
      have hnone := ipcScan_spec q current rfl (q.head - q.tail).is_lt
      rw [hscan] at hnone
      rw [if_neg]
      rintro ⟨msg, hmsg, hdest⟩
      exact hnone msg hmsg hdest
  | some p =>
      obtain ⟨hp, hdest, -⟩ := contents_of_ipcScan hscan
      rw [if_pos]
      use q.slots p
      rw [RingBuffer.contents_split q hp]
      simp [hdest]

/-! ### Runs -/

/-- A call by a thread. -/
inductive IpcCall where
  | send (thread destId type arg1 arg2 arg3 arg4 arg5 : UInt32)
  | recv (thread : UInt32)
  | pending (thread : UInt32)
  deriving DecidableEq, Repr

/-- What a call returns. -/
inductive IpcResult where
  | status (r : Int32)
  | message (msg : Option IpcMsg)
  | answer (r : UInt32)
  deriving DecidableEq

/-- A call on the queue. -/
def IpcQueue.call (q : IpcQueue) : IpcCall → IpcResult × IpcQueue
  | .send thread destId type arg1 arg2 arg3 arg4 arg5 =>
      let r := woosIpcSend q thread destId type arg1 arg2 arg3 arg4 arg5
      (.status r.1, r.2)
  | .recv thread =>
      let r := woosIpcRecv q thread
      (.message r.1, r.2)
  | .pending thread => (.answer (woosIpcPending q thread), q)

namespace Mailbox

/-- A call on the mailbox. -/
def call (l : Mailbox) : IpcCall → IpcResult × Mailbox
  | .send thread destId type arg1 arg2 arg3 arg4 arg5 =>
      let r := l.send ⟨thread, destId, type, arg1, arg2, arg3, arg4, arg5⟩
      (.status r.1, r.2)
  | .recv thread =>
      let r := l.recv thread
      (.message r.1, r.2)
  | .pending thread => (.answer (l.pending thread), l)

/-- The messages to `t` that calls with the given results have put into the mailbox. -/
def sent (t : UInt32) : List IpcCall → List IpcResult → List IpcMsg
  | .send thread destId type arg1 arg2 arg3 arg4 arg5 :: cs, r :: rs =>
      if r = .status 0 ∧ destId = t then
        ⟨thread, destId, type, arg1, arg2, arg3, arg4, arg5⟩ :: sent t cs rs
      else
        sent t cs rs
  | _ :: cs, _ :: rs => sent t cs rs
  | _, _ => []

/-- The messages that `t` has got from calls with the given results. -/
def received (t : UInt32) : List IpcCall → List IpcResult → List IpcMsg
  | .recv thread :: cs, .message (some msg) :: rs =>
      if thread = t then msg :: received t cs rs else received t cs rs
  | _ :: cs, _ :: rs => received t cs rs
  | _, _ => []

theorem recv_addressed_self (l : Mailbox) (t : UInt32) :
  l.addressed t = (l.recv t).1.toList ++ (l.recv t).2.addressed t
  := by
  induction l with
  | nil => rfl
  | cons msg l ih =>
      by_cases hdest : msg.destId = t
      · simp [addressed, recv, hdest]
      · simpa [addressed, recv, hdest] using ih

theorem recv_addressed_other (l : Mailbox) {t u : UInt32} (hne : u ≠ t) :
  (l.recv u).2.addressed t = l.addressed t
  := by
  induction l with
  | nil => rfl
  | cons msg l ih =>
      by_cases hdest : msg.destId = u
      · simp [addressed, recv, hdest, hne]
      · by_cases hother : msg.destId = t
        · simpa [addressed, recv, hdest, hother, hne.symm] using ih
        · simpa [addressed, recv, hdest, hother] using ih

/-- In every run a thread gets the messages sent to it, in the order in which they were
sent, and those it has not got wait for it. -/
theorem received_addressed (l : Mailbox) (calls : List IpcCall) (t : UInt32) :
  l.addressed t ++ sent t calls (Run.trace call l calls).1
    = received t calls (Run.trace call l calls).1 ++ (Run.trace call l calls).2.addressed t
  := by
  induction calls generalizing l with
  | nil => simp [Run.trace, sent, received]
  | cons c calls ih =>
      cases c with
      | send thread destId type arg1 arg2 arg3 arg4 arg5 =>
          simp only [Run.trace, sent, received, ← ih]
          by_cases hfull : l.length = 31
          · simp [call, send, hfull]
          · by_cases hdest : destId = t
            · simp [call, send, hfull, hdest, addressed]
            · simp [call, send, hfull, hdest, addressed]
      | recv thread =>
          have hrest := ih (l.recv thread).2
          by_cases hthread : thread = t
          · subst hthread
            rw [recv_addressed_self]
            cases hmsg : (l.recv thread).1 with
            | none => simpa [Run.trace, call, sent, received, hmsg] using hrest
            | some msg => simpa [Run.trace, call, sent, received, hmsg] using hrest
          · rw [← recv_addressed_other l hthread]
            cases hmsg : (l.recv thread).1 with
            | none => simpa [Run.trace, call, sent, received, hmsg] using hrest
            | some msg => simpa [Run.trace, call, sent, received, hmsg, hthread] using hrest
      | pending thread =>
          simp only [Run.trace, sent, received, ← ih, call]

end Mailbox

theorem call_refines (q : IpcQueue) (c : IpcCall) :
  Mailbox.call q.contents c = ((q.call c).1, (q.call c).2.contents)
  := by
  cases c with
  | send thread destId type arg1 arg2 arg3 arg4 arg5 =>
      simp only [Mailbox.call, woosIpcSend_refines, IpcQueue.call]
  | recv thread => simp only [Mailbox.call, woosIpcRecv_refines, IpcQueue.call]
  | pending thread => simp only [Mailbox.call, woosIpcPending_refines, IpcQueue.call]

/-- From every state of the ring and for every interleaving of calls, the queue gives the
results of the mailbox that it contains, and contains at the end what the mailbox does.  The
mailbox holds at most 31 messages, and each thread gets exactly the messages sent to it, in
their order, those it has not got being still there. -/
theorem ipc_refines_mailbox (q : IpcQueue) (calls : List IpcCall) :
  (Run.trace IpcQueue.call q calls).1 = (Run.trace Mailbox.call q.contents calls).1
    ∧ (Run.trace IpcQueue.call q calls).2.contents = (Run.trace Mailbox.call q.contents calls).2
    ∧ (Run.trace IpcQueue.call q calls).2.contents.length ≤ 31
    ∧ ∀ t, Mailbox.addressed q.contents t
          ++ Mailbox.sent t calls (Run.trace IpcQueue.call q calls).1
        = Mailbox.received t calls (Run.trace IpcQueue.call q calls).1
          ++ Mailbox.addressed (Run.trace IpcQueue.call q calls).2.contents t
  := by
  have hsim := Run.trace_simulation call_refines q calls
  have hresults := congrArg Prod.fst hsim
  have hcontents := congrArg Prod.snd hsim
  have hlength := RingBuffer.length_contents_lt (Run.trace IpcQueue.call q calls).2
  use hresults.symm, hcontents.symm, Nat.le_of_lt_succ hlength
  intro t
  have hfifo := Mailbox.received_addressed q.contents calls t
  rw [hsim] at hfifo
  exact hfifo
