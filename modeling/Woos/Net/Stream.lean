import Woos.Lib.Run
import Woos.Net.Receive

/-!
# The byte stream of a connection

A `TcpStream i` is a run of the connection of socket `i`: segments, the end of the connection and
errors arrive from lwIP, `net_socket_recv` returns bytes, and meanwhile the rest of the kernel may
change everything but the socket and its receive buffer.  The bytes delivered by lwIP and those
returned are ghost state.

`Intact s` says that the bytes returned, followed by those in the receive buffer, are the bytes
delivered, and that the end of the stream was only ever reported when all of them had been returned.
`stream_intact_iff` shows that a run is intact exactly when every segment fits into the receive
buffer when it arrives.
-/

namespace Net

open NetSocket

/-! ### Arrivals -/

/-- What lwIP passes to the callbacks of a connection: a segment, as a chain of buffers, the end of
the connection, or an error. -/
inductive Arrival where
  | segment (chain : List (List UInt8))
  | close
  | err

/-- The callback of an arrival for socket `i`. -/
def arrive (i : Fin maxSockets) (n : Net) : Arrival → Net
  | .segment chain => (n.tcpRecvCallback (number i) (some chain)).1
  | .close => (n.tcpRecvCallback (number i) none).1
  | .err => n.tcpErrCallback (number i)

/-- The bytes of an arrival. -/
def Arrival.bytes : Arrival → List UInt8
  | .segment chain => chain.flatten
  | .close => []
  | .err => []

/-- The bytes in the receive buffer of socket `i`. -/
def pending (n : Net) (i : Fin maxSockets) : List UInt8 := (n.sockets i).stored n.heap.mem

/-- Socket `i` is in use, and its receive buffer is well-formed. -/
structure Receiving (n : Net) (i : Fin maxSockets) : Prop where
  inUse : (n.sockets i).inUse
  rx : (n.sockets i).RxOk

/-- The bytes of an arrival are appended as far as there is room. -/
theorem arrive_pending {n : Net} {i : Fin maxSockets} (hn : n.Receiving i) (a : Arrival) :
  (n.arrive i a).Receiving i
    ∧ (n.arrive i a).pending i = n.pending i ++ a.bytes.take (socketBufSize - (n.sockets i).rxCount)
  := by
  cases a with
  | segment chain =>
      obtain ⟨m, s, c, hchain, hs, hkeeps, -, hstored⟩ :=
        receiveChain_stored (m := n.heap.mem) hn.rx chain
      have harrive : n.arrive i (.segment chain) = (n.modify i (fun _ => s)).setMem m := by
        rw [arrive, tcpRecvCallback, socket_number hn.inUse]
        simp only [hchain]
      have hsocket : (n.arrive i (.segment chain)).sockets i = s := by
        rw [harrive]
        exact modify_sockets n i (fun _ => s)
      constructor
      · constructor
        · rw [hsocket, hkeeps.inUse]
          exact hn.inUse
        · rw [hsocket]
          exact hs
      · rw [pending, hsocket, harrive]
        exact hstored
  | close =>
      have harrive : n.arrive i .close = n.modify i (fun s => { s with state := .error }) := by
        rw [arrive, tcpRecvCallback, socket_number hn.inUse]
      rw [harrive]
      constructor
      · constructor
        · rw [modify_sockets]
          exact hn.inUse
        · rw [modify_sockets]
          exact ⟨hn.rx.head, hn.rx.count, hn.rx.tail⟩
      · rw [pending, modify_sockets, modify_heap, Arrival.bytes, List.take_nil, List.append_nil]
        rfl
  | err =>
      have hvalid : 0 ≤ number i ∧ (number i).toNat < maxSockets := ⟨Int.natCast_nonneg _, i.isLt⟩
      have harrive : n.arrive i .err
          = n.modify i (fun s => { s with state := .error, tcp := none }) := by
        rw [arrive, tcpErrCallback, dif_pos hvalid]
        rfl
      rw [harrive]
      constructor
      · constructor
        · rw [modify_sockets]
          exact hn.inUse
        · rw [modify_sockets]
          exact ⟨hn.rx.head, hn.rx.count, hn.rx.tail⟩
      · rw [pending, modify_sockets, modify_heap, Arrival.bytes, List.take_nil, List.append_nil]
        rfl

/-- The number of bytes that wait is the count of the socket. -/
theorem length_pending (n : Net) (i : Fin maxSockets) :
  (n.pending i).length = (n.sockets i).rxCount
  := length_stored _ _

/-! ### Reading -/

/-- The end of the stream is only reported with an empty buffer; otherwise the oldest bytes are
returned, and the others stay. -/
theorem netSocketRecv_pending {poll : Net → Option Net} {n n' : Net} {i : Fin maxSockets}
    (hn : n.Receiving i) (hpoll : poll n = some n') (hn' : n'.Receiving i) {buf : Bool} {len : UInt32}
    (hbuf : buf) (hlen : len ≠ 0) :
  ∃ last bytes r, n.netSocketRecv poll (number i) buf len = some (last, bytes, r)
    ∧ last.Receiving i ∧ bytes ++ last.pending i = n'.pending i ∧ (r = 0 → n'.pending i = [])
  := by
  have hargs : ¬ ((!buf) = true ∨ len = 0) := by
    rintro (hnull | hzero)
    · rw [hbuf] at hnull
      cases hnull
    · exact hlen hzero
  rw [netSocketRecv, socket_number hn.inUse]
  simp only [if_neg hargs, hpoll, Option.bind_eq_bind, Option.bind_some]
  by_cases hempty : (n'.sockets i).rxCount = 0
  · rw [if_pos hempty]
    refine ⟨n', [], _, rfl, hn', rfl, ?_⟩
    intro
    apply List.eq_nil_of_length_eq_zero
    rw [length_pending, hempty]
  · rw [if_neg hempty]
    obtain ⟨bytes, s, hloop, hs, hkeeps, hstored⟩ :=
      receiveLoop_stored n'.heap.mem hn'.rx (Nat.min_le_right len.toNat (n'.sockets i).rxCount)
    refine ⟨n'.modify i (fun _ => s), bytes, (min len.toNat (n'.sockets i).rxCount : Nat), ?_, ?_, ?_, ?_⟩
    · simp only [hloop]
    · constructor
      · rw [modify_sockets, hkeeps.inUse]
        exact hn'.inUse
      · rw [modify_sockets]
        exact hs
    · rw [pending, modify_sockets, modify_heap]
      exact hstored
    · intro hr
      have hpos : len.toNat ≠ 0 := by
        intro hzero
        exact hlen (UInt32.toNat_inj.mp hzero)
      omega

/-- Without a buffer to write to, nothing happens. -/
theorem netSocketRecv_refused (poll : Net → Option Net) {n : Net} {i : Fin maxSockets}
    (hn : n.Receiving i) {buf : Bool} {len : UInt32} (h : ¬ (buf ∧ len ≠ 0)) :
  n.netSocketRecv poll (number i) buf len = some (n, [], -1)
  := by
  rw [netSocketRecv, socket_number hn.inUse]
  apply if_pos
  by_cases hlen : len = 0
  · right
    exact hlen
  · left
    cases buf with
    | false => rfl
    | true => exact absurd ⟨rfl, hlen⟩ h

end Net

/-! ### Runs -/

/-- The state with the bytes that lwIP has delivered to the socket so far, those returned, and both
for each time that the end of the stream was reported. -/
structure TcpStream where
  net : Net
  delivered : List UInt8
  returned : List UInt8
  ends : List (List UInt8 × List UInt8)

namespace TcpStream

open Net

/-- A step of the connection; `elsewhere` leads to the given state in all but the socket and its
receive buffer. -/
inductive Step where
  | arrival (a : Arrival)
  | recv (polled : List Arrival) (buf : Bool) (len : UInt32)
  | elsewhere (other : Net)

variable (i : Fin maxSockets)

/-- The stream when nothing has been delivered yet. -/
def start (n : Net) : TcpStream := ⟨n, [], [], []⟩

/-- An arrival. -/
def arrive (s : TcpStream) (a : Arrival) : TcpStream :=
  { s with net := s.net.arrive i a, delivered := s.delivered ++ a.bytes }

/-- A call of `net_socket_recv` that has returned these bytes and this number. -/
def read (s : TcpStream) (net : Net) (bytes : List UInt8) (r : Int) : TcpStream where
  net := net
  delivered := s.delivered
  returned := s.returned ++ bytes
  ends := if r = 0 then (s.returned ++ bytes, s.delivered) :: s.ends else s.ends

/-- Another state with the socket and the receive buffer of this one. -/
def elsewhere (n other : Net) : Net :=
  let s := n.sockets i
  let mem := fun x =>
    if s.rxBuf.toNat ≤ x ∧ x < s.rxBuf.toNat + socketBufSize then n.heap.mem x else other.heap.mem x
  { other.modify i (fun _ => s) with heap := { other.heap with mem := mem } }

/-- Execute a step.  A call of `net_socket_recv` that is not refused polls lwIP, and the given
arrivals come in. -/
def step (s : TcpStream) : Step → Option TcpStream
  | .arrival a => some (s.arrive i a)
  | .recv polled buf len => do
      let poll := fun n => some (polled.foldl (Net.arrive i) n)
      let (net, bytes, r) ← s.net.netSocketRecv poll (number i) buf len
      let t := if buf ∧ len ≠ 0 then polled.foldl (arrive i) s else s
      some (t.read net bytes r)
  | .elsewhere other => some { s with net := elsewhere i s.net other }

/-- A segment fits into the receive buffer. -/
def Fits (s : TcpStream) (a : Arrival) : Prop :=
  (s.net.sockets i).rxCount + a.bytes.length ≤ socketBufSize

/-- Every segment that arrives in the step fits. -/
def StepFits (s : TcpStream) : Step → Prop
  | .arrival a => Fits i s a
  | .recv polled buf len =>
      buf ∧ len ≠ 0 → Run.Guarded (fun s a => some (s.arrive i a)) (Fits i) s polled
  | .elsewhere _ => True

/-- No byte is lost or duplicated, and the end was not reported early. -/
structure Intact (s : TcpStream) : Prop where
  bytes : s.returned ++ s.net.pending i = s.delivered
  ends : ∀ e ∈ s.ends, e.1 = e.2

/-- Bytes have been lost. -/
def Lossy (s : TcpStream) : Prop :=
  s.returned.length + (s.net.sockets i).rxCount < s.delivered.length

variable {i}

theorem Intact.not_lossy {s : TcpStream} (h : s.Intact i) :
  ¬ s.Lossy i
  := by
  have hlength := congrArg List.length h.bytes
  rw [List.length_append, length_pending] at hlength
  intro hlossy
  have hlt : s.returned.length + (s.net.sockets i).rxCount < s.delivered.length := hlossy
  omega

/-! ### One step -/

/-- An arrival that fits keeps a stream intact. -/
theorem arrive_intact {s : TcpStream} {a : Arrival} (hs : s.net.Receiving i ∧ s.Intact i)
    (hfits : Fits i s a) :
  (s.arrive i a).net.Receiving i ∧ (s.arrive i a).Intact i
  := by
  obtain ⟨hnet, hintact⟩ := hs
  obtain ⟨hnet', hpending⟩ := arrive_pending hnet a
  have htake : a.bytes.take (socketBufSize - (s.net.sockets i).rxCount) = a.bytes := by
    apply List.take_of_length_le
    have hle : (s.net.sockets i).rxCount + a.bytes.length ≤ socketBufSize := hfits
    omega
  use hnet'
  constructor
  · rw [htake] at hpending
    simp only [arrive]
    rw [hpending, ← List.append_assoc, hintact.bytes]
  · exact hintact.ends

/-- The count of the socket after an arrival. -/
theorem rxCount_arrive {s : TcpStream} (hs : s.net.Receiving i) (a : Arrival) :
  ((s.arrive i a).net.sockets i).rxCount
    = (s.net.sockets i).rxCount + min (socketBufSize - (s.net.sockets i).rxCount) a.bytes.length
  := by
  obtain ⟨-, hpending⟩ := arrive_pending hs a
  have hlength := congrArg List.length hpending
  rw [List.length_append, length_pending, length_pending, List.length_take] at hlength
  exact hlength

/-- An arrival that does not fit loses bytes. -/
theorem arrive_lossy {s : TcpStream} {a : Arrival} (hs : s.net.Receiving i ∧ s.Intact i)
    (hfits : ¬ Fits i s a) :
  (s.arrive i a).net.Receiving i ∧ (s.arrive i a).Lossy i
  := by
  use (arrive_pending hs.1 a).1
  have hcount := rxCount_arrive hs.1 a
  have hlength := congrArg List.length hs.2.bytes
  rw [List.length_append, length_pending] at hlength
  have hmiss : ¬ (s.net.sockets i).rxCount + a.bytes.length ≤ socketBufSize := hfits
  have hle := hs.1.rx.count
  rw [Lossy, hcount]
  simp only [arrive, List.length_append]
  omega

/-- Bytes that are lost stay lost. -/
theorem Lossy.arrive {s : TcpStream} (hs : s.net.Receiving i ∧ s.Lossy i) (a : Arrival) :
  (s.arrive i a).net.Receiving i ∧ (s.arrive i a).Lossy i
  := by
  use (arrive_pending hs.1 a).1
  have hcount := rxCount_arrive hs.1 a
  have hlt : s.returned.length + (s.net.sockets i).rxCount < s.delivered.length := hs.2
  rw [Lossy, hcount]
  simp only [TcpStream.arrive, List.length_append]
  omega

/-- What arrives while lwIP is polled. -/
theorem polled_intact {s : TcpStream} (hs : s.net.Receiving i ∧ s.Intact i) (polled : List Arrival) :
  (Run.Guarded (fun s a => some (s.arrive i a)) (Fits i) s polled
      → (polled.foldl (arrive i) s).net.Receiving i ∧ (polled.foldl (arrive i) s).Intact i)
    ∧ (¬ Run.Guarded (fun s a => some (s.arrive i a)) (Fits i) s polled
      → (polled.foldl (arrive i) s).net.Receiving i ∧ (polled.foldl (arrive i) s).Lossy i)
  := by
  have hrun := @Run.exec_good_or_bad _ _ (fun (s : TcpStream) a => some (s.arrive i a)) (Fits i)
    (fun s => s.net.Receiving i ∧ s.Intact i) (fun s => s.net.Receiving i ∧ s.Lossy i)
    (fun s a hs hfits => ⟨_, rfl, arrive_intact hs hfits⟩)
    (fun s a hs hfits => ⟨_, rfl, arrive_lossy hs hfits⟩)
    (fun s a hs => ⟨_, rfl, Lossy.arrive hs a⟩) s polled hs
  rw [Run.exec_some] at hrun
  obtain ⟨t, ht, hmeets, hmisses⟩ := hrun
  cases ht
  exact ⟨hmeets, hmisses⟩

theorem polled_lossy {s : TcpStream} (hs : s.net.Receiving i ∧ s.Lossy i) (polled : List Arrival) :
  (polled.foldl (arrive i) s).net.Receiving i ∧ (polled.foldl (arrive i) s).Lossy i
  := by
  induction polled generalizing s with
  | nil => exact hs
  | cons a polled ih =>
      rw [List.foldl_cons]
      apply ih
      apply Lossy.arrive hs

/-- The state of the sockets after the arrivals. -/
theorem foldl_arrive_net (s : TcpStream) (polled : List Arrival) :
  (polled.foldl (arrive i) s).net = polled.foldl (Net.arrive i) s.net
  := by
  induction polled generalizing s with
  | nil => rfl
  | cons a polled ih =>
      rw [List.foldl_cons, List.foldl_cons]
      apply ih

/-- A call that is not refused, after the arrivals have led to `t`. -/
theorem step_recv {s : TcpStream} {polled : List Arrival} {buf : Bool} {len : UInt32}
    (hs : s.net.Receiving i) (hargs : buf ∧ len ≠ 0)
    (ht : (polled.foldl (arrive i) s).net.Receiving i) :
  ∃ s', s.step i (.recv polled buf len) = some s' ∧ s'.net.Receiving i
    ∧ s'.delivered = (polled.foldl (arrive i) s).delivered
    ∧ s'.returned ++ s'.net.pending i
      = (polled.foldl (arrive i) s).returned ++ (polled.foldl (arrive i) s).net.pending i
    ∧ (s'.ends = (polled.foldl (arrive i) s).ends
      ∨ s'.net.pending i = []
        ∧ s'.ends = (s'.returned, s'.delivered) :: (polled.foldl (arrive i) s).ends)
  := by
  have ht' := ht
  rw [foldl_arrive_net] at ht'
  obtain ⟨net, bytes, r, hrecv, hnet, hbytes, hend⟩ := @netSocketRecv_pending
    (fun n => some (polled.foldl (Net.arrive i) n)) _ _ i hs rfl ht' _ _ hargs.1 hargs.2
  rw [← foldl_arrive_net] at hbytes hend
  use (polled.foldl (arrive i) s).read net bytes r
  refine ⟨?_, hnet, rfl, ?_, ?_⟩
  · rw [step]
    simp only [hrecv, Option.bind_eq_bind, Option.bind_some, if_pos hargs]
  · simp only [read]
    rw [List.append_assoc, hbytes]
  · by_cases hr : r = 0
    · right
      simp only [read, if_pos hr]
      have hnil := hbytes.trans (hend hr)
      exact ⟨(List.append_eq_nil_iff.mp hnil).2, trivial⟩
    · left
      simp only [read, if_neg hr]

theorem step_recv_refused {s : TcpStream} (polled : List Arrival) {buf : Bool} {len : UInt32}
    (hs : s.net.Receiving i) (hargs : ¬ (buf ∧ len ≠ 0)) :
  s.step i (.recv polled buf len) = some s
  := by
  rw [step, netSocketRecv_refused _ hs hargs]
  simp only [Option.bind_eq_bind, Option.bind_some, if_neg hargs, read, List.append_nil]
  rfl

/-- The rest of the kernel does not change the stream. -/
theorem elsewhere_pending {n : Net} (hn : n.Receiving i) (other : Net) :
  (elsewhere i n other).Receiving i ∧ (elsewhere i n other).pending i = n.pending i
    ∧ ((elsewhere i n other).sockets i).rxCount = (n.sockets i).rxCount
  := by
  have hsocket : (elsewhere i n other).sockets i = n.sockets i :=
    modify_sockets other i (fun _ => n.sockets i)
  refine ⟨⟨?_, ?_⟩, ?_, ?_⟩
  · rw [hsocket]
    exact hn.inUse
  · rw [hsocket]
    exact hn.rx
  · rw [pending, hsocket]
    apply NetSocket.stored_congr
    intro k hk
    apply if_pos
    omega
  · rw [hsocket]

theorem lossy_of_recv {s s' : TcpStream} (hs : s.Lossy i) (hdelivered : s'.delivered = s.delivered)
    (hreturned : s'.returned ++ s'.net.pending i = s.returned ++ s.net.pending i) :
  s'.Lossy i
  := by
  have hlength := congrArg List.length hreturned
  simp only [List.length_append, length_pending] at hlength
  rw [Lossy, hdelivered, hlength]
  exact hs

/-- A step whose segments fit keeps a stream intact. -/
theorem step_intact {s : TcpStream} (c : Step) (hs : s.net.Receiving i ∧ s.Intact i)
    (hfits : StepFits i s c) :
  ∃ s', s.step i c = some s' ∧ s'.net.Receiving i ∧ s'.Intact i
  := by
  cases c with
  | arrival a => exact ⟨_, rfl, arrive_intact hs hfits⟩
  | recv polled buf len =>
      by_cases hargs : buf ∧ len ≠ 0
      · have ht := (polled_intact hs polled).1 (hfits hargs)
        obtain ⟨s', hstep, hnet, hdelivered, hreturned, hends⟩ := step_recv hs.1 hargs ht.1
        have hbytes : s'.returned ++ s'.net.pending i = s'.delivered := by
          rw [hreturned, hdelivered, ht.2.bytes]
        use s', hstep, hnet, hbytes
        rcases hends with hsame | ⟨hempty, hnew⟩
        · rw [hsame]
          exact ht.2.ends
        · rw [hnew]
          intro e he
          rcases List.mem_cons.mp he with rfl | he
          · rw [← hbytes, hempty, List.append_nil]
          · apply ht.2.ends e he
      · exact ⟨s, step_recv_refused polled hs.1 hargs, hs⟩
  | elsewhere other =>
      obtain ⟨hnet, hpending, -⟩ := elsewhere_pending hs.1 other
      refine ⟨_, rfl, hnet, ?_, hs.2.ends⟩
      exact hpending.symm ▸ hs.2.bytes

/-- A step with a segment that does not fit loses bytes. -/
theorem step_lossy {s : TcpStream} (c : Step) (hs : s.net.Receiving i ∧ s.Intact i)
    (hfits : ¬ StepFits i s c) :
  ∃ s', s.step i c = some s' ∧ s'.net.Receiving i ∧ s'.Lossy i
  := by
  cases c with
  | arrival a => exact ⟨_, rfl, arrive_lossy hs hfits⟩
  | recv polled buf len =>
      obtain ⟨hargs, hmiss⟩ := Classical.not_imp.mp hfits
      have ht := (polled_intact hs polled).2 hmiss
      obtain ⟨s', hstep, hnet, hdelivered, hreturned, -⟩ := step_recv hs.1 hargs ht.1
      exact ⟨s', hstep, hnet, lossy_of_recv ht.2 hdelivered hreturned⟩
  | elsewhere other => exact absurd trivial hfits

/-- Bytes that are lost stay lost in every step. -/
theorem Lossy.step {s : TcpStream} (c : Step) (hs : s.net.Receiving i ∧ s.Lossy i) :
  ∃ s', s.step i c = some s' ∧ s'.net.Receiving i ∧ s'.Lossy i
  := by
  cases c with
  | arrival a => exact ⟨_, rfl, Lossy.arrive hs a⟩
  | recv polled buf len =>
      by_cases hargs : buf ∧ len ≠ 0
      · have ht := polled_lossy hs polled
        obtain ⟨s', hstep, hnet, hdelivered, hreturned, -⟩ := step_recv hs.1 hargs ht.1
        exact ⟨s', hstep, hnet, lossy_of_recv ht.2 hdelivered hreturned⟩
      · exact ⟨s, step_recv_refused polled hs.1 hargs, hs⟩
  | elsewhere other =>
      obtain ⟨hnet, -, hcount⟩ := elsewhere_pending hs.1 other
      refine ⟨_, rfl, hnet, ?_⟩
      have hlt : s.returned.length + (s.net.sockets i).rxCount < s.delivered.length := hs.2
      rw [Lossy, hcount]
      exact hlt

/-! ### Runs of a connection -/

variable (i)

/-- The receive buffer of socket `i` is empty, as it is when the connection begins. -/
structure Fresh (n : Net) : Prop where
  inUse : (n.sockets i).inUse
  head : (n.sockets i).rxHead = 0
  tail : (n.sockets i).rxTail = 0
  count : (n.sockets i).rxCount = 0

theorem Fresh.receiving {n : Net} (hn : Fresh i n) :
  n.Receiving i
  := by
  refine ⟨hn.inUse, ?_, ?_, ?_⟩
  · rw [hn.head]
    decide
  · rw [hn.count]
    decide
  · rw [hn.head, hn.count, hn.tail]
    decide

theorem Fresh.intact {n : Net} (hn : Fresh i n) :
  (start n).Intact i
  := by
  constructor
  · apply List.eq_nil_of_length_eq_zero
    simp only [start, List.nil_append]
    rw [length_pending, hn.count]
  · intro e he
    cases he

/-- A run keeps the stream intact exactly when every segment fits when it arrives. -/
theorem stream_intact_iff {n : Net} (hn : Fresh i n) (steps : List Step) :
  ∃ s, Run.exec (step i) (start n) steps = some s
    ∧ (s.Intact i ↔ Run.Guarded (step i) (StepFits i) (start n) steps)
  := by
  obtain ⟨s, hrun, hmeets, hmisses⟩ := @Run.exec_good_or_bad _ _ (step i) (StepFits i)
    (fun s => s.net.Receiving i ∧ s.Intact i) (fun s => s.net.Receiving i ∧ s.Lossy i)
    (fun s c hs hfits => step_intact c hs hfits) (fun s c hs hfits => step_lossy c hs hfits)
    (fun s c hs => Lossy.step c hs) (start n) steps ⟨hn.receiving, hn.intact⟩
  use s, hrun
  constructor
  · intro hs
    by_contra hmiss
    exact hs.not_lossy (hmisses hmiss).2
  · intro hguard
    exact (hmeets hguard).2

/-- The sockets after one has been created and connected. -/
def opened : Option Net := do
  let (n, sock) ← (Net.init (KHeap.kheapInit (fun _ => 0))).netSocketCreate true (some 1) socketTypeTcp
  let (n, _) ← n.netSocketConnect some true true true sock
  some (n.tcpConnectCallback sock (some 1) true).1

theorem opened_fresh :
  ∃ n, opened = some n ∧ Fresh 0 n
  := by
  have hopened : opened.map (fun n =>
      ((n.sockets 0).inUse, (n.sockets 0).rxHead, (n.sockets 0).rxTail, (n.sockets 0).rxCount))
      = some (true, 0, 0, 0) := by
    decide +kernel
  obtain ⟨n, hn, hreads⟩ := Option.map_eq_some_iff.mp hopened
  simp only [Prod.mk.injEq] at hreads
  exact ⟨n, hn, hreads.1, hreads.2.1, hreads.2.2.1, hreads.2.2.2⟩

/-- The case of a segment that arrives while the socket is read. -/
theorem stream_intact_iff_read :
  ∃ n, Fresh 0 n ∧ ∃ s, Run.exec (step 0) (start n) [.recv [.segment [[1, 2], [3]]] true 2] = some s
    ∧ (s.Intact 0
      ↔ Run.Guarded (step 0) (StepFits 0) (start n) [.recv [.segment [[1, 2], [3]]] true 2])
  := by
  obtain ⟨n, -, hn⟩ := opened_fresh
  use n, hn
  apply stream_intact_iff 0 hn

theorem foldl_arrive_ghost (s : TcpStream) (as : List Arrival) :
  (as.foldl (arrive i) s).delivered = s.delivered ++ as.flatMap Arrival.bytes
    ∧ (as.foldl (arrive i) s).returned = s.returned
  := by
  induction as generalizing s with
  | nil => simp
  | cons a as ih =>
      obtain ⟨hdelivered, hreturned⟩ := ih (s.arrive i a)
      constructor
      · rw [List.foldl_cons, hdelivered, List.flatMap_cons, ← List.append_assoc]
        rfl
      · rw [List.foldl_cons, hreturned]
        rfl

theorem foldl_arrive_receiving {s : TcpStream} (hs : s.net.Receiving i) (as : List Arrival) :
  (as.foldl (arrive i) s).net.Receiving i
  := by
  induction as generalizing s with
  | nil => exact hs
  | cons a as ih =>
      apply ih
      exact (arrive_pending hs a).1

theorem exec_arrivals (s : TcpStream) (as : List Arrival) :
  Run.exec (step i) s (as.map .arrival) = some (as.foldl (arrive i) s)
  := by
  induction as generalizing s with
  | nil => rfl
  | cons a as ih =>
      rw [List.map_cons, Run.exec_cons _ rfl, List.foldl_cons]
      apply ih

/-- More bytes than the receive buffer holds, without a read. -/
theorem not_intact_of_length {n : Net} (hn : Fresh i n) {as : List Arrival}
    (h : socketBufSize < (as.flatMap Arrival.bytes).length) :
  ¬ (as.foldl (arrive i) (start n)).Intact i
  := by
  intro hintact
  have hnet : (start n).net.Receiving i := hn.receiving
  have hcount := (foldl_arrive_receiving i hnet as).rx.count
  obtain ⟨hdelivered, hreturned⟩ := foldl_arrive_ghost i (start n) as
  have hlength := congrArg List.length hintact.bytes
  rw [hdelivered, hreturned, List.length_append, List.length_append, length_pending] at hlength
  simp only [start, List.length_nil] at hlength hcount
  omega

/-- A burst of 45 segments of 1460 bytes. -/
def burst : List Arrival := List.replicate 45 (.segment [List.replicate 1460 0])

theorem length_burst :
  (burst.flatMap Arrival.bytes).length = 45 * 1460
  := by
  rw [burst, List.length_flatMap, List.map_replicate, List.sum_replicate_nat, Arrival.bytes,
    List.flatten_singleton, List.length_replicate]

/-- Without a read, the last bytes of the burst are lost. -/
theorem not_intact_burst :
  ∃ n, opened = some n ∧ ∃ s, Run.exec (step 0) (start n) (burst.map .arrival) = some s
    ∧ ¬ s.Intact 0
  := by
  obtain ⟨n, hopened, hn⟩ := opened_fresh
  use n, hopened, burst.foldl (arrive 0) (start n)
  constructor
  · apply exec_arrivals
  · apply not_intact_of_length 0 hn
    rw [length_burst]
    decide

end TcpStream
