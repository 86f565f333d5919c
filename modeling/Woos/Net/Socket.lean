import Woos.KHeap.Basic
import Woos.Net.Lwip
import Mathlib.Data.List.FinRange

/-!
# Sockets

The functions of `net_socket.c`.  `Net` is what they change: the table of sockets, the kernel heap
that holds the receive buffers, and the control blocks of lwIP.  A number of a socket is an `Int`;
the functions return `-1` where the source does.

A call that asks the heap for memory has a flag `ok`; when it is `false` the request fails although
the heap may have room.  A call that asks lwIP for something has its answer as a parameter, and a
call that runs `net_poll` has the effect of the poll as the parameter `poll`.  An error callback
that lwIP makes while it looks for a free block counts as one before the call.
-/

/-- The `state` of a socket. -/
inductive SocketState where
  | closed
  | bound
  | listening
  | connected
  | error
  | connecting
  deriving DecidableEq, Repr

/-- `err_t`, as far as the callbacks return it. -/
inductive LwipErr where
  | ok
  | mem
  | val
  deriving DecidableEq, Repr

/-- `net_socket_t` -/
structure NetSocket where
  inUse : Bool
  type : UInt8
  state : SocketState
  tcp : Option Nat
  udp : Option Nat
  acceptQueue : Nat → Int
  acceptHead : Nat
  acceptTail : Nat
  acceptCount : Nat
  rxBuf : UInt64
  rxHead : Nat
  rxTail : Nat
  rxCount : Nat

/-- The entry that `memset` leaves. -/
def NetSocket.zero : NetSocket where
  inUse := false
  type := 0
  state := .closed
  tcp := none
  udp := none
  acceptQueue := fun _ => 0
  acceptHead := 0
  acceptTail := 0
  acceptCount := 0
  rxBuf := 0
  rxHead := 0
  rxTail := 0
  rxCount := 0

/-- `NET_MAX_SOCKETS` -/
def maxSockets : Nat := 8

instance : NeZero maxSockets := ⟨Nat.succ_ne_zero 7⟩

/-- `NET_SOCKET_BUF_SIZE` -/
def socketBufSize : Nat := 65536

/-- The number of entries of `accept_queue`. -/
def acceptCap : Nat := 4

/-- `SOCKET_TYPE_TCP` -/
def socketTypeTcp : UInt8 := 1

/-- `g_sockets` and what the sockets use.  `acquired` and `released` are ghost state: the receive
buffers that the heap has granted, and those that were given to `kheap_free`. -/
structure Net where
  heap : KHeap
  sockets : Fin maxSockets → NetSocket
  pcbs : Pcbs
  acquired : List UInt64
  released : List UInt64

namespace Net

/-- No socket is in use. -/
def init (heap : KHeap) : Net := ⟨heap, fun _ => NetSocket.zero, Pcbs.init, [], []⟩

/-- Change a socket. -/
def modify (n : Net) (i : Fin maxSockets) (f : NetSocket → NetSocket) : Net :=
  { n with sockets := Function.update n.sockets i (f (n.sockets i)) }

/-- The control blocks after a call of lwIP. -/
def setPcbs (n : Net) (pcbs : Pcbs) : Net := { n with pcbs := pcbs }

/-- The memory after writes to receive buffers. -/
def setMem (n : Net) (m : Memory) : Net := { n with heap := { n.heap with mem := m } }

/-- The socket of a number, when it is one of a socket in use. -/
def socket (n : Net) (sock : Int) : Option (Fin maxSockets) :=
  if h : 0 ≤ sock ∧ sock.toNat < maxSockets then
    if (n.sockets ⟨sock.toNat, h.2⟩).inUse then some ⟨sock.toNat, h.2⟩ else none
  else
    none

/-- The number of a socket. -/
def number (i : Fin maxSockets) : Int := (i.val : Int)

@[simp]
theorem modify_sockets (n : Net) (i : Fin maxSockets) (f : NetSocket → NetSocket) :
  (n.modify i f).sockets i = f (n.sockets i)
  := Function.update_self i _ n.sockets

@[simp]
theorem modify_heap (n : Net) (i : Fin maxSockets) (f : NetSocket → NetSocket) :
  (n.modify i f).heap = n.heap
  := rfl

@[simp]
theorem modify_pcbs (n : Net) (i : Fin maxSockets) (f : NetSocket → NetSocket) :
  (n.modify i f).pcbs = n.pcbs
  := rfl

@[simp]
theorem setPcbs_pcbs (n : Net) (pcbs : Pcbs) :
  (n.setPcbs pcbs).pcbs = pcbs
  := rfl

@[simp]
theorem setPcbs_sockets (n : Net) (pcbs : Pcbs) :
  (n.setPcbs pcbs).sockets = n.sockets
  := rfl

theorem modify_setPcbs (n : Net) (i : Fin maxSockets) (f : NetSocket → NetSocket) (pcbs : Pcbs) :
  (n.modify i f).setPcbs pcbs = (n.setPcbs pcbs).modify i f
  := rfl

/-- The number of a socket in use denotes it. -/
theorem socket_number {n : Net} {i : Fin maxSockets} (h : (n.sockets i).inUse) :
  n.socket (number i) = some i
  := by
  have hvalid : 0 ≤ number i ∧ (number i).toNat < maxSockets := ⟨Int.natCast_nonneg _, i.isLt⟩
  rw [socket, dif_pos hvalid]
  apply if_pos h

/-- `kheap_alloc` for a receive buffer. -/
def rxAlloc (n : Net) (ok : Bool) : Option (Net × UInt64) := do
  let (heap, buf) ← if ok then n.heap.kheapAlloc (UInt64.ofNat socketBufSize) else some (n.heap, 0)
  some ({ n with heap := heap, acquired := if buf = 0 then n.acquired else buf :: n.acquired }, buf)

/-- `kheap_free` of a receive buffer. -/
def rxFree (n : Net) (buf : UInt64) : Option Net := do
  let heap ← n.heap.kheapFree buf
  some { n with heap := heap, released := buf :: n.released }

/-! ### Creation and binding -/

/-- `allocate_socket_slot` -/
def allocateSocketSlot (n : Net) : Option (Net × Fin maxSockets) :=
  ((List.finRange maxSockets).find? (fun i => !(n.sockets i).inUse)).map
    (fun i => (n.modify i (fun _ => { NetSocket.zero with inUse := true }), i))

/-- The lines of `net_socket_create` and `tcp_accept_callback` that give a new socket its receive
buffer; without one, the slot is given back and the result is `false`. -/
def giveBuffer (n : Net) (ok : Bool) (i : Fin maxSockets) : Option (Net × Bool) := do
  let (n, buf) ← n.rxAlloc ok
  if buf = 0 then
    some (n.modify i (fun s => { s with rxBuf := 0, inUse := false }), false)
  else
    some (n.modify i (fun s => { s with rxBuf := buf, rxHead := 0, rxTail := 0, rxCount := 0 }), true)

/-- The end of `net_socket_create` for a control block: without one, the buffer and the slot are
given back. -/
def createdWith (n : Net) (i : Fin maxSockets) (pcb : Option Nat) : Option (Net × Int) :=
  match pcb with
  | none => do
      let n ← n.rxFree (n.sockets i).rxBuf
      some (n.modify i (fun s => { s with inUse := false }), -1)
  | some _ => some (n, number i)

/-- `net_socket_create` -/
def netSocketCreate (n : Net) (ok : Bool) (answer : Option Nat) (type : UInt8) : Option (Net × Int) :=
  match n.allocateSocketSlot with
  | none => some (n, -1)
  | some (n, i) => do
      let (n, done) ← (n.modify i (fun s => { s with type := type, state := .closed })).giveBuffer ok i
      if !done then
        some (n, -1)
      else if type = socketTypeTcp then
        let (pcbs, pcb) := n.pcbs.tcpNew answer
        createdWith ((n.setPcbs pcbs).modify i (fun s => { s with tcp := pcb })) i pcb
      else
        createdWith (n.modify i (fun s => { s with udp := answer })) i answer

/-- `net_socket_bind` -/
def netSocketBind (n : Net) (answer : Bool) (sock : Int) : Net × Int :=
  match n.socket sock with
  | none => (n, -1)
  | some i =>
      let s := n.sockets i
      let done := if s.type = socketTypeTcp then n.pcbs.tcpBind s.tcp answer else answer
      if done then (n.modify i (fun s => { s with state := .bound }), 0) else (n, -1)

/-! ### Callbacks -/

/-- The loop of `tcp_recv_callback` for one byte: the socket and memory after it, and the number of
bytes copied so far. -/
def receiveByte (st : (Memory × NetSocket) × Nat) (byte : UInt8) : (Memory × NetSocket) × Nat :=
  let ((m, s), copied) := st
  if s.rxCount < socketBufSize then
    ((Function.update m (s.rxBuf.toNat + s.rxTail) byte,
      { s with rxTail := (s.rxTail + 1) % socketBufSize, rxCount := s.rxCount + 1 }), copied + 1)
  else
    st

/-- The loop of `tcp_recv_callback` over a chain of buffers. -/
def receiveChain (st : (Memory × NetSocket) × Nat) (p : List (List UInt8)) :
    (Memory × NetSocket) × Nat :=
  p.foldl (fun st data => data.foldl receiveByte st) st

/-- `tcp_recv_callback` for a chain of buffers, or for the end of the connection (`none`).  Its
second result is the number of bytes that it passes to `tcp_recved`. -/
def tcpRecvCallback (n : Net) (arg : Int) (p : Option (List (List UInt8))) : Net × Nat × LwipErr :=
  match n.socket arg with
  | none => (n, 0, .val)
  | some i =>
      match p with
      | none => (n.modify i (fun s => { s with state := .error }), 0, .ok)
      | some chain =>
          let ((m, s), copied) := receiveChain ((n.heap.mem, n.sockets i), 0) chain
          ((n.modify i (fun _ => s)).setMem m, copied, .ok)

/-- `tcp_err_callback` -/
def tcpErrCallback (n : Net) (arg : Int) : Net :=
  if h : 0 ≤ arg ∧ arg.toNat < maxSockets then
    n.modify ⟨arg.toNat, h.2⟩ (fun s => { s with state := .error, tcp := none })
  else
    n

/-- `tcp_connect_callback`; `err` says whether the error passed is `ERR_OK`. -/
def tcpConnectCallback (n : Net) (arg : Int) (tpcb : Option Nat) (err : Bool) : Net × LwipErr :=
  match n.socket arg with
  | none => (n, .val)
  | some i =>
      if err then
        ((n.modify i (fun s => { s with state := .connected })).setPcbs (n.pcbs.tcpRecv tpcb true), .ok)
      else
        (n.modify i (fun s => { s with state := .error }), .ok)

/-- The end of `tcp_accept_callback`: the client is appended to the queue of the listener. -/
def enqueue (s : NetSocket) (client : Int) : NetSocket :=
  { s with
    acceptQueue := Function.update s.acceptQueue s.acceptTail client
    acceptTail := (s.acceptTail + 1) % acceptCap
    acceptCount := s.acceptCount + 1 }

/-- `tcp_accept_callback`; lwIP passes the null pointer for `newpcb` when it has no block for the
connection. -/
def tcpAcceptCallback (n : Net) (ok : Bool) (arg : Int) (newpcb : Option Nat) :
    Option (Net × LwipErr) :=
  match n.socket arg with
  | none => some (n, .val)
  | some parent =>
      if acceptCap ≤ (n.sockets parent).acceptCount then
        some (n, .mem)
      else
        match n.allocateSocketSlot with
        | none => some (n, .mem)
        | some (n, client) => do
            let (n, done) ← (n.modify client (fun s =>
              { s with type := socketTypeTcp, state := .connected, tcp := newpcb })).giveBuffer ok client
            if !done then
              some (n, .mem)
            else
              let pcbs := n.pcbs.tcpArg newpcb (number client)
              let pcbs := (pcbs.tcpRecv newpcb true).tcpErr newpcb true
              some ((n.setPcbs pcbs).modify parent (fun s => enqueue s (number client)), .ok)

/-! ### Listening and connecting -/

/-- `net_socket_listen` -/
def netSocketListen (n : Net) (answer : Option Nat) (sock : Int) : Net × Int :=
  match n.socket sock with
  | none => (n, -1)
  | some i =>
      let s := n.sockets i
      if s.type ≠ socketTypeTcp ∨ s.state ≠ .bound then
        (n, -1)
      else
        match n.pcbs.tcpListen s.tcp answer with
        | (_, none) => (n, -1)
        | (pcbs, some pcb) =>
            let n := n.modify i (fun s => { s with
              tcp := some pcb, state := .listening, acceptHead := 0, acceptTail := 0, acceptCount := 0 })
            (n.setPcbs ((pcbs.tcpArg (some pcb) sock).tcpAccept (some pcb)), 0)

/-- The end of `net_socket_accept`: the oldest client leaves the queue. -/
def dequeue (s : NetSocket) : NetSocket :=
  { s with acceptHead := (s.acceptHead + 1) % acceptCap, acceptCount := s.acceptCount - 1 }

variable (poll : Net → Option Net)

/-- `net_socket_accept` -/
def netSocketAccept (n : Net) (sock : Int) : Option (Net × Int) :=
  match n.socket sock with
  | none => some (n, -1)
  | some i =>
      if (n.sockets i).type ≠ socketTypeTcp ∨ (n.sockets i).state ≠ .listening then
        some (n, -1)
      else do
        let n ← poll n
        let s := n.sockets i
        if 0 < s.acceptCount then
          some (n.modify i dequeue, s.acceptQueue s.acceptHead)
        else
          some (n, -1)

/-- `net_socket_connect`; `remoteIp` says whether the address is not the null pointer, and `aton`
whether `ipaddr_aton` reads it. -/
def netSocketConnect (n : Net) (answer remoteIp aton : Bool) (sock : Int) : Option (Net × Int) :=
  match n.socket sock with
  | none => some (n, -1)
  | some i =>
      if !remoteIp then
        some (n, -1)
      else if (n.sockets i).type ≠ socketTypeTcp ∨ (n.sockets i).state ≠ .closed then
        some (n, -1)
      else if !aton then
        some (n, -1)
      else
        let n := n.modify i (fun s => { s with state := .connecting })
        let tcp := (n.sockets i).tcp
        let (pcbs, done) := ((n.pcbs.tcpArg tcp sock).tcpErr tcp true).tcpConnect tcp answer
        let n := n.setPcbs pcbs
        if done then do
          let n ← poll n
          some (n, 0)
        else
          some (n.modify i (fun s => { s with state := .error }), -1)

/-! ### Sending and receiving -/

/-- `net_socket_send` of `len` bytes at a pointer that is not null when `data` is set; `sndbuf` is the
answer of `tcp_sndbuf`, and `answer` that of `tcp_write`. -/
def netSocketSend (n : Net) (answer : Bool) (sndbuf : UInt16) (sock : Int) (data : Bool)
    (len : UInt32) : Option (Net × Int) :=
  match n.socket sock with
  | none => some (n, -1)
  | some i =>
      let s := n.sockets i
      if !data ∨ len = 0 then
        some (n, -1)
      else if s.type ≠ socketTypeTcp ∨ s.state ≠ .connected ∨ s.tcp = none then
        some (n, -1)
      else if sndbuf = 0 then do
        let n ← poll n
        some (n, -1)
      else if answer then do
        let n ← poll n
        some (n, ((min len.toNat sndbuf.toNat : Nat) : Int))
      else
        some (n, -1)

/-- The loop of `net_socket_recv`: the bytes that it copies and the socket after it. -/
def receiveLoop (m : Memory) (s : NetSocket) : Nat → List UInt8 × NetSocket
  | 0 => ([], s)
  | k + 1 =>
      let next := { s with rxHead := (s.rxHead + 1) % socketBufSize, rxCount := s.rxCount - 1 }
      let (bytes, last) := receiveLoop m next k
      (m (s.rxBuf.toNat + s.rxHead) :: bytes, last)

/-- `net_socket_recv` of `len` bytes to a pointer that is not null when `buf` is set.  Its second
result are the bytes that it writes there. -/
def netSocketRecv (n : Net) (sock : Int) (buf : Bool) (len : UInt32) :
    Option (Net × List UInt8 × Int) :=
  match n.socket sock with
  | none => some (n, [], -1)
  | some i =>
      if !buf ∨ len = 0 then
        some (n, [], -1)
      else do
        let n ← poll n
        let s := n.sockets i
        if s.rxCount = 0 then
          some (n, [], if s.state = .error ∨ s.tcp = none then 0 else -1)
        else
          let toCopy := min len.toNat s.rxCount
          let (bytes, last) := receiveLoop n.heap.mem s toCopy
          some (n.modify i (fun _ => last), bytes, (toCopy : Int))

/-! ### Closing -/

/-- The end of `net_socket_close`: what the socket owns is given back. -/
def closeResources (n : Net) (i : Fin maxSockets) : Option Net :=
  let tcp := (n.sockets i).tcp
  let pcbs := ((n.pcbs.tcpArg tcp 0).tcpRecv tcp false).tcpErr tcp false
  let n := (n.setPcbs (pcbs.tcpClose tcp)).modify i (fun s => { s with tcp := none, udp := none })
  if (n.sockets i).rxBuf = 0 then
    some n
  else do
    let n ← n.rxFree (n.sockets i).rxBuf
    some (n.modify i (fun s => { s with rxBuf := 0 }))

/-- The loop of `net_socket_close` over the clients that wait; `close` is the recursive call. -/
def closePending (close : Net → Int → Option Net) (i : Fin maxSockets) : Nat → Net → Option Net
  | 0, _ => none
  | k + 1, n =>
      let s := n.sockets i
      if s.acceptCount = 0 then
        some n
      else do
        let n ← close (n.modify i dequeue) (s.acceptQueue s.acceptHead)
        closePending close i k n

/-- `net_socket_close`, with at most the given number of nested calls. -/
def closeNested : Nat → Net → Int → Option Net
  | 0, _, _ => none
  | d + 1, n, sock =>
      match n.socket sock with
      | none => some n
      | some i => do
          let s := n.sockets i
          let n := n.modify i (fun s => { s with inUse := false })
          let n ← if s.type = socketTypeTcp ∧ s.state = .listening then
              closePending (closeNested d) i (acceptCap + 1) n
            else
              some n
          closeResources n i

/-- `net_socket_close`: each nested call takes a socket out of use. -/
def netSocketClose (n : Net) (sock : Int) : Option Net :=
  closeNested (maxSockets + 1) n sock

end Net
