import Woos.KHeap.Session
import Woos.Lib.Run
import Woos.Net.Socket

/-!
# Socket handles

The handles of `vfs.c`, and the calls of `wasi.c` that make, use and close sockets.  A `NetVfs` is
the sockets together with the handles, and the pointers that the other callers of the kernel heap
hold.  What FatFs answers to a call is a parameter, and so is what lwIP delivers while it is polled.
-/

/-- What lwIP does with a control block while it is polled: a connection to a listening block (with
the new block, when there is one), a segment or the end of the connection, an error, or the
completion of a connection. -/
inductive LwipEvent where
  | accept (ok : Bool) (listener : Nat) (newpcb : Option Nat)
  | recv (pcb : Nat) (p : Option (List (List UInt8)))
  | err (pcb : Nat)
  | connected (pcb : Nat)

namespace Net

/-- An event: lwIP calls the callback of the block when it is set.  A block is taken back before its
error callback, and a new block when the callback for it fails. -/
def event (n : Net) : LwipEvent → Option Net
  | .accept ok listener newpcb =>
      let b := n.pcbs listener
      if b.state = .listen ∧ b.accept then do
        let pcb := n.pcbs.take newpcb
        let pcbs := n.pcbs.modify pcb (fun _ => Pcb.fresh .active b.arg)
        let (n, err) ← (n.setPcbs pcbs).tcpAcceptCallback ok b.arg pcb
        some (if err = .ok then n else n.setPcbs (n.pcbs.release pcb))
      else
        some n
  | .recv pcb p => some (if (n.pcbs pcb).recv then (n.tcpRecvCallback (n.pcbs pcb).arg p).1 else n)
  | .err pcb =>
      let b := n.pcbs pcb
      some (if b.errf then (n.setPcbs (n.pcbs.release (some pcb))).tcpErrCallback b.arg else n)
  | .connected pcb =>
      let b := n.pcbs pcb
      some (if b.connected then (n.tcpConnectCallback b.arg (some pcb) true).1 else n)

/-- `net_poll`, while which the events happen. -/
def netPoll (events : List LwipEvent) (n : Net) : Option Net :=
  Run.exec event n events

end Net

/-- The `type` of a handle. -/
inductive HandleType where
  | file
  | dir
  | socket
  deriving DecidableEq, Repr

/-- `vfs_handle_t` -/
structure VfsHandle where
  inUse : Bool
  type : HandleType
  socketId : Int

/-- `VFS_MAX_HANDLES` -/
def maxHandles : Nat := 32

/-- The sockets, `g_handles`, `g_vfs_ready`, and the pointers into the kernel heap that others
hold. -/
structure NetVfs where
  net : Net
  handles : Fin maxHandles → VfsHandle
  ready : Bool
  others : List UInt64

namespace NetVfs

/-- The state at boot. -/
def init (m : Memory) (ready : Bool) : NetVfs :=
  ⟨Net.init (KHeap.kheapInit m), fun _ => ⟨false, .file, 0⟩, ready, []⟩

/-- The sockets after a call. -/
def setNet (s : NetVfs) (r : Net × Int) : NetVfs × Int := ({ s with net := r.1 }, r.2)

/-- Change a handle. -/
def setHandle (s : NetVfs) (h : Fin maxHandles) (v : VfsHandle) : NetVfs :=
  { s with handles := Function.update s.handles h v }

/-- The handle of a number. -/
def handle (handle : Int) : Option (Fin maxHandles) :=
  if h : 0 ≤ handle ∧ handle.toNat < maxHandles then some ⟨handle.toNat, h.2⟩ else none

/-- `allocate_handle` -/
def allocateHandle (s : NetVfs) : Option (NetVfs × Fin maxHandles) :=
  ((List.finRange maxHandles).find? (fun h => !(s.handles h).inUse)).map
    (fun h => (s.setHandle h ⟨true, .file, -1⟩, h))

/-- `vfs_create_socket_handle` -/
def vfsCreateSocketHandle (s : NetVfs) (socketId : Int) : NetVfs × Int :=
  match s.allocateHandle with
  | none => (s, -1)
  | some (s, h) => (s.setHandle h { s.handles h with type := .socket, socketId := socketId }, (h.val : Int))

/-- `vfs_get_socket_id` -/
def vfsGetSocketId (s : NetVfs) (h : Int) : Int :=
  match handle h with
  | none => -1
  | some h =>
      if !(s.handles h).inUse ∨ (s.handles h).type ≠ .socket then -1 else (s.handles h).socketId

/-- `vfs_open`; `path` says whether the path is not the null pointer, and `answer` what FatFs opens
for it, if anything. -/
def vfsOpen (s : NetVfs) (path : Bool) (answer : Option Bool) : NetVfs × Int :=
  if !s.ready ∨ !path then
    (s, -1)
  else
    match s.allocateHandle with
    | none => (s, -1)
    | some (s, h) =>
        match answer with
        | some dir => (s.setHandle h { s.handles h with type := if dir then .dir else .file }, (h.val : Int))
        | none => (s.setHandle h { s.handles h with inUse := false }, -1)

/-- `vfs_close` -/
def vfsClose (s : NetVfs) (h : Int) : Option NetVfs :=
  match handle h with
  | none => some s
  | some h =>
      let v := s.handles h
      if !v.inUse then
        some s
      else
        let s := s.setHandle h ⟨false, .file, -1⟩
        if v.type = .socket then do
          let n ← s.net.netSocketClose v.socketId
          some { s with net := n }
        else
          some s

/-- `vfs_read` of `bytes` bytes to a pointer that is not null when `buffer` is set, for a handle of a
socket; reading a file does not change the handles. -/
def vfsRead (s : NetVfs) (events : List LwipEvent) (h : Int) (buffer : Bool) (bytes : UInt32) :
    Option (NetVfs × Int) :=
  if !s.ready ∨ !buffer ∨ bytes = 0 ∨ s.vfsGetSocketId h < 0 then
    some (s, 0)
  else do
    let (n, _, r) ← s.net.netSocketRecv (Net.netPoll events) (s.vfsGetSocketId h) buffer bytes
    some ({ s with net := n }, max r 0)

/-- `vfs_write` for a handle of a socket; writing a file does not change the handles. -/
def vfsWrite (s : NetVfs) (events : List LwipEvent) (answer : Bool) (sndbuf : UInt16) (h : Int)
    (buffer : Bool) (bytes : UInt32) : Option (NetVfs × Int) :=
  if !s.ready ∨ !buffer ∨ bytes = 0 ∨ s.vfsGetSocketId h < 0 then
    some (s, 0)
  else do
    let (n, r) ← s.net.netSocketSend (Net.netPoll events) answer sndbuf (s.vfsGetSocketId h) buffer bytes
    some ({ s with net := n }, max r 0)

/-! ### The calls of `wasi.c` -/

/-- Expose a socket as a handle, or close it when there is none left: the end of
`wasi_socket_create` and `wasi_socket_accept`. -/
def exposeSocket (s : NetVfs) (sock : Int) : Option (NetVfs × Int) :=
  let (s, h) := s.vfsCreateSocketHandle sock
  if h < 0 then do
    let n ← s.net.netSocketClose sock
    some ({ s with net := n }, -1)
  else
    some (s, h + 4)

/-- Call a function of `net_socket.c` on the socket of a descriptor. -/
def withSocket (s : NetVfs) (fd : Int32) (f : Net → Int → Option (Net × Int)) :
    Option (NetVfs × Int) :=
  let sock := s.vfsGetSocketId (fd - 4).toInt
  if sock < 0 then some (s, -1) else (f s.net sock).map s.setNet

/-- `wasi_socket_create` -/
def wasiSocketCreate (s : NetVfs) (ok : Bool) (answer : Option Nat) (type : UInt32) :
    Option (NetVfs × Int) := do
  let (n, sock) ← s.net.netSocketCreate ok answer type.toUInt8
  if sock < 0 then
    some ({ s with net := n }, -1)
  else
    exposeSocket { s with net := n } sock

/-- `wasi_socket_bind` -/
def wasiSocketBind (s : NetVfs) (answer : Bool) (fd : Int32) : Option (NetVfs × Int) :=
  s.withSocket fd (fun n sock => some (n.netSocketBind answer sock))

/-- `wasi_socket_listen` -/
def wasiSocketListen (s : NetVfs) (answer : Option Nat) (fd : Int32) : Option (NetVfs × Int) :=
  s.withSocket fd (fun n sock => some (n.netSocketListen answer sock))

/-- `wasi_socket_accept` -/
def wasiSocketAccept (s : NetVfs) (events : List LwipEvent) (fd : Int32) : Option (NetVfs × Int) :=
  let sock := s.vfsGetSocketId (fd - 4).toInt
  if sock < 0 then
    some (s, -1)
  else do
    let (n, client) ← s.net.netSocketAccept (Net.netPoll events) sock
    if client < 0 then
      some ({ s with net := n }, -1)
    else
      exposeSocket { s with net := n } client

/-- `wasi_socket_connect`, which passes an address on its own stack. -/
def wasiSocketConnect (s : NetVfs) (events : List LwipEvent) (answer aton : Bool) (fd : Int32) :
    Option (NetVfs × Int) :=
  s.withSocket fd (fun n sock => n.netSocketConnect (Net.netPoll events) answer true aton sock)

/-- `wasi_socket_send` -/
def wasiSocketSend (s : NetVfs) (events : List LwipEvent) (answer : Bool) (sndbuf : UInt16)
    (fd : Int32) (data : Bool) (len : UInt32) : Option (NetVfs × Int) :=
  s.withSocket fd (fun n sock =>
    n.netSocketSend (Net.netPoll events) answer sndbuf sock data len)

/-- `wasi_socket_recv` -/
def wasiSocketRecv (s : NetVfs) (events : List LwipEvent) (fd : Int32) (buf : Bool) (len : UInt32) :
    Option (NetVfs × Int) :=
  s.withSocket fd (fun n sock =>
    (n.netSocketRecv (Net.netPoll events) sock buf len).map (fun r => (r.1, r.2.2)))

/-- `wasi_socket_close` -/
def wasiSocketClose (s : NetVfs) (fd : Int32) : Option (NetVfs × Int) :=
  (s.vfsClose (fd - 4).toInt).map (fun s => (s, 0))

/-! ### Runs -/

/-- A call, an event of lwIP, or a call or write of the other callers of the kernel heap. -/
inductive Call where
  | create (ok : Bool) (answer : Option Nat) (type : UInt32)
  | bind (answer : Bool) (fd : Int32)
  | listen (answer : Option Nat) (fd : Int32)
  | accept (events : List LwipEvent) (fd : Int32)
  | connect (events : List LwipEvent) (answer aton : Bool) (fd : Int32)
  | send (events : List LwipEvent) (answer : Bool) (sndbuf : UInt16) (fd : Int32) (data : Bool)
      (len : UInt32)
  | recv (events : List LwipEvent) (fd : Int32) (buf : Bool) (len : UInt32)
  | close (fd : Int32)
  | vfsOpen (path : Bool) (answer : Option Bool)
  | vfsRead (events : List LwipEvent) (h : Int) (buffer : Bool) (bytes : UInt32)
  | vfsWrite (events : List LwipEvent) (answer : Bool) (sndbuf : UInt16) (h : Int) (buffer : Bool)
      (bytes : UInt32)
  | vfsClose (h : Int)
  | event (e : LwipEvent)
  | other (c : KHeap.Call)

/-- The heap as its other callers see it. -/
def clients (s : NetVfs) : KHeap.Session := ⟨s.net.heap, s.others⟩

/-- Execute a call. -/
def call (s : NetVfs) : Call → Option NetVfs
  | .create ok answer type => (s.wasiSocketCreate ok answer type).map Prod.fst
  | .bind answer fd => (s.wasiSocketBind answer fd).map Prod.fst
  | .listen answer fd => (s.wasiSocketListen answer fd).map Prod.fst
  | .accept events fd => (s.wasiSocketAccept events fd).map Prod.fst
  | .connect events answer aton fd => (s.wasiSocketConnect events answer aton fd).map Prod.fst
  | .send events answer sndbuf fd data len =>
      (s.wasiSocketSend events answer sndbuf fd data len).map Prod.fst
  | .recv events fd buf len => (s.wasiSocketRecv events fd buf len).map Prod.fst
  | .close fd => (s.wasiSocketClose fd).map Prod.fst
  | .vfsOpen path answer => some (s.vfsOpen path answer).1
  | .vfsRead events h buffer bytes => (s.vfsRead events h buffer bytes).map Prod.fst
  | .vfsWrite events answer sndbuf h buffer bytes =>
      (s.vfsWrite events answer sndbuf h buffer bytes).map Prod.fst
  | .vfsClose h => s.vfsClose h
  | .event e => (s.net.event e).map (fun n => { s with net := n })
  | .other c => (s.clients.call c).map
      (fun t => { s with net := { s.net with heap := t.heap }, others := t.live })

end NetVfs
