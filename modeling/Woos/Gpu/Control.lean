import Woos.Fb.Present
import Woos.Lib.Run

/-!
# The control queue of the GPU

`virtio_gpu_renderer_present_rect` hands a rectangle to the device in two requests, one after the
other: it fills the buffer of a request, points two descriptors at the buffer and at the place of
the answer, publishes the descriptors in the available ring, and waits until the device has counted
up the index of the used ring.  The buffers, the descriptors and the rings are there once for all
threads, so the call does this between `gpu_lock` and `gpu_unlock`.

A step of a thread is one assignment to shared memory, and the device may step between any two of
them, as may every other thread.
-/

namespace VirtioGpu

open Fb (GpuRect GpuRequest VideoMode)

/-! ### Requests -/

/-- The requests of a presentation: `g_req_transfer` and `g_req_flush`. -/
inductive Slot where
  | transfer
  | flush
  deriving DecidableEq, Repr

/-- `virtio_gpu_transfer_to_host_2d_t`; `virtio_gpu_resource_flush_t` is the same without
`offset`. -/
structure Req where
  type : UInt32
  flags : UInt32
  fenceId : UInt64
  ctxId : UInt32
  hdrPadding : UInt32
  x : UInt32
  y : UInt32
  width : UInt32
  height : UInt32
  offset : UInt64
  resourceId : UInt32
  padding : UInt32
  deriving DecidableEq, Repr

/-- `VIRTIO_GPU_CMD_TRANSFER_TO_HOST_2D` and `VIRTIO_GPU_CMD_RESOURCE_FLUSH` -/
def Slot.cmd : Slot → UInt32
  | .transfer => 0x0105
  | .flush => 0x0104

/-- `VIRTIO_GPU_RESOURCE_ID` -/
def resourceId : UInt32 := 1

/-- What a request asks the device to do. -/
def Req.request (r : Req) : Option GpuRequest :=
  let rect : GpuRect := ⟨r.x, r.y, r.width, r.height⟩
  if r.resourceId ≠ VirtioGpu.resourceId then none
  else if r.type = Slot.transfer.cmd then some (.transferToHost2d rect r.offset)
  else if r.type = Slot.flush.cmd then some (.resourceFlush rect)
  else none

/-- The arguments of a call that has something to present: it has passed the tests before
`gpu_lock`. -/
structure Present where
  info : VideoMode
  x : UInt16
  y : UInt16
  w : UInt16
  h : UInt16
  nonempty : ¬ (w = 0 ∨ h = 0)
  inside : ¬ (info.width ≤ x ∨ info.height ≤ y)
  shown : ¬ (Fb.clipEnd x w info.width - x = 0 ∨ Fb.clipEnd y h info.height - y = 0)
  deriving DecidableEq, Repr

namespace Present

/-- `clipped_w` -/
def clippedW (p : Present) : UInt16 := Fb.clipEnd p.x p.w p.info.width - p.x

/-- `clipped_h` -/
def clippedH (p : Present) : UInt16 := Fb.clipEnd p.y p.h p.info.height - p.y

/-- The rectangle that is presented. -/
def rect (p : Present) : GpuRect :=
  ⟨p.x.toUInt32, p.y.toUInt32, p.clippedW.toUInt32, p.clippedH.toUInt32⟩

/-- The place of the rectangle in the surface. -/
def offset (gpu : Fb.Gpu) (p : Present) : UInt64 :=
  p.y.toUInt64 * (Fb.rendererPitch gpu p.info).toUInt64
    + p.x.toUInt64 * (Fb.rendererBytesPerPixel gpu p.info).toUInt64

/-- The request in a slot. -/
def request (gpu : Fb.Gpu) (p : Present) : Slot → GpuRequest
  | .transfer => .transferToHost2d p.rect (p.offset gpu)
  | .flush => .resourceFlush p.rect

end Present

/-- The fields of a request. -/
inductive Field where
  | type
  | flags
  | fenceId
  | ctxId
  | hdrPadding
  | x
  | y
  | width
  | height
  | offset
  | resourceId
  | padding
  deriving DecidableEq, Repr

/-- The assignment to a field. -/
def Field.assign (gpu : Fb.Gpu) (p : Present) (c : Slot) (r : Req) : Field → Req
  | .type => { r with type := c.cmd }
  | .flags => { r with flags := 0 }
  | .fenceId => { r with fenceId := 0 }
  | .ctxId => { r with ctxId := 0 }
  | .hdrPadding => { r with hdrPadding := 0 }
  | .x => { r with x := p.x.toUInt32 }
  | .y => { r with y := p.y.toUInt32 }
  | .width => { r with width := p.clippedW.toUInt32 }
  | .height => { r with height := p.clippedH.toUInt32 }
  | .offset => { r with offset := p.offset gpu }
  | .resourceId => { r with resourceId := VirtioGpu.resourceId }
  | .padding => { r with padding := 0 }

/-- The assignments of `virtio_gpu_renderer_present_rect` to a request, in order. -/
def fields : Slot → List Field
  | .transfer => [.type, .flags, .fenceId, .ctxId, .hdrPadding, .x, .y, .width, .height, .offset,
      .resourceId, .padding]
  | .flush => [.type, .flags, .fenceId, .ctxId, .hdrPadding, .x, .y, .width, .height, .resourceId,
      .padding]

/-! ### The queue -/

/-- The areas that a descriptor points to: a request, and the place of its answer. -/
inductive Area where
  | req (c : Slot)
  | resp (c : Slot)
  deriving DecidableEq, Repr

/-- `virtq_desc_t` -/
structure Desc where
  addr : Area
  len : UInt32
  flags : UInt16
  next : UInt16
  deriving DecidableEq, Repr

/-- `VIRTIO_GPU_QUEUE_SIZE` -/
def queueSize : UInt16 := 8

/-- `sizeof(g_req_transfer)` and `sizeof(g_req_flush)` -/
def Slot.reqLen : Slot → UInt32
  | .transfer => 56
  | .flush => 48

/-- The descriptor of a request: `VIRTQ_DESC_F_NEXT` is set. -/
def reqDesc (c : Slot) : Desc := ⟨.req c, c.reqLen, 1, 1⟩

/-- The descriptor of the place of an answer: `VIRTQ_DESC_F_WRITE` is set. -/
def respDesc (c : Slot) : Desc := ⟨.resp c, 24, 2, 0⟩

/-- Where a thread is in `virtio_gpu_renderer_present_rect`. -/
inductive Phase where
  /-- not in the call -/
  | idle
  /-- in `gpu_lock` -/
  | locking (p : Present)
  /-- before the assignments to these fields of a request -/
  | fill (c : Slot) (p : Present) (todo : List Field)
  /-- at the beginning of `virtio_gpu_submit_request` -/
  | check (c : Slot) (p : Present)
  /-- before writing `desc[0]` -/
  | describeReq (c : Slot) (p : Present)
  /-- before writing `desc[1]` -/
  | describeResp (c : Slot) (p : Present)
  /-- before writing to the available ring -/
  | post (c : Slot) (p : Present)
  /-- before counting up the index of the available ring -/
  | publish (c : Slot) (p : Present) (availIdx : UInt16)
  /-- before `virtio_gpu_notify_queue` -/
  | notify (c : Slot) (p : Present)
  /-- at the head of the loop -/
  | wait (c : Slot) (p : Present) (spin : Nat)
  /-- behind the loop -/
  | consume (c : Slot) (p : Present)
  /-- before reading the type of the answer -/
  | accept (c : Slot) (p : Present)
  /-- before the last `gpu_unlock` -/
  | unlock
  /-- before the `gpu_unlock` of a request that has failed -/
  | unlockFailed
  /-- in `virtio_gpu_set_failed`, before the assignment to `ready` -/
  | failReady
  /-- in `virtio_gpu_set_failed`, before the assignment to `active` -/
  | failActive
  deriving DecidableEq, Repr

/-- What can be seen of a presentation. -/
inductive Event (T : Type) where
  /-- a thread has got the lock -/
  | enter (t : T) (p : Present)
  /-- the device has read a request -/
  | take (request : Option GpuRequest)
  /-- the device has answered a request -/
  | answer (type : UInt32)
  /-- a thread has read an answer -/
  | accept (t : T) (type : UInt32)
  /-- a thread has given the lock back, and says whether its requests have been carried out -/
  | leave (t : T) (ok : Bool)

/-- The shared memory of driver and device, `last_used_idx`, the index up to which the device has read
the available ring, and the places of the answers that it owes. -/
structure Queue where
  reqs : Slot → Req
  resps : Slot → UInt32
  desc : UInt16 → Desc
  availIdx : UInt16
  availRing : UInt16 → UInt16
  usedIdx : UInt16
  lastUsedIdx : UInt16
  deviceAvailIdx : UInt16
  inFlight : List Area

namespace Queue

/-- An assignment to a request. -/
def fill (q : Queue) (c : Slot) (r : Req) : Queue :=
  { q with reqs := Function.update q.reqs c r }

/-- An assignment to a descriptor. -/
def describe (q : Queue) (i : UInt16) (d : Desc) : Queue :=
  { q with desc := Function.update q.desc i d }

/-- An assignment to a slot of the available ring. -/
def post (q : Queue) (i : UInt16) (head : UInt16) : Queue :=
  { q with availRing := Function.update q.availRing (i % queueSize) head }

/-- An assignment to the index of the available ring. -/
def publish (q : Queue) (availIdx : UInt16) : Queue := { q with availIdx := availIdx }

/-- The assignment to `last_used_idx`. -/
def consume (q : Queue) : Queue := { q with lastUsedIdx := q.usedIdx }

/-- The device has taken a chain of descriptors, in which this is the place of the answer. -/
def take (q : Queue) (resp : Area) : Queue :=
  { q with
    deviceAvailIdx := q.deviceAvailIdx + 1
    inFlight := q.inFlight ++ [resp] }

/-- The device has answered the oldest request that it has taken. -/
def answer (q : Queue) (c : Slot) (type : UInt32) : Queue :=
  { q with
    resps := Function.update q.resps c type
    usedIdx := q.usedIdx + 1
    inFlight := q.inFlight.tail }

@[simp]
theorem fill_reqs (q : Queue) (c : Slot) (r : Req) :
  (q.fill c r).reqs c = r
  := Function.update_self ..

@[simp]
theorem describe_desc (q : Queue) (i : UInt16) (d : Desc) :
  (q.describe i d).desc i = d
  := Function.update_self ..

theorem describe_desc_of_ne (q : Queue) {i j : UInt16} (d : Desc) (hne : j ≠ i) :
  (q.describe i d).desc j = q.desc j
  := Function.update_of_ne hne ..

@[simp]
theorem post_availRing (q : Queue) (i head : UInt16) :
  (q.post i head).availRing (i % queueSize) = head
  := Function.update_self ..

@[simp]
theorem answer_resps (q : Queue) (c : Slot) (type : UInt32) :
  (q.answer c type).resps c = type
  := Function.update_self ..

end Queue

/-- The driver and the device: `g_gpu_lock`, the flags of the driver, the flag
`VIRTIO_STATUS_FAILED` of the device, the queue, the threads, and what has been seen so far. -/
structure State (T : Type) where
  lock : Bool
  gpu : Fb.Gpu
  failed : Bool
  queue : Queue
  phases : T → Phase
  events : List (Event T)

/-- What may happen next. -/
inductive Action (T : Type) where
  /-- a thread calls `virtio_gpu_renderer_present_rect` -/
  | call (t : T) (info : VideoMode) (x y w h : UInt16)
  /-- a thread goes on -/
  | thread (t : T)
  /-- the device takes a request -/
  | take
  /-- the device answers the oldest request that it has taken -/
  | complete (type : UInt32)

/-- The number of rounds after which `virtio_gpu_submit_request` gives up. -/
def maxSpin : Nat := 100000000

/-- `VIRTIO_GPU_RESP_OK_NODATA` or `VIRTIO_GPU_RESP_OK_DISPLAY_INFO` -/
def isOk (type : UInt32) : Bool := type = 0x1100 ∨ type = 0x1101

namespace State

variable {T : Type} [DecidableEq T]

/-- A thread goes on to a phase. -/
def goto (s : State T) (t : T) (phase : Phase) : State T :=
  { s with phases := Function.update s.phases t phase }

@[simp]
theorem goto_phases (s : State T) (t : T) (phase : Phase) :
  (s.goto t phase).phases t = phase
  := Function.update_self ..

theorem goto_phases_of_ne (s : State T) {t t' : T} (phase : Phase) (hne : t' ≠ t) :
  (s.goto t phase).phases t' = s.phases t'
  := Function.update_of_ne hne ..

/-- Something has been seen. -/
def see (s : State T) (e : Event T) : State T :=
  { s with events := s.events ++ [e] }

/-- The beginning of `virtio_gpu_renderer_present_rect`, up to `gpu_lock`. -/
def call (s : State T) (t : T) (info : VideoMode) (x y w h : UInt16) : Option (State T) :=
  if s.phases t ≠ .idle then
    none
  else if s.gpu.ready = false then
    some s
  else if hnonempty : w = 0 ∨ h = 0 then
    some s
  else if hinside : info.width ≤ x ∨ info.height ≤ y then
    some s
  else if hshown : Fb.clipEnd x w info.width - x = 0 ∨ Fb.clipEnd y h info.height - y = 0 then
    some s
  else
    some (s.goto t (.locking ⟨info, x, y, w, h, hnonempty, hinside, hshown⟩))

/-- What follows a request that has been accepted. -/
def afterAccept (p : Present) : Slot → Phase
  | .transfer => .fill .flush p (fields .flush)
  | .flush => .unlock

/-- The next step of a thread. -/
def thread (s : State T) (t : T) : Option (State T) :=
  match s.phases t with
  | .idle => none
  | .locking p =>
      -- `__sync_lock_test_and_set`, and `thread_yield` when the lock is taken
      if s.lock then
        some s
      else
        some (({ s with lock := true }.goto t (.fill .transfer p (fields .transfer))).see
          (.enter t p))
  | .fill c p [] => some (s.goto t (.check c p))
  | .fill c p (f :: todo) =>
      let r := f.assign s.gpu p c (s.queue.reqs c)
      some ({ s with queue := s.queue.fill c r }.goto t (.fill c p todo))
  | .check c p =>
      if s.gpu.ready then some (s.goto t (.describeReq c p)) else some (s.goto t .unlockFailed)
  | .describeReq c p =>
      some ({ s with queue := s.queue.describe 0 (reqDesc c) }.goto t (.describeResp c p))
  | .describeResp c p =>
      some ({ s with queue := s.queue.describe 1 (respDesc c) }.goto t (.post c p))
  | .post c p =>
      let availIdx := s.queue.availIdx
      some ({ s with queue := s.queue.post availIdx 0 }.goto t (.publish c p availIdx))
  | .publish c p availIdx =>
      some ({ s with queue := s.queue.publish (availIdx + 1) }.goto t (.notify c p))
  | .notify c p =>
      -- the device may look at the ring at any time, notified or not
      some (s.goto t (.wait c p 0))
  | .wait c p spin =>
      if s.queue.usedIdx = s.queue.lastUsedIdx then
        if maxSpin < spin + 1 then some (s.goto t .unlockFailed)
        else some (s.goto t (.wait c p (spin + 1)))
      else some (s.goto t (.consume c p))
  | .consume c p =>
      some ({ s with queue := s.queue.consume }.goto t (.accept c p))
  | .accept c p =>
      let type := s.queue.resps c
      some ((s.goto t (if isOk type then afterAccept p c else .unlockFailed)).see (.accept t type))
  | .unlock => some (({ s with lock := false }.goto t .idle).see (.leave t true))
  | .unlockFailed => some (({ s with lock := false }.goto t .failReady).see (.leave t false))
  | .failReady =>
      some ({ s with failed := true, gpu := ⟨s.gpu.active, false⟩ }.goto t .failActive)
  | .failActive => some ({ s with gpu := ⟨false, s.gpu.ready⟩ }.goto t .idle)

/-- What the device reads at an address. -/
def readReq (s : State T) : Area → Option GpuRequest
  | .req c => (s.queue.reqs c).request
  | .resp _ => none

/-- The device takes the chain of descriptors that the available ring names next. -/
def take (s : State T) : Option (State T) :=
  if s.queue.deviceAvailIdx = s.queue.availIdx then
    none
  else
    let head := s.queue.desc (s.queue.availRing (s.queue.deviceAvailIdx % queueSize))
    some ({ s with queue := s.queue.take (s.queue.desc head.next).addr }.see
      (.take (s.readReq head.addr)))

/-- The device writes an answer and counts up the index of the used ring. -/
def complete (s : State T) (type : UInt32) : Option (State T) :=
  match s.queue.inFlight with
  | .resp c :: _ => some ({ s with queue := s.queue.answer c type }.see (.answer type))
  | _ => none

/-- Everything that may happen. -/
def step (s : State T) : Action T → Option (State T)
  | .call t info x y w h => s.call t info x y w h
  | .thread t => s.thread t
  | .take => s.take
  | .complete type => s.complete type

end State

end VirtioGpu
