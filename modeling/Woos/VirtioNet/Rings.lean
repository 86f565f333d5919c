import Woos.Lib.FreeRing
import Woos.Lib.Run

/-!
# The receive queue of the network card

The driver of `virtio_net.c` and the device share a table of descriptors and two rings.  The
driver posts descriptors in the available ring, the device takes them from there and completes
them, in any order, in the used ring, and `virtio_net_poll` takes them from there and posts them
again.  The steps of the driver are the accesses to shared memory of its loop, so that the
device may take and complete descriptors between any two of them.
-/

namespace VirtioNet

/-- `VIRTIO_NET_QUEUE_SIZE` -/
def queueSize : UInt16 := 128

/-- `VIRTQ_DESC_F_WRITE` -/
def descFWrite : UInt16 := 2

/-- `virtq_desc_t` -/
structure Desc where
  addr : UInt64
  len : UInt32
  flags : UInt16
  next : UInt16
  deriving DecidableEq, Repr

/-- The memory that driver and device share: `desc`, `avail` and `used`. -/
structure Rings where
  desc : Nat → Desc
  availIdx : UInt16
  availRing : Nat → UInt16
  usedIdx : UInt16
  usedRing : Nat → UInt32 × UInt32

/-- The size of a queue after `virtio_net_setup_vq`, for which the device has offered `size`. -/
def setupVq (size : UInt16) : UInt16 :=
  if size = 0 ∨ queueSize < size then queueSize else size

/-! ### Layout -/

/-- `sizeof(virtq_avail_t)` -/
def sizeofAvail : Nat := 2 + 2 + 2 * queueSize.toNat + 2

/-- `sizeof(virtq_used_t)` -/
def sizeofUsed : Nat := 2 + 2 + 8 * queueSize.toNat + 2

/-- Where `virtio_net_setup_vq` puts the tables: the offsets in the page of the descriptors, the
available ring and the used ring. -/
def layout (size : UInt16) : Nat × Nat × Nat :=
  let avail := size.toNat * 16
  (0, avail, avail + sizeofAvail + size.toNat * 2)

/-- In a queue of full size the tables that the driver writes do not overlap, and lie in the
page. -/
theorem layout_separate :
  (layout queueSize).1 + 16 * queueSize.toNat ≤ (layout queueSize).2.1
    ∧ (layout queueSize).2.1 + sizeofAvail ≤ (layout queueSize).2.2
    ∧ (layout queueSize).2.2 + sizeofUsed ≤ 4096
  := by
  decide

/-! ### State -/

/-- Where `virtio_net_poll` is: not running, at the head of its loop, before writing a descriptor
to the available ring, before publishing it, before advancing `last_used_idx`. -/
inductive Phase where
  | idle
  | head
  | post (id : UInt32)
  | publish
  | advance
  deriving DecidableEq, Repr

/-- The queue as the driver and the device see it; the descriptors that the device has taken and
not completed; and the indices of the accesses to the two rings. -/
structure Queue where
  rings : Rings
  size : UInt16
  lastUsedIdx : UInt16
  phase : Phase
  rxCount : UInt32
  deviceAvailIdx : UInt16
  deviceUsedIdx : UInt16
  inFlight : List UInt16
  accesses : List Nat

/-- `sizeof(virtio_net_hdr_t)` -/
def sizeofHdr : UInt32 := 12

/-! ### Initialization -/

/-- The loop of `virtio_net_init` that fills the receive queue, `n` rounds from `i` on: it stops
when there is no page.  `pages` are the results of `pmm_alloc_page`. -/
def fillRx (pages : Nat → UInt64) : Nat → UInt16 → Rings × List Nat → Rings × List Nat
  | 0, _, s => s
  | n + 1, i, (rings, accesses) =>
      let currentPage := pages (i.toNat / 2)
      if currentPage = 0 then
        (rings, accesses)
      else
        let addr := currentPage + (if i % 2 = 0 then 0 else 2048)
        fillRx pages n (i + 1) ({ rings with
          desc := Function.update rings.desc i.toNat ⟨addr, 2048, descFWrite, 0⟩
          availRing := Function.update rings.availRing i.toNat i }, i.toNat :: accesses)

/-- The receive queue after `virtio_net_init`, on a page with the given content, when the device
has offered a queue of this size. -/
def init (offered : UInt16) (pages : Nat → UInt64) (page : Rings) : Queue :=
  let (rings, accesses) := fillRx pages queueSize.toNat 0 (page, [])
  { rings := { rings with availIdx := queueSize }
    size := setupVq offered
    lastUsedIdx := 0
    phase := .idle
    rxCount := 0
    deviceAvailIdx := 0
    deviceUsedIdx := 0
    inFlight := []
    accesses := accesses }

/-! ### Steps -/

/-- What may happen next. -/
inductive Step where
  /-- the device takes a descriptor -/
  | take
  /-- the device completes a descriptor that it has taken, with this many bytes -/
  | complete (id : UInt16) (len : UInt32)
  /-- `virtio_net_poll` is called -/
  | poll
  /-- `virtio_net_poll` goes on; `pbuf` says whether lwIP has a buffer for a packet -/
  | driver (pbuf : Bool)
  deriving DecidableEq, Repr

namespace Queue

/-- The device takes the next descriptor of the available ring. -/
def take (q : Queue) : Option Queue :=
  if q.deviceAvailIdx = q.rings.availIdx then
    none
  else
    let slot := q.deviceAvailIdx.toNat % q.size.toNat
    some { q with
      deviceAvailIdx := q.deviceAvailIdx + 1
      inFlight := q.inFlight ++ [q.rings.availRing slot]
      accesses := slot :: q.accesses }

/-- The device writes an entry to the used ring and publishes it. -/
def complete (q : Queue) (id : UInt16) (len : UInt32) : Option Queue :=
  if id ∈ q.inFlight then
    let slot := q.deviceUsedIdx.toNat % q.size.toNat
    some { q with
      rings := { q.rings with
        usedRing := Function.update q.rings.usedRing slot (id.toUInt32, len)
        usedIdx := q.deviceUsedIdx + 1 }
      deviceUsedIdx := q.deviceUsedIdx + 1
      inFlight := q.inFlight.erase id
      accesses := slot :: q.accesses }
  else
    none

/-- The head of the loop of `virtio_net_poll`: read an entry of the used ring and give its packet
to lwIP. -/
def loopHead (q : Queue) (pbuf : Bool) : Queue :=
  if q.rings.usedIdx ≠ q.lastUsedIdx then
    let usedIdx := q.lastUsedIdx.toNat % queueSize.toNat
    let (id, len) := q.rings.usedRing usedIdx
    { q with
      phase := .post id
      rxCount := if sizeofHdr < len ∧ pbuf = true then q.rxCount + 1 else q.rxCount
      accesses := usedIdx :: q.accesses }
  else
    { q with phase := .idle }

/-- Write a descriptor to the available ring. -/
def post (q : Queue) (id : UInt32) : Queue :=
  let slot := q.rings.availIdx.toNat % queueSize.toNat
  { q with
    rings := { q.rings with
      availRing := Function.update q.rings.availRing slot id.toUInt16 }
    phase := .publish
    accesses := slot :: q.accesses }

/-- Publish it. -/
def publish (q : Queue) : Queue :=
  { q with rings := { q.rings with availIdx := q.rings.availIdx + 1 }, phase := .advance }

/-- Advance `last_used_idx`. -/
def advance (q : Queue) : Queue := { q with lastUsedIdx := q.lastUsedIdx + 1, phase := .head }

/-- Execute a step. -/
def step (q : Queue) : Step → Option Queue
  | .take => q.take
  | .complete id len => q.complete id len
  | .poll => if q.phase = .idle then some { q with phase := .head } else none
  | .driver pbuf =>
      match q.phase with
      | .idle => none
      | .head => some (q.loopHead pbuf)
      | .post id => some (q.post id)
      | .publish => some q.publish
      | .advance => some q.advance

end Queue

end VirtioNet
