import Woos.Lib.Shift
import Woos.Lib.Memory
import Woos.VirtioNet.Accounting

/-!
# Every frame is received once

A frame that the device completes is in the buffer of a descriptor until the driver takes it off the
used ring and gives its packet to lwIP.  `frames_received` says that the packets are those of the
frames, in the order in which the device has completed them, each once and with its bytes: the device
writes only to the buffers of descriptors that it has taken, and the buffers are apart.

`Card.allocs` are the answers of `pbuf_alloc`, one for each entry that is taken off the used ring: a
frame for which lwIP has no buffer is dropped, and so is one that has nothing but a header.
-/

namespace VirtioNet

open Queue

/-- The queue and the memory, the frames that the device has completed, and what lwIP has been
given. -/
structure Card where
  queue : Queue
  memory : Memory
  sent : List (List UInt8)
  allocs : List Bool
  input : List (List UInt8)

/-- What may happen next. -/
inductive CardStep where
  /-- the device takes a descriptor -/
  | take
  /-- the device writes a frame to the buffer of a descriptor that it has taken, and completes it -/
  | complete (id : UInt16) (frame : List UInt8)
  /-- `virtio_net_poll` is called -/
  | poll
  /-- `virtio_net_poll` goes on; `pbuf` says whether lwIP has a buffer for a packet -/
  | driver (pbuf : Bool)

namespace Card

/-- So many bytes of the memory. -/
def bytes (memory : Memory) (address n : Nat) : List UInt8 :=
  Shift.entries (fun i => memory (address + i)) n

/-- The head of the loop of `virtio_net_poll`, as far as lwIP is concerned: when there is an entry of
the used ring, its packet is copied to a buffer and given to lwIP. -/
def receive (c : Card) (pbuf : Bool) : Card :=
  if c.queue.rings.usedIdx ≠ c.queue.lastUsedIdx then
    let (id, len) := c.queue.rings.usedRing (c.queue.lastUsedIdx.toNat % queueSize.toNat)
    let packetLen := (len - sizeofHdr).toUInt16
    let address := (c.queue.rings.desc id.toNat).addr.toNat + sizeofHdr.toNat
    { c with
      allocs := c.allocs ++ [pbuf]
      input := if sizeofHdr < len ∧ pbuf = true then c.input ++ [bytes c.memory address packetLen.toNat]
        else c.input }
  else c

/-- Execute a step.  The device writes no more bytes than the buffer of the descriptor has. -/
def step (c : Card) : CardStep → Option Card
  | .take => c.queue.take.map (fun q => { c with queue := q })
  | .complete id frame =>
    let desc := c.queue.rings.desc id.toNat
    if frame.length ≤ desc.len.toNat then
      (c.queue.complete id (UInt32.ofNat frame.length)).map (fun q => { c with
        queue := q
        memory := Shift.copy c.memory desc.addr.toNat frame
        sent := c.sent ++ [frame] })
    else none
  | .poll => (c.queue.step .poll).map (fun q => { c with queue := q })
  | .driver pbuf =>
    (c.queue.step (.driver pbuf)).map (fun q =>
      { (if c.queue.phase = .head then c.receive pbuf else c) with queue := q })

/-- The card after `virtio_net_init`. -/
def init (offered : UInt16) (pages : Nat → UInt64) (page : Rings) (memory : Memory) : Card :=
  ⟨VirtioNet.init offered pages page, memory, [], [], []⟩

end Card

/-! ### Packets -/

/-- The packets that lwIP is given for frames, as far as there are answers. -/
def packets : (sent : List (List UInt8)) → (allocs : List Bool) → List (List UInt8)
  | frame :: sent, pbuf :: allocs =>
    if sizeofHdr.toNat < frame.length ∧ pbuf = true then
      frame.drop sizeofHdr.toNat :: packets sent allocs
    else packets sent allocs
  | _, _ => []

@[simp]
theorem packets_nil (sent : List (List UInt8)) :
  packets sent [] = []
  := by
  cases sent with
  | nil => rfl
  | cons frame sent => rfl

/-- A frame more does not matter before it is taken. -/
theorem packets_append {sent : List (List UInt8)} {allocs : List Bool} (h : allocs.length ≤ sent.length)
    (frames : List (List UInt8)) :
  packets (sent ++ frames) allocs = packets sent allocs
  := by
  induction sent generalizing allocs with
  | nil =>
      rw [List.eq_nil_of_length_eq_zero (Nat.le_zero.mp h), packets_nil, packets_nil]
  | cons frame sent ih =>
      cases allocs with
      | nil => rw [packets_nil, packets_nil]
      | cons pbuf allocs =>
          rw [List.cons_append, packets, packets, ih (Nat.le_of_succ_le_succ h)]

/-- The packet of the next frame is the next packet. -/
theorem packets_concat {sent rest : List (List UInt8)} {allocs : List Bool} {frame : List UInt8}
    (h : sent.drop allocs.length = frame :: rest) (pbuf : Bool) :
  packets sent (allocs ++ [pbuf])
    = packets sent allocs ++ (if sizeofHdr.toNat < frame.length ∧ pbuf = true
      then [frame.drop sizeofHdr.toNat] else [])
  := by
  induction allocs generalizing sent with
  | nil =>
      rw [List.length_nil, List.drop_zero] at h
      rw [h, List.nil_append, packets, packets_nil, packets_nil]
      rfl
  | cons b allocs ih =>
      cases sent with
      | nil => cases h
      | cons f sent =>
          rw [List.length_cons, List.drop_succ_cons] at h
          rw [List.cons_append, packets, packets, ih h]
          split_ifs
          · rfl
          · rfl
          · rfl
          · rfl

namespace Queue

variable {q : Queue}

/-- The first entry of the used ring that has not been read. -/
def nextRead (q : Queue) : UInt16 :=
  match q.phase with
  | .idle | .head => q.lastUsedIdx
  | .post _ | .publish | .advance => q.lastUsedIdx + 1

/-- The entries of the used ring that have not been read. -/
def unread (q : Queue) : List (UInt32 × UInt32) :=
  FreeRing.window q.rings.usedRing q.size.toNat q.nextRead q.rings.usedIdx

/-- The entries that have not been read are completed, and one that is being posted comes before
them. -/
theorem Inv.completed_eq (h : q.Inv) :
  ∃ ids, q.completed = ids ++ q.unread.map (fun entry => entry.1.toNat)
  := by
  have hheld := h.held
  rw [Held] at hheld
  have hinhand {a : Nat} (hhead : q.completed.head? = some a) (hnext : q.nextUsedIdx = q.lastUsedIdx)
      (hread : q.nextRead = q.lastUsedIdx + 1) :
      ∃ ids, q.completed = ids ++ q.unread.map (fun entry => entry.1.toNat) := by
    have hne : q.nextUsedIdx ≠ q.rings.usedIdx := by
      intro heq
      rw [completed, heq] at hhead
      have hzero : FreeRing.window q.rings.usedRing q.size.toNat q.rings.usedIdx q.rings.usedIdx = [] := by
        rw [← List.length_eq_zero_iff, FreeRing.length_window, FreeRing.count_eq_zero]
      rw [hzero] at hhead
      cases hhead
    refine ⟨[(q.rings.usedRing (q.nextUsedIdx.toNat % q.size.toNat)).1.toNat], ?_⟩
    have hdvd : q.size.toNat ∣ 2 ^ 16 := by
      rw [h.size_eq]
      exact queueSize_dvd
    rw [completed, unread, hread, FreeRing.window_pop _ hdvd hne, hnext]
    rfl
  have hsame (hnext : q.nextUsedIdx = q.nextRead) :
      ∃ ids, q.completed = ids ++ q.unread.map (fun entry => entry.1.toNat) := by
    refine ⟨[], ?_⟩
    rw [completed, unread, hnext]
    rfl
  cases hphase : q.phase with
  | idle => exact hsame (by rw [nextUsedIdx, nextRead, hphase]; rfl)
  | head => exact hsame (by rw [nextUsedIdx, nextRead, hphase]; rfl)
  | post id =>
      rw [hphase] at hheld
      exact hinhand hheld (by rw [nextUsedIdx, hphase]; rfl) (by rw [nextRead, hphase])
  | publish =>
      rw [hphase] at hheld
      exact hinhand hheld (by rw [nextUsedIdx, hphase]; rfl) (by rw [nextRead, hphase])
  | advance => exact hsame (by rw [nextUsedIdx, nextRead, hphase]; rfl)

/-- An entry that has not been read is not one of a descriptor that the device has taken. -/
theorem Inv.unread_apart (h : q.Inv) {entry : UInt32 × UInt32} (hentry : entry ∈ q.unread) {id : UInt16}
    (hid : id ∈ q.inFlight) :
  entry.1.toNat < 128 ∧ id.toNat < 128 ∧ entry.1.toNat ≠ id.toNat
  := by
  obtain ⟨ids, hcompleted⟩ := h.completed_eq
  have hmem : entry.1.toNat ∈ q.completed := by
    rw [hcompleted]
    exact List.mem_append_right _ (List.mem_map_of_mem hentry)
  have hflight : id.toNat ∈ q.inFlight.map UInt16.toNat := List.mem_map_of_mem hid
  have hnodup := h.partition.nodup_iff.mpr List.nodup_range
  have hlt := h.partition.subset (List.mem_append_left _ (List.mem_append_right _ hflight))
  rw [h.size_eq] at hlt
  refine ⟨h.lt_of_completed hmem, List.mem_range.mp hlt, ?_⟩
  intro heq
  rw [List.nodup_append] at hnodup
  exact hnodup.2.2 _ (List.mem_append_right _ hflight) _ hmem heq.symm

theorem Inv.count_unread_lt (h : q.Inv) {id : UInt16} (hid : id ∈ q.inFlight) :
  FreeRing.count q.nextRead q.rings.usedIdx < 128
  := by
  obtain ⟨ids, hcompleted⟩ := h.completed_eq
  have hcount := h.count_eq
  have hpos := List.length_pos_of_mem hid
  have hlength := congrArg List.length hcompleted
  rw [List.length_append, List.length_map, completed, unread, List.length_map, FreeRing.length_window,
    FreeRing.length_window] at hlength
  omega

/-- The device adds an entry. -/
theorem Inv.unread_complete (h : q.Inv) {id : UInt16} {len : UInt32} {q' : Queue}
    (hcomplete : q.complete id len = some q') :
  id ∈ q.inFlight ∧ q'.rings.desc = q.rings.desc ∧ q'.unread = q.unread ++ [(id.toUInt32, len)]
  := by
  unfold Queue.complete at hcomplete
  split at hcomplete
  case isTrue hmem =>
    rw [← Option.some_inj.mp hcomplete]
    refine ⟨hmem, rfl, ?_⟩
    have hroom := h.count_unread_lt hmem
    have hcap : queueSize.toNat = 128 := rfl
    have hsame : FreeRing.window (Function.update q.rings.usedRing
          (q.deviceUsedIdx.toNat % q.size.toNat) (id.toUInt32, len)) queueSize.toNat
          q.nextRead q.rings.usedIdx
        = FreeRing.window q.rings.usedRing queueSize.toNat q.nextRead q.rings.usedIdx := by
      apply FreeRing.window_write queueSize_dvd (by omega)
      intro k _ hk
      rw [h.published, h.size_eq]
      apply Function.update_of_ne hk
    have hpush := FreeRing.window_push (Function.update q.rings.usedRing
          (q.deviceUsedIdx.toNat % q.size.toNat) (id.toUInt32, len)) q.nextRead
          q.rings.usedIdx queueSize_dvd (by omega)
    rw [hsame, ← h.published, h.size_eq, Function.update_self] at hpush
    simp only [unread, h.size_eq]
    rw [← h.published]
    exact hpush
  case isFalse => cases hcomplete

end Queue

/-! ### Buffers -/

/-- The buffers of the descriptors have 2048 bytes each, and are apart. -/
structure Buffers (desc : Nat → Desc) : Prop where
  len : ∀ i < 128, (desc i).len = 2048
  apart : ∀ i < 128, ∀ j < 128, i ≠ j →
    (desc i).addr.toNat + 2048 ≤ (desc j).addr.toNat ∨ (desc j).addr.toNat + 2048 ≤ (desc i).addr.toNat

namespace Card

variable {desc : Nat → Desc} {c c' : Card}

theorem bytes_copy (memory : Memory) (address : Nat) (s : List UInt8) :
  bytes (Shift.copy memory address s) address s.length = s
  := by
  have hcopied := Shift.entries_copy memory address s
  rw [Shift.entries_add] at hcopied
  have hbefore : Shift.entries (Shift.copy memory address s) address = Shift.entries memory address := by
    apply Shift.entries_congr
    intro i hi
    exact Shift.copy_outside memory (.inl hi)
  rw [hbefore] at hcopied
  exact List.append_cancel_left hcopied

theorem bytes_copy_apart (memory : Memory) {address n a : Nat} {s : List UInt8}
    (h : a + n ≤ address ∨ address + s.length ≤ a) :
  bytes (Shift.copy memory address s) a n = bytes memory a n
  := by
  apply Shift.entries_congr
  intro i hi
  apply Shift.copy_outside
  omega

theorem bytes_drop (memory : Memory) (a n k : Nat) :
  (bytes memory a (k + n)).drop k = bytes memory (a + k) n
  := by
  rw [bytes, Shift.entries_add, List.drop_left' (Shift.length_entries _ _), bytes]
  apply Shift.entries_congr
  intro i _
  rw [Nat.add_assoc]

/-- The frame of an entry of the used ring. -/
def frameOf (c : Card) (entry : UInt32 × UInt32) : List UInt8 :=
  bytes c.memory (c.queue.rings.desc entry.1.toNat).addr.toNat entry.2.toNat

/-- The frames that have not been taken off the used ring are those that the device has completed
last, and lwIP has been given the packets of the others. -/
structure Exact (desc : Nat → Desc) (c : Card) : Prop where
  inv : c.queue.Inv
  desc_eq : c.queue.rings.desc = desc
  allocs_le : c.allocs.length ≤ c.sent.length
  unread : c.queue.unread.map c.frameOf = c.sent.drop c.allocs.length
  fits : ∀ entry ∈ c.queue.unread, entry.2.toNat ≤ 2048
  input : c.input = packets c.sent c.allocs

/-- A step of the queue that concerns neither the memory nor the used ring. -/
theorem Exact.of_queue (h : c.Exact desc) {q : Queue} (hinv : q.Inv)
    (hdesc : q.rings.desc = c.queue.rings.desc) (hunread : q.unread = c.queue.unread) :
  Exact desc { c with queue := q }
  where
  inv := hinv
  desc_eq := hdesc.trans h.desc_eq
  allocs_le := h.allocs_le
  unread := by
    have hframe : frameOf { c with queue := q } = c.frameOf := by
      funext entry
      rw [frameOf, frameOf, hdesc]
    rw [hframe, hunread]
    exact h.unread
  fits := by
    rw [hunread]
    exact h.fits
  input := h.input

/-- The device completes a frame. -/
theorem Exact.complete (h : c.Exact desc) (hbuffers : Buffers desc) {id : UInt16} {frame : List UInt8}
    (hlen : frame.length ≤ (c.queue.rings.desc id.toNat).len.toNat) {q : Queue}
    (hcomplete : c.queue.complete id (UInt32.ofNat frame.length) = some q) :
  Exact desc { c with
    queue := q
    memory := Shift.copy c.memory (c.queue.rings.desc id.toNat).addr.toNat frame
    sent := c.sent ++ [frame] }
  := by
  obtain ⟨hmem, hdesc, hunread⟩ := h.inv.unread_complete hcomplete
  have hid : id.toNat < 128 := by
    have hflight := h.inv.partition.subset
      (List.mem_append_left _ (List.mem_append_right _ (List.mem_map_of_mem hmem)))
    rw [h.inv.size_eq] at hflight
    exact List.mem_range.mp hflight
  rw [h.desc_eq, hbuffers.len _ hid] at hlen
  change frame.length ≤ 2048 at hlen
  have hlength : (UInt32.ofNat frame.length).toNat = frame.length := by
    rw [UInt32.toNat_ofNat']
    omega
  have hold : ∀ entry ∈ c.queue.unread, frameOf { c with
      queue := q
      memory := Shift.copy c.memory (c.queue.rings.desc id.toNat).addr.toNat frame
      sent := c.sent ++ [frame] } entry = c.frameOf entry := by
    intro entry hentry
    obtain ⟨hlt, -, hne⟩ := h.inv.unread_apart hentry hmem
    have hfits := h.fits entry hentry
    simp only [frameOf]
    rw [hdesc, h.desc_eq]
    apply bytes_copy_apart
    rcases hbuffers.apart _ hlt _ hid hne with hbefore | hbehind
    · omega
    · omega
  constructor
  case inv => exact h.inv.complete hcomplete
  case desc_eq => exact hdesc.trans h.desc_eq
  case allocs_le =>
    rw [List.length_append]
    exact Nat.le_add_right_of_le h.allocs_le
  case unread =>
    rw [List.drop_append_of_le_length h.allocs_le, ← h.unread]
    change List.map _ q.unread = _
    rw [hunread, List.map_append, List.map_congr_left hold, List.map_singleton]
    congr 2
    simp only [frameOf, hdesc, UInt16.toNat_toUInt32, hlength]
    exact bytes_copy _ _ _
  case fits =>
    intro entry hentry
    change entry ∈ q.unread at hentry
    rw [hunread] at hentry
    rcases List.mem_append.mp hentry with hentry | hentry
    · exact h.fits entry hentry
    · rw [List.mem_singleton.mp hentry]
      change (UInt32.ofNat frame.length).toNat ≤ 2048
      omega
  case input => exact h.input.trans (packets_append h.allocs_le _).symm

/-- The driver takes an entry off the used ring, when there is one. -/
theorem Exact.loopHead (h : c.Exact desc) (hphase : c.queue.phase = .head) (pbuf : Bool) :
  Exact desc { c.receive pbuf with queue := c.queue.loopHead pbuf }
  := by
  have hinv := h.inv.loopHead hphase pbuf
  have hread : c.queue.nextRead = c.queue.lastUsedIdx := by rw [nextRead, hphase]
  rw [receive]
  by_cases hsome : c.queue.rings.usedIdx ≠ c.queue.lastUsedIdx
  · have hdvd : c.queue.size.toNat ∣ 2 ^ 16 := by
      rw [h.inv.size_eq]
      exact queueSize_dvd
    have hsize : c.queue.size.toNat = queueSize.toNat := by rw [h.inv.size_eq]
    have hpop : c.queue.unread = c.queue.rings.usedRing (c.queue.lastUsedIdx.toNat % queueSize.toNat)
        :: (c.queue.loopHead pbuf).unread := by
      rw [Queue.unread, hread, FreeRing.window_pop _ hdvd hsome.symm, hsize]
      simp only [Queue.loopHead, if_pos hsome, Queue.unread, nextRead, hsize]
    rw [if_pos hsome]
    generalize hentry : c.queue.rings.usedRing (c.queue.lastUsedIdx.toNat % queueSize.toNat) = entry
      at hpop
    obtain ⟨id, len⟩ := entry
    have hfits : len.toNat ≤ 2048 := h.fits (id, len) (by rw [hpop]; exact List.mem_cons_self)
    have hframes := h.unread
    rw [hpop, List.map_cons] at hframes
    have hlength : (c.frameOf (id, len)).length = len.toNat := Shift.length_entries _ _
    have hlong : sizeofHdr.toNat < (c.frameOf (id, len)).length ↔ sizeofHdr < len := by
      rw [hlength, UInt32.lt_iff_toNat_lt]
    have hrings : (c.queue.loopHead pbuf).rings = c.queue.rings := by
      rw [Queue.loopHead, if_pos hsome]
    constructor
    case inv => exact hinv
    case desc_eq => exact (congrArg Rings.desc hrings).trans h.desc_eq
    case allocs_le =>
      have hdrop := congrArg List.length hframes
      rw [List.length_cons, List.length_drop] at hdrop
      change (c.allocs ++ [pbuf]).length ≤ c.sent.length
      rw [List.length_append, List.length_singleton]
      omega
    case unread =>
      have hrest := congrArg List.tail hframes
      rw [List.tail_cons, List.tail_drop] at hrest
      change List.map _ (c.queue.loopHead pbuf).unread = c.sent.drop (c.allocs ++ [pbuf]).length
      rw [List.length_append, List.length_singleton, ← hrest]
      apply List.map_congr_left
      intro entry _
      simp only [frameOf, hrings]
    case fits =>
      intro entry hentry
      apply h.fits
      rw [hpop]
      exact List.mem_cons_of_mem _ hentry
    case input =>
      change (if sizeofHdr < len ∧ pbuf = true then _ else c.input) = packets c.sent (c.allocs ++ [pbuf])
      rw [packets_concat hframes.symm, h.input]
      simp only [hlong]
      split_ifs with hpacket
      · have hlt := UInt32.lt_iff_toNat_lt.mp hpacket.1
        have hhdr : sizeofHdr.toNat = 12 := rfl
        have hsub : (len - sizeofHdr).toUInt16.toNat = len.toNat - sizeofHdr.toNat := by
          rw [UInt32.toNat_toUInt16, UInt32.toNat_sub_of_le _ _ (UInt32.le_of_lt hpacket.1)]
          omega
        have hsum : len.toNat = sizeofHdr.toNat + (len.toNat - sizeofHdr.toNat) := by omega
        rw [frameOf, hsum, bytes_drop]
        simp only [hsub]
      · exact (List.append_nil _).symm
  · have hsame : (c.queue.loopHead pbuf).unread = c.queue.unread := by
      rw [Queue.unread, Queue.unread, hread, Queue.loopHead, if_neg hsome]
      rfl
    rw [if_neg hsome]
    apply h.of_queue hinv _ hsame
    rw [Queue.loopHead, if_neg hsome]

/-- Every step keeps the frames. -/
theorem Exact.step (h : c.Exact desc) (hbuffers : Buffers desc) {a : CardStep} (hstep : c.step a = some c') :
  c'.Exact desc
  := by
  cases a with
  | take =>
      obtain ⟨q, htake, rfl⟩ := Option.map_eq_some_iff.mp hstep
      have hinv := h.inv.take htake
      unfold Queue.take at htake
      split at htake
      case isTrue => cases htake
      case isFalse =>
        cases htake
        exact h.of_queue hinv rfl rfl
  | complete id frame =>
      simp only [Card.step] at hstep
      split at hstep
      case isTrue hlen =>
        obtain ⟨q, hcomplete, rfl⟩ := Option.map_eq_some_iff.mp hstep
        exact h.complete hbuffers hlen hcomplete
      case isFalse => cases hstep
  | poll =>
      obtain ⟨q, hpoll, rfl⟩ := Option.map_eq_some_iff.mp hstep
      have hinv := h.inv.step hpoll
      simp only [Queue.step] at hpoll
      split at hpoll
      case isTrue hphase =>
        cases hpoll
        apply h.of_queue hinv rfl
        simp only [Queue.unread, nextRead, hphase]
      case isFalse => cases hpoll
  | driver pbuf =>
      obtain ⟨q, hdriver, rfl⟩ := Option.map_eq_some_iff.mp hstep
      have hinv := h.inv.step hdriver
      simp only [Queue.step] at hdriver
      cases hphase : c.queue.phase with
      | idle =>
          rw [hphase] at hdriver
          cases hdriver
      | head =>
          rw [hphase] at hdriver
          cases hdriver
          rw [if_pos rfl]
          exact h.loopHead hphase pbuf
      | post id =>
          rw [hphase] at hdriver
          cases hdriver
          rw [if_neg (by simp)]
          apply h.of_queue hinv rfl
          simp only [Queue.unread, nextRead, Queue.post, hphase]
      | publish =>
          rw [hphase] at hdriver
          cases hdriver
          rw [if_neg (by simp)]
          apply h.of_queue hinv rfl
          simp only [Queue.unread, nextRead, Queue.publish, hphase]
      | advance =>
          rw [hphase] at hdriver
          cases hdriver
          rw [if_neg (by simp)]
          apply h.of_queue hinv rfl
          simp only [Queue.unread, nextRead, Queue.advance, hphase]

end Card

/-! ### Initialization -/

/-- The address of the buffer of a descriptor. -/
def bufferAddress (pages : Nat → UInt64) (i : Nat) : UInt64 :=
  pages (i / 2) + (if i % 2 = 0 then 0 else 2048)

/-- The loop of `virtio_net_init` gives every descriptor its buffer. -/
theorem fillRx_desc {pages : Nat → UInt64} (hpages : ∀ k < 64, pages k ≠ 0) {n : Nat} {i : UInt16}
    {rings : Rings} {accesses : List Nat} (hi : i.toNat + n = queueSize.toNat)
    (hdesc : ∀ k < i.toNat, rings.desc k = ⟨bufferAddress pages k, 2048, descFWrite, 0⟩) :
  ∀ k < queueSize.toNat, (fillRx pages n i (rings, accesses)).1.desc k
    = ⟨bufferAddress pages k, 2048, descFWrite, 0⟩
  := by
  have hsize : queueSize.toNat = 128 := rfl
  induction n generalizing i rings accesses with
  | zero =>
      rw [Nat.add_zero] at hi
      rw [← hi]
      exact hdesc
  | succ n ih =>
      have hpage : pages (i.toNat / 2) ≠ 0 := by
        apply hpages
        omega
      have hone : (1 : UInt16).toNat = 1 := rfl
      have htwo : (2 : UInt16).toNat = 2 := rfl
      have hnext : (i + 1).toNat = i.toNat + 1 := by
        rw [UInt16.toNat_add, hone]
        omega
      have hparity : i % 2 = 0 ↔ i.toNat % 2 = 0 := by
        rw [← UInt16.toNat_inj, UInt16.toNat_mod, htwo, UInt16.toNat_zero]
      rw [fillRx]
      simp only [hpage, if_false]
      apply ih
      · rw [hnext]
        omega
      · intro k hk
        rw [hnext] at hk
        dsimp only
        rcases Nat.lt_succ_iff_lt_or_eq.mp hk with hk | rfl
        · rw [Function.update_of_ne hk.ne]
          exact hdesc k hk
        · simp only [Function.update_self, bufferAddress, hparity]

/-- Pages of their own have room for two buffers each. -/
theorem bufferAddress_apart {pages : Nat → UInt64} (haligned : ∀ k < 64, (pages k).toNat % 4096 = 0)
    (hdistinct : ∀ j < 64, ∀ k < 64, pages j = pages k → j = k) {i j : Nat} (hi : i < 128) (hj : j < 128)
    (hne : i ≠ j) :
  (bufferAddress pages i).toNat + 2048 ≤ (bufferAddress pages j).toNat
    ∨ (bufferAddress pages j).toNat + 2048 ≤ (bufferAddress pages i).toNat
  := by
  have haddress (k : Nat) (hk : k < 128) :
      (bufferAddress pages k).toNat = (pages (k / 2)).toNat + 2048 * (k % 2) := by
    have halign := haligned (k / 2) (by omega)
    have hlt := (pages (k / 2)).toNat_lt
    rw [bufferAddress, UInt64.toNat_add]
    split
    case isTrue hzero =>
      change ((pages (k / 2)).toNat + 0) % 2 ^ 64 = _
      omega
    case isFalse hone =>
      change ((pages (k / 2)).toNat + 2048) % 2 ^ 64 = _
      omega
  have hpages : i / 2 ≠ j / 2 → (pages (i / 2)).toNat ≠ (pages (j / 2)).toNat := by
    intro hpage heq
    exact hpage (hdistinct _ (by omega) _ (by omega) (UInt64.toNat_inj.mp heq))
  have hai := haligned (i / 2) (by omega)
  have haj := haligned (j / 2) (by omega)
  rw [haddress i hi, haddress j hj]
  omega

theorem init_exact {offered : UInt16} {pages : Nat → UInt64} {page : Rings} (memory : Memory)
    (hoffered : offered = 0 ∨ queueSize ≤ offered) (hpages : ∀ k < 64, pages k ≠ 0)
    (hpage : page.usedIdx = 0) :
  Card.Exact (VirtioNet.init offered pages page).rings.desc (Card.init offered pages page memory)
  := by
  have hinv := init_inv hoffered hpages hpage
  have hused : (VirtioNet.init offered pages page).rings.usedIdx = 0 := hinv.published.symm
  have hnone : (VirtioNet.init offered pages page).unread = [] := by
    rw [← List.length_eq_zero_iff, Queue.unread, FreeRing.length_window, FreeRing.count_eq_zero, hused]
    rfl
  constructor
  case inv => exact hinv
  case desc_eq => rfl
  case allocs_le => exact Nat.le_refl _
  case unread =>
    change List.map _ (VirtioNet.init offered pages page).unread = []
    rw [hnone]
    rfl
  case fits =>
    intro entry hentry
    change entry ∈ (VirtioNet.init offered pages page).unread at hentry
    rw [hnone] at hentry
    cases hentry
  case input => rfl

theorem init_buffers {offered : UInt16} {pages : Nat → UInt64} (page : Rings)
    (hpages : ∀ k < 64, pages k ≠ 0) (haligned : ∀ k < 64, (pages k).toNat % 4096 = 0)
    (hdistinct : ∀ j < 64, ∀ k < 64, pages j = pages k → j = k) :
  Buffers (VirtioNet.init offered pages page).rings.desc
  := by
  have hdesc : ∀ k < 128, (VirtioNet.init offered pages page).rings.desc k
      = ⟨bufferAddress pages k, 2048, descFWrite, 0⟩ := by
    apply @fillRx_desc pages hpages queueSize.toNat 0 page [] (by decide)
    intro k hk
    exact absurd hk (Nat.not_lt_zero k)
  constructor
  case len =>
    intro i hi
    rw [hdesc i hi]
  case apart =>
    intro i hi j hj hne
    rw [hdesc i hi, hdesc j hj]
    exact bufferAddress_apart haligned hdistinct hi hj hne

/-- In every run of the device and `virtio_net_poll`, when the device has offered a queue of at least
128 entries and the buffers have pages of their own, lwIP has been given the packets of the frames in
the order in which they were completed, each once and with its bytes, as far as the entries of the
used ring have been read. -/
theorem frames_received {offered : UInt16} {pages : Nat → UInt64} {page : Rings} {memory : Memory}
    (hoffered : offered = 0 ∨ queueSize ≤ offered) (hpages : ∀ k < 64, pages k ≠ 0)
    (haligned : ∀ k < 64, (pages k).toNat % 4096 = 0)
    (hdistinct : ∀ j < 64, ∀ k < 64, pages j = pages k → j = k) (hpage : page.usedIdx = 0)
    {steps : List CardStep} {c : Card}
    (hrun : Run.exec Card.step (Card.init offered pages page memory) steps = some c) :
  c.input = packets c.sent c.allocs
    ∧ c.allocs.length + FreeRing.count c.queue.nextRead c.queue.rings.usedIdx = c.sent.length
  := by
  have hbuffers := @init_buffers offered pages page hpages haligned hdistinct
  have hexact : c.Exact (VirtioNet.init offered pages page).rings.desc := by
    have hguard : Run.Guarded Card.step (fun _ _ => True) (Card.init offered pages page memory) steps := by
      apply Run.guarded_of_forall
      intro _ _ _
      trivial
    apply Run.exec_safe _ (init_exact memory hoffered hpages hpage) hguard hrun
    intro c a c' h _ hstep
    exact h.step hbuffers hstep
  use hexact.input
  have hlength := congrArg List.length hexact.unread
  rw [List.length_map, Queue.unread, FreeRing.length_window, List.length_drop] at hlength
  have hle := hexact.allocs_le
  omega

theorem somePages_inj :
  ∀ j < 64, ∀ k < 64, somePages j = somePages k → j = k
  := by
  intro j hj k hk heq
  rw [somePages, somePages, ← UInt64.toNat_inj, UInt64.toNat_ofNat', UInt64.toNat_ofNat'] at heq
  omega

/-- A frame of sixteen bytes, with the header that the device writes and the bytes of the packet. -/
def someFrame : List UInt8 := [0, 0, 0, 0, 0, 0, 0, 0, 0, 0, 1, 0, 1, 2, 3, 4]

/-- The device completes two frames, of which lwIP is given the packet of the first. -/
theorem frames_received_two :
  ∃ c, Run.exec Card.step (Card.init 256 somePages zeroPage (fun _ => 0))
      [.take, .take, .complete 1 someFrame, .poll, .driver true, .complete 0 someFrame, .driver true]
        = some c
    ∧ c.input = packets c.sent c.allocs
    ∧ c.allocs.length + FreeRing.count c.queue.nextRead c.queue.rings.usedIdx = c.sent.length
  := by
  obtain ⟨c, hc⟩ := Option.isSome_iff_exists.mp (show (Run.exec Card.step
      (Card.init 256 somePages zeroPage (fun _ => 0))
      [.take, .take, .complete 1 someFrame, .poll, .driver true, .complete 0 someFrame,
        .driver true]).isSome by decide +kernel)
  use c, hc
  exact frames_received (by decide) (by decide) (by decide) somePages_inj rfl hc

end VirtioNet
