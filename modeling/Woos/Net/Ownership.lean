import Woos.KHeap.Client
import Woos.Net.Blocks
import Woos.Net.Receive

/-!
# Ownership of sockets and receive buffers

`Owned n live others refs` is the invariant of the sockets: the live ones own a receive buffer each,
and every live socket is referred to once, by `refs` or by the queue of a listener.  The live sockets
are those in use, but while `net_socket_close` closes a listener, that socket is live until what it
owns has been given back.

The rules of this file say what a change of one socket does to the invariant.
-/

/-- The clients that wait in the queue of a listening socket. -/
def NetSocket.waiting (s : NetSocket) : List Int :=
  if s.state = .listening then
    CountedRing.contents s.acceptQueue acceptCap s.acceptHead s.acceptCount
  else
    []

/-- The indices of the queue belong together. -/
structure NetSocket.QueueOk (s : NetSocket) : Prop where
  head : s.acceptHead < acceptCap
  count : s.acceptCount ≤ acceptCap
  tail : s.acceptTail = (s.acceptHead + s.acceptCount) % acceptCap

namespace Net

open Slots

/-- The sockets in use. -/
def inUse (n : Net) (i : Fin maxSockets) : Bool := (n.sockets i).inUse

/-- The receive buffers of the live sockets. -/
def buffers (n : Net) (live : Fin maxSockets → Bool) : List UInt64 :=
  collect live (fun i => [(n.sockets i).rxBuf])

/-- The clients that wait in the queues of live listeners. -/
def waiting (n : Net) (live : Fin maxSockets → Bool) : List Int :=
  collect live (fun i => (n.sockets i).waiting)

/-- The numbers of the live sockets. -/
def numbers (live : Fin maxSockets → Bool) : List Int :=
  collect live (fun i => [number i])

/-- Receive buffers as allocations. -/
def entries (bufs : List UInt64) : List (Nat × Nat) :=
  bufs.map (fun b => (b.toNat, socketBufSize))

/-- The live sockets own their buffers, every buffer that was granted has been freed once or is owned
by one live socket, and every live socket is referred to once; the clients that wait do not listen
themselves. -/
structure Owned (n : Net) (live : Fin maxSockets → Bool) (others : List UInt64) (refs : List Int) :
    Prop where
  backed : (⟨n.heap, others⟩ : KHeap.Session).Backed (entries (n.buffers live))
  balance : n.acquired.Perm (n.released ++ n.buffers live)
  refs : (refs ++ n.waiting live).Perm (numbers live)
  queues : ∀ i, live i → (n.sockets i).state = .listening → (n.sockets i).QueueOk
  clients : ∀ i, number i ∈ n.waiting live → (n.sockets i).state ≠ .listening
  rx : ∀ i, live i → (n.sockets i).RxOk
  blocks : Blocks live n.sockets n.pcbs

/-! ### Facts -/

theorem number_injective :
  Function.Injective number
  := by
  intro i j h
  apply Fin.ext
  exact Int.ofNat.inj h

theorem numbers_nodup (live : Fin maxSockets → Bool) :
  (numbers live).Nodup
  := collect_singleton_nodup number_injective

theorem mem_numbers {live : Fin maxSockets → Bool} {r : Int} :
  r ∈ numbers live ↔ ∃ i, live i ∧ r = number i
  := by
  simp [numbers, mem_collect]

section

variable {n n' : Net} {live : Fin maxSockets → Bool} {others : List UInt64} {refs : List Int}
  {i : Fin maxSockets}

/-- A reference is that of a live socket. -/
theorem Owned.exists_of_ref (h : n.Owned live others refs) {r : Int}
    (hr : r ∈ refs ∨ r ∈ n.waiting live) :
  ∃ i, live i ∧ r = number i
  := by
  apply mem_numbers.mp
  apply h.refs.subset
  apply List.mem_append.mpr hr

theorem Owned.refs_nodup (h : n.Owned live others refs) :
  (refs ++ n.waiting live).Nodup
  := h.refs.nodup_iff.mpr (numbers_nodup live)

/-- A socket that is referred to from outside does not wait in a queue. -/
theorem Owned.not_waiting (h : n.Owned live others refs) {r : Int} (hr : r ∈ refs) :
  r ∉ n.waiting live
  := by
  intro hmem
  exact (List.nodup_append.mp h.refs_nodup).2.2 r hr r hmem rfl

theorem Owned.perm {refs' : List Int} (h : n.Owned live others refs) (hrefs : refs'.Perm refs) :
  n.Owned live others refs'
  := { h with refs := (hrefs.append_right _).trans h.refs }

theorem waiting_of_not_listening {s : NetSocket} (h : s.state ≠ .listening) :
  s.waiting = []
  := if_neg h

/-! ### A socket changes -/

/-- The other sockets are as they were. -/
def SameBut (n n' : Net) (i : Fin maxSockets) : Prop := ∀ j, j ≠ i → n'.sockets j = n.sockets j

theorem sameBut_modify (n : Net) (i : Fin maxSockets) (f : NetSocket → NetSocket) :
  SameBut n (n.modify i f) i
  := fun _ hj => Function.update_of_ne hj _ n.sockets

/-- What the live sockets contribute, when one socket changes. -/
theorem collect_change {α : Type} {live' : Fin maxSockets → Bool} (hlive : ∀ j, j ≠ i → live' j = live j)
    (hsame : SameBut n n' i) (f : NetSocket → List α) :
  (part live (fun i => f (n.sockets i)) i ++ collect live' (fun i => f (n'.sockets i))).Perm
    (part live' (fun i => f (n'.sockets i)) i ++ collect live (fun i => f (n.sockets i)))
  := by
  apply collect_perm
  intro j hj
  rw [part, part, hlive j hj, hsame j hj]

/-- The numbers of the live sockets, when one of them becomes live or is given back. -/
theorem numbers_change {live' : Fin maxSockets → Bool} (hlive : ∀ j, j ≠ i → live' j = live j) :
  (part live (fun i => [number i]) i ++ numbers live').Perm
    (part live' (fun i => [number i]) i ++ numbers live)
  := by
  apply collect_perm
  intro j hj
  rw [part, part, hlive j hj]

/-- A live socket changes, but neither its buffer nor its queue. -/
theorem Owned.change (h : n.Owned live others refs) (hi : live i) (hsame : SameBut n n' i)
    (hbuf : (n'.sockets i).rxBuf = (n.sockets i).rxBuf)
    (hwaiting : (n'.sockets i).waiting = (n.sockets i).waiting)
    (hqueue : (n'.sockets i).state = .listening → (n'.sockets i).QueueOk)
    (hclient : number i ∈ n.waiting live → (n'.sockets i).state ≠ .listening)
    (hrx : (n'.sockets i).RxOk)
    (hbacked : (⟨n'.heap, others⟩ : KHeap.Session).Backed (entries (n.buffers live)))
    (hacquired : n'.acquired = n.acquired) (hreleased : n'.released = n.released)
    (hblocks : Blocks live n'.sockets n'.pcbs) :
  n'.Owned live others refs
  := by
  have hbuffers : n'.buffers live = n.buffers live := by
    apply collect_congr
    intro j
    rcases eq_or_ne j i with rfl | hne
    · rw [part, part, hbuf]
    · rw [part, part, hsame j hne]
  have hwaits : n'.waiting live = n.waiting live := by
    apply collect_congr
    intro j
    rcases eq_or_ne j i with rfl | hne
    · rw [part, part, hwaiting]
    · rw [part, part, hsame j hne]
  constructor
  · rw [hbuffers]
    exact hbacked
  · rw [hacquired, hreleased, hbuffers]
    exact h.balance
  · rw [hwaits]
    exact h.refs
  · intro j hj hlisten
    rcases eq_or_ne j i with rfl | hne
    · apply hqueue hlisten
    · rw [hsame j hne] at hlisten ⊢
      apply h.queues j hj hlisten
  · intro j hj
    rw [hwaits] at hj
    rcases eq_or_ne j i with rfl | hne
    · apply hclient hj
    · rw [hsame j hne]
      apply h.clients j hj
  · intro j hj
    rcases eq_or_ne j i with rfl | hne
    · exact hrx
    · rw [hsame j hne]
      apply h.rx j hj
  · exact hblocks

/-- What a socket keeps when neither its owner, nor its block, nor its queue is concerned. -/
structure Quiet (s s' : NetSocket) : Prop where
  type : s'.type = s.type
  tcp : s'.tcp = s.tcp
  rxBuf : s'.rxBuf = s.rxBuf
  listening : s'.state = .listening ↔ s.state = .listening
  queue : s'.acceptQueue = s.acceptQueue
  head : s'.acceptHead = s.acceptHead
  tail : s'.acceptTail = s.acceptTail
  count : s'.acceptCount = s.acceptCount

theorem Quiet.waiting {s s' : NetSocket} (h : Quiet s s') :
  s'.waiting = s.waiting
  := by
  simp only [NetSocket.waiting, h.listening, h.queue, h.head, h.count]

theorem Quiet.queueOk {s s' : NetSocket} (h : Quiet s s') (hs : s.QueueOk) :
  s'.QueueOk
  where
  head := by
    rw [h.head]
    exact hs.head
  count := by
    rw [h.count]
    exact hs.count
  tail := by
    rw [h.tail, h.head, h.count]
    exact hs.tail

theorem Quiet.wired {s s' : NetSocket} (h : Quiet s s') {pcbs : Pcbs} (hs : Wired pcbs i s) :
  Wired pcbs i s'
  where
  serves := by
    intro p hp
    rw [h.tcp] at hp
    have hserves := hs.serves p hp
    exact { hserves with listening := h.listening.trans hserves.listening, type := h.type.trans hserves.type }
  without := by
    intro hnone
    rw [h.tcp] at hnone
    intro hlisten
    exact hs.without hnone (h.listening.mp hlisten)

/-- A socket changes quietly. -/
theorem Owned.quiet (h : n.Owned live others refs) (hi : live i) (hsame : SameBut n n' i)
    (hquiet : Quiet (n.sockets i) (n'.sockets i)) (hrx : (n'.sockets i).RxOk)
    (hbacked : (⟨n'.heap, others⟩ : KHeap.Session).Backed (entries (n.buffers live)))
    (hacquired : n'.acquired = n.acquired) (hreleased : n'.released = n.released)
    (hpcbs : n'.pcbs = n.pcbs) :
  n'.Owned live others refs
  := by
  apply h.change hi hsame hquiet.rxBuf hquiet.waiting _ _ hrx hbacked hacquired hreleased
  · rw [hpcbs]
    apply h.blocks.update (fun _ _ => rfl) hsame
    · intros
      rfl
    · intro p hp hnot
      exact absurd ⟨hp.1, hquiet.tcp.trans hp.2⟩ hnot
    · intro p hp j hj hjp
      apply hj
      apply h.blocks.apart j i p hjp.1 hp.1 hjp.2
      rw [← hquiet.tcp]
      exact hp.2
    · intro _
      apply hquiet.wired (h.blocks.wired i hi)
  · intro hlisten
    apply hquiet.queueOk (h.queues i hi (hquiet.listening.mp hlisten))
  · intro hmem hlisten
    exact h.clients i hmem (hquiet.listening.mp hlisten)

/-! ### A socket is taken or given back -/

/-- A socket that is not live becomes live, with a buffer of its own. -/
theorem Owned.insert (h : n.Owned live others refs) (hi : live i = false) (hsame : SameBut n n' i)
    (hstate : (n'.sockets i).state ≠ .listening) (hrx : (n'.sockets i).RxOk)
    (hbacked : (⟨n'.heap, others⟩ : KHeap.Session).Backed
      (((n'.sockets i).rxBuf.toNat, socketBufSize) :: entries (n.buffers live)))
    (hacquired : n'.acquired = (n'.sockets i).rxBuf :: n.acquired) (hreleased : n'.released = n.released)
    (hblocks : Blocks (Function.update live i true) n'.sockets n'.pcbs) :
  n'.Owned (Function.update live i true) others (number i :: refs)
  := by
  have hlive : ∀ j, j ≠ i → Function.update live i true j = live j :=
    fun j hj => Function.update_of_ne hj _ _
  have hself : Function.update live i true i = true := Function.update_self i true live
  have hbuffers : (n'.buffers (Function.update live i true)).Perm
      ((n'.sockets i).rxBuf :: n.buffers live) := by
    have hperm := collect_change hlive hsame (fun s => [s.rxBuf])
    rw [part_of_not_live _ hi, part_of_live _ hself, List.nil_append, List.singleton_append] at hperm
    exact hperm
  have hnumbers : (numbers (Function.update live i true)).Perm (number i :: numbers live) := by
    have hperm := numbers_change hlive
    rw [part_of_not_live _ hi, part_of_live _ hself, List.nil_append, List.singleton_append] at hperm
    exact hperm
  have hwaits : n'.waiting (Function.update live i true) = n.waiting live := by
    apply collect_congr
    intro j
    rcases eq_or_ne j i with rfl | hne
    · rw [part_of_not_live _ hi, part_of_live _ hself, waiting_of_not_listening hstate]
    · rw [part, part, hlive j hne, hsame j hne]
  constructor
  · apply hbacked.perm
    apply hbuffers.map
  · rw [hacquired, hreleased]
    apply (h.balance.cons _).trans
    apply List.perm_middle.symm.trans
    apply List.Perm.append_left
    exact hbuffers.symm
  · rw [hwaits]
    apply List.Perm.trans _ hnumbers.symm
    apply h.refs.cons
  · intro j hj hlisten
    rcases eq_or_ne j i with rfl | hne
    · exact absurd hlisten hstate
    · rw [hlive j hne] at hj
      rw [hsame j hne] at hlisten ⊢
      apply h.queues j hj hlisten
  · intro j hj
    rw [hwaits] at hj
    rcases eq_or_ne j i with rfl | hne
    · exact hstate
    · rw [hsame j hne]
      apply h.clients j hj
  · intro j hj
    rcases eq_or_ne j i with rfl | hne
    · exact hrx
    · rw [hlive j hne] at hj
      rw [hsame j hne]
      apply h.rx j hj
  · exact hblocks

/-- A live socket that is referred to from outside, and in whose queue no client waits, is given
back with its buffer. -/
theorem Owned.remove (h : n.Owned live others (number i :: refs)) (hi : live i)
    (hsame : SameBut n n' i) (hwaiting : (n.sockets i).waiting = [])
    (hbacked : ∀ bufs, (n.buffers live).Perm ((n.sockets i).rxBuf :: bufs)
      → (⟨n'.heap, others⟩ : KHeap.Session).Backed (entries bufs))
    (hacquired : n'.acquired = n.acquired) (hreleased : n'.released = (n.sockets i).rxBuf :: n.released)
    (hblocks : Blocks (Function.update live i false) n'.sockets n'.pcbs) :
  n'.Owned (Function.update live i false) others refs
  := by
  have hlive : ∀ j, j ≠ i → Function.update live i false j = live j :=
    fun j hj => Function.update_of_ne hj _ _
  have hself : Function.update live i false i = false := Function.update_self i false live
  have hbuffers : (n.buffers live).Perm
      ((n.sockets i).rxBuf :: n'.buffers (Function.update live i false)) := by
    have hperm := collect_change hlive hsame (fun s => [s.rxBuf])
    rw [part_of_live _ hi, part_of_not_live _ hself, List.nil_append, List.singleton_append] at hperm
    exact hperm.symm
  have hnumbers : (number i :: numbers (Function.update live i false)).Perm (numbers live) := by
    have hperm := numbers_change hlive
    rw [part_of_live _ hi, part_of_not_live _ hself, List.nil_append, List.singleton_append] at hperm
    exact hperm
  have hwaits : n'.waiting (Function.update live i false) = n.waiting live := by
    apply collect_congr
    intro j
    rcases eq_or_ne j i with rfl | hne
    · rw [part_of_live _ hi, part_of_not_live _ hself, hwaiting]
    · rw [part, part, hlive j hne, hsame j hne]
  constructor
  · apply hbacked _ hbuffers
  · rw [hacquired, hreleased]
    apply h.balance.trans
    apply (hbuffers.append_left _).trans
    apply List.perm_middle
  · rw [hwaits]
    apply (List.perm_cons _).mp
    apply h.refs.trans hnumbers.symm
  · intro j hj hlisten
    rcases eq_or_ne j i with rfl | hne
    · rw [hself] at hj
      cases hj
    · rw [hlive j hne] at hj
      rw [hsame j hne] at hlisten ⊢
      apply h.queues j hj hlisten
  · intro j hj
    rw [hwaits] at hj
    rcases eq_or_ne j i with rfl | hne
    · exact absurd hj (h.not_waiting List.mem_cons_self)
    · rw [hsame j hne]
      apply h.clients j hj
  · intro j hj
    rcases eq_or_ne j i with rfl | hne
    · rw [hself] at hj
      cases hj
    · rw [hlive j hne] at hj
      rw [hsame j hne]
      apply h.rx j hj
  · exact hblocks

/-- Sockets that are not live do not matter. -/
theorem Owned.idle (h : n.Owned live others refs) (hi : live i = false) (hsame : SameBut n n' i)
    (hbacked : (⟨n'.heap, others⟩ : KHeap.Session).Backed (entries (n.buffers live)))
    (hbalance : n'.acquired.Perm (n'.released ++ n.buffers live)) (hpcbs : n'.pcbs = n.pcbs) :
  n'.Owned live others refs
  := by
  have hbuffers : n'.buffers live = n.buffers live := by
    apply collect_congr
    intro j
    rcases eq_or_ne j i with rfl | hne
    · rw [part_of_not_live _ hi, part_of_not_live _ hi]
    · rw [part, part, hsame j hne]
  have hwaits : n'.waiting live = n.waiting live := by
    apply collect_congr
    intro j
    rcases eq_or_ne j i with rfl | hne
    · rw [part_of_not_live _ hi, part_of_not_live _ hi]
    · rw [part, part, hsame j hne]
  constructor
  · rw [hbuffers]
    exact hbacked
  · rw [hbuffers]
    exact hbalance
  · rw [hwaits]
    exact h.refs
  · intro j hj hlisten
    rcases eq_or_ne j i with rfl | hne
    · rw [hi] at hj
      cases hj
    · rw [hsame j hne] at hlisten ⊢
      apply h.queues j hj hlisten
  · intro j hj
    rw [hwaits] at hj
    rcases eq_or_ne j i with rfl | hne
    · obtain ⟨k, hk, heq⟩ := h.exists_of_ref (Or.inr hj)
      rw [← number_injective heq, hi] at hk
      cases hk
    · rw [hsame j hne]
      apply h.clients j hj
  · intro j hj
    rcases eq_or_ne j i with rfl | hne
    · rw [hi] at hj
      cases hj
    · rw [hsame j hne]
      apply h.rx j hj
  · rw [hpcbs]
    apply h.blocks.update (fun _ _ => rfl) hsame
    · intros
      rfl
    · intro p hp
      rw [Blocks.Holds, hi] at hp
      cases hp.1
    · intro p hp
      rw [Blocks.Holds, hi] at hp
      cases hp.1
    · intro hlive
      rw [hi] at hlive
      cases hlive

/-! ### Queues -/

theorem waiting_of_listening {s : NetSocket} (h : s.state = .listening) :
  s.waiting = CountedRing.contents s.acceptQueue acceptCap s.acceptHead s.acceptCount
  := if_pos h

theorem enqueue_waiting {s : NetSocket} (hs : s.QueueOk) (hlisten : s.state = .listening)
    (hroom : s.acceptCount < acceptCap) (client : Int) :
  (enqueue s client).waiting = s.waiting ++ [client]
  := by
  have hlisten' : (enqueue s client).state = .listening := hlisten
  rw [waiting_of_listening hlisten, waiting_of_listening hlisten']
  apply CountedRing.contents_push client hroom
  · simp only [enqueue]
    rw [hs.tail, Function.update_self]
  · intro k _ hk
    simp only [enqueue]
    rw [hs.tail]
    apply Function.update_of_ne hk

theorem enqueue_queueOk {s : NetSocket} (hs : s.QueueOk) (hroom : s.acceptCount < acceptCap)
    (client : Int) :
  (enqueue s client).QueueOk
  where
  head := hs.head
  count := hroom
  tail := by
    simp only [enqueue]
    rw [hs.tail, Nat.mod_add_mod, Nat.add_assoc]

theorem dequeue_waiting {s : NetSocket} (hs : s.QueueOk) (hlisten : s.state = .listening)
    (hpos : 0 < s.acceptCount) :
  s.waiting = s.acceptQueue s.acceptHead :: (dequeue s).waiting
  := by
  have hlisten' : (dequeue s).state = .listening := hlisten
  obtain ⟨k, hk⟩ := Nat.exists_eq_add_of_lt hpos
  have hcount : s.acceptCount = (dequeue s).acceptCount + 1 := by
    simp only [dequeue]
    omega
  rw [waiting_of_listening hlisten, waiting_of_listening hlisten', hcount, CountedRing.contents_pop,
    Nat.mod_eq_of_lt hs.head]
  rfl

theorem dequeue_queueOk {s : NetSocket} (hs : s.QueueOk) (hpos : 0 < s.acceptCount) :
  (dequeue s).QueueOk
  where
  head := by
    simp only [dequeue]
    apply Nat.mod_lt
    decide
  count := by
    have hcount := hs.count
    simp only [dequeue]
    omega
  tail := by
    simp only [dequeue]
    rw [hs.tail, Nat.mod_add_mod]
    congr 1
    omega

/-- The queue of a listener changes, and the references from outside with it. -/
theorem Owned.queue {refs' : List Int} (h : n.Owned live others refs) (hi : live i)
    (f : NetSocket → NetSocket) (htype : (f (n.sockets i)).type = (n.sockets i).type)
    (htcp : (f (n.sockets i)).tcp = (n.sockets i).tcp)
    (hbuf : (f (n.sockets i)).rxBuf = (n.sockets i).rxBuf)
    (hstate : (f (n.sockets i)).state = (n.sockets i).state) (hqueue : (f (n.sockets i)).QueueOk)
    (hrx : (f (n.sockets i)).RxOk)
    (hclient : ∀ j, number j ∈ (f (n.sockets i)).waiting → (n.sockets j).state ≠ .listening)
    (hrefs : (refs' ++ (f (n.sockets i)).waiting).Perm (refs ++ (n.sockets i).waiting)) :
  (n.modify i f).Owned live others refs'
  := by
  have hself : (n.modify i f).sockets i = f (n.sockets i) := Function.update_self i _ n.sockets
  have hsame := sameBut_modify n i f
  have hbuffers : (n.modify i f).buffers live = n.buffers live := by
    apply collect_congr
    intro j
    rcases eq_or_ne j i with rfl | hne
    · rw [part, part, hself, hbuf]
    · rw [part, part, hsame j hne]
  have hperm := collect_change (fun j _ => (rfl : live j = live j)) hsame NetSocket.waiting
  rw [part_of_live _ hi, part_of_live _ hi, hself] at hperm
  have hstates : ∀ j, ((n.modify i f).sockets j).state = (n.sockets j).state := by
    intro j
    rcases eq_or_ne j i with rfl | hne
    · rw [hself, hstate]
    · rw [hsame j hne]
  constructor
  · rw [hbuffers]
    exact h.backed
  · rw [hbuffers]
    exact h.balance
  · apply List.Perm.trans _ h.refs
    apply (List.perm_append_left_iff (n.sockets i).waiting).mp
    calc ((n.sockets i).waiting ++ (refs' ++ (n.modify i f).waiting live)).Perm
          (refs' ++ ((n.sockets i).waiting ++ (n.modify i f).waiting live)) :=
          List.perm_append_comm_assoc _ _ _
      _ |>.Perm (refs' ++ ((f (n.sockets i)).waiting ++ n.waiting live)) := hperm.append_left refs'
      _ |>.Perm (refs ++ ((n.sockets i).waiting ++ n.waiting live)) := by
          rw [← List.append_assoc, ← List.append_assoc]
          apply hrefs.append_right
      _ |>.Perm ((n.sockets i).waiting ++ (refs ++ n.waiting live)) :=
          List.perm_append_comm_assoc _ _ _
  · intro j hj hlisten
    rcases eq_or_ne j i with rfl | hne
    · rw [hself]
      exact hqueue
    · rw [hsame j hne] at hlisten ⊢
      apply h.queues j hj hlisten
  · intro j hj
    rw [hstates j]
    have hmem : number j ∈ (n.sockets i).waiting ++ (n.modify i f).waiting live :=
      List.mem_append_right _ hj
    rcases List.mem_append.mp (hperm.subset hmem) with hnew | hold
    · apply hclient j hnew
    · apply h.clients j hold
  · intro j hj
    rcases eq_or_ne j i with rfl | hne
    · rw [hself]
      exact hrx
    · rw [hsame j hne]
      apply h.rx j hj
  · apply h.blocks.update (fun _ _ => rfl) hsame
    · intros
      rfl
    · intro p hp hnot
      apply absurd _ hnot
      use hp.1
      rw [hself, htcp]
      exact hp.2
    · intro p hp j hj hjp
      rw [Blocks.Holds, hself, htcp] at hp
      apply hj
      apply h.blocks.apart j i p hjp.1 hp.1 hjp.2 hp.2
    · intro _
      have hw := h.blocks.wired i hi
      rw [hself]
      constructor
      · intro p hp
        rw [htcp] at hp
        have hserves := hw.serves p hp
        have hlistening : (f (n.sockets i)).state = .listening ↔ (n.pcbs p).state = .listen := by
          rw [hstate]
          exact hserves.listening
        exact { hserves with listening := hlistening, type := htype.trans hserves.type }
      · intro hnone
        rw [htcp] at hnone
        rw [hstate]
        apply hw.without hnone

/-- A client joins the queue of a listener. -/
theorem Owned.enqueue {c : Fin maxSockets} (h : n.Owned live others (number c :: refs)) (hi : live i)
    (hlisten : (n.sockets i).state = .listening) (hroom : (n.sockets i).acceptCount < acceptCap)
    (hc : (n.sockets c).state ≠ .listening) :
  (n.modify i (fun s => Net.enqueue s (number c))).Owned live others refs
  := by
  have hqueue := h.queues i hi hlisten
  have hwaiting := enqueue_waiting hqueue hlisten hroom (number c)
  have hrx := h.rx i hi
  apply h.queue hi _ rfl rfl rfl rfl (enqueue_queueOk hqueue hroom _) ⟨hrx.head, hrx.count, hrx.tail⟩
  · intro j hj
    rw [hwaiting] at hj
    rcases List.mem_append.mp hj with hold | hnew
    · apply h.clients j
      apply mem_collect.mpr
      exact ⟨i, hi, hold⟩
    · rw [number_injective (List.mem_singleton.mp hnew)]
      exact hc
  · rw [hwaiting, ← List.append_assoc, List.cons_append]
    apply List.perm_append_singleton

/-- The oldest client leaves the queue of a listener. -/
theorem Owned.dequeue (h : n.Owned live others refs) (hi : live i)
    (hlisten : (n.sockets i).state = .listening) (hpos : 0 < (n.sockets i).acceptCount) :
  (n.modify i Net.dequeue).Owned live others
    ((n.sockets i).acceptQueue (n.sockets i).acceptHead :: refs)
  := by
  have hqueue := h.queues i hi hlisten
  have hwaiting := dequeue_waiting hqueue hlisten hpos
  have hrx := h.rx i hi
  apply h.queue hi _ rfl rfl rfl rfl (dequeue_queueOk hqueue hpos) ⟨hrx.head, hrx.count, hrx.tail⟩
  · intro j hj
    apply h.clients j
    apply mem_collect.mpr
    use i, hi
    rw [hwaiting]
    apply List.mem_cons_of_mem _ hj
  · rw [hwaiting, List.cons_append]
    exact List.perm_middle.symm

end

end Net
