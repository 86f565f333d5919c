import Woos.Net.Calls

/-!
# The end of a socket

What `net_socket_close` does to the ownership of sockets and receive buffers.  A socket that is being
closed is not in use any more, but it stays live until its resources have been given back: meanwhile
the clients that wait in its queue are closed, one nested call each.
-/

namespace Net

open Slots

variable {n n' : Net} {live : Fin maxSockets → Bool} {others : List UInt64} {refs : List Int}
  {i : Fin maxSockets}

/-! ### Resources -/

/-- The control blocks after the calls of lwIP in `net_socket_close`. -/
theorem closed_pcbs (pcbs : Pcbs) (tcp : Option Nat) :
  (((pcbs.tcpArg tcp 0).tcpRecv tcp false).tcpErr tcp false).tcpClose tcp = pcbs.release tcp
  := by
  simp only [Pcbs.tcpArg, Pcbs.tcpRecv, Pcbs.tcpErr, Pcbs.tcpClose, Pcbs.release, Pcbs.modify_modify]

/-- The buffer of a live socket can be freed. -/
theorem Owned.free (h : n.Owned live others refs) (hi : live i) :
  (n.sockets i).rxBuf ≠ 0
    ∧ ∃ heap, n.heap.kheapFree (n.sockets i).rxBuf = some heap
      ∧ ∀ bufs, (n.buffers live).Perm ((n.sockets i).rxBuf :: bufs)
        → (⟨heap, others⟩ : KHeap.Session).Backed (entries bufs)
  := by
  have hmem : (n.sockets i).rxBuf ∈ n.buffers live := by
    apply mem_collect.mpr
    exact ⟨i, hi, List.mem_singleton_self _⟩
  have hperm := List.perm_cons_erase hmem
  have hb := h.backed.perm (hperm.symm.map (fun b => (b.toNat, socketBufSize)))
  obtain ⟨heap, hfree, hbacked⟩ := hb.free
  use hb.ne_zero, heap, hfree
  intro bufs hbufs
  apply hbacked.perm
  apply List.Perm.map
  apply (List.perm_cons _).mp (hbufs.symm.trans hperm)

/-- The state after the calls of lwIP and the release of the buffer. -/
def closed (n : Net) (i : Fin maxSockets) (heap : KHeap) : Net :=
  { (n.setPcbs (n.pcbs.release (n.sockets i).tcp)).modify i
      (fun s => { s with tcp := none, udp := none, rxBuf := 0 }) with
    heap := heap
    released := (n.sockets i).rxBuf :: n.released }

theorem closed_sockets (n : Net) (i : Fin maxSockets) (heap : KHeap) :
  (n.closed i heap).sockets i = { n.sockets i with tcp := none, udp := none, rxBuf := 0 }
  := modify_sockets (n.setPcbs (n.pcbs.release (n.sockets i).tcp)) i
    (fun s => { s with tcp := none, udp := none, rxBuf := 0 })

theorem pcbs_closed (n : Net) (i : Fin maxSockets) (heap : KHeap) :
  (n.closed i heap).pcbs = n.pcbs.release (n.sockets i).tcp
  := rfl

theorem closed_sameBut (n : Net) (i : Fin maxSockets) (heap : KHeap) :
  SameBut n (n.closed i heap) i
  := sameBut_modify (n.setPcbs (n.pcbs.release (n.sockets i).tcp)) i
    (fun s => { s with tcp := none, udp := none, rxBuf := 0 })

theorem closeResources_eq {heap : KHeap} (hne : (n.sockets i).rxBuf ≠ 0)
    (hfree : n.heap.kheapFree (n.sockets i).rxBuf = some heap) :
  n.closeResources i = some (n.closed i heap)
  := by
  rw [closeResources, closed_pcbs]
  simp only [modify_sockets, setPcbs_sockets, if_neg hne, rxFree, modify_heap]
  rw [show (n.setPcbs (n.pcbs.release (n.sockets i).tcp)).heap = n.heap from rfl, hfree]
  simp only [Option.bind_eq_bind, Option.bind_some, Net.modify, setPcbs_sockets, Function.update_self,
    Function.update_idem]
  rfl

/-- A live socket that is referred to from outside, and in whose queue no client waits, gives back
what it owns. -/
theorem closeResources_owned (h : n.Owned live others (number i :: refs)) (hi : live i)
    (hwaiting : (n.sockets i).waiting = []) :
  ∃ n', n.closeResources i = some n' ∧ n'.Owned (Function.update live i false) others refs
    ∧ SameBut n n' i ∧ (n'.sockets i).inUse = (n.sockets i).inUse
  := by
  obtain ⟨hne, heap, hfree, hbacked⟩ := h.free hi
  refine ⟨n.closed i heap, closeResources_eq hne hfree, ?_, closed_sameBut n i heap, ?_⟩
  · have hnot : Function.update live i false i ≠ true := by
      rw [Function.update_self]
      simp
    apply h.remove hi (closed_sameBut n i heap) hwaiting hbacked rfl rfl
    apply h.blocks.update (fun j hj => Function.update_of_ne hj _ _) (closed_sameBut n i heap)
    · intro p hp _
      rw [pcbs_closed, Pcbs.release, Pcbs.modify_of_ne]
      intro htcp
      exact hp ⟨hi, htcp⟩
    · intro p hp _
      rw [pcbs_closed, hp.2, Pcbs.release, Pcbs.modify_some]
      apply Pcb.fresh_silent
    · intro p hp
      exact absurd hp.1 hnot
    · intro hlive
      exact absurd hlive hnot
  · rw [closed_sockets]

/-! ### Nested calls -/

/-- A socket is not in use any more, but live. -/
theorem Owned.leave (h : n.Owned live others refs) (hi : live i) :
  (n.modify i (fun s => { s with inUse := false })).Owned live others refs
  := by
  have hrx := h.rx i hi
  have hself : (n.modify i (fun s => { s with inUse := false })).sockets i
      = { n.sockets i with inUse := false } := modify_sockets n i (fun s => { s with inUse := false })
  apply h.quiet hi (sameBut_modify n i _) _ _ h.backed rfl rfl rfl
  · rw [hself]
    exact ⟨rfl, rfl, rfl, Iff.rfl, rfl, rfl, rfl, rfl⟩
  · rw [hself]
    exact ⟨hrx.head, hrx.count, hrx.tail⟩

/-- `net_socket_close` for a socket that does not listen. -/
theorem closeNested_client {d : Nat} (h : n.Owned live others (number i :: refs)) (hi : live i)
    (huse : n.inUse i) (hstate : (n.sockets i).state ≠ .listening) :
  ∃ n', closeNested (d + 1) n (number i) = some n' ∧ n'.Owned (Function.update live i false) others refs
    ∧ SameBut n n' i ∧ (n'.sockets i).inUse = false
  := by
  let m := n.modify i (fun s => { s with inUse := false })
  have hself : m.sockets i = { n.sockets i with inUse := false } :=
    modify_sockets n i (fun s => { s with inUse := false })
  have hwaiting : (m.sockets i).waiting = [] := by
    apply waiting_of_not_listening
    rw [hself]
    exact hstate
  obtain ⟨n', hclose, howned, hsame, hgone⟩ := closeResources_owned (h.leave hi) hi hwaiting
  use n'
  refine ⟨?_, howned, ?_, ?_⟩
  · rw [closeNested, socket_number huse]
    simp only [if_neg (fun hand : _ ∧ _ => hstate hand.2), Option.bind_eq_bind, Option.bind_some]
    exact hclose
  · intro j hj
    rw [hsame j hj]
    apply sameBut_modify n i _ j hj
  · rw [hgone, hself]

/-- The listener `i` is being closed: it is live, but not in use. -/
structure Leaving (n : Net) (i : Fin maxSockets) (others : List UInt64) (refs : List Int) : Prop where
  owned : n.Owned (Function.update n.inUse i true) others (number i :: refs)
  gone : n.inUse i = false
  listening : (n.sockets i).state = .listening

theorem Leaving.isLive (_ : Leaving n i others refs) :
  Function.update n.inUse i true i = true
  := Function.update_self i true n.inUse

theorem Leaving.queueOk (h : Leaving n i others refs) :
  (n.sockets i).QueueOk
  := h.owned.queues i h.isLive h.listening

/-- The oldest client is closed. -/
theorem Leaving.closeOldest {d : Nat} (h : Leaving n i others refs)
    (hpos : 0 < (n.sockets i).acceptCount) :
  ∃ n', closeNested (d + 1) (n.modify i dequeue) ((n.sockets i).acceptQueue (n.sockets i).acceptHead)
      = some n' ∧ Leaving n' i others refs
    ∧ (n'.sockets i).acceptCount = (n.sockets i).acceptCount - 1
  := by
  have hmem : (n.sockets i).acceptQueue (n.sockets i).acceptHead
      ∈ n.waiting (Function.update n.inUse i true) := by
    apply mem_collect.mpr
    use i, h.isLive
    rw [dequeue_waiting h.queueOk h.listening hpos]
    apply List.mem_cons_self
  obtain ⟨c, hc, hclient⟩ := h.owned.exists_of_ref (Or.inr hmem)
  rw [hclient] at hmem ⊢
  have hdequeued := h.owned.dequeue h.isLive h.listening hpos
  rw [hclient] at hdequeued
  have hne : c ≠ i := by
    rintro rfl
    exact h.owned.not_waiting List.mem_cons_self hmem
  have hsame : (n.modify i dequeue).sockets c = n.sockets c := sameBut_modify n i dequeue c hne
  have huse : (n.modify i dequeue).inUse c := by
    rw [inUse, hsame]
    rwa [Function.update_of_ne hne] at hc
  have hstate : ((n.modify i dequeue).sockets c).state ≠ .listening := by
    rw [hsame]
    exact h.owned.clients c hmem
  obtain ⟨n', hclose, howned, hothers, hgone⟩ := closeNested_client (d := d) hdequeued hc huse hstate
  have hself : n'.sockets i = dequeue (n.sockets i) := by
    rw [hothers i hne.symm, modify_sockets]
  have hgone' : n'.inUse i = false := by
    rw [inUse, hself]
    exact h.gone
  have hlive : Function.update (Function.update n.inUse i true) c false
      = Function.update n'.inUse i true := by
    funext j
    rcases eq_or_ne j i with rfl | hji
    · rw [Function.update_self, Function.update_of_ne hne.symm, Function.update_self]
    · rw [Function.update_of_ne hji]
      rcases eq_or_ne j c with rfl | hjc
      · rw [Function.update_self, inUse, hgone]
      · rw [Function.update_of_ne hjc, Function.update_of_ne hji, inUse, inUse, hothers j hjc,
          sameBut_modify n i dequeue j hji]
  rw [hlive] at howned
  refine ⟨n', hclose, ⟨howned, hgone', ?_⟩, ?_⟩
  · rw [hself]
    exact h.listening
  · rw [hself]
    rfl

/-- All clients that wait are closed. -/
theorem Leaving.closePending {d k : Nat} (h : Leaving n i others refs)
    (hk : (n.sockets i).acceptCount < k) :
  ∃ n', Net.closePending (closeNested (d + 1)) i k n = some n' ∧ Leaving n' i others refs
    ∧ (n'.sockets i).acceptCount = 0
  := by
  induction k generalizing n with
  | zero => cases hk
  | succ k ih =>
      rw [Net.closePending]
      split
      · rename_i hzero
        exact ⟨n, rfl, h, hzero⟩
      · rename_i hpos
        obtain ⟨m, hclose, hleaving, hcount⟩ := h.closeOldest (d := d) (Nat.pos_of_ne_zero hpos)
        rw [hclose]
        simp only [Option.bind_eq_bind, Option.bind_some]
        apply ih hleaving
        omega

/-- A listener in whose queue no client waits any more gives back what it owns. -/
theorem Leaving.closeResources (h : Leaving n i others refs) (hcount : (n.sockets i).acceptCount = 0) :
  ∃ n', n.closeResources i = some n' ∧ n'.Owned n'.inUse others refs
  := by
  have hwaiting : (n.sockets i).waiting = [] := by
    rw [waiting_of_listening h.listening, hcount]
    rfl
  obtain ⟨n', hclose, howned, hsame, huse⟩ := closeResources_owned h.owned h.isLive hwaiting
  use n', hclose
  rw [Function.update_idem, ← inUse_of_sameBut hsame (huse.trans h.gone)] at howned
  exact howned

/-- `net_socket_close` of a socket that is referred to from outside: the socket, and the clients that
wait for it, are given back. -/
theorem netSocketClose_owned {sock : Int} (h : n.Owned n.inUse others (sock :: refs)) :
  ∃ n', n.netSocketClose sock = some n' ∧ n'.Owned n'.inUse others refs
  := by
  obtain ⟨i, hi, rfl⟩ := h.exists_of_ref (Or.inl List.mem_cons_self)
  by_cases hlisten : (n.sockets i).state = .listening
  · let m := n.modify i (fun s => { s with inUse := false })
    have hself : m.sockets i = { n.sockets i with inUse := false } :=
      modify_sockets n i (fun s => { s with inUse := false })
    have hlive : Function.update m.inUse i true = n.inUse := by
      rw [inUse_of_sameBut (sameBut_modify n i _) (by rw [hself]), Function.update_idem, ← hi]
      apply Function.update_eq_self
    have hleaving : Leaving m i others refs := by
      constructor
      · rw [hlive]
        exact h.leave hi
      · rw [inUse, hself]
      · rw [hself]
        exact hlisten
    have htype : (n.sockets i).type = socketTypeTcp := by
      by_contra hnot
      exact h.not_listening hi (Or.inl hnot) hlisten
    obtain ⟨m', hpending, hleaving', hcount⟩ := hleaving.closePending (d := maxSockets - 1)
      (Nat.lt_succ_of_le hleaving.queueOk.count)
    obtain ⟨n', hclose, howned⟩ := hleaving'.closeResources hcount
    use n'
    apply And.intro _ howned
    rw [netSocketClose, closeNested, socket_number hi]
    simp only [if_pos (And.intro htype hlisten)]
    rw [show maxSockets = maxSockets - 1 + 1 from rfl, hpending]
    exact hclose
  · obtain ⟨n', hclose, howned, hsame, hgone⟩ := closeNested_client (d := maxSockets) h hi hi hlisten
    use n', hclose
    rw [← inUse_of_sameBut hsame hgone] at howned
    exact howned

end Net
