import Woos.Net.Closing

/-!
# Ownership of handles

Every socket in use is referred to by one open handle, or waits in the queue of one listener; see
`NetVfs.sockets_owned`.
-/

namespace NetVfs

open Slots

/-- The handle is open and one of a socket. -/
def ofSocket (s : NetVfs) (h : Fin maxHandles) : Bool :=
  (s.handles h).inUse && (s.handles h).type = .socket

/-- The numbers of the sockets that open handles refer to. -/
def handleIds (s : NetVfs) : List Int :=
  collect s.ofSocket (fun h => [(s.handles h).socketId])

/-- The sockets in use are owned, and referred to by handles and queues. -/
def Owned (s : NetVfs) : Prop := s.net.Owned s.net.inUse s.others s.handleIds

variable {s s' : NetVfs} {h : Fin maxHandles}

/-! ### Handles -/

/-- A change of a handle. -/
theorem handleIds_setHandle (s : NetVfs) (h : Fin maxHandles) (v : VfsHandle) :
  (part s.ofSocket (fun h => [(s.handles h).socketId]) h ++ (s.setHandle h v).handleIds).Perm
    ((if v.inUse && v.type = .socket then [v.socketId] else []) ++ s.handleIds)
  := by
  have hnew : part (s.setHandle h v).ofSocket (fun k => [((s.setHandle h v).handles k).socketId]) h
      = if v.inUse && v.type = .socket then [v.socketId] else [] := by
    simp [part, ofSocket, setHandle]
  rw [← hnew]
  apply collect_perm
  intro k hk
  simp [part, ofSocket, setHandle, Function.update_of_ne hk]

/-- A handle that is not one of a socket before or after contributes nothing. -/
theorem handleIds_setHandle_file {v : VfsHandle} (hold : s.ofSocket h = false)
    (hnew : v.inUse = false ∨ v.type ≠ .socket) :
  (s.setHandle h v).handleIds.Perm s.handleIds
  := by
  have hperm := handleIds_setHandle s h v
  have hnone : ¬ (v.inUse && v.type = .socket) := by
    rw [Bool.and_eq_true, decide_eq_true_eq]
    rintro ⟨huse, htype⟩
    rcases hnew with hfree | hfile
    · rw [hfree] at huse
      cases huse
    · exact hfile htype
  rw [part_of_not_live _ hold, if_neg hnone] at hperm
  exact hperm

/-- The handle that is found is not open. -/
theorem allocateHandle_cases (s : NetVfs) :
  s.allocateHandle = none
    ∨ ∃ h, (s.handles h).inUse = false ∧ s.allocateHandle = some (s.setHandle h ⟨true, .file, -1⟩, h)
  := by
  cases hfind : (List.finRange maxHandles).find? (fun h => !(s.handles h).inUse) with
  | none =>
      left
      rw [allocateHandle, hfind]
      rfl
  | some h =>
      right
      use h
      constructor
      · have hfree := List.find?_some hfind
        rw [Bool.not_eq_true'] at hfree
        exact hfree
      · rw [allocateHandle, hfind]
        rfl

theorem setHandle_setHandle (s : NetVfs) (h : Fin maxHandles) (v w : VfsHandle) :
  (s.setHandle h v).setHandle h w = s.setHandle h w
  := by
  simp only [setHandle, Function.update_idem]

@[simp]
theorem setHandle_handles (s : NetVfs) (h : Fin maxHandles) (v : VfsHandle) :
  (s.setHandle h v).handles h = v
  := by
  rw [setHandle]
  apply Function.update_self

theorem ofSocket_of_free (hfree : (s.handles h).inUse = false) :
  s.ofSocket h = false
  := by
  rw [ofSocket, hfree, Bool.false_and]

/-- A socket gets a handle, when there is one left. -/
theorem vfsCreateSocketHandle_cases (s : NetVfs) (socketId : Int) :
  s.vfsCreateSocketHandle socketId = (s, -1)
    ∨ ∃ h, s.vfsCreateSocketHandle socketId = (s.setHandle h ⟨true, .socket, socketId⟩, (h.val : Int))
      ∧ (s.setHandle h ⟨true, .socket, socketId⟩).handleIds.Perm (socketId :: s.handleIds)
  := by
  rcases allocateHandle_cases s with hnone | ⟨h, hfree, hsome⟩
  · left
    rw [vfsCreateSocketHandle, hnone]
  · right
    use h
    constructor
    · rw [vfsCreateSocketHandle, hsome]
      simp only [setHandle_handles, setHandle_setHandle]
    · have hperm := handleIds_setHandle s h ⟨true, .socket, socketId⟩
      rw [part_of_not_live _ (ofSocket_of_free hfree)] at hperm
      exact hperm

/-- The socket of a descriptor is one that a handle refers to. -/
theorem vfsGetSocketId_mem {h : Int} (hid : ¬ s.vfsGetSocketId h < 0) :
  s.vfsGetSocketId h ∈ s.handleIds
  := by
  rw [vfsGetSocketId] at hid ⊢
  cases hhandle : handle h with
  | none =>
      rw [hhandle] at hid
      exact absurd (by simp) hid
  | some k =>
      rw [hhandle] at hid
      simp only at hid ⊢
      split at hid
      · exact absurd (by simp) hid
      · rename_i hopen
        rw [if_neg hopen]
        rw [not_or, Bool.not_eq_true', Bool.not_eq_false, not_not] at hopen
        apply mem_collect.mpr
        refine ⟨k, ?_, List.mem_singleton_self _⟩
        rw [ofSocket, hopen.1, Bool.true_and, decide_eq_true_eq]
        exact hopen.2

/-! ### Calls -/

/-- A socket that the caller refers to gets a handle or is closed. -/
theorem exposeSocket_owned {sock : Int}
    (hs : s.net.Owned s.net.inUse s.others (sock :: s.handleIds)) :
  ∃ s' r, s.exposeSocket sock = some (s', r) ∧ s'.Owned
  := by
  rcases vfsCreateSocketHandle_cases s sock with hnone | ⟨h, hsome, hperm⟩
  · obtain ⟨n, hclose, hn⟩ := Net.netSocketClose_owned hs
    refine ⟨{ s with net := n }, -1, ?_, hn⟩
    rw [exposeSocket, hnone]
    simp only [hclose]
    rfl
  · refine ⟨s.setHandle h ⟨true, .socket, sock⟩, (h.val : Int) + 4, ?_, ?_⟩
    · rw [exposeSocket, hsome]
      apply if_neg
      exact not_lt.mpr (Int.natCast_nonneg _)
    · exact Net.Owned.perm hs hperm

/-- What makes a socket for the caller, whose result is exposed. -/
theorem exposed_owned {n : Net} {r : Int}
    (hn : (r = -1 ∧ n.Owned n.inUse s.others s.handleIds)
      ∨ ∃ i, r = Net.number i ∧ n.Owned n.inUse s.others (Net.number i :: s.handleIds)) :
  ∃ s', (if r < 0 then some ({ s with net := n }, -1) else exposeSocket { s with net := n } r).map
      Prod.fst = some s' ∧ s'.Owned
  := by
  rcases hn with ⟨rfl, howned⟩ | ⟨i, rfl, howned⟩
  · use { s with net := n }
    rw [if_pos (by decide)]
    exact ⟨rfl, howned⟩
  · have hnumber : ¬ Net.number i < 0 := not_lt.mpr (Int.natCast_nonneg _)
    rw [if_neg hnumber]
    obtain ⟨s', r, hexpose, hs'⟩ := exposeSocket_owned (s := { s with net := n }) howned
    use s'
    rw [hexpose]
    exact ⟨rfl, hs'⟩

/-- A call on the socket of a descriptor. -/
theorem withSocket_owned (hs : s.Owned) (fd : Int32) {f : Net → Int → Option (Net × Int)}
    (hf : ∀ sock ∈ s.handleIds, ∃ n r, f s.net sock = some (n, r)
      ∧ n.Owned n.inUse s.others s.handleIds) :
  ∃ s', (s.withSocket fd f).map Prod.fst = some s' ∧ s'.Owned
  := by
  rw [withSocket]
  split
  · exact ⟨s, rfl, hs⟩
  · rename_i hid
    obtain ⟨n, r, hcall, hn⟩ := hf _ (vfsGetSocketId_mem hid)
    use { s with net := n }
    rw [hcall]
    exact ⟨rfl, hn⟩

/-- `vfs_close` -/
theorem vfsClose_owned (hs : s.Owned) (h : Int) :
  ∃ s', s.vfsClose h = some s' ∧ s'.Owned
  := by
  rw [vfsClose]
  cases handle h with
  | none => exact ⟨s, rfl, hs⟩
  | some h =>
      simp only
      cases huse : (s.handles h).inUse with
      | false => exact ⟨s, rfl, hs⟩
      | true =>
          rw [if_neg (by simp)]
          by_cases htype : (s.handles h).type = .socket
          · rw [if_pos htype]
            have hsocket : s.ofSocket h = true := by
              rw [ofSocket, huse, htype]
              rfl
            have hperm := handleIds_setHandle s h ⟨false, .file, -1⟩
            rw [part_of_live _ hsocket] at hperm
            have howned := Net.Owned.perm hs hperm
            obtain ⟨n, hclose, hn⟩ := Net.netSocketClose_owned howned
            refine ⟨{ s.setHandle h ⟨false, .file, -1⟩ with net := n }, ?_, hn⟩
            have hnet : (s.setHandle h ⟨false, .file, -1⟩).net = s.net := rfl
            rw [hnet, hclose]
            rfl
          · rw [if_neg htype]
            refine ⟨_, rfl, ?_⟩
            apply Net.Owned.perm hs
            apply handleIds_setHandle_file _ (Or.inl rfl)
            rw [ofSocket, decide_eq_false htype, Bool.and_false]

/-- `vfs_open` -/
theorem vfsOpen_owned (hs : s.Owned) (path : Bool) (answer : Option Bool) :
  (s.vfsOpen path answer).1.Owned
  := by
  rw [vfsOpen]
  split
  · exact hs
  · rcases allocateHandle_cases s with hnone | ⟨h, hfree, hsome⟩
    · rw [hnone]
      exact hs
    · rw [hsome]
      cases answer with
      | none =>
          simp only [setHandle_handles, setHandle_setHandle]
          apply Net.Owned.perm hs
          apply handleIds_setHandle_file (ofSocket_of_free hfree) (Or.inl rfl)
      | some dir =>
          simp only [setHandle_handles, setHandle_setHandle]
          apply Net.Owned.perm hs
          apply handleIds_setHandle_file (ofSocket_of_free hfree)
          right
          split
          · simp
          · simp

/-- The guard for the calls of others: they reallocate and write only what they hold, do not free the
receive buffers of sockets in use, and do not overrun. -/
def Permitted (s : NetVfs) : Call → Prop
  | .other c => s.clients.Permitted c ∧ s.clients.DoesNotOverrun c
      ∧ KHeap.Session.Avoids (Net.entries (s.net.buffers s.net.inUse)) c
  | _ => True

/-- A call keeps the ownership. -/
theorem call_owned {c : Call} (hs : s.Owned) (hpermitted : s.Permitted c) :
  ∃ s', s.call c = some s' ∧ s'.Owned
  := by
  cases c with
  | create ok answer type =>
      obtain ⟨n, r, hcreate, hn⟩ := Net.netSocketCreate_owned hs ok answer type.toUInt8
      rw [call, wasiSocketCreate, hcreate]
      exact exposed_owned hn
  | bind answer fd =>
      apply withSocket_owned hs fd
      intro sock _
      exact ⟨_, _, rfl, Net.netSocketBind_owned hs answer sock⟩
  | listen answer fd =>
      apply withSocket_owned hs fd
      intro sock hsock
      exact ⟨_, _, rfl, Net.netSocketListen_owned hs answer hsock⟩
  | accept events fd =>
      rw [call, wasiSocketAccept]
      split
      · exact ⟨s, rfl, hs⟩
      · obtain ⟨n, r, haccept, hn⟩ :=
          Net.netSocketAccept_owned hs events (s.vfsGetSocketId (fd - 4).toInt)
        rw [haccept]
        exact exposed_owned hn
  | connect events answer aton fd =>
      apply withSocket_owned hs fd
      intro sock _
      exact Net.netSocketConnect_owned hs events answer true aton sock
  | send events answer sndbuf fd data len =>
      apply withSocket_owned hs fd
      intro sock _
      exact Net.netSocketSend_owned hs events answer sndbuf sock data len
  | recv events fd buf len =>
      apply withSocket_owned hs fd
      intro sock _
      obtain ⟨n, bytes, r, hrecv, hn⟩ := Net.netSocketRecv_owned hs events sock buf len
      use n, r
      rw [hrecv]
      exact ⟨rfl, hn⟩
  | close fd =>
      obtain ⟨s', hclose, hs'⟩ := vfsClose_owned hs (fd - 4).toInt
      use s'
      rw [call, wasiSocketClose, hclose]
      exact ⟨rfl, hs'⟩
  | vfsOpen path answer => exact ⟨_, rfl, vfsOpen_owned hs path answer⟩
  | vfsRead events h buffer bytes =>
      rw [call, vfsRead]
      split
      · exact ⟨s, rfl, hs⟩
      · obtain ⟨n, data, r, hrecv, hn⟩ :=
          Net.netSocketRecv_owned hs events (s.vfsGetSocketId h) buffer bytes
        use { s with net := n }
        rw [hrecv]
        exact ⟨rfl, hn⟩
  | vfsWrite events answer sndbuf h buffer bytes =>
      rw [call, vfsWrite]
      split
      · exact ⟨s, rfl, hs⟩
      · obtain ⟨n, r, hsend, hn⟩ :=
          Net.netSocketSend_owned hs events answer sndbuf (s.vfsGetSocketId h) buffer bytes
        use { s with net := n }
        rw [hsend]
        exact ⟨rfl, hn⟩
  | vfsClose h => exact vfsClose_owned hs h
  | event e =>
      obtain ⟨n, hevent, hn, -⟩ := Net.event_owned hs e
      use { s with net := n }
      rw [call, hevent]
      exact ⟨rfl, hn⟩
  | other c =>
      obtain ⟨hc, hno, havoids⟩ := hpermitted
      obtain ⟨t, ht, hbacked⟩ := KHeap.Session.Backed.call hs.backed hc hno havoids
      refine ⟨{ s with net := { s.net with heap := t.heap }, others := t.live }, ?_, ?_⟩
      · rw [call, clients, ht]
        rfl
      · exact ⟨hbacked, hs.balance, hs.refs, hs.queues, hs.clients, hs.rx, hs.blocks⟩

theorem init_owned (m : Memory) (ready : Bool) :
  (init m ready).Owned
  where
  backed := ⟨[], KHeap.Session.init_holds m, List.Forall₂.nil⟩
  balance := List.Perm.refl []
  refs := List.Perm.refl []
  queues := by
    intro i hi
    cases hi
  clients := by
    intro i _
    simp [init, Net.init, NetSocket.zero]
  rx := by
    intro i hi
    cases hi
  blocks := Blocks.init

/-! ### Ownership -/

/-- Each socket in use owns one live receive buffer, and each receive buffer that was granted has
been freed once or is owned by one socket in use, so that no other socket owns one; the queue of a
listener holds at most its capacity of clients; and the handles and queues together refer to each
socket in use once, and to no other. -/
structure SocketsOwned (s : NetVfs) : Prop where
  buffers : ∃ L, KHeap.Live s.net.heap L
    ∧ ((s.others ++ s.net.buffers s.net.inUse).map UInt64.toNat).Perm (L.map Prod.fst)
    ∧ ∀ i, s.net.inUse i → ∃ q, ((s.net.sockets i).rxBuf.toNat, q) ∈ L ∧ socketBufSize ≤ q
  apart : (s.others ++ s.net.buffers s.net.inUse).Nodup
  once : s.net.acquired.Perm (s.net.released ++ s.net.buffers s.net.inUse)
  queues : ∀ i, s.net.inUse i → (s.net.sockets i).waiting.length ≤ acceptCap
  referred : (s.handleIds ++ s.net.waiting s.net.inUse).Perm (Net.numbers s.net.inUse)
  unique : (s.handleIds ++ s.net.waiting s.net.inUse).Nodup
  handles : ∀ h, (s.handles h).inUse → (s.handles h).type = .socket
    → ∃ i, s.net.inUse i ∧ (s.handles h).socketId = Net.number i
  pending : ∀ i, s.net.inUse i → ∀ r ∈ (s.net.sockets i).waiting,
    ∃ j, s.net.inUse j ∧ r = Net.number j ∧ r ∉ s.handleIds

theorem socketsOwned_of_owned (hs : s.Owned) :
  s.SocketsOwned
  := by
  have hfst : (Net.entries (s.net.buffers s.net.inUse)).map Prod.fst
      = (s.net.buffers s.net.inUse).map UInt64.toNat := by
    rw [Net.entries, List.map_map]
    rfl
  obtain ⟨L, hl, hperm, hlive⟩ := hs.backed.exists_live
  rw [hfst, ← List.map_append] at hperm
  constructor
  · use L, hl, hperm
    intro i hi
    apply hlive ((s.net.sockets i).rxBuf.toNat, socketBufSize)
    apply List.mem_map_of_mem
    apply mem_collect.mpr
    exact ⟨i, hi, List.mem_singleton_self _⟩
  · apply List.Nodup.of_map UInt64.toNat
    exact hperm.nodup_iff.mpr hl.nodup
  · exact hs.balance
  · intro i hi
    by_cases hlisten : (s.net.sockets i).state = .listening
    · rw [Net.waiting_of_listening hlisten, CountedRing.length_contents]
      exact (hs.queues i hi hlisten).count
    · rw [Net.waiting_of_not_listening hlisten]
      exact Nat.zero_le acceptCap
  · exact hs.refs
  · exact hs.refs_nodup
  · intro h huse htype
    apply hs.exists_of_ref
    left
    apply mem_collect.mpr
    refine ⟨h, ?_, List.mem_singleton_self _⟩
    rw [ofSocket, huse, htype]
    rfl
  · intro i hi r hr
    have hmem : r ∈ s.net.waiting s.net.inUse := by
      apply mem_collect.mpr
      exact ⟨i, hi, hr⟩
    obtain ⟨j, hj, heq⟩ := hs.exists_of_ref (Or.inr hmem)
    refine ⟨j, hj, heq, ?_⟩
    intro href
    exact hs.not_waiting href hmem

/-- After every run of calls and events, while the other callers of the heap leave the buffers of
sockets alone, the sockets, buffers and handles are owned. -/
theorem sockets_owned (m : Memory) (ready : Bool) (calls : List Call)
    (h : Run.Guarded call Permitted (init m ready) calls) :
  ∃ s, Run.exec call (init m ready) calls = some s ∧ s.SocketsOwned
  := by
  have hstep : ∀ s c, Owned s → Permitted s c → ∃ s', call s c = some s' ∧ Owned s' :=
    fun _ _ hs hc => call_owned hs hc
  obtain ⟨s, hrun, hs⟩ := Run.exec_invariant hstep (init_owned m ready) h
  use s, hrun
  exact socketsOwned_of_owned hs

/-- A listener whose client is accepted, and that is closed while another client waits. -/
theorem sockets_owned_close_listener :
  ∃ s, Run.exec call (init (fun _ => 0) true)
      [.create true (some 0) 1, .bind true 4, .listen (some 1) 4, .event (.accept true 1 (some 2)),
        .event (.accept true 1 (some 3)), .accept [] 4, .close 4] = some s
    ∧ s.SocketsOwned
  := by
  apply sockets_owned
  apply Run.guarded_of_forall
  simp [Permitted]

end NetVfs
