import Woos.Net.Creation

/-!
# Callbacks of sockets

What the callbacks that lwIP calls do to the ownership of sockets and receive buffers.  `event_owned`
is the rule for an event, and `netPoll_owned` that for the events while `net_poll` runs.
-/

namespace Net

open Slots

variable {n n' : Net} {live : Fin maxSockets → Bool} {others : List UInt64} {refs : List Int}
  {i : Fin maxSockets}

/-! ### Calls for a socket in use -/

/-- A number denotes no socket, or one in use. -/
theorem socket_cases (n : Net) (sock : Int) :
  n.socket sock = none ∨ ∃ i, n.inUse i ∧ sock = number i ∧ n.socket sock = some i
  := by
  by_cases hvalid : 0 ≤ sock ∧ sock.toNat < maxSockets
  · by_cases huse : (n.sockets ⟨sock.toNat, hvalid.2⟩).inUse
    · right
      refine ⟨⟨sock.toNat, hvalid.2⟩, huse, (Int.toNat_of_nonneg hvalid.1).symm, ?_⟩
      rw [socket, dif_pos hvalid, if_pos huse]
    · left
      rw [socket, dif_pos hvalid, if_neg huse]
  · left
    rw [socket, dif_neg hvalid]

/-- A socket in use changes quietly, and stays in use. -/
theorem Owned.modify_quiet (h : n.Owned n.inUse others refs) (hi : n.inUse i)
    {f : NetSocket → NetSocket} (hquiet : Quiet (n.sockets i) (f (n.sockets i)))
    (huse : (f (n.sockets i)).inUse = (n.sockets i).inUse) (hrx : (f (n.sockets i)).RxOk) :
  (n.modify i f).Owned (n.modify i f).inUse others refs
  := by
  have hsame := sameBut_modify n i f
  have hself : (n.modify i f).sockets i = f (n.sockets i) := modify_sockets n i f
  rw [inUse_of_sameBut_of_eq hsame (by rw [hself, huse])]
  apply h.quiet hi hsame _ _ h.backed rfl rfl rfl
  · rw [hself]
    exact hquiet
  · rw [hself]
    exact hrx

/-- A socket that does not listen gets another state in which it does not. -/
theorem quiet_state {s : NetSocket} {state : SocketState} (hold : s.state ≠ .listening)
    (hnew : state ≠ .listening) :
  Quiet s { s with state := state }
  := ⟨rfl, rfl, rfl, ⟨fun h => absurd h hnew, fun h => absurd h hold⟩, rfl, rfl, rfl, rfl⟩

/-- A socket whose block is closed, or which is not a TCP socket, does not listen. -/
theorem Owned.not_listening (h : n.Owned live others refs) (hi : live i)
    (hclosed : (n.sockets i).type ≠ socketTypeTcp ∨ n.pcbs.state (n.sockets i).tcp ≠ .listen) :
  (n.sockets i).state ≠ .listening
  := by
  intro hlisten
  have hw := h.blocks.wired i hi
  cases htcp : (n.sockets i).tcp with
  | none => exact hw.without htcp hlisten
  | some p =>
      have hserves := hw.serves p htcp
      rcases hclosed with htype | hstate
      · exact htype hserves.type
      · rw [htcp] at hstate
        exact hstate (hserves.listening.mp hlisten)

/-- A socket in use that does not listen gets another state in which it does not. -/
theorem Owned.setState (h : n.Owned n.inUse others refs) (hi : n.inUse i) {state : SocketState}
    (hold : (n.sockets i).state ≠ .listening) (hnew : state ≠ .listening) :
  (n.modify i (fun s => { s with state := state })).Owned
    (n.modify i (fun s => { s with state := state })).inUse others refs
  := by
  have hrx := h.rx i hi
  apply h.modify_quiet hi (quiet_state hold hnew) rfl
  exact ⟨hrx.head, hrx.count, hrx.tail⟩

/-- `net_socket_bind` -/
theorem netSocketBind_owned (h : n.Owned n.inUse others refs) (answer : Bool) (sock : Int) :
  (n.netSocketBind answer sock).1.Owned (n.netSocketBind answer sock).1.inUse others refs
  := by
  rcases socket_cases n sock with hnone | ⟨i, hi, -, hsock⟩
  · rw [netSocketBind, hnone]
    exact h
  · rw [netSocketBind, hsock]
    simp only
    cases hdone : (if (n.sockets i).type = socketTypeTcp then
        n.pcbs.tcpBind (n.sockets i).tcp answer else answer) with
    | false => exact h
    | true =>
        apply h.setState hi
        · apply h.not_listening hi
          by_cases htype : (n.sockets i).type = socketTypeTcp
          · right
            rw [if_pos htype, Pcbs.tcpBind, Bool.and_eq_true, beq_iff_eq] at hdone
            rw [hdone.2]
            simp
          · left
            exact htype
        · simp

/-- Writing to the buffer of a live socket. -/
theorem Owned.write {m : Memory} (h : n.Owned live others refs) (hi : live i)
    (hm : WritesWithin (n.sockets i) n.heap.mem m) :
  (⟨{ n.heap with mem := m }, others⟩ : KHeap.Session).Backed (entries (n.buffers live))
  := by
  have hmem : (n.sockets i).rxBuf ∈ n.buffers live := by
    apply mem_collect.mpr
    exact ⟨i, hi, List.mem_singleton_self _⟩
  have hperm := List.perm_cons_erase hmem
  have hb := h.backed.perm (hperm.symm.map (fun b => (b.toNat, socketBufSize)))
  apply (hb.write hm).perm
  exact hperm.map (fun b => (b.toNat, socketBufSize))

theorem quiet_of_receives {s s' : NetSocket} (h : Receives s s') :
  Quiet s s'
  := by
  obtain ⟨head, tail, count, rfl⟩ := h
  exact ⟨rfl, rfl, rfl, Iff.rfl, rfl, rfl, rfl, rfl⟩

/-- `tcp_recv_callback` for a socket that does not listen. -/
theorem tcpRecvCallback_owned (h : n.Owned n.inUse others refs) (hi : n.inUse i)
    (hold : (n.sockets i).state ≠ .listening) (p : Option (List (List UInt8))) :
  (n.tcpRecvCallback (number i) p).1.Owned (n.tcpRecvCallback (number i) p).1.inUse others refs
    ∧ Keeps n (n.tcpRecvCallback (number i) p).1
  := by
  rw [tcpRecvCallback, socket_number hi]
  cases p with
  | none =>
      simp only
      apply And.intro (h.setState hi hold (by simp))
      apply Keeps.of_not_listening (sameBut_modify n i (fun s => { s with state := .error })) _ hold
      rw [modify_sockets]
  | some chain =>
      obtain ⟨m, s, c, hchain, hrx, hkeeps, hwrites, -⟩ :=
        receiveChain_stored (m := n.heap.mem) (h.rx i hi) chain
      simp only [hchain]
      have hsame : SameBut n ((n.modify i (fun _ => s)).setMem m) i :=
        sameBut_modify n i (fun _ => s)
      have hself : ((n.modify i (fun _ => s)).setMem m).sockets i = s := modify_sockets n i (fun _ => s)
      have huse : (((n.modify i (fun _ => s)).setMem m).sockets i).inUse = (n.sockets i).inUse := by
        rw [hself, hkeeps.inUse]
      apply And.intro _ (Keeps.of_not_listening hsame huse hold)
      rw [inUse_of_sameBut_of_eq hsame huse]
      apply h.quiet hi hsame _ _ (h.write hi hwrites) rfl rfl rfl
      · rw [hself]
        exact quiet_of_receives hkeeps
      · rw [hself]
        exact hrx

/-- A socket changes, and the block that it holds and goes on holding. -/
theorem Owned.rewire (h : n.Owned n.inUse others refs) (hi : n.inUse i) (hsame : SameBut n n' i)
    (huse : (n'.sockets i).inUse = (n.sockets i).inUse)
    (htcp : (n'.sockets i).tcp = (n.sockets i).tcp)
    (hbuf : (n'.sockets i).rxBuf = (n.sockets i).rxBuf) (hrx : (n'.sockets i).RxOk)
    (hold : (n.sockets i).state ≠ .listening) (hnew : (n'.sockets i).state ≠ .listening)
    (hheap : n'.heap = n.heap) (hacquired : n'.acquired = n.acquired)
    (hreleased : n'.released = n.released)
    (hpcbs : ∀ p, (n.sockets i).tcp ≠ some p → n'.pcbs p = n.pcbs p)
    (hserves : ∀ p, (n.sockets i).tcp = some p → (n'.pcbs p).Serves i (n'.sockets i)) :
  n'.Owned n'.inUse others refs
  := by
  rw [inUse_of_sameBut_of_eq hsame huse]
  apply h.change hi hsame hbuf _ _ _ hrx _ hacquired hreleased
  · apply h.blocks.update (fun _ _ => rfl) hsame
    · intro p hp _
      apply hpcbs
      intro heq
      exact hp ⟨hi, heq⟩
    · intro p hp hnot
      exact absurd ⟨hp.1, htcp.trans hp.2⟩ hnot
    · intro p hp j hj hjp
      apply hj
      apply h.blocks.apart j i p hjp.1 hp.1 hjp.2
      rw [← htcp]
      exact hp.2
    · intro _
      constructor
      · intro p hp
        rw [htcp] at hp
        apply hserves p hp
      · intro _
        exact hnew
  · rw [waiting_of_not_listening hold, waiting_of_not_listening hnew]
  · intro hlisten
    exact absurd hlisten hnew
  · intro _
    exact hnew
  · rw [hheap]
    exact h.backed

/-- The block of a socket that does not listen is not listening. -/
theorem Owned.not_listen (h : n.Owned live others refs) (hi : live i)
    (hold : (n.sockets i).state ≠ .listening) {p : Nat} (hp : (n.sockets i).tcp = some p) :
  (n.pcbs p).state ≠ .listen
  := by
  intro hstate
  exact hold (((h.blocks.wired i hi).serves p hp).listening.mpr hstate)

/-- A socket that does not listen, with its block, gets a state in which it does not. -/
theorem Owned.restate {state : SocketState} {pcbs : Pcbs} (h : n.Owned n.inUse others refs)
    (hi : n.inUse i) (hold : (n.sockets i).state ≠ .listening) (hnew : state ≠ .listening)
    (hpcbs : ∀ p, (n.sockets i).tcp ≠ some p → pcbs p = n.pcbs p)
    (hserves : ∀ p, (n.sockets i).tcp = some p
      → (pcbs p).Serves i { n.sockets i with state := state }) :
  ((n.setPcbs pcbs).modify i (fun s => { s with state := state })).Owned
    ((n.setPcbs pcbs).modify i (fun s => { s with state := state })).inUse others refs
  := by
  have hrx := h.rx i hi
  have hself : ((n.setPcbs pcbs).modify i (fun s => { s with state := state })).sockets i
      = { n.sockets i with state := state } :=
    modify_sockets (n.setPcbs pcbs) i (fun s => { s with state := state })
  apply h.rewire hi (sameBut_modify (n.setPcbs pcbs) i _) _ _ _ _ hold _ rfl rfl rfl hpcbs
  · rw [hself]
    exact hserves
  · rw [hself]
  · rw [hself]
  · rw [hself]
  · rw [hself]
    exact ⟨hrx.head, hrx.count, hrx.tail⟩
  · rw [hself]
    exact hnew

/-- `tcp_connect_callback`, called by lwIP. -/
theorem connected_owned (h : n.Owned n.inUse others refs) {pcb : Nat} (hset : (n.pcbs pcb).connected) :
  (n.tcpConnectCallback (n.pcbs pcb).arg (some pcb) true).1.Owned
    (n.tcpConnectCallback (n.pcbs pcb).arg (some pcb) true).1.inUse others refs
    ∧ Keeps n (n.tcpConnectCallback (n.pcbs pcb).arg (some pcb) true).1
  := by
  have hcallback : ¬ (n.pcbs pcb).Silent := by
    intro hsilent
    rw [hsilent.connected] at hset
    cases hset
  obtain ⟨i, hi, htcp, harg, hserves⟩ := h.blocks.exists_holder hcallback
  have hnot : (n.pcbs pcb).state ≠ .listen := by
    intro hlisten
    rw [(hserves.onlyAccept hlisten).2.2] at hset
    cases hset
  have hold : (n.sockets i).state ≠ .listening := by
    intro hlisten
    exact hnot (hserves.listening.mp hlisten)
  rw [harg, tcpConnectCallback, socket_number hi]
  simp only [if_true]
  rw [modify_setPcbs]
  have hkeeps : Keeps n ((n.setPcbs (n.pcbs.tcpRecv (some pcb) true)).modify i
      (fun s => { s with state := .connected })) := by
    apply Keeps.of_not_listening _ _ hold
    · exact sameBut_modify (n.setPcbs (n.pcbs.tcpRecv (some pcb) true)) i _
    · rw [modify_sockets]
      rfl
  apply And.intro _ hkeeps
  apply h.restate hi hold (by simp)
  · intro p hp
    apply Pcbs.modify_of_ne
    rw [← htcp]
    exact hp
  · intro p hp
    rw [htcp] at hp
    cases hp
    rw [Pcbs.tcpRecv, Pcbs.modify_some]
    exact hserves.change hnot hserves.used hnot harg rfl (by simp) rfl

/-- A segment or the end of a connection, as lwIP reports it. -/
theorem received_owned (h : n.Owned n.inUse others refs) {pcb : Nat} (hset : (n.pcbs pcb).recv)
    (p : Option (List (List UInt8))) :
  (n.tcpRecvCallback (n.pcbs pcb).arg p).1.Owned (n.tcpRecvCallback (n.pcbs pcb).arg p).1.inUse
      others refs
    ∧ Keeps n (n.tcpRecvCallback (n.pcbs pcb).arg p).1
  := by
  have hcallback : ¬ (n.pcbs pcb).Silent := by
    intro hsilent
    rw [hsilent.recv] at hset
    cases hset
  obtain ⟨i, hi, htcp, harg, hserves⟩ := h.blocks.exists_holder hcallback
  rw [harg]
  apply tcpRecvCallback_owned h hi
  intro hlisten
  rw [(hserves.onlyAccept (hserves.listening.mp hlisten)).1] at hset
  cases hset

/-- `tcp_err_callback`, called by lwIP after it has taken the block back. -/
theorem failed_owned (h : n.Owned n.inUse others refs) {pcb : Nat} (hset : (n.pcbs pcb).errf) :
  ((n.setPcbs (n.pcbs.release (some pcb))).tcpErrCallback (n.pcbs pcb).arg).Owned
      ((n.setPcbs (n.pcbs.release (some pcb))).tcpErrCallback (n.pcbs pcb).arg).inUse others refs
    ∧ Keeps n ((n.setPcbs (n.pcbs.release (some pcb))).tcpErrCallback (n.pcbs pcb).arg)
  := by
  have hcallback : ¬ (n.pcbs pcb).Silent := by
    intro hsilent
    rw [hsilent.errf] at hset
    cases hset
  obtain ⟨i, hi, htcp, harg, hserves⟩ := h.blocks.exists_holder hcallback
  have hold : (n.sockets i).state ≠ .listening := by
    intro hlisten
    rw [(hserves.onlyAccept (hserves.listening.mp hlisten)).2.1] at hset
    cases hset
  have hvalid : 0 ≤ number i ∧ (number i).toNat < maxSockets := ⟨Int.natCast_nonneg _, i.isLt⟩
  have hcall : (n.setPcbs (n.pcbs.release (some pcb))).tcpErrCallback (n.pcbs pcb).arg
      = (n.setPcbs (n.pcbs.release (some pcb))).modify i
          (fun s => { s with state := .error, tcp := none }) := by
    rw [harg, tcpErrCallback, dif_pos hvalid]
    rfl
  rw [hcall]
  have hsame : SameBut n ((n.setPcbs (n.pcbs.release (some pcb))).modify i
      (fun s => { s with state := .error, tcp := none })) i :=
    sameBut_modify (n.setPcbs (n.pcbs.release (some pcb))) i _
  have hself : ((n.setPcbs (n.pcbs.release (some pcb))).modify i
      (fun s => { s with state := .error, tcp := none })).sockets i
      = { n.sockets i with state := .error, tcp := none } :=
    modify_sockets (n.setPcbs (n.pcbs.release (some pcb))) i _
  have hrx := h.rx i hi
  apply And.intro _ (Keeps.of_not_listening hsame (by rw [hself]) hold)
  rw [inUse_of_sameBut_of_eq hsame (by rw [hself])]
  apply h.change hi hsame _ _ _ _ _ h.backed rfl rfl
  · apply h.blocks.update (fun _ _ => rfl) hsame
    · intro p hp _
      rw [modify_pcbs, setPcbs_pcbs]
      apply Pcbs.modify_of_ne
      rintro ⟨⟩
      exact hp ⟨hi, htcp⟩
    · intro p hp _
      rw [Blocks.Holds, htcp] at hp
      cases hp.2
      rw [modify_pcbs, setPcbs_pcbs, Pcbs.release, Pcbs.modify_some]
      apply Pcb.fresh_silent
    · intro p hp
      rw [Blocks.Holds, hself] at hp
      cases hp.2
    · intro _
      rw [hself]
      constructor
      · intro p hp
        cases hp
      · intro _
        simp
  · rw [hself]
  · rw [hself, waiting_of_not_listening hold]
    rfl
  · rw [hself]
    intro hlisten
    cases hlisten
  · rw [hself]
    intro _
    simp
  · rw [hself]
    exact ⟨hrx.head, hrx.count, hrx.tail⟩

/-! ### Connections to a listener -/

/-- A block that no socket holds changes, and sets no callback. -/
theorem Owned.setBlock (h : n.Owned live others refs) {p : Nat}
    (hp : ∀ i, live i → (n.sockets i).tcp ≠ some p) {b : Pcb} (hb : b.Silent) :
  (n.setPcbs (Function.update n.pcbs p b)).Owned live others refs
  := { h with blocks := h.blocks.of_not_held hp hb }

/-- `tcp_accept_callback` of a listener: the client is made and waits, or nothing is taken and the
new block is not held by a socket. -/
theorem tcpAcceptCallback_owned (h : n.Owned n.inUse others refs) (hi : n.inUse i)
    (hlisten : (n.sockets i).state = .listening) (ok : Bool) {newpcb : Option Nat}
    (hnew : ∀ p, newpcb = some p → (∀ j, n.inUse j → (n.sockets j).tcp ≠ some p)
      ∧ (n.pcbs p).Silent ∧ (n.pcbs p).state = .active) :
  ∃ n' err, n.tcpAcceptCallback ok (number i) newpcb = some (n', err)
    ∧ n'.Owned n'.inUse others refs ∧ Keeps n n'
    ∧ (err ≠ .ok → n'.pcbs = n.pcbs ∧ ∀ j, n'.inUse j → n'.sockets j = n.sockets j)
  := by
  rw [tcpAcceptCallback, socket_number hi]
  simp only
  by_cases hfull : acceptCap ≤ (n.sockets i).acceptCount
  · rw [if_pos hfull]
    exact ⟨n, .mem, rfl, h, Keeps.refl n, fun _ => ⟨rfl, fun _ _ => rfl⟩⟩
  · rw [if_neg hfull]
    rcases allocateSocketSlot_cases n with hnone | ⟨c, hc, hslot⟩
    · rw [hnone]
      exact ⟨n, .mem, rfl, h, Keeps.refl n, fun _ => ⟨rfl, fun _ _ => rfl⟩⟩
    · rw [hslot]
      have htaken := (taken_slot n c).modify
        (f := fun s => { s with type := socketTypeTcp, state := .connected, tcp := newpcb }) rfl
      rcases giveBuffer_cases h hc htaken ok with
        ⟨m, hgive, hpcbs, howned, huse, hsame⟩ | ⟨m, buf, hgive, hpcbs, hm, hself⟩
      · refine ⟨m, .mem, ?_, howned, ?_, fun _ => ⟨hpcbs, ?_⟩⟩
        · simp only [hgive, Option.bind_eq_bind, Option.bind_some]
          rfl
        · apply Keeps.of_sameBut hsame
          intro hc'
          rw [hc] at hc'
          cases hc'
        · intro j hj
          apply hsame
          rintro rfl
          rw [huse, hc] at hj
          cases hj
      · rw [modify_sockets, modify_sockets] at hself
        let pcbs := ((m.pcbs.tcpArg newpcb (number c)).tcpRecv newpcb true).tcpErr newpcb true
        have hpcbs' : pcbs
            = n.pcbs.modify newpcb (fun b => { b with arg := number c, recv := true, errf := true }) := by
          simp only [pcbs, Pcbs.tcpArg, Pcbs.tcpRecv, Pcbs.tcpErr, Pcbs.modify_modify]
          rw [hpcbs]
        have htcp : (m.sockets c).tcp = newpcb := by rw [hself]
        have hblocks : Blocks (Function.update n.inUse c true) (m.setPcbs pcbs).sockets
            (m.setPcbs pcbs).pcbs := by
          rw [setPcbs_pcbs, setPcbs_sockets, hpcbs']
          apply Blocks.insert h.blocks hc hm.same
          · intro q hq
            rw [htcp] at hq
            apply Pcbs.modify_of_ne _ hq
          · intro q hq
            rw [htcp] at hq
            exact (hnew q hq).1
          · constructor
            · intro q hq
              rw [htcp] at hq
              obtain ⟨-, hsilent, hactive⟩ := hnew q hq
              rw [hq, Pcbs.modify_some, hself]
              constructor
              · rw [hactive]
                simp
              · intro _
                rfl
              · simp [hactive]
              · simp [hactive]
              · intro haccept
                rw [hsilent.accept] at haccept
                cases haccept
              · rfl
            · intro _
              rw [hself]
              simp
        have hinserted : (m.setPcbs pcbs).Owned (m.setPcbs pcbs).inUse others (number c :: refs) := by
          apply (hm.setPcbs pcbs).occupy h hc _ hblocks
          rw [setPcbs_sockets, hself]
          simp
        have hne : i ≠ c := by
          rintro rfl
          rw [hc] at hi
          cases hi
        have hparent : m.sockets i = n.sockets i := hm.same i hne
        refine ⟨(m.setPcbs pcbs).modify i (fun s => enqueue s (number c)), .ok, ?_, ?_, ?_,
          fun hbad => absurd rfl hbad⟩
        · simp only [hgive, Option.bind_eq_bind, Option.bind_some]
          rfl
        · have huse : ((m.setPcbs pcbs).modify i (fun s => enqueue s (number c))).inUse
              = (m.setPcbs pcbs).inUse := by
            apply inUse_of_sameBut_of_eq (sameBut_modify _ i _)
            rw [modify_sockets]
            rfl
          rw [huse]
          apply hinserted.enqueue
          · rw [inUse, setPcbs_sockets, hparent]
            exact hi
          · rw [setPcbs_sockets, hparent]
            exact hlisten
          · rw [setPcbs_sockets, hparent]
            exact Nat.lt_of_not_le hfull
          · rw [setPcbs_sockets, hself]
            simp
        · have hkept : Keeps n m := by
            apply Keeps.of_sameBut hm.same
            intro hc'
            rw [hc] at hc'
            cases hc'
          apply hkept.trans
          apply Keeps.of_sameBut (sameBut_modify (m.setPcbs pcbs) i (fun s => enqueue s (number c)))
          intro huse
          rw [modify_sockets]
          exact ⟨huse, id⟩

/-- A connection to a listener. -/
theorem accepted_owned (h : n.Owned n.inUse others refs) (ok : Bool) (listener : Nat)
    (newpcb : Option Nat) :
  ∃ n', n.event (.accept ok listener newpcb) = some n' ∧ n'.Owned n'.inUse others refs ∧ Keeps n n'
  := by
  rw [event]
  simp only
  by_cases hset : (n.pcbs listener).state = .listen ∧ (n.pcbs listener).accept
  · rw [if_pos hset]
    have hcallback : ¬ (n.pcbs listener).Silent := by
      intro hsilent
      rw [hsilent.accept] at hset
      cases hset.2
    obtain ⟨i, hi, htcp, harg, hserves⟩ := h.blocks.exists_holder hcallback
    have hlisten := hserves.listening.mpr hset.1
    rw [harg]
    cases htake : n.pcbs.take newpcb with
    | none =>
        obtain ⟨n', err, hcall, howned, hkeeps, -⟩ :=
          @tcpAcceptCallback_owned n others refs i h hi hlisten ok none (fun p hp => by cases hp)
        use n'
        constructor
        · rw [show n.setPcbs (n.pcbs.modify none (fun _ => Pcb.fresh .active (number i))) = n from rfl,
            hcall]
          simp only [Option.bind_eq_bind, Option.bind_some]
          split
          · rfl
          · rfl
        · exact ⟨howned, hkeeps⟩
    | some p =>
        let m := n.setPcbs (Function.update n.pcbs p (Pcb.fresh .active (number i)))
        have hnot := h.blocks.not_held (take_unused htake)
        have hactive : m.Owned m.inUse others refs :=
          h.setBlock hnot (Pcb.fresh_silent .active (number i))
        have hfresh : ∀ q, some p = some q → (∀ j, m.inUse j → (m.sockets j).tcp ≠ some q)
            ∧ (m.pcbs q).Silent ∧ (m.pcbs q).state = .active := by
          rintro q ⟨⟩
          refine ⟨hnot, ?_, ?_⟩
          · rw [setPcbs_pcbs, Function.update_self]
            apply Pcb.fresh_silent
          · rw [setPcbs_pcbs, Function.update_self]
            rfl
        obtain ⟨n', err, hcall, howned, hkeeps, hfailed⟩ :=
          tcpAcceptCallback_owned hactive hi hlisten ok hfresh
        have hkeeps' : Keeps n n' := hkeeps
        have hm : n.setPcbs (n.pcbs.modify (some p) (fun _ => Pcb.fresh .active (number i))) = m := rfl
        rw [hm, hcall]
        simp only [Option.bind_eq_bind, Option.bind_some]
        by_cases herr : err = .ok
        · rw [if_pos herr]
          exact ⟨n', rfl, howned, hkeeps'⟩
        · rw [if_neg herr]
          refine ⟨n'.setPcbs (n'.pcbs.release (some p)), rfl, ?_, hkeeps'⟩
          obtain ⟨-, hsockets⟩ := hfailed herr
          apply howned.setBlock _ (Pcb.fresh_silent .unused 0)
          intro j hj
          have hsame : n'.sockets j = n.sockets j := hsockets j hj
          rw [hsame]
          apply hnot
          rwa [inUse, hsame] at hj
  · rw [if_neg hset]
    exact ⟨n, rfl, h, Keeps.refl n⟩

/-! ### Polling -/

/-- An event keeps the ownership. -/
theorem event_owned (h : n.Owned n.inUse others refs) (e : LwipEvent) :
  ∃ n', n.event e = some n' ∧ n'.Owned n'.inUse others refs ∧ Keeps n n'
  := by
  cases e with
  | accept ok listener newpcb => exact accepted_owned h ok listener newpcb
  | recv pcb p =>
      by_cases hset : (n.pcbs pcb).recv
      · use (n.tcpRecvCallback (n.pcbs pcb).arg p).1
        apply And.intro _ (received_owned h hset p)
        rw [event, if_pos hset]
      · use n
        apply And.intro _ ⟨h, Keeps.refl n⟩
        rw [event, if_neg hset]
  | err pcb =>
      by_cases hset : (n.pcbs pcb).errf
      · use (n.setPcbs (n.pcbs.release (some pcb))).tcpErrCallback (n.pcbs pcb).arg
        apply And.intro _ (failed_owned h hset)
        simp only [event, if_pos hset]
      · use n
        apply And.intro _ ⟨h, Keeps.refl n⟩
        simp only [event, if_neg hset]
  | connected pcb =>
      by_cases hset : (n.pcbs pcb).connected
      · use (n.tcpConnectCallback (n.pcbs pcb).arg (some pcb) true).1
        apply And.intro _ (connected_owned h hset)
        simp only [event, if_pos hset]
      · use n
        apply And.intro _ ⟨h, Keeps.refl n⟩
        simp only [event, if_neg hset]

/-- So does `net_poll`. -/
theorem netPoll_owned (h : n.Owned n.inUse others refs) (events : List LwipEvent) :
  ∃ n', netPoll events n = some n' ∧ n'.Owned n'.inUse others refs ∧ Keeps n n'
  := by
  induction events generalizing n with
  | nil => exact ⟨n, rfl, h, Keeps.refl n⟩
  | cons e events ih =>
      obtain ⟨m, hm, howned, hkeeps⟩ := event_owned h e
      obtain ⟨n', hn', howned', hkeeps'⟩ := ih howned
      refine ⟨n', ?_, howned', hkeeps.trans hkeeps'⟩
      rw [netPoll, Run.exec, hm]
      exact hn'

end Net
