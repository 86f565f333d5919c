import Woos.Net.Callbacks

/-!
# Calls of sockets

What the calls of `net_socket.c` on a socket in use do to the ownership of sockets and receive
buffers.
-/

namespace Net

open Slots

variable {n n' : Net} {live : Fin maxSockets → Bool} {others : List UInt64} {refs : List Int}
  {i : Fin maxSockets}

/-! ### Listening and connecting -/

/-- What `tcp_listen` answers with a block. -/
theorem tcpListen_cases (pcbs : Pcbs) (pcb answer : Option Nat) :
  (pcbs.tcpListen pcb answer).2 = none
    ∨ ∃ p q arg, pcb = some p ∧ (pcbs p).state = .closed ∧ (pcbs q).state = .unused
      ∧ pcbs.tcpListen pcb answer
        = ((pcbs.release (some p)).modify (some q) (fun _ => Pcb.fresh .listen arg), some q)
  := by
  rw [Pcbs.tcpListen]
  by_cases hclosed : pcbs.state pcb = .closed
  · rw [if_pos hclosed]
    cases pcb with
    | none => cases hclosed
    | some p =>
        cases htake : pcbs.take answer with
        | none =>
            left
            rfl
        | some q =>
            right
            exact ⟨p, q, (pcbs p).arg, rfl, hclosed, take_unused htake, rfl⟩
  · left
    rw [if_neg hclosed]

/-- The socket of a listener with its new block. -/
def listenOn (s : NetSocket) (q : Nat) : NetSocket :=
  { s with tcp := some q, state := .listening, acceptHead := 0, acceptTail := 0, acceptCount := 0 }

/-- A socket that is referred to from outside, and whose block `p` is closed, becomes a listener with
the block `q`. -/
theorem Owned.listenOn {p q : Nat} (arg : Int) (h : n.Owned n.inUse others refs) (hi : n.inUse i)
    (href : number i ∈ refs) (htype : (n.sockets i).type = socketTypeTcp)
    (hstate : (n.sockets i).state ≠ .listening) (hp : (n.sockets i).tcp = some p)
    (hclosed : (n.pcbs p).state = .closed) (hq : (n.pcbs q).state = .unused) :
  ((n.modify i (fun s => Net.listenOn s q)).setPcbs
    ((((n.pcbs.release (some p)).modify (some q) (fun _ => Pcb.fresh .listen arg)).tcpArg (some q)
      (number i)).tcpAccept (some q))).Owned n.inUse others refs
  := by
  have hpq : q ≠ p := by
    rintro rfl
    rw [hclosed] at hq
    cases hq
  have hblocks : (((n.pcbs.release (some p)).modify (some q) (fun _ => Pcb.fresh .listen arg)).tcpArg
      (some q) (number i)).tcpAccept (some q)
      = (n.pcbs.release (some p)).modify (some q)
          (fun _ => ⟨.listen, number i, false, false, false, true⟩) := by
    rw [Pcbs.tcpArg, Pcbs.tcpAccept, Pcbs.modify_modify, Pcbs.modify_modify]
    rfl
  rw [hblocks]
  have hself : (n.modify i (fun s => Net.listenOn s q)).sockets i = Net.listenOn (n.sockets i) q :=
    modify_sockets n i (fun s => Net.listenOn s q)
  have hrx := h.rx i hi
  have hsame := (sameBut_modify n i (fun s => Net.listenOn s q)).setPcbs
    ((n.pcbs.release (some p)).modify (some q) (fun _ => ⟨.listen, number i, false, false, false, true⟩))
  apply h.change hi hsame _ _ _ _ _ h.backed rfl rfl
  · apply h.blocks.update (fun _ _ => rfl) hsame
    · intro r hr hr'
      rw [Blocks.Holds, setPcbs_sockets, hself] at hr'
      rw [setPcbs_pcbs, Pcbs.modify_of_ne, Pcbs.release, Pcbs.modify_of_ne]
      · rintro ⟨⟩
        exact hr ⟨hi, hp⟩
      · rintro ⟨⟩
        exact hr' ⟨hi, rfl⟩
    · intro r hr _
      rw [Blocks.Holds, hp] at hr
      cases hr.2
      rw [setPcbs_pcbs, Pcbs.modify_of_ne _ (by simpa using hpq), Pcbs.release, Pcbs.modify_some]
      apply Pcb.fresh_silent
    · intro r hr j _ hj
      rw [Blocks.Holds, setPcbs_sockets, hself] at hr
      cases hr.2
      exact h.blocks.not_held hq j hj.1 hj.2
    · intro _
      rw [setPcbs_sockets, setPcbs_pcbs, hself]
      constructor
      · rintro r ⟨⟩
        rw [Pcbs.modify_some]
        constructor
        · simp
        · intro _
          rfl
        · simp [Net.listenOn]
        · simp
        · simp
        · exact htype
      · intro hnone
        cases hnone
  · rw [setPcbs_sockets, hself]
    rfl
  · rw [setPcbs_sockets, hself, waiting_of_not_listening hstate, waiting_of_listening rfl]
    rfl
  · intro _
    rw [setPcbs_sockets, hself]
    exact ⟨Nat.succ_pos 3, Nat.zero_le acceptCap, rfl⟩
  · intro hwaits
    exact absurd hwaits (h.not_waiting href)
  · rw [setPcbs_sockets, hself]
    exact ⟨hrx.head, hrx.count, hrx.tail⟩

/-- `net_socket_listen` for a socket that is referred to from outside. -/
theorem netSocketListen_owned (h : n.Owned n.inUse others refs) (answer : Option Nat) {sock : Int}
    (href : sock ∈ refs) :
  (n.netSocketListen answer sock).1.Owned (n.netSocketListen answer sock).1.inUse others refs
  := by
  rcases socket_cases n sock with hnone | ⟨i, hi, hnumber, hsock⟩
  · rw [netSocketListen, hnone]
    exact h
  · rw [netSocketListen, hsock]
    simp only
    by_cases hbad : (n.sockets i).type ≠ socketTypeTcp ∨ (n.sockets i).state ≠ .bound
    · rw [if_pos hbad]
      exact h
    · rw [if_neg hbad]
      rw [not_or, not_not, not_not] at hbad
      rcases tcpListen_cases n.pcbs (n.sockets i).tcp answer with
        hnone | ⟨p, q, arg, hp, hclosed, hq, hlisten⟩
      · rcases hlisten : n.pcbs.tcpListen (n.sockets i).tcp answer with ⟨pcbs, pcb⟩
        rw [hlisten] at hnone
        cases hnone
        exact h
      · rw [hlisten]
        subst hnumber
        have hstate : (n.sockets i).state ≠ .listening := by
          rw [hbad.2]
          simp
        have huse : ((n.modify i (fun s => listenOn s q)).setPcbs
            ((((n.pcbs.release (some p)).modify (some q) (fun _ => Pcb.fresh .listen arg)).tcpArg
              (some q) (number i)).tcpAccept (some q))).inUse = n.inUse := by
          apply inUse_of_sameBut_of_eq ((sameBut_modify n i (fun s => listenOn s q)).setPcbs _)
          rw [setPcbs_sockets, modify_sockets]
          rfl
        have howned := h.listenOn arg hi href hbad.1 hstate hp hclosed hq
        rw [← huse] at howned
        exact howned

/-- A socket that does not listen starts to connect: its block gets the argument and callbacks, and
may be active. -/
theorem Owned.connecting {g : Pcb → Pcb} (h : n.Owned n.inUse others refs) (hi : n.inUse i)
    (hold : (n.sockets i).state ≠ .listening) (harg : ∀ b, (g b).arg = number i)
    (haccept : ∀ b, (g b).accept = b.accept)
    (hstate : ∀ b, (g b).state = b.state ∨ (g b).state = .active) :
  ((n.modify i (fun s => { s with state := .connecting })).setPcbs
    (n.pcbs.modify (n.sockets i).tcp g)).Owned
    ((n.modify i (fun s => { s with state := .connecting })).setPcbs
      (n.pcbs.modify (n.sockets i).tcp g)).inUse others refs
  := by
  rw [modify_setPcbs]
  apply h.restate hi hold (by simp)
  · intro p hp
    apply Pcbs.modify_of_ne _ hp
  · intro p hp
    have hserves := (h.blocks.wired i hi).serves p hp
    have hlisten := h.not_listen hi hold hp
    have hused : (g (n.pcbs p)).state ≠ .unused := by
      rcases hstate (n.pcbs p) with heq | heq
      · rw [heq]
        exact hserves.used
      · rw [heq]
        simp
    have hlisten' : (g (n.pcbs p)).state ≠ .listen := by
      rcases hstate (n.pcbs p) with heq | heq
      · rw [heq]
        exact hlisten
      · rw [heq]
        simp
    rw [hp, Pcbs.modify_some]
    exact hserves.change hlisten hused hlisten' (harg _) (haccept _) (by simp) rfl

/-- `net_socket_connect` -/
theorem netSocketConnect_owned (h : n.Owned n.inUse others refs) (events : List LwipEvent)
    (answer remoteIp aton : Bool) (sock : Int) :
  ∃ n' r, n.netSocketConnect (netPoll events) answer remoteIp aton sock = some (n', r)
    ∧ n'.Owned n'.inUse others refs
  := by
  rcases socket_cases n sock with hnone | ⟨i, hi, rfl, hsock⟩
  · rw [netSocketConnect, hnone]
    exact ⟨n, -1, rfl, h⟩
  · rw [netSocketConnect, hsock]
    simp only
    split
    · exact ⟨n, -1, rfl, h⟩
    · split
      · exact ⟨n, -1, rfl, h⟩
      · rename_i hgood
        rw [not_or, not_not, not_not] at hgood
        have hold : (n.sockets i).state ≠ .listening := by
          rw [hgood.2]
          simp
        split
        · exact ⟨n, -1, rfl, h⟩
        · rw [modify_sockets, modify_pcbs, Pcbs.tcpArg, Pcbs.tcpErr, Pcbs.modify_modify, Pcbs.tcpConnect]
          split
          · simp only [if_true]
            rw [Pcbs.modify_modify]
            have howned := h.connecting
              (g := fun b => { b with arg := number i, errf := true, state := .active, connected := true })
              hi hold (fun _ => rfl) (fun _ => rfl) (fun _ => Or.inr rfl)
            obtain ⟨n', hpoll, howned', -⟩ := netPoll_owned howned events
            use n', 0
            rw [hpoll]
            exact ⟨rfl, howned'⟩
          · simp only [Bool.false_eq_true, if_false]
            have howned := h.connecting (g := fun b => { b with arg := number i, errf := true })
              hi hold (fun _ => rfl) (fun _ => rfl) (fun _ => Or.inl rfl)
            refine ⟨_, -1, rfl, ?_⟩
            apply howned.setState
            · rw [inUse, setPcbs_sockets, modify_sockets]
              exact hi
            · rw [setPcbs_sockets, modify_sockets]
              simp
            · simp

/-! ### Accepting, sending and receiving -/

/-- `net_socket_accept` returns a client that is referred to by the caller, or takes nothing. -/
theorem netSocketAccept_owned (h : n.Owned n.inUse others refs) (events : List LwipEvent) (sock : Int) :
  ∃ n' r, n.netSocketAccept (netPoll events) sock = some (n', r)
    ∧ ((r = -1 ∧ n'.Owned n'.inUse others refs)
      ∨ ∃ i, r = number i ∧ n'.Owned n'.inUse others (number i :: refs))
  := by
  rcases socket_cases n sock with hnone | ⟨i, hi, -, hsock⟩
  · rw [netSocketAccept, hnone]
    exact ⟨n, -1, rfl, Or.inl ⟨rfl, h⟩⟩
  · rw [netSocketAccept, hsock]
    simp only
    split
    · exact ⟨n, -1, rfl, Or.inl ⟨rfl, h⟩⟩
    · rename_i hgood
      rw [not_or, not_not, not_not] at hgood
      obtain ⟨m, hpoll, howned, hkeeps⟩ := netPoll_owned h events
      obtain ⟨huse, hlisten⟩ := hkeeps i hi
      rw [hpoll]
      simp only [Option.bind_eq_bind, Option.bind_some]
      split
      · rename_i hpos
        have hclient := howned.dequeue huse (hlisten hgood.2) hpos
        obtain ⟨c, -, hc⟩ := hclient.exists_of_ref (Or.inl List.mem_cons_self)
        have hsame : (m.modify i Net.dequeue).inUse = m.inUse := by
          apply inUse_of_sameBut_of_eq (sameBut_modify m i Net.dequeue)
          rw [modify_sockets]
          rfl
        refine ⟨_, _, rfl, Or.inr ⟨c, hc, ?_⟩⟩
        rw [hsame, ← hc]
        exact hclient
      · exact ⟨m, -1, rfl, Or.inl ⟨rfl, howned⟩⟩

/-- `net_socket_send` -/
theorem netSocketSend_owned (h : n.Owned n.inUse others refs) (events : List LwipEvent) (answer : Bool)
    (sndbuf : UInt16) (sock : Int) (data : Bool) (len : UInt32) :
  ∃ n' r, n.netSocketSend (netPoll events) answer sndbuf sock data len = some (n', r)
    ∧ n'.Owned n'.inUse others refs
  := by
  rcases socket_cases n sock with hnone | ⟨i, hi, -, hsock⟩
  · rw [netSocketSend, hnone]
    exact ⟨n, -1, rfl, h⟩
  · obtain ⟨m, hpoll, howned, -⟩ := netPoll_owned h events
    rw [netSocketSend, hsock]
    simp only [hpoll, Option.bind_eq_bind, Option.bind_some]
    split
    · exact ⟨n, -1, rfl, h⟩
    · split
      · exact ⟨n, -1, rfl, h⟩
      · split
        · exact ⟨m, -1, rfl, howned⟩
        · split
          · exact ⟨m, _, rfl, howned⟩
          · exact ⟨n, -1, rfl, h⟩

/-- `net_socket_recv` -/
theorem netSocketRecv_owned (h : n.Owned n.inUse others refs) (events : List LwipEvent) (sock : Int)
    (buf : Bool) (len : UInt32) :
  ∃ n' bytes r, n.netSocketRecv (netPoll events) sock buf len = some (n', bytes, r)
    ∧ n'.Owned n'.inUse others refs
  := by
  rcases socket_cases n sock with hnone | ⟨i, hi, -, hsock⟩
  · rw [netSocketRecv, hnone]
    exact ⟨n, [], -1, rfl, h⟩
  · obtain ⟨m, hpoll, howned, hkeeps⟩ := netPoll_owned h events
    rw [netSocketRecv, hsock]
    simp only [hpoll, Option.bind_eq_bind, Option.bind_some]
    split
    · exact ⟨n, [], -1, rfl, h⟩
    · split
      · exact ⟨m, [], _, rfl, howned⟩
      · have huse := (hkeeps i hi).1
        obtain ⟨bytes, s, hloop, hrx, hreceives, -⟩ := receiveLoop_stored m.heap.mem (howned.rx i huse)
          (Nat.min_le_right len.toNat (m.sockets i).rxCount)
        rw [hloop]
        refine ⟨_, bytes, _, rfl, ?_⟩
        exact howned.modify_quiet huse (quiet_of_receives hreceives) hreceives.inUse hrx

end Net
