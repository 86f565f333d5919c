import Woos.Net.Handles
import Woos.Net.Ownership

/-!
# The making of a socket

What `net_socket_create` does to the ownership of sockets and receive buffers: the steps by which it
takes a slot and gives it a buffer, which `tcp_accept_callback` takes too.
-/

namespace Net

open Slots

variable {n n' : Net} {live : Fin maxSockets → Bool} {others : List UInt64} {refs : List Int}
  {i : Fin maxSockets}

/-! ### Receive buffers -/

/-- A buffer is granted, or the state stays as it is. -/
theorem rxAlloc_backed {bufs : List UInt64}
    (hb : (⟨n.heap, others⟩ : KHeap.Session).Backed (entries bufs)) (ok : Bool) :
  n.rxAlloc ok = some (n, 0)
    ∨ ∃ h buf, n.rxAlloc ok = some ({ n with heap := h, acquired := buf :: n.acquired }, buf) ∧ buf ≠ 0
      ∧ (⟨h, others⟩ : KHeap.Session).Backed ((buf.toNat, socketBufSize) :: entries bufs)
  := by
  cases ok with
  | false =>
      left
      rfl
  | true =>
      rcases hb.alloc (UInt64.ofNat socketBufSize) with ⟨halloc, -⟩ | ⟨h, buf, halloc, -, -, hbuf⟩
      · left
        simp [rxAlloc, halloc]
      · right
        have hne := hbuf.ne_zero
        use h, buf
        refine ⟨?_, hne, hbuf⟩
        simp [rxAlloc, halloc, hne]

/-- A buffer that is owned is freed. -/
theorem rxFree_backed {bufs : List UInt64} {buf : UInt64}
    (hb : (⟨n.heap, others⟩ : KHeap.Session).Backed ((buf.toNat, socketBufSize) :: entries bufs)) :
  ∃ h, n.rxFree buf = some { n with heap := h, released := buf :: n.released }
    ∧ (⟨h, others⟩ : KHeap.Session).Backed (entries bufs)
  := by
  obtain ⟨h, hfree, hb'⟩ := hb.free
  use h
  rw [rxFree, hfree]
  exact ⟨rfl, hb'⟩

/-! ### Creation -/

/-- The slot that is found is not in use. -/
theorem allocateSocketSlot_cases (n : Net) :
  n.allocateSocketSlot = none
    ∨ ∃ i, n.inUse i = false
      ∧ n.allocateSocketSlot = some (n.modify i (fun _ => { NetSocket.zero with inUse := true }), i)
  := by
  cases hfind : (List.finRange maxSockets).find? (fun i => !(n.sockets i).inUse) with
  | none =>
      left
      rw [allocateSocketSlot, hfind]
      rfl
  | some i =>
      right
      use i
      constructor
      · have hfree := List.find?_some hfind
        rw [Bool.not_eq_true'] at hfree
        exact hfree
      · rw [allocateSocketSlot, hfind]
        rfl

/-- The sockets in use when one of them changes. -/
theorem inUse_of_sameBut (hsame : SameBut n n' i) {b : Bool} (hself : (n'.sockets i).inUse = b) :
  n'.inUse = Function.update n.inUse i b
  := by
  funext j
  rcases eq_or_ne j i with rfl | hne
  · rw [Function.update_self]
    exact hself
  · rw [Function.update_of_ne hne, inUse, inUse, hsame j hne]

theorem inUse_of_sameBut_of_eq (hsame : SameBut n n' i)
    (hself : (n'.sockets i).inUse = (n.sockets i).inUse) :
  n'.inUse = n.inUse
  := by
  rw [inUse_of_sameBut hsame hself]
  exact Function.update_eq_self i n.inUse

/-- The sockets in use stay in use, and the listeners among them go on listening. -/
def Keeps (n n' : Net) : Prop :=
  ∀ j, n.inUse j → n'.inUse j ∧ ((n.sockets j).state = .listening → (n'.sockets j).state = .listening)

theorem Keeps.refl (n : Net) :
  Keeps n n
  := fun _ hj => ⟨hj, id⟩

theorem Keeps.trans {m : Net} (h : Keeps n m) (h' : Keeps m n') :
  Keeps n n'
  := by
  intro j hj
  obtain ⟨huse, hlisten⟩ := h j hj
  obtain ⟨huse', hlisten'⟩ := h' j huse
  exact ⟨huse', hlisten' ∘ hlisten⟩

/-- Only a socket changes that is not in use, or is in use and stays so. -/
theorem Keeps.of_sameBut (hsame : SameBut n n' i)
    (hself : n.inUse i → (n'.sockets i).inUse = true
      ∧ ((n.sockets i).state = .listening → (n'.sockets i).state = .listening)) :
  Keeps n n'
  := by
  intro j hj
  rcases eq_or_ne j i with rfl | hne
  · apply hself hj
  · rw [inUse, hsame j hne]
    exact ⟨hj, id⟩

/-- Only a socket changes that does not listen. -/
theorem Keeps.of_not_listening (hsame : SameBut n n' i)
    (huse : (n'.sockets i).inUse = (n.sockets i).inUse) (hold : (n.sockets i).state ≠ .listening) :
  Keeps n n'
  := by
  apply Keeps.of_sameBut hsame
  intro hi
  use huse.trans hi
  intro hlisten
  exact absurd hlisten hold

/-- A slot that is taken: socket `i` is marked as in use. -/
structure Taken (n m : Net) (i : Fin maxSockets) : Prop where
  same : SameBut n m i
  self : (m.sockets i).inUse = true
  heap : m.heap = n.heap
  acquired : m.acquired = n.acquired
  released : m.released = n.released
  pcbs : m.pcbs = n.pcbs

/-- A slot that is taken and has its receive buffer. -/
structure Equipped (n m : Net) (i : Fin maxSockets) (others : List UInt64) : Prop where
  same : SameBut n m i
  self : (m.sockets i).inUse = true
  backed : (⟨m.heap, others⟩ : KHeap.Session).Backed
    (((m.sockets i).rxBuf.toNat, socketBufSize) :: entries (n.buffers n.inUse))
  acquired : m.acquired = (m.sockets i).rxBuf :: n.acquired
  released : m.released = n.released
  rx : (m.sockets i).RxOk

theorem SameBut.modify {m : Net} (h : SameBut n m i) (f : NetSocket → NetSocket) :
  SameBut n (m.modify i f) i
  := by
  intro j hj
  rw [sameBut_modify m i f j hj, h j hj]

theorem SameBut.setPcbs {m : Net} (h : SameBut n m i) (pcbs : Pcbs) :
  SameBut n (m.setPcbs pcbs) i
  := h

theorem Taken.modify {m : Net} (h : Taken n m i) {f : NetSocket → NetSocket}
    (hf : (f (m.sockets i)).inUse = (m.sockets i).inUse) :
  Taken n (m.modify i f) i
  where
  same := h.same.modify f
  self := by
    rw [modify_sockets, hf]
    exact h.self
  heap := h.heap
  acquired := h.acquired
  released := h.released
  pcbs := h.pcbs

theorem Equipped.modify {m : Net} (h : Equipped n m i others) {f : NetSocket → NetSocket}
    (huse : (f (m.sockets i)).inUse = (m.sockets i).inUse)
    (hbuf : (f (m.sockets i)).rxBuf = (m.sockets i).rxBuf) (hrx : (f (m.sockets i)).RxOk) :
  Equipped n (m.modify i f) i others
  where
  same := h.same.modify f
  self := by
    rw [modify_sockets, huse]
    exact h.self
  backed := by
    rw [modify_sockets, hbuf]
    exact h.backed
  acquired := by
    rw [modify_sockets, hbuf]
    exact h.acquired
  released := h.released
  rx := by
    rw [modify_sockets]
    exact hrx

theorem Equipped.setPcbs {m : Net} (h : Equipped n m i others) (pcbs : Pcbs) :
  Equipped n (m.setPcbs pcbs) i others
  := ⟨h.same, h.self, h.backed, h.acquired, h.released, h.rx⟩

theorem taken_slot (n : Net) (i : Fin maxSockets) :
  Taken n (n.modify i (fun _ => { NetSocket.zero with inUse := true })) i
  where
  same := sameBut_modify n i _
  self := by rw [modify_sockets]
  heap := rfl
  acquired := rfl
  released := rfl
  pcbs := rfl

/-- The indices of an empty receive buffer. -/
theorem rxOk_zero {s : NetSocket} (hhead : s.rxHead = 0) (htail : s.rxTail = 0) (hcount : s.rxCount = 0) :
  s.RxOk
  where
  head := by
    rw [hhead]
    decide
  count := by
    rw [hcount]
    decide
  tail := by
    rw [hhead, htail, hcount]
    decide

/-- The slot gets a buffer, or is given back. -/
theorem giveBuffer_cases {m : Net} (h : n.Owned n.inUse others refs) (hi : n.inUse i = false)
    (hm : Taken n m i) (ok : Bool) :
  (∃ m', m.giveBuffer ok i = some (m', false) ∧ m'.pcbs = n.pcbs ∧ m'.Owned m'.inUse others refs
      ∧ m'.inUse = n.inUse ∧ SameBut n m' i)
    ∨ ∃ m' buf, m.giveBuffer ok i = some (m', true) ∧ m'.pcbs = n.pcbs ∧ Equipped n m' i others
        ∧ m'.sockets i
          = { m.sockets i with rxBuf := buf, rxHead := 0, rxTail := 0, rxCount := 0 }
  := by
  have hbacked : (⟨m.heap, others⟩ : KHeap.Session).Backed (entries (n.buffers n.inUse)) := by
    rw [hm.heap]
    exact h.backed
  rcases rxAlloc_backed hbacked ok with hfail | ⟨heap, buf, halloc, hbuf, hgrown⟩
  · left
    use m.modify i (fun s => { s with rxBuf := 0, inUse := false })
    have huse : (m.modify i (fun s => { s with rxBuf := 0, inUse := false })).inUse = n.inUse := by
      apply inUse_of_sameBut_of_eq (hm.same.modify _)
      rw [modify_sockets]
      exact hi.symm
    refine ⟨?_, hm.pcbs, ?_, huse, hm.same.modify _⟩
    · rw [giveBuffer, hfail]
      rfl
    · rw [huse]
      apply h.idle hi (hm.same.modify _) hbacked _ hm.pcbs
      have hacquired := hm.acquired
      have hreleased := hm.released
      simp only [Net.modify]
      rw [hacquired, hreleased]
      exact h.balance
  · right
    use { m with heap := heap, acquired := buf :: m.acquired }.modify i
      (fun s => { s with rxBuf := buf, rxHead := 0, rxTail := 0, rxCount := 0 }), buf
    refine ⟨?_, hm.pcbs, ⟨?_, ?_, ?_, ?_, hm.released, ?_⟩, ?_⟩
    · rw [giveBuffer, halloc]
      simp only [Option.bind_eq_bind, Option.bind_some, if_neg hbuf]
    · intro j hj
      rw [sameBut_modify _ i _ j hj]
      apply hm.same j hj
    · rw [modify_sockets]
      exact hm.self
    · rw [modify_sockets]
      exact hgrown
    · rw [modify_sockets]
      simp only [Net.modify]
      rw [hm.acquired]
    · rw [modify_sockets]
      exact rxOk_zero rfl rfl rfl
    · rw [modify_sockets]

/-- A slot that has its buffer stays in use. -/
theorem Equipped.occupy {m : Net} (hm : Equipped n m i others) (h : n.Owned n.inUse others refs)
    (hi : n.inUse i = false) (hstate : (m.sockets i).state ≠ .listening)
    (hblocks : Blocks (Function.update n.inUse i true) m.sockets m.pcbs) :
  m.Owned m.inUse others (number i :: refs)
  := by
  rw [inUse_of_sameBut hm.same hm.self]
  apply h.insert hi hm.same hstate hm.rx hm.backed hm.acquired hm.released hblocks

/-- A slot that has its buffer is given back. -/
theorem Equipped.giveBack {m : Net} (hm : Equipped n m i others) (h : n.Owned n.inUse others refs)
    (hi : n.inUse i = false) (hpcbs : m.pcbs = n.pcbs) :
  ∃ m', m.rxFree (m.sockets i).rxBuf = some m'
    ∧ (m'.modify i (fun s => { s with inUse := false })).Owned
      (m'.modify i (fun s => { s with inUse := false })).inUse others refs
  := by
  obtain ⟨heap, hfree, hbacked⟩ := rxFree_backed hm.backed
  refine ⟨_, hfree, ?_⟩
  have hsame : SameBut n ({ m with heap := heap, released := (m.sockets i).rxBuf :: m.released }.modify
      i (fun s => { s with inUse := false })) i := by
    intro j hj
    rw [sameBut_modify _ i _ j hj]
    apply hm.same j hj
  have huse : ({ m with heap := heap, released := (m.sockets i).rxBuf :: m.released }.modify
      i (fun s => { s with inUse := false })).inUse = n.inUse := by
    apply inUse_of_sameBut_of_eq hsame
    rw [modify_sockets]
    exact hi.symm
  rw [huse]
  apply h.idle hi hsame hbacked _ hpcbs
  simp only [Net.modify]
  rw [hm.acquired, hm.released]
  exact h.balance.cons _

/-- What lwIP has given out is not used yet. -/
theorem take_unused {pcbs : Pcbs} {answer : Option Nat} {p : Nat} (h : pcbs.take answer = some p) :
  (pcbs p).state = .unused
  := by
  rw [Pcbs.take, Option.filter_eq_some_iff] at h
  exact of_decide_eq_true h.2

/-- A socket that is not live is taken with a block that no socket holds, or without one. -/
theorem Blocks.insert {sockets sockets' : Fin maxSockets → NetSocket} {pcbs pcbs' : Pcbs}
    (hb : Blocks live sockets pcbs) (hi : live i = false)
    (hsockets : ∀ j, j ≠ i → sockets' j = sockets j)
    (hsame : ∀ p, (sockets' i).tcp ≠ some p → pcbs' p = pcbs p)
    (hnew : ∀ p, (sockets' i).tcp = some p → ∀ j, live j → (sockets j).tcp ≠ some p)
    (hwired : Wired pcbs' i (sockets' i)) :
  Blocks (Function.update live i true) sockets' pcbs'
  := by
  have hnot : ∀ p, ¬ Blocks.Holds live sockets i p := by
    intro p hp
    rw [Blocks.Holds, hi] at hp
    cases hp.1
  apply Blocks.update hb (fun j hj => Function.update_of_ne hj _ _) hsockets
  · intro p _ hp
    apply hsame
    intro heq
    exact hp ⟨Function.update_self i true live, heq⟩
  · intro p hp
    exact absurd hp (hnot p)
  · intro p hp j _ hj
    exact hnew p hp.2 j hj.1 hj.2
  · intro _
    exact hwired

/-- A closed block as lwIP hands it out serves a socket that does not listen. -/
theorem serves_fresh {state : PcbState} {arg : Int} {s : NetSocket} (hused : state ≠ .unused)
    (hlisten : state ≠ .listen) (hstate : s.state ≠ .listening) (htype : s.type = socketTypeTcp) :
  (Pcb.fresh state arg).Serves i s
  where
  used := hused
  arg hnot := absurd (Pcb.fresh_silent state arg) hnot
  listening := ⟨fun h => absurd h hstate, fun h => absurd h hlisten⟩
  onlyAccept h := absurd h hlisten
  accept h := by cases h
  type := htype

/-- The end of `net_socket_create`. -/
theorem createdWith_owned {m : Net} (h : n.Owned n.inUse others refs) (hi : n.inUse i = false)
    (hm : Equipped n m i others) (pcb : Option Nat) (hstate : (m.sockets i).state ≠ .listening)
    (hnone : pcb = none → m.pcbs = n.pcbs)
    (hsome : pcb ≠ none → Blocks (Function.update n.inUse i true) m.sockets m.pcbs) :
  ∃ n' r, m.createdWith i pcb = some (n', r)
    ∧ ((r = -1 ∧ n'.Owned n'.inUse others refs)
      ∨ ∃ i, r = number i ∧ n'.Owned n'.inUse others (number i :: refs))
  := by
  cases pcb with
  | none =>
      obtain ⟨m', hfree, howned⟩ := hm.giveBack h hi (hnone rfl)
      refine ⟨_, -1, ?_, Or.inl ⟨rfl, howned⟩⟩
      rw [createdWith, hfree]
      rfl
  | some p => exact ⟨m, number i, rfl, Or.inr ⟨i, rfl, hm.occupy h hi hstate (hsome (by simp))⟩⟩

/-- `net_socket_create` returns a socket that is referred to by the caller, or takes nothing. -/
theorem netSocketCreate_owned (h : n.Owned n.inUse others refs) (ok : Bool) (answer : Option Nat)
    (type : UInt8) :
  ∃ n' r, n.netSocketCreate ok answer type = some (n', r)
    ∧ ((r = -1 ∧ n'.Owned n'.inUse others refs)
      ∨ ∃ i, r = number i ∧ n'.Owned n'.inUse others (number i :: refs))
  := by
  rcases allocateSocketSlot_cases n with hnone | ⟨i, hi, hslot⟩
  · use n, -1
    rw [netSocketCreate, hnone]
    exact ⟨rfl, Or.inl ⟨rfl, h⟩⟩
  · rw [netSocketCreate, hslot]
    have htaken := (taken_slot n i).modify (f := fun s => { s with type := type, state := .closed }) rfl
    rcases giveBuffer_cases h hi htaken ok with
      ⟨m, hgive, -, howned, -, -⟩ | ⟨m, buf, hgive, hpcbs, hm, hself⟩
    · refine ⟨m, -1, ?_, Or.inl ⟨rfl, howned⟩⟩
      simp only [hgive, Option.bind_eq_bind, Option.bind_some]
      rfl
    · rw [modify_sockets, modify_sockets] at hself
      simp only [hgive, Option.bind_eq_bind, Option.bind_some, Bool.not_true, Bool.false_eq_true,
        if_false]
      by_cases htype : type = socketTypeTcp
      · rw [if_pos htype]
        apply createdWith_owned h hi ((hm.setPcbs _).modify rfl rfl ⟨hm.rx.head, hm.rx.count, hm.rx.tail⟩)
        · rw [modify_sockets, Net.setPcbs, hself]
          simp
        · intro hnone
          have hnone : m.pcbs.take answer = none := hnone
          simp only [Net.modify, Net.setPcbs, Pcbs.tcpNew, hnone, Pcbs.modify]
          exact hpcbs
        · intro hsome
          obtain ⟨p, hp⟩ := Option.ne_none_iff_exists'.mp hsome
          have htcp : (((m.setPcbs (m.pcbs.tcpNew answer).1).modify i
              (fun s => { s with tcp := (m.pcbs.tcpNew answer).2 })).sockets i).tcp = some p := by
            rw [modify_sockets]
            exact hp
          have hnew : (m.pcbs.tcpNew answer).1 = Function.update n.pcbs p (Pcb.fresh .closed 0) := by
            have htake : m.pcbs.take answer = some p := hp
            rw [Pcbs.tcpNew, htake, ← hpcbs]
            rfl
          have hunused : (n.pcbs p).state = .unused := by
            rw [← hpcbs]
            apply take_unused hp
          apply Blocks.insert h.blocks hi ((hm.setPcbs _).modify rfl rfl ⟨hm.rx.head, hm.rx.count, hm.rx.tail⟩).same
          · intro q hq
            rw [htcp] at hq
            simp only [Net.modify, Net.setPcbs]
            rw [hnew]
            apply Function.update_of_ne
            rintro rfl
            exact hq rfl
          · intro q hq
            rw [htcp] at hq
            cases hq
            apply h.blocks.not_held hunused
          · constructor
            · intro q hq
              rw [htcp] at hq
              cases hq
              simp only [Net.modify, Net.setPcbs]
              rw [hnew, Function.update_self, Function.update_self, hself]
              apply serves_fresh
              · simp
              · simp
              · simp
              · exact htype
            · intro hnone
              rw [htcp] at hnone
              cases hnone
      · rw [if_neg htype]
        apply createdWith_owned h hi (hm.modify rfl rfl ⟨hm.rx.head, hm.rx.count, hm.rx.tail⟩)
        · rw [modify_sockets, hself]
          simp
        · intro _
          exact hpcbs
        · intro _
          have htcp : ((m.modify i (fun s => { s with udp := answer })).sockets i).tcp = none := by
            rw [modify_sockets, hself]
            rfl
          apply Blocks.insert h.blocks hi (hm.same.modify _)
          · intro q _
            simp only [Net.modify]
            rw [hpcbs]
          · intro q hq
            rw [htcp] at hq
            cases hq
          · constructor
            · intro q hq
              rw [htcp] at hq
              cases hq
            · intro _
              rw [modify_sockets, hself]
              simp

end Net
