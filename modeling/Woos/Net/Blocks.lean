import Woos.Lib.Slots
import Woos.Net.Socket

/-!
# Sockets and their control blocks

`Blocks live sockets pcbs` relates the sockets to what they have registered with lwIP: the block of a
live socket is its own, is listening exactly when the socket is, and passes the number of the socket
to its callbacks; and a block that no live socket holds has no callback.  So lwIP calls the
callbacks of `net_socket.c` for live sockets only, and that of a listener for listening ones only.

`Blocks.update` is the rule for a step that changes one socket and the blocks it holds.
-/

/-- No callback is set. -/
structure Pcb.Silent (b : Pcb) : Prop where
  recv : b.recv = false
  errf : b.errf = false
  connected : b.connected = false
  accept : b.accept = false

theorem Pcb.fresh_silent (state : PcbState) (arg : Int) :
  (Pcb.fresh state arg).Silent
  := ⟨rfl, rfl, rfl, rfl⟩

/-- The block is that of socket `i`, with the record `s`. -/
structure Pcb.Serves (b : Pcb) (i : Fin maxSockets) (s : NetSocket) : Prop where
  used : b.state ≠ .unused
  arg : ¬ b.Silent → b.arg = Net.number i
  listening : s.state = .listening ↔ b.state = .listen
  onlyAccept : b.state = .listen → b.recv = false ∧ b.errf = false ∧ b.connected = false
  accept : b.accept → b.state = .listen
  type : s.type = socketTypeTcp

/-- A block that does not listen goes on serving its socket. -/
theorem Pcb.Serves.change {b b' : Pcb} {i : Fin maxSockets} {s s' : NetSocket} (h : b.Serves i s)
    (hb : b.state ≠ .listen) (hused : b'.state ≠ .unused) (hlisten : b'.state ≠ .listen)
    (harg : b'.arg = Net.number i) (haccept : b'.accept = b.accept) (hstate : s'.state ≠ .listening)
    (htype : s'.type = s.type) :
  b'.Serves i s'
  where
  used := hused
  arg _ := harg
  listening := ⟨fun h => absurd h hstate, fun h => absurd h hlisten⟩
  onlyAccept h := absurd h hlisten
  accept := by
    rw [haccept]
    intro hset
    exact absurd (h.accept hset) hb
  type := htype.trans h.type

/-- A socket has its own block, if any, and does not listen without one. -/
structure Wired (pcbs : Pcbs) (i : Fin maxSockets) (s : NetSocket) : Prop where
  serves : ∀ p, s.tcp = some p → (pcbs p).Serves i s
  without : s.tcp = none → s.state ≠ .listening

/-- The live sockets have blocks of their own, and the other blocks have no callbacks. -/
structure Blocks (live : Fin maxSockets → Bool) (sockets : Fin maxSockets → NetSocket)
    (pcbs : Pcbs) : Prop where
  wired : ∀ i, live i → Wired pcbs i (sockets i)
  apart : ∀ i j p, live i → live j → (sockets i).tcp = some p → (sockets j).tcp = some p → i = j
  silent : ∀ p, (∀ i, live i → (sockets i).tcp ≠ some p) → (pcbs p).Silent

namespace Blocks

variable {live live' : Fin maxSockets → Bool} {sockets sockets' : Fin maxSockets → NetSocket}
  {pcbs pcbs' : Pcbs}

/-- The live socket `i` holds the block `p`. -/
def Holds (live : Fin maxSockets → Bool) (sockets : Fin maxSockets → NetSocket) (i : Fin maxSockets)
    (p : Nat) : Prop :=
  live i ∧ (sockets i).tcp = some p

theorem init :
  Blocks (fun _ => false) sockets Pcbs.init
  where
  wired := by simp
  apart := by simp
  silent := by
    intro p _
    apply Pcb.fresh_silent

/-- A block that lwIP may hand out is held by no socket. -/
theorem not_held (hb : Blocks live sockets pcbs) {p : Nat} (hp : (pcbs p).state = .unused)
    (i : Fin maxSockets) (hi : live i) :
  (sockets i).tcp ≠ some p
  := by
  intro heq
  exact ((hb.wired i hi).serves p heq).used hp

/-- A block with a callback is that of a live socket. -/
theorem exists_holder (hb : Blocks live sockets pcbs) {p : Nat} (hp : ¬ (pcbs p).Silent) :
  ∃ i, live i ∧ (sockets i).tcp = some p ∧ (pcbs p).arg = Net.number i ∧ (pcbs p).Serves i (sockets i)
  := by
  by_contra hnone
  apply hp
  apply hb.silent
  intro i hi htcp
  apply hnone
  have hserves := (hb.wired i hi).serves p htcp
  exact ⟨i, hi, htcp, hserves.arg hp, hserves⟩

/-- One socket changes, with the blocks that it held or holds: those that it gives up have no
callback, and those that it takes are not those of others. -/
theorem update (hb : Blocks live sockets pcbs) {i : Fin maxSockets}
    (hlive : ∀ j, j ≠ i → live' j = live j) (hsockets : ∀ j, j ≠ i → sockets' j = sockets j)
    (hsame : ∀ p, ¬ Holds live sockets i p → ¬ Holds live' sockets' i p → pcbs' p = pcbs p)
    (hgone : ∀ p, Holds live sockets i p → ¬ Holds live' sockets' i p → (pcbs' p).Silent)
    (hnew : ∀ p, Holds live' sockets' i p → ∀ j, j ≠ i → ¬ Holds live sockets j p)
    (hwired : live' i → Wired pcbs' i (sockets' i)) :
  Blocks live' sockets' pcbs'
  := by
  have hother : ∀ j p, j ≠ i → Holds live sockets j p → pcbs' p = pcbs p := by
    intro j p hj hp
    apply hsame
    · intro hi
      apply hj
      apply hb.apart j i p hp.1 hi.1 hp.2 hi.2
    · intro hi
      exact hnew p hi j hj hp
  constructor
  · intro j hj
    rcases eq_or_ne j i with rfl | hne
    · apply hwired hj
    · rw [hlive j hne] at hj
      rw [hsockets j hne]
      have hw := hb.wired j hj
      constructor
      · intro p hp
        rw [hother j p hne ⟨hj, hp⟩]
        apply hw.serves p hp
      · exact hw.without
  · intro j k p hj hk hpj hpk
    rcases eq_or_ne j i with rfl | hji
    · rcases eq_or_ne k j with rfl | hkj
      · rfl
      · rw [hlive k hkj] at hk
        rw [hsockets k hkj] at hpk
        exact absurd ⟨hk, hpk⟩ (hnew p ⟨hj, hpj⟩ k hkj)
    · rcases eq_or_ne k i with rfl | hki
      · rw [hlive j hji] at hj
        rw [hsockets j hji] at hpj
        exact absurd ⟨hj, hpj⟩ (hnew p ⟨hk, hpk⟩ j hji)
      · rw [hlive j hji] at hj
        rw [hsockets j hji] at hpj
        rw [hlive k hki] at hk
        rw [hsockets k hki] at hpk
        apply hb.apart j k p hj hk hpj hpk
  · intro p hp
    by_cases hheld : Holds live sockets i p
    · apply hgone p hheld
      intro hi
      exact hp i hi.1 hi.2
    · rw [hsame p hheld (fun hi => hp i hi.1 hi.2)]
      apply hb.silent
      intro j hj hpj
      rcases eq_or_ne j i with rfl | hne
      · exact hheld ⟨hj, hpj⟩
      · apply hp j
        · rwa [hlive j hne]
        · rwa [hsockets j hne]

/-- A change to blocks that no socket holds, which set no callback. -/
theorem of_not_held (hb : Blocks live sockets pcbs) {p : Nat}
    (hp : ∀ i, live i → (sockets i).tcp ≠ some p) {b : Pcb} (hsilent : b.Silent) :
  Blocks live sockets (Function.update pcbs p b)
  where
  wired := by
    intro i hi
    have hw := hb.wired i hi
    constructor
    · intro q hq
      have hne : q ≠ p := by
        rintro rfl
        exact hp i hi hq
      rw [Function.update_of_ne hne]
      apply hw.serves q hq
    · exact hw.without
  apart := hb.apart
  silent := by
    intro q hq
    rcases eq_or_ne q p with rfl | hne
    · rw [Function.update_self]
      exact hsilent
    · rw [Function.update_of_ne hne]
      apply hb.silent q hq

end Blocks
