import Woos.Lib.CountedRing
import Woos.Net.Socket

/-!
# The receive buffer of a socket

The receive buffer is a circular buffer of bytes in the kernel heap.  `NetSocket.stored` lists the
bytes in it.  The loop of `tcp_recv_callback` appends bytes as long as there is room, and that of
`net_socket_recv` takes the oldest ones.
-/

namespace NetSocket

/-- The bytes in the receive buffer, the oldest first. -/
def stored (s : NetSocket) (m : Memory) : List UInt8 :=
  CountedRing.contents (fun k => m (s.rxBuf.toNat + k)) socketBufSize s.rxHead s.rxCount

/-- The indices of the receive buffer belong together. -/
structure RxOk (s : NetSocket) : Prop where
  head : s.rxHead < socketBufSize
  count : s.rxCount ≤ socketBufSize
  tail : s.rxTail = (s.rxHead + s.rxCount) % socketBufSize

@[simp]
theorem length_stored (s : NetSocket) (m : Memory) :
  (s.stored m).length = s.rxCount
  := CountedRing.length_contents _ _ _

/-- Only the bytes of the receive buffer count. -/
theorem stored_congr (s : NetSocket) {m m' : Memory}
    (h : ∀ k < socketBufSize, m' (s.rxBuf.toNat + k) = m (s.rxBuf.toNat + k)) :
  s.stored m' = s.stored m
  := by
  apply CountedRing.contents_congr
  intro k _
  apply h
  apply Nat.mod_lt
  decide

end NetSocket

namespace Net

open NetSocket

/-- Only the indices of the receive buffer change. -/
def Receives (s s' : NetSocket) : Prop :=
  ∃ head tail count, s' = { s with rxHead := head, rxTail := tail, rxCount := count }

theorem Receives.refl (s : NetSocket) : Receives s s := ⟨s.rxHead, s.rxTail, s.rxCount, rfl⟩

theorem Receives.trans {s s' s'' : NetSocket} (h : Receives s s') (h' : Receives s' s'') :
  Receives s s''
  := by
  obtain ⟨head, tail, count, rfl⟩ := h
  obtain ⟨head', tail', count', rfl⟩ := h'
  exact ⟨head', tail', count', rfl⟩

theorem Receives.inUse {s s' : NetSocket} (h : Receives s s') :
  s'.inUse = s.inUse
  := by
  obtain ⟨head, tail, count, rfl⟩ := h
  rfl

theorem Receives.rxBuf {s s' : NetSocket} (h : Receives s s') :
  s'.rxBuf = s.rxBuf
  := by
  obtain ⟨head, tail, count, rfl⟩ := h
  rfl

/-- The memory changes in the receive buffer only. -/
def WritesWithin (s : NetSocket) (m m' : Memory) : Prop :=
  ∀ x, x < s.rxBuf.toNat ∨ s.rxBuf.toNat + socketBufSize ≤ x → m' x = m x

/-- A byte is appended when there is room for it. -/
theorem receiveByte_stored {m : Memory} {s : NetSocket} (hs : s.RxOk) (copied : Nat) (byte : UInt8) :
  ∃ m' s' c, receiveByte ((m, s), copied) byte = ((m', s'), c) ∧ s'.RxOk ∧ Receives s s'
    ∧ WritesWithin s m m' ∧ s'.stored m' = s.stored m ++ [byte].take (socketBufSize - s.rxCount)
  := by
  by_cases hroom : s.rxCount < socketBufSize
  · rw [receiveByte, if_pos hroom]
    refine ⟨_, _, _, rfl, ?_, ?_, ?_, ?_⟩
    · constructor
      · exact hs.head
      · exact hroom
      · rw [hs.tail, Nat.mod_add_mod, Nat.add_assoc]
    · exact ⟨s.rxHead, _, _, rfl⟩
    · intro x hx
      have htail : s.rxTail < socketBufSize := by
        rw [hs.tail]
        apply Nat.mod_lt
        decide
      apply Function.update_of_ne
      omega
    · have htake : [byte].take (socketBufSize - s.rxCount) = [byte] := by
        apply List.take_of_length_le
        simp only [List.length_singleton]
        omega
      rw [htake]
      apply CountedRing.contents_push byte hroom
      · rw [hs.tail]
        apply Function.update_self
      · intro k _ hk
        apply Function.update_of_ne
        intro heq
        apply hk
        rw [hs.tail] at heq
        exact Nat.add_left_cancel heq
  · rw [receiveByte, if_neg hroom]
    have hfull : socketBufSize - s.rxCount = 0 := by omega
    refine ⟨m, s, copied, rfl, hs, Receives.refl s, fun _ _ => rfl, ?_⟩
    rw [hfull, List.take_zero, List.append_nil]

/-- The bytes are appended as far as there is room. -/
theorem receiveBytes_stored {m : Memory} {s : NetSocket} (hs : s.RxOk) (copied : Nat)
    (bytes : List UInt8) :
  ∃ m' s' c, bytes.foldl receiveByte ((m, s), copied) = ((m', s'), c) ∧ s'.RxOk ∧ Receives s s'
    ∧ WritesWithin s m m' ∧ s'.stored m' = s.stored m ++ bytes.take (socketBufSize - s.rxCount)
  := by
  induction bytes generalizing m s copied with
  | nil => exact ⟨m, s, copied, rfl, hs, Receives.refl s, fun _ _ => rfl, by simp⟩
  | cons byte bytes ih =>
      obtain ⟨m₁, s₁, c₁, hbyte, hs₁, hkeeps, hwrites, hstored⟩ :=
        receiveByte_stored (m := m) hs copied byte
      obtain ⟨m', s', c', hbytes, hs', hkeeps', hwrites', hstored'⟩ := ih (m := m₁) hs₁ c₁
      refine ⟨m', s', c', ?_, hs', hkeeps.trans hkeeps', ?_, ?_⟩
      · rw [List.foldl_cons, hbyte, hbytes]
      · intro x hx
        rw [WritesWithin, hkeeps.rxBuf] at hwrites'
        rw [hwrites' x hx, hwrites x hx]
      · have hcount := congrArg List.length hstored
        simp only [length_stored, List.length_append, List.length_take, List.length_singleton]
          at hcount
        rw [hstored', hstored, List.append_assoc]
        congr 1
        cases hroom : socketBufSize - s.rxCount with
        | zero =>
            have hfull : socketBufSize - s₁.rxCount = 0 := by omega
            simp [hfull]
        | succ r =>
            have hrest : socketBufSize - s₁.rxCount = r := by omega
            simp [hrest]

/-- A chain is appended as far as there is room. -/
theorem receiveChain_stored {m : Memory} {s : NetSocket} (hs : s.RxOk) (chain : List (List UInt8)) :
  ∃ m' s' c, receiveChain ((m, s), 0) chain = ((m', s'), c) ∧ s'.RxOk ∧ Receives s s'
    ∧ WritesWithin s m m' ∧ s'.stored m' = s.stored m ++ chain.flatten.take (socketBufSize - s.rxCount)
  := by
  rw [receiveChain, ← List.foldl_flatten]
  apply receiveBytes_stored hs

/-- The bytes that are copied are the oldest, and the others stay. -/
theorem receiveLoop_stored (m : Memory) {s : NetSocket} (hs : s.RxOk) {k : Nat} (hk : k ≤ s.rxCount) :
  ∃ bytes s', receiveLoop m s k = (bytes, s') ∧ s'.RxOk ∧ Receives s s'
    ∧ bytes ++ s'.stored m = s.stored m
  := by
  induction k generalizing s with
  | zero => exact ⟨[], s, rfl, hs, Receives.refl s, rfl⟩
  | succ k ih =>
      obtain ⟨c, hc⟩ := Nat.exists_eq_add_of_lt hk
      let next := { s with rxHead := (s.rxHead + 1) % socketBufSize, rxCount := s.rxCount - 1 }
      have hnext : next.RxOk := by
        constructor
        · apply Nat.mod_lt
          decide
        · have hcount := hs.count
          simp only [next]
          omega
        · have htail := hs.tail
          simp only [next]
          rw [htail, Nat.mod_add_mod]
          congr 1
          omega
      have hle : k ≤ next.rxCount := by
        simp only [next]
        omega
      obtain ⟨bytes, s', hloop, hs', hkeeps, hstored⟩ := ih hnext hle
      refine ⟨m (s.rxBuf.toNat + s.rxHead) :: bytes, s', ?_, hs', ?_, ?_⟩
      · rw [receiveLoop, hloop]
      · have hfirst : Receives s next := ⟨_, s.rxTail, _, rfl⟩
        exact hfirst.trans hkeeps
      · have hcount : s.rxCount = next.rxCount + 1 := by
          simp only [next]
          omega
        rw [List.cons_append, hstored, stored, stored, hcount, CountedRing.contents_pop,
          Nat.mod_eq_of_lt hs.head]

end Net
