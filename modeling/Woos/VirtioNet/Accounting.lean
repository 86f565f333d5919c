import Mathlib.Data.List.Perm.Basic
import Woos.VirtioNet.Rings

/-!
# Every descriptor is accounted for

When the device offers a queue of at least 128 entries, every descriptor of the receive queue is
at any time in one of three places, and there once: posted in the available ring, taken by the
device, or completed in the used ring.  Both counters wrap, and the device may step between any
two accesses of the driver.

The driver fills and indexes 128 entries whatever the size of the queue, sets the index of the
available ring to 128 also when it ran out of pages, and does not clear the page of the rings.
-/

namespace VirtioNet

namespace Queue

/-- The first entry of the used ring that the driver has not posted again. -/
def nextUsedIdx (q : Queue) : UInt16 :=
  if q.phase = .advance then q.lastUsedIdx + 1 else q.lastUsedIdx

/-- The descriptors that are posted and not taken. -/
def posted (q : Queue) : List Nat :=
  (FreeRing.window q.rings.availRing q.size.toNat q.deviceAvailIdx q.rings.availIdx).map
    UInt16.toNat

/-- The descriptors that are completed and not posted again. -/
def completed (q : Queue) : List Nat :=
  (FreeRing.window q.rings.usedRing q.size.toNat q.nextUsedIdx q.rings.usedIdx).map
    (fun entry => entry.1.toNat)

/-- Every descriptor is posted, taken or completed, once, and no access has left the rings. -/
structure Accounted (q : Queue) : Prop where
  partition : (q.posted ++ q.inFlight.map UInt16.toNat ++ q.completed).Perm
    (List.range q.size.toNat)
  bounds : ∀ i ∈ q.accesses, i < q.size.toNat

end Queue

/-! ### Initialization -/

/-- What the loop of `virtio_net_init` leaves when there are pages. -/
theorem fillRx_filled {pages : Nat → UInt64} (hpages : ∀ k < 64, pages k ≠ 0) {n : Nat} {i : UInt16}
    {rings : Rings} {accesses : List Nat} (hi : i.toNat + n = queueSize.toNat)
    (hring : ∀ k < i.toNat, (rings.availRing k).toNat = k)
    (haccesses : ∀ k ∈ accesses, k < queueSize.toNat) :
  (∀ k < queueSize.toNat, ((fillRx pages n i (rings, accesses)).1.availRing k).toNat = k)
    ∧ (fillRx pages n i (rings, accesses)).1.usedIdx = rings.usedIdx
    ∧ ∀ k ∈ (fillRx pages n i (rings, accesses)).2, k < queueSize.toNat
  := by
  have hsize : queueSize.toNat = 128 := rfl
  induction n generalizing i rings accesses with
  | zero =>
      rw [Nat.add_zero] at hi
      rw [← hi]
      rw [← hi] at haccesses
      use hring, rfl
      apply haccesses
  | succ n ih =>
      have hpage : pages (i.toNat / 2) ≠ 0 := by
        apply hpages
        omega
      have hone : (1 : UInt16).toNat = 1 := rfl
      have hnext : (i + 1).toNat = i.toNat + 1 := by
        rw [UInt16.toNat_add, hone]
        omega
      rw [fillRx]
      simp only [hpage, if_false]
      apply ih
      · rw [hnext]
        omega
      · intro k hk
        rw [hnext] at hk
        dsimp only
        rcases Nat.lt_succ_iff_lt_or_eq.mp hk with hk | rfl
        · rw [Function.update_of_ne hk.ne]
          apply hring k hk
        · rw [Function.update_self]
      · intro k hk
        rcases List.mem_cons.mp hk with rfl | hk
        · omega
        · apply haccesses k hk

namespace Queue

variable {q q' : Queue}

/-! ### The invariant -/

/-- What the driver has in hand is the oldest entry of the used ring. -/
def Held (q : Queue) : Prop :=
  match q.phase with
  | .post id => q.completed.head? = some id.toNat
  | .publish =>
      q.completed.head?
        = some (q.rings.availRing (q.rings.availIdx.toNat % queueSize.toNat)).toNat
  | _ => True

/-- The queue has its full size, and the device has published what it has completed. -/
structure Inv (q : Queue) : Prop extends Accounted q where
  size_eq : q.size = queueSize
  published : q.deviceUsedIdx = q.rings.usedIdx
  held : q.Held

theorem queueSize_dvd :
  queueSize.toNat ∣ 2 ^ 16
  := by
  decide

/-- The three places have room for as many descriptors as there are. -/
theorem Inv.count_eq (h : q.Inv) :
  FreeRing.count q.deviceAvailIdx q.rings.availIdx + q.inFlight.length
    + FreeRing.count q.nextUsedIdx q.rings.usedIdx = 128
  := by
  have hsize : q.size.toNat = 128 := by
    rw [h.size_eq]
    rfl
  have hlength := h.partition.length_eq
  rwa [List.length_append, List.length_append, posted, completed, List.length_map, List.length_map,
    List.length_map, FreeRing.length_window, FreeRing.length_window, List.length_range,
    hsize] at hlength

theorem slot_lt (idx : UInt16) :
  idx.toNat % queueSize.toNat < queueSize.toNat
  := by
  apply Nat.mod_lt
  decide

/-- Every descriptor is below the size of the queue. -/
theorem Inv.lt_of_completed (h : q.Inv) {id : Nat} (hid : id ∈ q.completed) :
  id < 128
  := by
  have hmem := h.partition.subset (List.mem_append_right _ hid)
  rw [h.size_eq] at hmem
  apply List.mem_range.mp hmem

/-! ### The device -/

/-- The device takes a descriptor. -/
theorem Inv.take (h : q.Inv) (htake : q.take = some q') :
  q'.Inv
  := by
  unfold Queue.take at htake
  split at htake
  · cases htake
  · next hne =>
      rw [← Option.some_inj.mp htake]
      have hsize := h.size_eq
      have hpop : q.posted = (q.rings.availRing (q.deviceAvailIdx.toNat % q.size.toNat)).toNat
          :: (FreeRing.window q.rings.availRing q.size.toNat (q.deviceAvailIdx + 1)
            q.rings.availIdx).map UInt16.toNat := by
        rw [posted, hsize, FreeRing.window_pop _ queueSize_dvd hne]
        rfl
      constructor
      · constructor
        · apply List.Perm.trans _ h.partition
          rw [hpop, List.map_append, List.map_singleton, ← List.append_assoc]
          apply List.Perm.append_right
          apply List.perm_append_singleton
        · intro i hi
          rcases List.mem_cons.mp hi with rfl | hi
          · rw [hsize]
            apply slot_lt
          · apply h.bounds i hi
      · apply hsize
      · apply h.published
      · apply h.held

/-- What is completed after the device has completed a descriptor. -/
theorem Inv.completed_complete (h : q.Inv) {id : UInt16} {len : UInt32}
    (hcomplete : q.complete id len = some q') :
  q'.completed = q.completed ++ [id.toNat]
  := by
  unfold Queue.complete at hcomplete
  split at hcomplete
  · next hmem =>
      rw [← Option.some_inj.mp hcomplete]
      have hroom := h.count_eq
      have hpos := List.length_pos_of_mem hmem
      have hsame : FreeRing.window (Function.update q.rings.usedRing
            (q.deviceUsedIdx.toNat % q.size.toNat) (id.toUInt32, len)) queueSize.toNat
            q.nextUsedIdx q.rings.usedIdx
          = FreeRing.window q.rings.usedRing queueSize.toNat q.nextUsedIdx q.rings.usedIdx := by
        apply FreeRing.window_write queueSize_dvd
        · have hcap : queueSize.toNat = 128 := rfl
          omega
        · intro k _ hk
          rw [h.published, h.size_eq]
          apply Function.update_of_ne hk
      have hpush := FreeRing.window_push (Function.update q.rings.usedRing
            (q.deviceUsedIdx.toNat % q.size.toNat) (id.toUInt32, len)) q.nextUsedIdx
            q.rings.usedIdx queueSize_dvd (by omega)
      rw [hsame, ← h.published, h.size_eq, Function.update_self] at hpush
      simp only [completed, h.size_eq]
      rw [← h.published]
      apply (congrArg (List.map _) hpush).trans
      rw [List.map_append]
      rfl
  · cases hcomplete

/-- The oldest entry stays the oldest when others are appended. -/
theorem Held.append (h : q.Held) (hphase : q'.phase = q.phase)
    (hring : q'.rings.availRing = q.rings.availRing) (hidx : q'.rings.availIdx = q.rings.availIdx)
    {ids : List Nat} (hcompleted : q'.completed = q.completed ++ ids) :
  q'.Held
  := by
  unfold Held at h
  unfold Held
  rw [hphase, hring, hidx, hcompleted]
  cases hp : q.phase with
  | post id =>
      rw [hp] at h
      rw [List.head?_append, show q.completed.head? = some id.toNat from h]
      rfl
  | publish =>
      rw [hp] at h
      rw [List.head?_append, show q.completed.head? = some _ from h]
      rfl
  | idle => trivial
  | head => trivial
  | advance => trivial

/-- The device completes a descriptor. -/
theorem Inv.complete (h : q.Inv) {id : UInt16} {len : UInt32}
    (hcomplete : q.complete id len = some q') :
  q'.Inv
  := by
  have hcompleted := h.completed_complete hcomplete
  unfold Queue.complete at hcomplete
  split at hcomplete
  · next hmem =>
      have hq := Option.some_inj.mp hcomplete
      constructor
      · constructor
        · rw [hcompleted]
          rw [← hq]
          apply List.Perm.trans _ h.partition
          rw [List.perm_iff_count]
          intro a
          have herase := List.Perm.count_eq
            ((List.perm_cons_erase hmem).map UInt16.toNat) a
          rw [List.map_cons, List.count_cons] at herase
          simp only [List.count_append, List.count_singleton]
          simp only [posted]
          omega
        · rw [← hq]
          intro i hi
          rcases List.mem_cons.mp hi with rfl | hi
          · rw [h.size_eq]
            apply slot_lt
          · apply h.bounds i hi
      · rw [← hq]
        apply h.size_eq
      · have hidx : q'.deviceUsedIdx = q.deviceUsedIdx + 1 := by
          rw [← hq]
        have hused : q'.rings.usedIdx = q.deviceUsedIdx + 1 := by
          rw [← hq]
        apply hidx.trans hused.symm
      · -- what the driver has in hand stays the oldest entry
        apply h.held.append _ _ _ hcompleted
        · rw [← hq]
        · rw [← hq]
        · rw [← hq]
  · cases hcomplete

/-! ### The driver -/

/-- The driver goes to another phase. -/
theorem Inv.enter (h : q.Inv) {phase : Phase} {lastUsedIdx : UInt16} {rxCount : UInt32}
    {accesses : List Nat} (hnext : (if phase = .advance then lastUsedIdx + 1 else lastUsedIdx)
      = q.nextUsedIdx)
    (haccesses : ∀ i ∈ accesses, i ∈ q.accesses ∨ i < queueSize.toNat)
    (hheld : Held { q with
      phase := phase, lastUsedIdx := lastUsedIdx, rxCount := rxCount, accesses := accesses }) :
  Inv { q with
    phase := phase, lastUsedIdx := lastUsedIdx, rxCount := rxCount, accesses := accesses }
  := by
  constructor
  · constructor
    · apply List.Perm.trans _ h.partition
      apply List.Perm.append_left
      rw [completed, completed, ← hnext]
      apply List.Perm.refl
    · intro i hi
      rcases haccesses i hi with hi | hi
      · apply h.bounds i hi
      · rwa [h.size_eq]
  · apply h.size_eq
  · apply h.published
  · apply hheld

/-- The driver finds an entry of the used ring, or none. -/
theorem Inv.loopHead (h : q.Inv) (hphase : q.phase = .head) (pbuf : Bool) :
  (q.loopHead pbuf).Inv
  := by
  have hnext : q.nextUsedIdx = q.lastUsedIdx := by
    rw [nextUsedIdx, hphase]
    rfl
  unfold Queue.loopHead
  split
  · next hne =>
      apply h.enter
      · rw [hnext]
        rfl
      · intro i hi
        rcases List.mem_cons.mp hi with rfl | hi
        · right
          apply slot_lt
        · left
          apply hi
      · simp only [Held, completed, nextUsedIdx]
        rw [h.size_eq, if_neg nofun, FreeRing.window_pop _ queueSize_dvd hne.symm]
        rfl
  · apply h.enter
    · rw [hnext]
      rfl
    · intro i hi
      left
      apply hi
    · trivial

/-- The driver writes the descriptor to the available ring. -/
theorem Inv.post (h : q.Inv) {id : UInt32} (hphase : q.phase = .post id) :
  (q.post id).Inv
  := by
  have hheld := h.held
  rw [Held, hphase] at hheld
  have hnext : q.nextUsedIdx = q.lastUsedIdx := by
    rw [nextUsedIdx, hphase]
    rfl
  have hcompleted : (q.post id).completed = q.completed := by
    rw [completed, completed, hnext]
    rfl
  have hid := h.lt_of_completed (List.mem_of_head? hheld)
  have hroom : FreeRing.count q.deviceAvailIdx q.rings.availIdx < 128 := by
    have hcount := h.count_eq
    have hpos : 0 < q.completed.length := List.length_pos_of_mem (List.mem_of_head? hheld)
    rw [completed, List.length_map, FreeRing.length_window] at hpos
    omega
  have hposted : (q.post id).posted = q.posted := by
    rw [posted, posted, show (q.post id).size = queueSize from h.size_eq, h.size_eq]
    congr 1
    apply FreeRing.window_write queueSize_dvd hroom
    intro k _ hk
    apply Function.update_of_ne hk
  constructor
  · constructor
    · rw [hcompleted, hposted]
      apply h.partition
    · intro i hi
      rcases List.mem_cons.mp hi with rfl | hi
      · rw [show (q.post id).size = queueSize from h.size_eq]
        apply slot_lt
      · apply h.bounds i hi
  · apply h.size_eq
  · apply h.published
  · change (q.post id).completed.head? = _
    rw [hcompleted, hheld]
    change some id.toNat = some (Function.update q.rings.availRing
      (q.rings.availIdx.toNat % queueSize.toNat) id.toUInt16
      (q.rings.availIdx.toNat % queueSize.toNat)).toNat
    rw [Function.update_self, UInt32.toNat_toUInt16, Nat.mod_eq_of_lt (by omega)]

/-- The driver publishes the descriptor: it is posted and no longer completed. -/
theorem Inv.publish (h : q.Inv) (hphase : q.phase = .publish) :
  q.publish.Inv
  := by
  have hheld := h.held
  rw [Held, hphase] at hheld
  have hnext : q.nextUsedIdx = q.lastUsedIdx := by
    rw [nextUsedIdx, hphase]
    rfl
  have hcount := h.count_eq
  have hne : q.nextUsedIdx ≠ q.rings.usedIdx := by
    intro heq
    rw [completed, heq] at hheld
    have hzero : FreeRing.window q.rings.usedRing q.size.toNat q.rings.usedIdx q.rings.usedIdx
        = [] := by
      rw [← List.length_eq_zero_iff, FreeRing.length_window, FreeRing.count_eq_zero]
    rw [hzero] at hheld
    cases hheld
  have hposted : q.publish.posted = q.posted
      ++ [(q.rings.availRing (q.rings.availIdx.toNat % queueSize.toNat)).toNat] := by
    rw [posted, posted, show q.publish.size = queueSize from h.size_eq, h.size_eq]
    have hpush := FreeRing.window_push q.rings.availRing q.deviceAvailIdx q.rings.availIdx
      queueSize_dvd (by omega)
    apply (congrArg (List.map UInt16.toNat) hpush).trans
    rw [List.map_append]
    rfl
  have hcompleted : q.completed
      = (q.rings.availRing (q.rings.availIdx.toNat % queueSize.toNat)).toNat
        :: q.publish.completed := by
    have hpop : q.completed
        = (q.rings.usedRing (q.nextUsedIdx.toNat % queueSize.toNat)).1.toNat
          :: q.publish.completed := by
      rw [completed, completed, show q.publish.size = queueSize from h.size_eq, h.size_eq,
        FreeRing.window_pop _ queueSize_dvd hne, hnext]
      rfl
    rw [hpop, List.head?_cons, Option.some_inj] at hheld
    rw [hpop, hheld]
  constructor
  · constructor
    · apply List.Perm.trans _ h.partition
      rw [hposted, hcompleted, List.append_assoc, List.append_assoc, List.append_assoc]
      apply List.Perm.append_left
      rw [List.singleton_append]
      apply List.perm_middle.symm
    · apply h.bounds
  · apply h.size_eq
  · apply h.published
  · trivial

/-- The driver goes on to the next entry. -/
theorem Inv.advance (h : q.Inv) (hphase : q.phase = .advance) :
  q.advance.Inv
  := by
  apply h.enter
  · rw [nextUsedIdx, hphase]
    rfl
  · intro i hi
    left
    apply hi
  · trivial

/-! ### Runs -/

/-- Every step keeps the invariant. -/
theorem Inv.step (h : q.Inv) {a : Step} (hstep : q.step a = some q') :
  q'.Inv
  := by
  cases a with
  | take => apply h.take hstep
  | complete id len => apply h.complete hstep
  | poll =>
      simp only [Queue.step] at hstep
      split at hstep
      · next hphase =>
          rw [← Option.some_inj.mp hstep]
          apply h.enter
          · rw [nextUsedIdx, hphase]
            rfl
          · intro i hi
            left
            apply hi
          · trivial
      · cases hstep
  | driver pbuf =>
      simp only [Queue.step] at hstep
      split at hstep
      · cases hstep
      · next hphase =>
          rw [← Option.some_inj.mp hstep]
          apply h.loopHead hphase
      · next hphase =>
          rw [← Option.some_inj.mp hstep]
          apply h.post hphase
      · next hphase =>
          rw [← Option.some_inj.mp hstep]
          apply h.publish hphase
      · next hphase =>
          rw [← Option.some_inj.mp hstep]
          apply h.advance hphase

end Queue

/-- The driver leaves every descriptor posted. -/
theorem init_inv {offered : UInt16} {pages : Nat → UInt64} {page : Rings}
    (hoffered : offered = 0 ∨ queueSize ≤ offered) (hpages : ∀ k < 64, pages k ≠ 0)
    (hpage : page.usedIdx = 0) :
  (init offered pages page).Inv
  := by
  have hcap : queueSize.toNat = 128 := rfl
  have hsize : setupVq offered = queueSize := by
    unfold setupVq
    split
    · rfl
    · next hnot =>
        rw [not_or, UInt16.not_lt] at hnot
        apply UInt16.le_antisymm hnot.2
        rcases hoffered with h | h
        · exact absurd h hnot.1
        · apply h
  rcases hfill : fillRx pages queueSize.toNat 0 (page, []) with ⟨rings, accesses⟩
  obtain ⟨hring, hused, haccesses⟩ : (∀ k < queueSize.toNat, (rings.availRing k).toNat = k)
      ∧ rings.usedIdx = page.usedIdx ∧ ∀ k ∈ accesses, k < queueSize.toNat := by
    have hfilled := @fillRx_filled pages hpages queueSize.toNat 0 page [] (by decide)
      (fun k hk => absurd hk (Nat.not_lt_zero k)) (fun k hk => absurd hk List.not_mem_nil)
    rwa [hfill] at hfilled
  have hposted : (FreeRing.window rings.availRing queueSize.toNat 0 queueSize).map UInt16.toNat
      = List.range queueSize.toNat := by
    rw [FreeRing.window, CountedRing.contents, List.map_map,
      show FreeRing.count 0 queueSize = queueSize.toNat from rfl]
    have hsame : ∀ k ∈ List.range queueSize.toNat,
        (UInt16.toNat ∘ fun i => rings.availRing (((0 : UInt16).toNat + i) % queueSize.toNat)) k
          = id k := by
      intro k hk
      have hk' := List.mem_range.mp hk
      rw [Function.comp_apply, UInt16.toNat_zero, Nat.zero_add, Nat.mod_eq_of_lt hk', hring k hk']
      rfl
    rw [List.map_congr_left hsame, List.map_id]
  have hcompleted : FreeRing.window rings.usedRing queueSize.toNat 0 rings.usedIdx = [] := by
    rw [← List.length_eq_zero_iff, FreeRing.length_window, FreeRing.count_eq_zero, hused, hpage]
  unfold init
  rw [hfill]
  constructor
  · constructor
    · simp only [Queue.posted, Queue.completed, Queue.nextUsedIdx, hsize]
      rw [hposted, if_neg (by decide), hcompleted, List.map_nil, List.map_nil, List.append_nil,
        List.append_nil]
    · intro k hk
      rw [hsize]
      apply haccesses k hk
  · apply hsize
  · apply (hused.trans hpage).symm
  · trivial

/-- In every run of the device and `virtio_net_poll`, when the device has offered a queue of at
least 128 entries, there were pages for all buffers and the page of the rings had a zero where
the used ring has its index, every descriptor is accounted for. -/
theorem descriptors_accounted {offered : UInt16} {pages : Nat → UInt64} {page : Rings}
    (hoffered : offered = 0 ∨ queueSize ≤ offered) (hpages : ∀ k < 64, pages k ≠ 0)
    (hpage : page.usedIdx = 0) {steps : List Step} {q : Queue}
    (hrun : Run.exec Queue.step (init offered pages page) steps = some q) :
  q.Accounted
  := by
  have hinv : q.Inv := by
    have hguard : Run.Guarded Queue.step (fun _ _ => True) (init offered pages page) steps := by
      apply Run.guarded_of_forall
      intro _ _ _
      trivial
    apply Run.exec_safe _ (init_inv hoffered hpages hpage) hguard hrun
    intro q a q' h _ hstep
    apply h.step hstep
  exact hinv.toAccounted

/-- A page of zeros. -/
def zeroPage : Rings where
  desc _ := ⟨0, 0, 0, 0⟩
  availIdx := 0
  availRing _ := 0
  usedIdx := 0
  usedRing _ := (0, 0)

/-- Pages one after the other. -/
def somePages (k : Nat) : UInt64 := UInt64.ofNat (4096 * (k + 16))

/-- The device takes two descriptors and completes the second, which the driver posts again. -/
theorem descriptors_accounted_reposted :
  ∃ q, Run.exec Queue.step (init 256 somePages zeroPage)
      [.take, .take, .complete 1 76, .poll, .driver true, .driver true, .take, .driver true,
        .driver true] = some q
    ∧ q.Accounted
  := by
  obtain ⟨q, hq⟩ := Option.isSome_iff_exists.mp (show (Run.exec Queue.step
      (init 256 somePages zeroPage)
      [.take, .take, .complete 1 76, .poll, .driver true, .driver true, .take, .driver true,
        .driver true]).isSome by decide +kernel)
  use q, hq
  apply descriptors_accounted (by decide) (by decide) rfl hq

/-- In a queue of 64 entries the driver writes to entry 127 of the available ring. -/
theorem not_accounted_small_queue :
  ∃ q, Run.exec Queue.step (init 64 somePages zeroPage) [] = some q ∧ q.size = 64
    ∧ 127 ∈ q.accesses ∧ ¬ q.Accounted
  := by
  have haccess : 127 ∈ (init 64 somePages zeroPage).accesses := by
    decide +kernel
  use init 64 somePages zeroPage, rfl, rfl, haccess
  intro h
  exact absurd (h.bounds 127 haccess) (by decide)

end VirtioNet
