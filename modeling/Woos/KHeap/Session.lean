import Woos.KHeap.Live
import Woos.Lib.Run
import Mathlib.Algebra.Order.BigOperators.Group.List
import Mathlib.Algebra.Order.Group.Nat

/-!
# Runs of the kernel heap

A `Session` is the heap together with the pointers its callers hold.  Its steps are the calls
of the heap, and writes of a caller into an allocation that it holds.

`Consistent s bs` says that the heap is well-formed and that the pointers held are its
payloads in use.  `heap_consistent` shows that it holds after every run in which no call of
`kheap_realloc` overruns the payload it moves to.
-/

namespace KHeap

open Arena

/-- The heap and the pointers handed out by it and not yet freed. -/
structure Session where
  heap : KHeap
  live : List UInt64

/-- A call of the heap, or a write of a byte by a caller. -/
inductive Call where
  | alloc (size : UInt64)
  | free (ptr : UInt64)
  | realloc (ptr size : UInt64)
  | write (addr : Nat) (value : UInt8)

namespace Session

/-- The session after `kheap_init`. -/
def init (m : Memory) : Session := ⟨kheapInit m, []⟩

/-- Execute a call. -/
def call (s : Session) : Call → Option Session
  | .alloc size => do
      let (h, p) ← kheapAlloc s.heap size
      some ⟨h, if p = 0 then s.live else p :: s.live⟩
  | .free ptr => do
      let h ← kheapFree s.heap ptr
      some ⟨h, s.live.erase ptr⟩
  | .realloc ptr size => do
      let (h, p) ← kheapRealloc s.heap ptr size
      some ⟨h, if p ≠ 0 then p :: s.live.erase ptr
        else if size = 0 then s.live.erase ptr else s.live⟩
  | .write addr value =>
      some { s with heap := { s.heap with mem := Function.update s.heap.mem addr value } }

/-- Any size may be requested and any pointer freed, but only a held pointer or the null
pointer reallocated, and only the bytes of held allocations written. -/
def Permitted (s : Session) : Call → Prop
  | .alloc _ => True
  | .free _ => True
  | .realloc ptr _ => ptr = 0 ∨ ptr ∈ s.live
  | .write addr _ => ∃ p ∈ s.live,
      p.toNat ≤ addr ∧ addr < p.toNat + (currentPayload s.heap p).toNat

/-- The call is not a reallocation that overruns its new payload. -/
def DoesNotOverrun (s : Session) : Call → Prop
  | .realloc ptr size => ptr = 0 ∨ NoOverrun s.heap ptr size
  | _ => True

/-- The blocks `bs` are linked in memory and tile the heap in address order, no two free
ones are neighbours, the pointers held are the aligned and disjoint payloads in use, and the
count is the sum of their sizes. -/
structure Consistent (s : Session) (bs : List Block) : Prop where
  linked : Linked s.heap.mem bs
  head : s.heap.head.toNat = firstAddr bs
  tiles : Tiles start stop bs
  size : ∀ b ∈ bs, headerSize.toNat ≤ b.size ∧ heapAlign.toNat ∣ b.size
  separate : bs.IsChain Separate
  live : (s.live.map UInt64.toNat).Perm ((bs.filter Block.used).map arena.payloadAddr)
  aligned : ∀ p ∈ s.live, heapAlign.toNat ∣ p.toNat
  disjoint : s.live.Pairwise (fun p r =>
    p.toNat + (currentPayload s.heap p).toNat ≤ r.toNat
      ∨ r.toNat + (currentPayload s.heap r).toNat ≤ p.toNat)
  used : s.heap.used.toNat = ((bs.filter Block.used).map arena.payloadSize).sum
  covers : ∀ p ∈ s.live, currentPayload s.heap p ≤ s.heap.used

/-! ### One call -/

/-- The live allocations of the heap are the pointers held and those of the frame `F`. -/
def Holds (s : Session) (F : List (Nat × Nat)) : Prop :=
  ∃ L, Live s.heap (L ++ F) ∧ (s.live.map UInt64.toNat).Perm (L.map Prod.fst)

/-- The call does not free an allocation of the frame `F`. -/
def Avoids (F : List (Nat × Nat)) : Call → Prop
  | .free ptr => ∀ x ∈ F, x.1 ≠ ptr.toNat
  | _ => True

theorem avoids_nil (c : Call) :
  Avoids [] c
  := by
  cases c with
  | free ptr => simp [Avoids]
  | alloc size => trivial
  | realloc ptr size => trivial
  | write addr value => trivial

theorem init_holds (m : Memory) :
  (init m).Holds []
  := ⟨[], kheapInit_live m, List.Perm.refl _⟩

theorem exists_of_mem {s : Session} {L : List (Nat × Nat)}
    (hperm : (s.live.map UInt64.toNat).Perm (L.map Prod.fst)) {p : UInt64} (hp : p ∈ s.live) :
  ∃ q, (p.toNat, q) ∈ L
  := by
  obtain ⟨⟨a, q⟩, hq, heq⟩ := List.mem_map.mp (hperm.subset (List.mem_map_of_mem hp))
  use q
  rw [← heq]
  exact hq

/-- Dropping a pointer drops its allocation. -/
theorem erase_perm {ps : List UInt64} {L : List (Nat × Nat)} (hnodup : (L.map Prod.fst).Nodup)
    (hperm : (ps.map UInt64.toNat).Perm (L.map Prod.fst)) (ptr : UInt64) :
  ((ps.erase ptr).map UInt64.toNat).Perm ((without ptr.toNat L).map Prod.fst)
  := by
  have hwithout : (without ptr.toNat L).map Prod.fst = (L.map Prod.fst).erase ptr.toNat := by
    rw [hnodup.erase_eq_filter, List.filter_map, without]
    congr 1
    apply List.filter_congr
    intro x _
    by_cases hx : x.1 = ptr.toNat
    · simp [hx]
    · simp [hx]
  rw [hwithout, List.map_erase (fun _ _ => UInt64.toNat_inj.mp)]
  apply hperm.erase

/-- A call whose pointers are held has a result and keeps every frame that it avoids. -/
theorem call_holds {s : Session} {c : Call} {F : List (Nat × Nat)} (hs : s.Holds F)
    (hpermitted : s.Permitted c) (hno : s.DoesNotOverrun c) (havoids : Avoids F c) :
  ∃ s', s.call c = some s' ∧ s'.Holds F
  := by
  obtain ⟨L, hl, hperm⟩ := hs
  have hnodup : (L.map Prod.fst).Nodup := by
    have hall := hl.nodup
    rw [List.map_append, List.nodup_append] at hall
    exact hall.1
  have hframe : ∀ {ptr : UInt64} {q : Nat}, (ptr.toNat, q) ∈ L
      → without ptr.toNat (L ++ F) = without ptr.toNat L ++ F := by
    intro ptr q hq
    rw [without_append, without_eq_self (L := F)]
    intro x hx
    exact (hl.ne_of_append hq hx).symm
  cases c with
  | alloc size =>
      rcases kheapAlloc_live hl size with
        ⟨halloc, -⟩ | ⟨h', p, q, halloc, -, hp, -, -, hl', -⟩
      · use ⟨s.heap, s.live⟩
        constructor
        · simp [call, halloc]
        · exact ⟨L, hl, hperm⟩
      · use ⟨h', p :: s.live⟩
        constructor
        · simp [call, halloc, hp]
        · exact ⟨(p.toNat, q) :: L, hl', hperm.cons _⟩
  | free ptr =>
      obtain ⟨h', hfree, hl', -⟩ := kheapFree_live hl ptr
      rw [without_append, without_eq_self (L := F) havoids] at hl'
      use ⟨h', s.live.erase ptr⟩
      constructor
      · simp [call, hfree]
      · exact ⟨_, hl', erase_perm hnodup hperm ptr⟩
  | realloc ptr size =>
      rcases hpermitted with rfl | hmem
      · -- a null pointer is not held, so that it makes no difference to drop it
        have hnull : s.live.erase 0 = s.live := by
          apply List.erase_of_not_mem
          intro hmem
          obtain ⟨q, hq⟩ := exists_of_mem hperm hmem
          exact hl.ne_zero (List.mem_append_left _ hq) rfl
        have hcall : ∀ h' p, kheapAlloc s.heap size = some (h', p)
            → s.call (.realloc 0 size) = some ⟨h', if p = 0 then s.live else p :: s.live⟩ := by
          intro h' p halloc
          by_cases hp : p = 0
          · simp [call, kheapRealloc, halloc, hnull, hp]
          · simp [call, kheapRealloc, halloc, hnull, hp]
        rcases kheapAlloc_live hl size with
          ⟨halloc, -⟩ | ⟨h', p, q, halloc, -, hp, -, -, hl', -⟩
        · use ⟨s.heap, s.live⟩
          constructor
          · apply hcall _ _ halloc
          · exact ⟨L, hl, hperm⟩
        · use ⟨h', p :: s.live⟩
          constructor
          · rw [hcall _ _ halloc, if_neg hp]
          · exact ⟨(p.toNat, q) :: L, hl', hperm.cons _⟩
      · obtain ⟨q, hq⟩ := exists_of_mem hperm hmem
        have hlive := List.mem_append_left F hq
        have hptr := hl.ne_zero hlive
        by_cases hsize : size = 0
        · obtain ⟨h', hrealloc, hl', -⟩ := kheapRealloc_zero hl hlive
          rw [hframe hq] at hl'
          use ⟨h', s.live.erase ptr⟩
          constructor
          · simp [call, hsize, hrealloc]
          · exact ⟨_, hl', erase_perm hnodup hperm ptr⟩
        · have hno' : NoOverrun s.heap ptr size := hno.resolve_left hptr
          rcases kheapRealloc_live hl hlive hsize hno' with
            ⟨-, hrealloc⟩ | ⟨-, -, hrealloc⟩ | ⟨-, -, h', p, q', hrealloc, hp, -, -, hl', -⟩
          · use ⟨s.heap, ptr :: s.live.erase ptr⟩
            constructor
            · simp [call, hrealloc, hptr]
            · use L, hl
              apply ((List.perm_cons_erase hmem).symm.map UInt64.toNat).trans hperm
          · use ⟨s.heap, s.live⟩
            constructor
            · simp [call, hrealloc, hsize]
            · exact ⟨L, hl, hperm⟩
          · rw [hframe hq] at hl'
            use ⟨h', p :: s.live.erase ptr⟩
            constructor
            · simp [call, hrealloc, hp]
            · exact ⟨(p.toNat, q') :: without ptr.toNat L, hl',
                (erase_perm hnodup hperm ptr).cons _⟩
  | write addr value =>
      obtain ⟨p, hp, hle, hlt⟩ := hpermitted
      obtain ⟨q, hq⟩ := exists_of_mem hperm hp
      have hlive := List.mem_append_left F hq
      rw [hl.currentPayload hlive] at hlt
      use { s with heap := { s.heap with mem := Function.update s.heap.mem addr value } }, rfl, L
      constructor
      · apply hl.write hlive
        intro x hx
        apply Function.update_of_ne
        omega
      · exact hperm

/-- A session whose pointers are the live allocations is consistent. -/
theorem Holds.consistent {s : Session} (hs : s.Holds []) :
  ∃ bs, s.Consistent bs
  := by
  obtain ⟨L, hl, hperm⟩ := hs
  rw [List.append_nil] at hl
  obtain ⟨bs, hr, hbs⟩ := hl
  have hl : Live s.heap L := ⟨bs, hr, hbs⟩
  use bs
  constructor
  · exact hr.linked
  · exact hr.firstAddr
  · exact hr.tiling.tiles
  · exact hr.tiling.wellSized
  · exact hr.tiling.separate
  · apply hperm.trans
    apply (hbs.map Prod.fst).trans
    rw [payloads, List.map_map]
    rfl
  · intro p hp
    obtain ⟨q, hq⟩ := exists_of_mem hperm hp
    apply hl.aligned hq
  · have hnodup : s.live.Nodup := by
      apply List.Nodup.of_map UInt64.toNat
      apply hperm.nodup_iff.mpr hl.nodup
    apply hnodup.pairwise_of_forall_ne
    intro p hp r hr' hne
    obtain ⟨q, hq⟩ := exists_of_mem hperm hp
    obtain ⟨q', hq'⟩ := exists_of_mem hperm hr'
    have hdisjoint := hl.disjoint hq hq' (fun heq => hne (UInt64.toNat_inj.mp heq))
    rw [hl.currentPayload hq, hl.currentPayload hq']
    omega
  · rw [hr.used, payloads, List.map_map]
    rfl
  · intro p hp
    obtain ⟨q, hq⟩ := exists_of_mem hperm hp
    have hmem : q ∈ L.map Prod.snd := List.mem_map_of_mem hq
    rw [UInt64.le_iff_toNat_le, hl.currentPayload hq, hl.used]
    apply List.single_le_sum (fun _ _ => Nat.zero_le _) _ hmem

/-! ### Runs -/

/-- Every run in which no reallocation overruns its new payload has a result, whose payloads are those
of the caller. -/
theorem exec_holds (m : Memory) {calls : List Call}
    (h : Run.Guarded call (fun s c => s.Permitted c ∧ s.DoesNotOverrun c) (init m) calls) :
  ∃ s, Run.exec call (init m) calls = some s ∧ s.Holds []
  := by
  have hstep : ∀ s c, Holds s [] → s.Permitted c ∧ s.DoesNotOverrun c
      → ∃ s', s.call c = some s' ∧ s'.Holds [] := by
    intro s c hs hc
    apply call_holds hs hc.1 hc.2 (avoids_nil c)
  apply Run.exec_invariant hstep (init_holds m) h

/-- After every run in which no reallocation overruns its new payload, the heap is
consistent. -/
theorem heap_consistent
    (m : Memory) (calls : List Call)
    (h : Run.Guarded call (fun s c => s.Permitted c ∧ s.DoesNotOverrun c) (init m) calls) :
  ∃ s, Run.exec call (init m) calls = some s ∧ ∃ bs, s.Consistent bs
  := by
  obtain ⟨s, hrun, hs⟩ := exec_holds m h
  use s, hrun
  apply hs.consistent

/-- The case of an allocation, a write to it and its reallocation to twice its size. -/
theorem heap_consistent_alloc_write_realloc :
  ∃ s, Run.exec call (init (fun _ => 0))
      [.alloc 16, .write 0x2000020 7, .realloc 0x2000020 32] = some s
    ∧ ∃ bs, s.Consistent bs
  := by
  have halloc : (call (init (fun _ => 0)) (.alloc 16)).map
      (fun s => (s.live, currentPayload s.heap 0x2000020)) = some ([0x2000020], 16) := by
    decide +kernel
  apply heap_consistent
  use ⟨trivial, trivial⟩
  intro s hs
  rw [hs, Option.map_some, Option.some_inj, Prod.mk.injEq] at halloc
  obtain ⟨hlive, hpayload⟩ := halloc
  constructor
  · constructor
    · use 0x2000020
      rw [hlive, hpayload]
      decide
    · trivial
  · intro s' hs'
    cases hs'
    constructor
    · constructor
      · right
        rw [hlive]
        apply List.mem_singleton_self
      · right
        intro hlarge
        apply absurd hlarge
        decide
    · intros
      trivial

/-- An allocation of 16 bytes, and its reallocation to a size that is rounded to zero. -/
def overrun : List Call := [.alloc 16, .realloc 0x2000020 0xffffffffffffffff]

/-- The reallocation of `overrun` moves 16 bytes to a payload of none, over the header of the
next block. -/
theorem not_consistent_after_overrun :
  Run.Guarded call Permitted (init (fun _ => 0)) overrun
    ∧ ∃ s, Run.exec call (init (fun _ => 0)) overrun = some s ∧ ¬ ∃ bs, s.Consistent bs
  := by
  have halloc : (call (init (fun _ => 0)) (.alloc 16)).map live = some [0x2000020] := by
    decide +kernel
  have hrun : (Run.exec call (init (fun _ => 0)) overrun).map (fun s =>
      (s.heap.head, blockNext s.heap.mem 0x2000000, blockNext s.heap.mem 0x2000030,
        blockSize s.heap.mem 0x2000050)) = some (0x2000000, 0x2000030, 0x2000050, 0) := by
    decide +kernel
  constructor
  · use trivial
    intro s hs
    rw [hs, Option.map_some, Option.some_inj] at halloc
    constructor
    · right
      rw [halloc]
      apply List.mem_singleton_self
    · intros
      trivial
  · obtain ⟨s, hs, hreads⟩ := Option.map_eq_some_iff.mp hrun
    simp only [Prod.mk.injEq] at hreads
    obtain ⟨hhead, hnext₁, hnext₂, hsize⟩ := hreads
    use s, hs
    rintro ⟨bs, hbs⟩
    have hfirst := hbs.head
    cases bs with
    | nil =>
        rw [hhead] at hfirst
        cases hfirst
    | cons b bs =>
        have hb : (0x2000000 : UInt64).toNat = b.addr := by
          rw [← hhead]
          exact hfirst
        obtain ⟨c, hc, hcaddr⟩ := hbs.linked.next_mem List.mem_cons_self hb (by rw [hnext₁]; decide)
        rw [hnext₁] at hcaddr
        obtain ⟨d, hd, hdaddr⟩ := hbs.linked.next_mem hc hcaddr.symm (by rw [hnext₂]; decide)
        rw [hnext₂] at hdaddr
        obtain ⟨next, hheader⟩ := hbs.linked.headerAt hd
        have hdsize := hheader.blockSize hdaddr.symm
        rw [hsize] at hdsize
        have hle := (hbs.size d hd).1
        rw [← hdsize] at hle
        cases hle

end Session

end KHeap
