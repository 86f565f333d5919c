import Woos.KHeap.Refinement
import Woos.Lib.Word

/-!
# The heap is a first-fit arena

`Repr h bs` says that the heap `h` is made of the blocks `bs`, which tile it.  The operations
of `KHeap` are those of `Arena` on the blocks: `kheapAlloc_repr` relates `kheapAlloc` to
`allocate`, `kheapFree_repr` relates `kheapFree` to `release` and `merge`, and
`kheapRealloc_repr` relates `kheapRealloc` to their composition.
-/

namespace KHeap

open Arena

/-- The address of the first byte of the heap. -/
def start : Nat := 0x02000000

/-- The address after the last byte of the heap. -/
def stop : Nat := 0x0a000000

/-- The heap is made of the blocks `bs`: their headers are in memory, they tile the heap,
and the count is the sum of the payloads in use. -/
structure Repr (h : KHeap) (bs : List Block) : Prop where
  linked : Linked h.mem bs
  head : h.head = base
  tiling : arena.Tiling start stop bs
  used : h.used.toNat = ((arena.payloads bs).map Prod.snd).sum

section

variable {h : KHeap} {bs : List Block}

theorem Repr.firstAddr (hr : Repr h bs) :
  h.head.toNat = firstAddr bs
  := by
  rw [hr.head, firstAddr_eq hr.tiling.tiles, if_neg]
  · rfl
  · rintro rfl
    have hempty : start = stop := hr.tiling.tiles
    cases hempty

theorem Repr.head_ne_zero (hr : Repr h bs) :
  h.head ≠ 0
  := by
  rw [hr.head]
  decide

theorem Repr.length_lt (hr : Repr h bs) :
  bs.length < maxBlocks + 1
  := by
  have hle := hr.tiling.tiles.length_le (A := arena) (fun b hb => (hr.tiling.wellSized b hb).1)
  have hheader : arena.header = 32 := rfl
  have hstart : start = 33554432 := rfl
  have hstop : stop = 167772160 := rfl
  have hmax : maxBlocks = 4194304 := rfl
  rw [hheader] at hle
  omega

theorem Linked.headerAt {m : Memory} (hlinked : Linked m bs) {b : Block} (hb : b ∈ bs) :
  ∃ next, HeaderAt m b next
  := by
  induction bs with
  | nil => cases hb
  | cons c bs ih =>
      rcases List.mem_cons.mp hb with rfl | hb
      · exact ⟨_, hlinked.1⟩
      · apply ih hlinked.2 hb

/-- `kheap_realloc` finds the size of a payload in use in front of it. -/
theorem Repr.currentPayload
    (hr : Repr h bs) {ptr : UInt64} {q : Nat} (hp : (ptr.toNat, q) ∈ arena.payloads bs) :
  (currentPayload h ptr).toNat = q
  := by
  obtain ⟨b, hb, -, hptr, rfl⟩ := mem_payloads.mp hp
  obtain ⟨next, hheader⟩ := hr.linked.headerAt hb
  have hptr' : b.addr + 32 = ptr.toNat := hptr
  have hheaderSize : headerSize.toNat = 32 := rfl
  have hle : headerSize ≤ ptr := by
    rw [UInt64.le_iff_toNat_le]
    omega
  apply hheader.blockPayloadSize
  rw [UInt64.toNat_sub_of_le _ _ hle]
  omega

/-! ### Initialization -/

/-- After `kheap_init` the heap is one free block. -/
theorem kheapInit_repr (m : Memory) :
  Repr (kheapInit m) [⟨start, stop - start, false⟩]
  := by
  constructor
  · constructor
    · apply headerAt_write
    · trivial
  · rfl
  · constructor
    · exact ⟨rfl, rfl⟩
    · simp [WellSized, arena, start, stop]
    · apply List.IsChain.singleton
  · rfl

/-! ### Allocation -/

/-- A request is rounded up to a multiple of the alignment, modulo `2 ^ 64`. -/
theorem alignUp_toNat (size : UInt64) :
  (alignUp size heapAlign).toNat = (size.toNat + 15) % 2 ^ 64 / 16 * 16
  := by
  have hmask : (heapAlign - 1).toNat = 2 ^ 4 - 1 := rfl
  rw [alignUp, Word.toNat_and_not_mask _ _ hmask, UInt64.toNat_add]
  rfl

theorem align_dvd_alignUp (size : UInt64) :
  arena.align ∣ (alignUp size heapAlign).toNat
  := by
  rw [alignUp_toNat]
  apply Nat.dvd_mul_left

/-- A call of `kheap_alloc` is `allocate`; the bytes of the payloads in use are kept. -/
theorem kheapAlloc_repr (hr : Repr h bs) {size : UInt64} (hsize : size ≠ 0) :
  match arena.allocate (alignUp size heapAlign).toNat bs with
    | none => kheapAlloc h size = some (h, 0)
    | some (p, bs') => ∃ h' ptr, kheapAlloc h size = some (h', ptr) ∧ ptr.toNat = p ∧ Repr h' bs'
        ∧ ∀ x, ¬ arena.Internal bs x → h'.mem x = h.mem x
  := by
  have hguard : ¬ (size = 0 ∨ h.head = 0) := not_or.mpr ⟨hsize, hr.head_ne_zero⟩
  have hspec := allocLoop_spec (alignUp size heapAlign) hr.linked hr.tiling.tiles
    hr.tiling.wellSized (by decide) (by decide) hr.length_lt hr.firstAddr
  rw [kheapAlloc, if_neg hguard]
  cases halloc : arena.allocate (alignUp size heapAlign).toNat bs with
  | none =>
      rw [halloc] at hspec
      exact hspec
  | some r =>
      obtain ⟨p, bs'⟩ := r
      rw [halloc] at hspec
      obtain ⟨h', ptr, q, heq, hptr, hfirst, hallocated⟩ := hspec
      have htiling := allocate_tiling hr.tiling (align_dvd_alignUp size) halloc
      use h', ptr, heq, hptr
      constructor
      · constructor
        · exact hallocated.linked
        · rw [hallocated.head, hr.head]
        · exact htiling
        · have hsum := (hallocated.payloads.map Prod.snd).sum_eq
          have hle := htiling.tiles.payloads_sum_le (A := arena)
          have hstop : stop = 167772160 := rfl
          rw [List.map_cons, List.sum_cons] at hsum
          rw [hallocated.used, UInt64.toNat_add, hr.used, hsum]
          omega
      · exact hallocated.frame

/-! ### Release -/

/-- The loop of `kheap_free` looks for the block with the given payload. -/
theorem freeLoop_eq
    {lo hi n : Nat} {ptr block : UInt64} (hlinked : Linked h.mem bs) (htiles : Tiles lo hi bs)
    (hsize : ∀ c ∈ bs, arena.WellSized c) (hlo : 0 < lo) (hhi : hi < 2 ^ 64)
    (hn : bs.length < n) (hblock : block.toNat = KHeap.firstAddr bs) :
  freeLoop h ptr n block
    = match bs.find? (fun b => arena.payloadAddr b = ptr.toNat) with
      | none => some h
      | some b => dropBlock h (UInt64.ofNat b.addr)
  := by
  induction bs generalizing lo n block with
  | nil =>
      obtain ⟨n, rfl⟩ := Nat.exists_eq_add_one_of_ne_zero (by omega : n ≠ 0)
      have hzero : block = 0 := UInt64.toNat_inj.mp hblock
      rw [freeLoop, if_pos hzero]
      rfl
  | cons b bs ih =>
      obtain ⟨n, rfl⟩ := Nat.exists_eq_add_one_of_ne_zero (by omega : n ≠ 0)
      have hb : block.toNat = b.addr := hblock
      have hwell : 32 ≤ b.size := (hsize b List.mem_cons_self).1
      have hbounds := htiles.mem_bounds List.mem_cons_self
      have hfirst := htiles.1
      have hlast := htiles.2.le
      have hpos : block ≠ 0 := by
        simp only [ne_eq, ← UInt64.toNat_inj, UInt64.toNat_zero]
        omega
      rw [freeLoop, if_neg hpos, List.find?_cons]
      by_cases hptr : arena.payloadAddr b = ptr.toNat
      · have hfound : blockPayload block = ptr := by
          rw [← UInt64.toNat_inj, blockPayload_toNat hb (by omega), hptr]
        rw [if_neg (not_not.mpr hfound), decide_eq_true hptr]
        show dropBlock h block = dropBlock h (UInt64.ofNat b.addr)
        rw [← hb, UInt64.ofNat_toNat]
      · have hother : blockPayload block ≠ ptr := by
          rw [ne_eq, ← UInt64.toNat_inj, blockPayload_toNat hb (by omega)]
          exact hptr
        rw [if_pos hother, decide_eq_false hptr]
        apply ih hlinked.2 htiles.2 (fun c hc => hsize c (List.mem_cons_of_mem _ hc)) (by omega)
          (by rw [List.length_cons] at hn; omega) (hlinked.1.blockNext hb)

/-- Clearing the flag of a block in memory releases it. -/
theorem Linked.release
    {m : Memory} {lo hi : Nat} {b : Block} {block : UInt64} (hlinked : Linked m bs)
    (htiles : Tiles lo hi bs) (hsize : ∀ c ∈ bs, arena.WellSized c) (hmem : b ∈ bs)
    (hb : block.toNat = b.addr) :
  Linked (setBlockUsed m block 0) (arena.release (arena.payloadAddr b) bs)
  := by
  induction bs generalizing lo with
  | nil => cases hmem
  | cons c bs ih =>
      have hwell : ∀ d ∈ bs, arena.WellSized d := fun d hd => hsize d (List.mem_cons_of_mem _ hd)
      have hcsize : 32 ≤ c.size := (hsize c List.mem_cons_self).1
      have hlo := htiles.1
      rcases List.mem_cons.mp hmem with rfl | htail
      · have hrest : arena.release (arena.payloadAddr b) bs = bs := by
          apply release_eq_self
          intro d hd heq
          have hbounds := htiles.2.mem_bounds hd
          have heq : d.addr + 32 = b.addr + 32 := heq
          omega
        rw [Arena.release, List.map_cons, if_pos rfl]
        constructor
        · show HeaderAt _ _ (KHeap.firstAddr (arena.release (arena.payloadAddr b) bs))
          rw [hrest]
          apply hlinked.1.setBlockUsed hb
        · show Linked _ (arena.release (arena.payloadAddr b) bs)
          rw [hrest]
          apply hlinked.2.congr_tiles htiles.2 hwell
          intro x hle _
          apply setBlockUsed_apply
          omega
      · have hbounds := htiles.2.mem_bounds htail
        have hne : arena.payloadAddr c ≠ arena.payloadAddr b := by
          show c.addr + 32 ≠ b.addr + 32
          omega
        have hfirst : KHeap.firstAddr (arena.release (arena.payloadAddr b) bs)
            = KHeap.firstAddr bs := by
          cases bs with
          | nil => rfl
          | cons d bs =>
              rw [Arena.release, List.map_cons]
              split
              · rfl
              · rfl
        rw [Arena.release, List.map_cons, if_neg hne]
        constructor
        · show HeaderAt _ _ (KHeap.firstAddr (arena.release (arena.payloadAddr b) bs))
          rw [hfirst]
          apply hlinked.1.congr
          intro x _ hlt
          apply setBlockUsed_apply
          omega
        · apply ih hlinked.2 htiles.2 hwell htail

/-- The body of the loop of `kheap_free` releases the block that is found. -/
theorem dropBlock_repr (hr : Repr h bs) {b : Block} (hmem : b ∈ bs) :
  ∃ h', dropBlock h (UInt64.ofNat b.addr) = some h'
    ∧ Repr h' (merge (arena.release (arena.payloadAddr b) bs))
    ∧ ∀ x, ¬ arena.Internal (arena.release (arena.payloadAddr b) bs) x → h'.mem x = h.mem x
  := by
  have htiles := hr.tiling.tiles
  have hsize := hr.tiling.wellSized
  have hbounds := htiles.mem_bounds hmem
  have hstop : stop = 167772160 := rfl
  have hwell : 32 ≤ b.size := (hsize b hmem).1
  have hpos : ∀ c ∈ bs, 0 < c.size := fun c hc => arena.header_pos.trans_le (hsize c hc).1
  have hb : (UInt64.ofNat b.addr).toNat = b.addr := by
    apply UInt64.toNat_ofNat_of_lt'
    show b.addr < 18446744073709551616
    omega
  obtain ⟨next, hheader⟩ := hr.linked.headerAt hmem
  cases hused : b.used with
  | false =>
      have hself : arena.release (arena.payloadAddr b) bs = bs := by
        apply release_eq_self
        intro c hc heq
        have haddr : c.addr = b.addr := Nat.add_right_cancel heq
        rw [htiles.eq_of_addr_eq hpos hc hmem haddr, hused]
      use h
      rw [dropBlock, if_pos ((hheader.blockUsed hb).mpr hused), hself,
        merge_eq_self hr.tiling.separate]
      use rfl, hr
      intros
      rfl
  | true =>
      have hnot : ¬ KHeap.blockUsed h.mem (UInt64.ofNat b.addr) = 0 := by
        rw [hheader.blockUsed hb, hused]
        simp
      have hlinked := hr.linked.release htiles hsize hmem hb
      have htiles' := release_tiles (A := arena) (arena.payloadAddr b) htiles
      have hsize' := release_wellSized (A := arena) (arena.payloadAddr b) hsize
      have hperm := release_payloads (A := arena) htiles hpos hmem hused
      have hlength : (arena.release (arena.payloadAddr b) bs).length < maxBlocks + 1 := by
        rw [Arena.release, List.length_map]
        exact hr.length_lt
      have hfirst : h.head.toNat = KHeap.firstAddr (arena.release (arena.payloadAddr b) bs) := by
        rw [hr.firstAddr, firstAddr_eq htiles, firstAddr_eq htiles']
        simp [Arena.release]
      obtain ⟨m', hm', hlinked', hframe⟩ := coalesceLoop_spec hlinked htiles' hsize' (by decide)
        (by decide) hlength hfirst
      let size := KHeap.blockPayloadSize (setBlockUsed h.mem (UInt64.ofNat b.addr) 0)
        (UInt64.ofNat b.addr)
      use { h with mem := m', used := h.used - size }
      constructor
      · rw [dropBlock, if_neg hnot, coalesceFreeBlocks, hm']
        rfl
      · constructor
        · constructor
          · exact hlinked'
          · exact hr.head
          · apply merge_tiling htiles' hsize'
          · have hsum := (hperm.map Prod.snd).sum_eq
            have hpayload := (hheader.setBlockUsed hb 0).blockPayloadSize hb
            have hle : size ≤ h.used := by
              rw [UInt64.le_iff_toNat_le, hpayload, hr.used, hsum, List.map_cons, List.sum_cons]
              apply Nat.le_add_right
            rw [List.map_cons, List.sum_cons] at hsum
            rw [merge_payloads, UInt64.toNat_sub_of_le _ _ hle, hpayload, hr.used, hsum]
            apply Nat.add_sub_cancel_left
        · intro x hx
          apply (hframe x hx).trans
          apply setBlockUsed_apply
          by_contra hcon
          apply hx
          apply Internal.release _ _ hsize
          use b, hmem
          rw [hused, if_pos rfl]
          show b.addr ≤ x ∧ x < b.addr + 32
          omega

/-- A call of `kheap_free` releases the payload, if it is one in use, and merges. -/
theorem kheapFree_repr (hr : Repr h bs) (ptr : UInt64) :
  ∃ h', kheapFree h ptr = some h' ∧ Repr h' (merge (arena.release ptr.toNat bs))
    ∧ ∀ x, ¬ arena.Internal (arena.release ptr.toNat bs) x → h'.mem x = h.mem x
  := by
  have hsame : (∀ b ∈ bs, arena.payloadAddr b = ptr.toNat → b.used = false) →
      Repr h (merge (arena.release ptr.toNat bs)) := by
    intro hfree
    rw [release_eq_self hfree, merge_eq_self hr.tiling.separate]
    exact hr
  by_cases hptr : ptr = 0
  · use h
    constructor
    · rw [kheapFree, if_pos (Or.inl hptr)]
    · constructor
      · apply hsame
        intro b _ heq
        have heq : b.addr + 32 = ptr.toNat := heq
        rw [hptr, UInt64.toNat_zero] at heq
        omega
      · intros
        rfl
  · have hguard : ¬ (ptr = 0 ∨ h.head = 0) := not_or.mpr ⟨hptr, hr.head_ne_zero⟩
    rw [kheapFree, if_neg hguard, freeLoop_eq hr.linked hr.tiling.tiles hr.tiling.wellSized
      (by decide) (by decide) hr.length_lt hr.firstAddr]
    cases hfind : bs.find? (fun b => arena.payloadAddr b = ptr.toNat) with
    | none =>
        use h
        constructor
        · rfl
        · constructor
          · apply hsame
            intro b hb heq
            have hno := List.find?_eq_none.mp hfind b hb
            simp only [decide_eq_true_eq] at hno
            exact (hno heq).elim
          · intros
            rfl
    | some b =>
        have hmem := List.mem_of_find?_eq_some hfind
        have hptr := List.find?_some hfind
        simp only [decide_eq_true_eq] at hptr
        rw [← hptr]
        apply dropBlock_repr hr hmem

end

end KHeap
