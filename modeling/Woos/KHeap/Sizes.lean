import Woos.KHeap.Session

/-!
# Sizes of allocations

What a request of any size is given.  `kheap_alloc` rounds the size up modulo `2 ^ 64`, and
`calloc` multiplies modulo `2 ^ 64`, so that a request may be given less than it asks for.
`AllocExact` and `CallocExact` say in exact arithmetic what a call is to return, and
`allocation_sizes` for which arguments it does, in every heap that a run reaches.
-/

namespace KHeap

open Arena

/-! ### The blocks of a heap -/

/-- The blocks from `block` on, as they are linked in memory. -/
def blocksFrom (m : Memory) : Nat → UInt64 → List Block
  | 0, _ => []
  | n + 1, block =>
      if block = 0 then
        []
      else
        ⟨block.toNat, (blockSize m block).toNat, blockUsed m block != 0⟩
          :: blocksFrom m n (blockNext m block)

/-- The blocks of the heap. -/
def blocks (h : KHeap) : List Block := blocksFrom h.mem (maxBlocks + 1) h.head

/-- There is a block in use with `q` bytes of payload at `ptr`. -/
def PayloadAt (h : KHeap) (ptr : UInt64) (q : Nat) : Prop := (ptr.toNat, q) ∈ arena.payloads h.blocks

/-- Some free block has at least `n` bytes of payload. -/
def HasFree (h : KHeap) (n : Nat) : Prop :=
  ∃ b ∈ h.blocks, b.used = false ∧ n ≤ arena.payloadSize b

section

variable {m : Memory} {h : KHeap} {bs : List Block} {L : List (Nat × Nat)}

theorem blocksFrom_eq {lo hi n : Nat} {block : UInt64} (hlinked : Linked m bs)
    (htiles : Tiles lo hi bs) (hsize : ∀ b ∈ bs, arena.WellSized b) (hlo : 0 < lo)
    (hn : bs.length < n) (hblock : block.toNat = firstAddr bs) :
  blocksFrom m n block = bs
  := by
  induction bs generalizing lo n block with
  | nil =>
      obtain ⟨n, rfl⟩ := Nat.exists_eq_add_one_of_ne_zero (by omega : n ≠ 0)
      have hzero : block = 0 := UInt64.toNat_inj.mp hblock
      rw [blocksFrom, if_pos hzero]
  | cons b bs ih =>
      obtain ⟨n, rfl⟩ := Nat.exists_eq_add_one_of_ne_zero (by omega : n ≠ 0)
      have hb : block.toNat = b.addr := hblock
      have hfirst := htiles.1
      have hpos : block ≠ 0 := by
        simp only [ne_eq, ← UInt64.toNat_inj, UInt64.toNat_zero]
        omega
      have hused : (blockUsed m block != 0) = b.used := by
        rw [Bool.eq_iff_iff, bne_iff_ne, ne_eq, hlinked.1.blockUsed hb, Bool.not_eq_false]
      have hrest : blocksFrom m n (blockNext m block) = bs := by
        apply ih hlinked.2 htiles.2 (fun c hc => hsize c (List.mem_cons_of_mem _ hc)) (by omega)
        · rw [List.length_cons] at hn
          omega
        · exact hlinked.1.blockNext hb
      rw [blocksFrom, if_neg hpos, hb, hlinked.1.blockSize hb, hused, hrest]

theorem Repr.blocks (hr : Repr h bs) :
  h.blocks = bs
  := by
  apply blocksFrom_eq hr.linked hr.tiling.tiles hr.tiling.wellSized (by decide) hr.length_lt
    hr.firstAddr

theorem Live.perm_blocks (hl : Live h L) :
  L.Perm (arena.payloads h.blocks)
  := by
  obtain ⟨bs, hr, hperm⟩ := hl
  rw [hr.blocks]
  exact hperm

theorem Live.payloadAt_iff (hl : Live h L) {ptr : UInt64} {q : Nat} :
  PayloadAt h ptr q ↔ (ptr.toNat, q) ∈ L
  := hl.perm_blocks.mem_iff.symm

/-- The size of a linked block is the one in its header. -/
theorem size_of_mem_blocksFrom {n : Nat} {block : UInt64} {b : Block}
    (hb : b ∈ blocksFrom m n block) :
  ∃ addr : UInt64, addr.toNat = b.addr ∧ (blockSize m addr).toNat = b.size
  := by
  induction n generalizing block with
  | zero => cases hb
  | succ n ih =>
      rw [blocksFrom] at hb
      split at hb
      · cases hb
      · rcases List.mem_cons.mp hb with rfl | hb
        · exact ⟨block, rfl, rfl⟩
        · apply ih hb

/-- A payload is as large as the header in front of it says, in every heap. -/
theorem PayloadAt.size {ptr : UInt64} {q : Nat} (hp : PayloadAt h ptr q) :
  (currentPayload h ptr).toNat = q
  := by
  obtain ⟨b, hb, -, hptr, rfl⟩ := mem_payloads.mp hp
  obtain ⟨addr, haddr, hsize⟩ := size_of_mem_blocksFrom hb
  have hptr' : b.addr + 32 = ptr.toNat := hptr
  have hheader : headerSize.toNat = 32 := rfl
  have hle : headerSize ≤ ptr := by
    rw [UInt64.le_iff_toNat_le]
    omega
  have hback : ptr - headerSize = addr := by
    rw [← UInt64.toNat_inj, UInt64.toNat_sub_of_le _ _ hle]
    omega
  rw [currentPayload, hback, blockPayloadSize, payloadSize]
  split
  case isTrue hsmall =>
    rw [UInt64.le_iff_toNat_le] at hsmall
    show 0 = b.size - 32
    omega
  case isFalse hlarge =>
    have hle' : headerSize ≤ blockSize h.mem addr := by
      rw [UInt64.le_iff_toNat_le] at hlarge ⊢
      omega
    rw [UInt64.toNat_sub_of_le _ _ hle', hsize]
    rfl

theorem HasFree.mono {n k : Nat} (hfree : HasFree h n) (hk : k ≤ n) :
  HasFree h k
  := by
  obtain ⟨b, hb, hused, hle⟩ := hfree
  exact ⟨b, hb, hused, hk.trans hle⟩

/-- The loop of `kheap_alloc` finds a block exactly when there is one. -/
theorem Live.hasRoom_iff (hl : Live h L) (size : UInt64) :
  HasRoom h size ↔ HasFree h (alignUp size heapAlign).toNat
  := by
  obtain ⟨bs, hr, -⟩ := hl
  rw [hr.hasRoom_iff, firstFit, List.find?_isSome, HasFree, hr.blocks]
  simp

end

/-! ### Exact sizes -/

/-- The size rounded up to a multiple of 16, in exact arithmetic. -/
def roundUp (n : Nat) : Nat := (n + 15) / 16 * 16

/-- What a call of `kheap_alloc` is to return. -/
def AllocExact (h : KHeap) (size : UInt64) : Prop :=
  ∃ h' ptr, kheapAlloc h size = some (h', ptr)
    ∧ (ptr ≠ 0 → ∃ q, PayloadAt h' ptr q ∧ size.toNat ≤ q)
    ∧ (ptr = 0 → size ≠ 0 → ¬ HasFree h (roundUp size.toNat))

/-- `calloc` of `lib.c` -/
def calloc (h : KHeap) (nmemb size : UInt64) : Option (KHeap × UInt64) := do
  let total := nmemb * size
  let (h, ptr) ← kheapAlloc h total
  if ptr ≠ 0 then
    some ({ h with mem := h.mem.fill ptr.toNat 0 total.toNat }, ptr)
  else
    some (h, ptr)

/-- What a call of `calloc` is to return. -/
def CallocExact (h : KHeap) (nmemb size : UInt64) : Prop :=
  ∃ h' ptr, calloc h nmemb size = some (h', ptr)
    ∧ (ptr ≠ 0 → ∃ q, PayloadAt h' ptr q ∧ nmemb.toNat * size.toNat ≤ q
        ∧ ∀ i < nmemb.toNat * size.toNat, h'.mem (ptr.toNat + i) = 0)

section

variable {h : KHeap} {L : List (Nat × Nat)}

/-- A request that does not fit into a word after rounding is larger than every payload. -/
theorem Live.payload_lt (hl : Live h L) {p q : Nat} (hp : (p, q) ∈ L) :
  q < 2 ^ 64 - 16
  := by
  have hbounds := (hl.bounds hp).2
  have hstop : stop = 167772160 := rfl
  omega

theorem alignUp_eq_roundUp {size : UInt64} (hsize : size.toNat ≤ 2 ^ 64 - 16) :
  (alignUp size heapAlign).toNat = roundUp size.toNat
  := by
  rw [alignUp_toNat, roundUp, Nat.mod_eq_of_lt (by omega)]

theorem alignUp_eq_zero {size : UInt64} (hsize : 2 ^ 64 - 16 < size.toNat) :
  (alignUp size heapAlign).toNat = 0
  := (alignUp_eq_zero_iff size).mpr (Or.inr hsize)

/-- `kheap_alloc` is exact when the size can be rounded up, and when there is no free block. -/
theorem allocExact_iff (hl : Live h L) (size : UInt64) :
  AllocExact h size ↔ size.toNat ≤ 2 ^ 64 - 16 ∨ ¬ HasFree h 0
  := by
  rcases kheapAlloc_live hl size with ⟨halloc, hnone⟩ | ⟨h', ptr, q, halloc, hroom, hptr, hle, -, hl', -⟩
  · rw [hl.hasRoom_iff] at hnone
    constructor
    · intro _
      by_cases hsize : size.toNat ≤ 2 ^ 64 - 16
      · exact Or.inl hsize
      · rw [not_le] at hsize
        have hne : size ≠ 0 := by
          rintro rfl
          cases hsize
        rw [alignUp_eq_zero hsize] at hnone
        exact Or.inr (hnone.resolve_left hne)
    · intro hcond
      refine ⟨h, 0, halloc, fun hne => (hne rfl).elim, fun _ hne hfree => ?_⟩
      rcases hcond with hsize | hempty
      · rw [alignUp_eq_roundUp hsize] at hnone
        exact hnone.resolve_left hne hfree
      · exact hempty (hfree.mono (Nat.zero_le _))
  · have hq := hl'.payload_lt List.mem_cons_self
    rw [hl.hasRoom_iff] at hroom
    constructor
    · rintro ⟨h'', ptr', halloc', hsome, -⟩
      cases halloc.symm.trans halloc'
      obtain ⟨q', hpayload, hle'⟩ := hsome hptr
      obtain rfl : q = q' :=
        (hl'.currentPayload List.mem_cons_self).symm.trans hpayload.size
      left
      omega
    · intro hcond
      refine ⟨h', ptr, halloc, fun _ => ?_, fun hnull => (hptr hnull).elim⟩
      have hsize := hcond.resolve_right (not_not.mpr (hroom.mono (Nat.zero_le _)))
      exact ⟨q, hl'.payloadAt_iff.mpr List.mem_cons_self, (le_alignUp hsize).trans hle⟩

/-- Writing a payload does not change the header in front of it. -/
theorem currentPayload_fill {ptr : UInt64} (n : Nat) (hle : headerSize ≤ ptr) :
  currentPayload { h with mem := h.mem.fill ptr.toNat 0 n } ptr = currentPayload h ptr
  := by
  have hheader : headerSize.toNat = 32 := rfl
  have hptr : 32 ≤ ptr.toNat := by
    rw [UInt64.le_iff_toNat_le] at hle
    omega
  have hback : (ptr - headerSize).toNat = ptr.toNat - 32 := by
    rw [UInt64.toNat_sub_of_le _ _ hle, hheader]
  have hsize : blockSize (h.mem.fill ptr.toNat 0 n) (ptr - headerSize)
      = blockSize h.mem (ptr - headerSize) := by
    have hload : (h.mem.fill ptr.toNat 0 n).load 8 (ptr - headerSize).toNat
        = h.mem.load 8 (ptr - headerSize).toNat := by
      apply Memory.load_congr
      intro i hi
      apply Memory.fill_apply_outside
      omega
    rw [blockSize, blockSize, hload]
  rw [currentPayload, currentPayload, blockPayloadSize, blockPayloadSize, hsize]

/-- `calloc` is exact when the product can be rounded up, and when it returns nothing. -/
theorem callocExact_iff (hl : Live h L) (nmemb size : UInt64) :
  CallocExact h nmemb size
    ↔ nmemb.toNat * size.toNat ≤ 2 ^ 64 - 16 ∨ nmemb * size = 0
      ∨ ¬ HasFree h (alignUp (nmemb * size) heapAlign).toNat
  := by
  have hmul : (nmemb * size).toNat = nmemb.toNat * size.toNat % 2 ^ 64 := UInt64.toNat_mul _ _
  rcases kheapAlloc_live hl (nmemb * size) with
    ⟨halloc, hnone⟩ | ⟨h', ptr, q, halloc, hroom, hptr, hle, hzero, hl', -⟩
  · rw [hl.hasRoom_iff] at hnone
    constructor
    · exact fun _ => Or.inr hnone
    · intro _
      refine ⟨h, 0, ?_, fun hne => (hne rfl).elim⟩
      simp [calloc, halloc]
  · have hq := hl'.payload_lt List.mem_cons_self
    have hcalloc : calloc h nmemb size
        = some ({ h' with mem := h'.mem.fill ptr.toNat 0 (nmemb * size).toNat }, ptr) := by
      simp [calloc, halloc, hptr]
    rw [hl.hasRoom_iff] at hroom
    constructor
    · rintro ⟨h'', ptr', hcalloc', hsome⟩
      cases hcalloc.symm.trans hcalloc'
      obtain ⟨q', hpayload, hle', -⟩ := hsome hptr
      have hheader : headerSize ≤ ptr := by
        rw [UInt64.le_iff_toNat_le]
        exact (Nat.le_add_left _ _).trans (hl'.bounds List.mem_cons_self).1
      have hsame : q = q' := by
        rw [← hpayload.size, currentPayload_fill _ hheader, hl'.currentPayload List.mem_cons_self]
      left
      omega
    · intro hcond
      have hprod : nmemb.toNat * size.toNat ≤ 2 ^ 64 - 16 := by
        rcases hcond with hprod | hnull | hempty
        · exact hprod
        · rw [hnull, kheapAlloc, if_pos (Or.inl rfl)] at halloc
          cases halloc
          exact (hptr rfl).elim
        · exact (hempty hroom).elim
      have htotal : (nmemb * size).toNat = nmemb.toNat * size.toNat := by
        rw [hmul]
        omega
      have hfits := (le_alignUp (by omega)).trans hle
      have hwritten : Live { h' with mem := h'.mem.fill ptr.toNat 0 (nmemb * size).toNat }
          ((ptr.toNat, q) :: L) := by
        apply hl'.write List.mem_cons_self
        intro x hx
        apply Memory.fill_apply_outside
        omega
      refine ⟨_, ptr, hcalloc, fun _ => ⟨q, hwritten.payloadAt_iff.mpr List.mem_cons_self, ?_, ?_⟩⟩
      · omega
      · intro i hi
        apply Memory.fill_apply
        omega

end

namespace Session

/-- In every heap that a run reaches in which no reallocation overruns, `kheap_alloc` is exact
exactly for the sizes that can be rounded up in a word, unless no block is free, and `calloc`
exactly for the counts whose product can be, unless it returns nothing. -/
theorem allocation_sizes (m : Memory) (calls : List Call)
    (h : Run.Guarded call (fun s c => s.Permitted c ∧ s.DoesNotOverrun c) (init m) calls) :
  ∃ s, Run.exec call (init m) calls = some s
    ∧ (∀ size, AllocExact s.heap size ↔ size.toNat ≤ 2 ^ 64 - 16 ∨ ¬ HasFree s.heap 0)
    ∧ ∀ nmemb size, CallocExact s.heap nmemb size
        ↔ nmemb.toNat * size.toNat ≤ 2 ^ 64 - 16 ∨ nmemb * size = 0
          ∨ ¬ HasFree s.heap (alignUp (nmemb * size) heapAlign).toNat
  := by
  obtain ⟨s, hrun, L, hl, -⟩ := exec_holds m h
  exact ⟨s, hrun, allocExact_iff hl, callocExact_iff hl⟩

/-- The case of a heap with one allocation. -/
theorem allocation_sizes_alloc :
  ∃ s, Run.exec call (init (fun _ => 0)) [.alloc 16] = some s
    ∧ (∀ size, AllocExact s.heap size ↔ size.toNat ≤ 2 ^ 64 - 16 ∨ ¬ HasFree s.heap 0)
    ∧ ∀ nmemb size, CallocExact s.heap nmemb size
        ↔ nmemb.toNat * size.toNat ≤ 2 ^ 64 - 16 ∨ nmemb * size = 0
          ∨ ¬ HasFree s.heap (alignUp (nmemb * size) heapAlign).toNat
  := by
  apply allocation_sizes
  exact ⟨⟨trivial, trivial⟩, fun _ _ => trivial⟩

/-- The largest request is given a payload of no bytes. -/
theorem not_allocation_sizes :
  ¬ ∀ (m : Memory) (calls : List Call),
    Run.Guarded call (fun s c => s.Permitted c ∧ s.DoesNotOverrun c) (init m) calls →
      ∃ s, Run.exec call (init m) calls = some s
        ∧ (∀ size, AllocExact s.heap size) ∧ ∀ nmemb size, CallocExact s.heap nmemb size
  := by
  intro hexact
  obtain ⟨s, hs, halloc, -⟩ := hexact (fun _ => 0) [] trivial
  obtain rfl := Option.some.inj hs
  have hempty : (kheapAlloc (kheapInit (fun _ => 0)) 0xffffffffffffffff).map
      (fun r => (r.2, currentPayload r.1 r.2)) = some (0x2000020, 0) := by
    decide +kernel
  obtain ⟨r, hr, hreads⟩ := Option.map_eq_some_iff.mp hempty
  obtain ⟨hptr, hpayload⟩ := Prod.mk.inj hreads
  obtain ⟨h', ptr, hcall, hsome, -⟩ := halloc 0xffffffffffffffff
  obtain rfl := Option.some.inj (hr.symm.trans hcall)
  have hne : (0x2000020 : UInt64) ≠ 0 := by decide
  rw [← hptr] at hne
  obtain ⟨q, hq, hle⟩ := hsome hne
  have hsize := hq.size
  rw [hpayload, UInt64.toNat_zero] at hsize
  rw [← hsize] at hle
  cases hle

end Session

end KHeap
