import Woos.KHeap.Basic

/-!
# The loops of the heap on linked blocks

`Linked m bs` says that memory holds the headers of the blocks `bs`, each pointing to the
next.  The loops of the heap compute on linked blocks the operations of `Arena`:
`allocLoop_spec` relates `allocLoop` to `allocate`, and `coalesceLoop_spec` relates
`coalesceLoop` to `merge`.  Each states also which bytes stay unchanged.
-/

namespace KHeap

open Arena

/-- The arena of the kernel heap. -/
def arena : Arena where
  header := 32
  align := 16
  minSplit := 48
  align_pos := by decide
  header_pos := by decide
  align_header := by decide
  header_le := by decide

/-- The address of the first block of a list, `0` when there is none. -/
def firstAddr : List Block → Nat
  | [] => 0
  | b :: _ => b.addr

/-- Memory holds the header of the block `b`, whose `next` is `next`. -/
structure HeaderAt (m : Memory) (b : Block) (next : Nat) : Prop where
  size : m.load 8 b.addr = b.size
  next : m.load 8 (b.addr + 8) = next
  used : m (b.addr + 16) = 0 ↔ b.used = false

/-- Memory holds the headers of the blocks, each pointing to the next. -/
def Linked (m : Memory) : List Block → Prop
  | [] => True
  | b :: bs => HeaderAt m b (firstAddr bs) ∧ Linked m bs

/-! ### Reading headers -/

section Read

variable {m : Memory} {b : Block} {next : Nat} {block : UInt64}

theorem HeaderAt.blockSize (h : HeaderAt m b next) (hb : block.toNat = b.addr) :
  (blockSize m block).toNat = b.size
  := by
  have hlt := m.load_lt 8 b.addr
  rw [KHeap.blockSize, hb, UInt64.toNat_ofNat_of_lt' hlt, h.size]

theorem HeaderAt.blockNext (h : HeaderAt m b next) (hb : block.toNat = b.addr) :
  (blockNext m block).toNat = next
  := by
  have hlt := m.load_lt 8 (b.addr + 8)
  rw [KHeap.blockNext, hb, UInt64.toNat_ofNat_of_lt' hlt, h.next]

theorem HeaderAt.blockUsed (h : HeaderAt m b next) (hb : block.toNat = b.addr) :
  blockUsed m block = 0 ↔ b.used = false
  := by
  rw [KHeap.blockUsed, hb, h.used]

theorem HeaderAt.blockPayloadSize (h : HeaderAt m b next) (hb : block.toNat = b.addr) :
  (blockPayloadSize m block).toNat = arena.payloadSize b
  := by
  have hsize := h.blockSize hb
  have hheader : headerSize.toNat = 32 := rfl
  rw [KHeap.blockPayloadSize, payloadSize]
  split
  case isTrue hle =>
    rw [UInt64.le_iff_toNat_le] at hle
    show 0 = b.size - 32
    omega
  case isFalse hlt =>
    rw [UInt64.le_iff_toNat_le] at hlt
    have hle : headerSize ≤ KHeap.blockSize m block := by
      rw [UInt64.le_iff_toNat_le]
      omega
    rw [UInt64.toNat_sub_of_le _ _ hle, hsize, hheader]
    rfl

end Read

/-! ### Writing headers -/

section Write

variable {m m' : Memory} {b c : Block} {next : Nat} {block : UInt64}

/-- A header is determined by the first 17 bytes of its block. -/
theorem HeaderAt.congr
    (h : HeaderAt m b next) (hm : ∀ x, b.addr ≤ x → x < b.addr + 17 → m' x = m x) :
  HeaderAt m' b next
  := by
  constructor
  · rw [← h.size]
    apply Memory.load_congr
    intro i hi
    apply hm
    · omega
    · omega
  · rw [← h.next]
    apply Memory.load_congr
    intro i hi
    apply hm
    · omega
    · omega
  · rw [← h.used, hm]
    · omega
    · omega

theorem setBlockSize_apply
    (size : UInt64) {x : Nat} (hx : x < block.toNat ∨ block.toNat + 17 ≤ x) :
  setBlockSize m block size x = m x
  := by
  apply Memory.store_apply_outside
  omega

theorem setBlockNext_apply
    (next : UInt64) {x : Nat} (hx : x < block.toNat ∨ block.toNat + 17 ≤ x) :
  setBlockNext m block next x = m x
  := by
  apply Memory.store_apply_outside
  omega

theorem setBlockUsed_apply
    (used : UInt8) {x : Nat} (hx : x < block.toNat ∨ block.toNat + 17 ≤ x) :
  setBlockUsed m block used x = m x
  := by
  apply Function.update_of_ne
  omega

theorem HeaderAt.setBlockSize
    (h : HeaderAt m b next) (hb : block.toNat = b.addr) (size : UInt64) :
  HeaderAt (setBlockSize m block size) { b with size := size.toNat } next
  := by
  have hlt := size.toNat_lt
  constructor
  · rw [KHeap.setBlockSize, hb]
    apply Memory.load_store_of_lt
    omega
  · rw [← h.next, KHeap.setBlockSize, hb]
    apply Memory.load_store_disjoint
    apply Or.inr
    apply le_refl
  · rw [← h.used, KHeap.setBlockSize, hb, Memory.store_apply_outside]
    apply Or.inr
    apply Nat.add_le_add_left
    decide

theorem HeaderAt.setBlockNext
    (h : HeaderAt m b next) (hb : block.toNat = b.addr) (next' : UInt64) :
  HeaderAt (setBlockNext m block next') b next'.toNat
  := by
  have hlt := next'.toNat_lt
  constructor
  · rw [← h.size, KHeap.setBlockNext, hb]
    apply Memory.load_store_disjoint
    apply Or.inl
    apply le_refl
  · rw [KHeap.setBlockNext, hb]
    apply Memory.load_store_of_lt
    omega
  · rw [← h.used, KHeap.setBlockNext, hb, Memory.store_apply_outside]
    omega

theorem HeaderAt.setBlockUsed
    (h : HeaderAt m b next) (hb : block.toNat = b.addr) (used : UInt8) :
  HeaderAt (setBlockUsed m block used) { b with used := used != 0 } next
  := by
  constructor
  · rw [← h.size, KHeap.setBlockUsed, hb]
    apply Memory.load_congr
    intro i hi
    apply Function.update_of_ne
    show b.addr + i ≠ b.addr + 16
    omega
  · rw [← h.next, KHeap.setBlockUsed, hb]
    apply Memory.load_congr
    intro i hi
    apply Function.update_of_ne
    show b.addr + 8 + i ≠ b.addr + 16
    omega
  · rw [KHeap.setBlockUsed, hb, Function.update_self]
    simp

/-- Writing the three fields of a header where there was none. -/
theorem headerAt_write (m : Memory) (block size next : UInt64) (used : UInt8) :
  HeaderAt (setBlockUsed (setBlockNext (setBlockSize m block size) block next) block used)
    ⟨block.toNat, size.toNat, used != 0⟩ next.toNat
  := by
  have h : HeaderAt m
      ⟨block.toNat, m.load 8 block.toNat, m (block.toNat + 16) != 0⟩
      (m.load 8 (block.toNat + 8)) := by
    constructor
    · rfl
    · rfl
    · simp
  have hsize : HeaderAt (setBlockSize m block size) _ _ := h.setBlockSize rfl size
  have hnext : HeaderAt (setBlockNext _ block next) _ _ := hsize.setBlockNext rfl next
  apply hnext.setBlockUsed rfl used

end Write

/-! ### Linked blocks -/

theorem Linked.congr
    {m m' : Memory} {bs : List Block} (h : Linked m bs)
    (hm : ∀ b ∈ bs, ∀ x, b.addr ≤ x → x < b.addr + 17 → m' x = m x) :
  Linked m' bs
  := by
  induction bs with
  | nil => trivial
  | cons b bs ih =>
      constructor
      · apply h.1.congr
        apply hm b List.mem_cons_self
      · apply ih h.2
        intro c hc
        apply hm c (List.mem_cons_of_mem _ hc)

/-- Blocks stay linked when no byte of the interval they tile changes. -/
theorem Linked.congr_tiles
    {m m' : Memory} {lo hi : Nat} {bs : List Block} (h : Linked m bs) (ht : Tiles lo hi bs)
    (hsize : ∀ b ∈ bs, arena.WellSized b) (hm : ∀ x, lo ≤ x → x < hi → m' x = m x) :
  Linked m' bs
  := by
  apply h.congr
  intro b hb x hle hlt
  have hbounds := ht.mem_bounds hb
  have hheader : 32 ≤ b.size := (hsize b hb).1
  apply hm
  · omega
  · omega

/-- The successor of a block of a tiled interval is `0` or the next address. -/
theorem firstAddr_eq
    {lo hi : Nat} {bs : List Block} (h : Tiles lo hi bs) :
  firstAddr bs = if bs = [] then 0 else lo
  := by
  cases bs with
  | nil => rfl
  | cons b bs => exact h.1

/-- The `next` pointer of a block leads to a block. -/
theorem Linked.next_mem
    {m : Memory} {bs : List Block} {b : Block} {block : UInt64} (h : Linked m bs) (hmem : b ∈ bs)
    (hb : block.toNat = b.addr) (hnext : blockNext m block ≠ 0) :
  ∃ c ∈ bs, c.addr = (blockNext m block).toNat
  := by
  induction bs with
  | nil => cases hmem
  | cons c bs ih =>
      rcases List.mem_cons.mp hmem with rfl | htail
      · have haddr := h.1.blockNext hb
        cases bs with
        | nil =>
            apply (hnext _).elim
            apply UInt64.toNat_inj.mp haddr
        | cons d bs =>
            use d
            simp [haddr, firstAddr]
      · obtain ⟨d, hd, haddr⟩ := ih h.2 htail
        exact ⟨d, List.mem_cons_of_mem _ hd, haddr⟩

/-! ### Allocation of a block -/

/-- The heap `h'` is `h` after its blocks `bs` have become `bs'`, of which one new payload
of size `q` at `p` is in use. -/
structure Allocated (h h' : KHeap) (bs bs' : List Block) (p q : UInt64) : Prop where
  linked : Linked h'.mem bs'
  head : h'.head = h.head
  used : h'.used = h.used + q
  payloads : (arena.payloads bs').Perm ((p.toNat, q.toNat) :: arena.payloads bs)
  frame : ∀ x, ¬ arena.Internal bs x → h'.mem x = h.mem x

section Alloc

variable {h : KHeap} {b : Block} {block need : UInt64}

theorem blockPayload_toNat (hb : block.toNat = b.addr) (hend : b.addr + 32 < 2 ^ 64) :
  (blockPayload block).toNat = arena.payloadAddr b
  := by
  have hheader : headerSize.toNat = 32 := rfl
  rw [blockPayload, UInt64.toNat_add, hb, hheader, Nat.mod_eq_of_lt hend]
  rfl

/-- The bytes outside the two headers that `splitBlock` writes are unchanged. -/
theorem splitBlock_apply
    {m : Memory} {split x : Nat} (hsplit : (blockPayload block + need).toNat = split)
    (hblock : x < block.toNat ∨ block.toNat + 17 ≤ x) (hx : x < split ∨ split + 17 ≤ x) :
  splitBlock m block need x = m x
  := by
  subst hsplit
  rw [splitBlock, setBlockNext_apply _ hblock, setBlockSize_apply _ hblock,
    setBlockUsed_apply _ hx, setBlockNext_apply _ hx, setBlockSize_apply _ hx]

/-- Splitting writes the headers of the two blocks. -/
theorem splitBlock_headers
    {m : Memory} {next : Nat} (need : UInt64) (hheader : HeaderAt m b next) (hb : block.toNat = b.addr)
    (hsize : 32 ≤ b.size) (hend : b.addr + b.size < 2 ^ 64)
    (hfit : need.toNat + 48 ≤ arena.payloadSize b) :
  HeaderAt (splitBlock m block need) { b with size := 32 + need.toNat } (b.addr + 32 + need.toNat)
    ∧ HeaderAt (splitBlock m block need)
        ⟨b.addr + 32 + need.toNat, arena.payloadSize b - need.toNat, false⟩ next
  := by
  have hpayload := hheader.blockPayloadSize hb
  have hsize' : arena.payloadSize b = b.size - 32 := rfl
  have hstart := blockPayload_toNat hb (by omega)
  have hstart' : arena.payloadAddr b = b.addr + 32 := rfl
  have hsplit : (blockPayload block + need).toNat = b.addr + 32 + need.toNat := by
    rw [UInt64.toNat_add, hstart, hstart']
    omega
  have hremain : (blockPayloadSize m block - need).toNat = arena.payloadSize b - need.toNat := by
    have hle : need ≤ blockPayloadSize m block := by
      rw [UInt64.le_iff_toNat_le]
      omega
    rw [UInt64.toNat_sub_of_le _ _ hle, hpayload]
  have hnewSize : (headerSize + need).toNat = 32 + need.toNat := by
    have hheader : headerSize.toNat = 32 := rfl
    rw [UInt64.toNat_add, hheader]
    omega
  have hnext := hheader.blockNext hb
  have hread : ∀ size, blockNext (setBlockSize m (blockPayload block + need) size) block
      = blockNext m block := by
    intro size
    rw [blockNext, blockNext, setBlockSize, Memory.load_store_disjoint]
    omega
  constructor
  · have hkeep : HeaderAt
        (setBlockUsed
          (setBlockNext
            (setBlockSize m (blockPayload block + need) (blockPayloadSize m block - need))
            (blockPayload block + need) (blockNext m block))
          (blockPayload block + need) 0) b next := by
      apply hheader.congr
      intro x hle hlt
      have hx : x < (blockPayload block + need).toNat
          ∨ (blockPayload block + need).toNat + 17 ≤ x := by omega
      rw [setBlockUsed_apply _ hx, setBlockNext_apply _ hx, setBlockSize_apply _ hx]
    have hwrite := (hkeep.setBlockSize hb (headerSize + need)).setBlockNext
      hb (blockPayload block + need)
    rw [hsplit, hnewSize] at hwrite
    rw [splitBlock, hread]
    exact hwrite
  · have hwrite := headerAt_write m (blockPayload block + need) (blockPayloadSize m block - need)
      (blockNext m block) 0
    rw [hsplit, hremain, hnext] at hwrite
    apply hwrite.congr
    intro x hle _
    have hle : b.addr + 32 + need.toNat ≤ x := hle
    have hx : x < block.toNat ∨ block.toNat + 17 ≤ x := by omega
    rw [splitBlock, hread, setBlockNext_apply _ hx, setBlockSize_apply _ hx]

/-- What is outside the payloads in use and the headers is outside a free block. -/
theorem outside_of_not_internal {bs : List Block} (hfree : b.used = false) {x : Nat}
    (hx : ¬ arena.Internal (b :: bs) x) :
  x < b.addr ∨ b.addr + b.size ≤ x
  := by
  by_contra hcon
  apply hx
  use b, List.mem_cons_self
  rw [hfree]
  simp only [Bool.false_eq_true, if_false]
  omega

/-- The test of `takeBlock` for what is left of a block. -/
theorem splits_iff {m : Memory} {next : Nat} (hheader : HeaderAt m b next) (hb : block.toNat = b.addr)
    (hfit : need.toNat ≤ arena.payloadSize b) :
  headerSize + heapAlign ≤ blockPayloadSize m block - need
    ↔ 48 ≤ arena.payloadSize b - need.toNat
  := by
  have hpayload := hheader.blockPayloadSize hb
  have hle : need ≤ blockPayloadSize m block := by
    rw [UInt64.le_iff_toNat_le]
    omega
  rw [UInt64.le_iff_toNat_le, UInt64.toNat_sub_of_le _ _ hle, hpayload]
  rfl

/-- Taking a free block that leaves room for another one splits it. -/
theorem takeBlock_splits
    {lo hi : Nat} {bs : List Block} (hlinked : Linked h.mem (b :: bs))
    (htiles : Tiles lo hi (b :: bs)) (hsize : ∀ c ∈ b :: bs, arena.WellSized c)
    (hhi : hi < 2 ^ 64) (hb : block.toNat = b.addr) (hfree : b.used = false)
    (hfit : need.toNat ≤ arena.payloadSize b) (hsplit : 48 ≤ arena.payloadSize b - need.toNat) :
  ∃ q, Allocated h (takeBlock h block need) (b :: bs) (arena.carve need.toNat b ++ bs)
    (blockPayload block) q
  := by
  obtain ⟨hheader, hrest⟩ := hlinked
  have hwell : 32 ≤ b.size := (hsize b List.mem_cons_self).1
  have hbounds := htiles.mem_bounds List.mem_cons_self
  have hlo := htiles.1
  have hsize' : arena.payloadSize b = b.size - 32 := rfl
  have hstart := blockPayload_toNat hb (by omega)
  have hstart' : arena.payloadAddr b = b.addr + 32 := rfl
  have hmem : (takeBlock h block need).mem
      = setBlockUsed (splitBlock h.mem block need) block 1 := by
    simp only [takeBlock, if_pos ((splits_iff hheader hb hfit).mpr hsplit)]
  have hcarve : arena.carve need.toNat b
      = [⟨b.addr, 32 + need.toNat, true⟩,
          ⟨b.addr + 32 + need.toNat, arena.payloadSize b - need.toNat, false⟩] := if_pos hsplit
  obtain ⟨hfirst, hsecond⟩ := splitBlock_headers need hheader hb hwell (by omega)
    (by omega)
  have hused := hfirst.setBlockUsed hb 1
  have hspec : ∀ x, x < b.addr ∨ b.addr + b.size ≤ x → (takeBlock h block need).mem x = h.mem x := by
    intro x hx
    have hplus : (blockPayload block + need).toNat = b.addr + 32 + need.toNat := by
      rw [UInt64.toNat_add, hstart, hstart']
      omega
    rw [hmem, setBlockUsed_apply _ (by omega), splitBlock_apply hplus (by omega) (by omega)]
  use blockPayloadSize (takeBlock h block need).mem block
  constructor
  · rw [hcarve, hmem]
    constructor
    · exact hused
    · constructor
      · apply hsecond.congr
        intro x hle _
        have hle : b.addr + 32 + need.toNat ≤ x := hle
        apply setBlockUsed_apply
        omega
      · rw [← hmem]
        apply hrest.congr_tiles htiles.2 (fun c hc => hsize c (List.mem_cons_of_mem _ hc))
        intro x hle _
        apply hspec
        omega
  · rfl
  · rfl
  · rw [hcarve, hmem, hused.blockPayloadSize hb, hstart]
    simp [payloads, hfree, payloadAddr, payloadSize]
  · intro x hx
    apply hspec x (outside_of_not_internal hfree hx)

/-- Taking a free block that leaves no room for another one takes it whole. -/
theorem takeBlock_whole
    {lo hi : Nat} {bs : List Block} (hlinked : Linked h.mem (b :: bs))
    (htiles : Tiles lo hi (b :: bs)) (hsize : ∀ c ∈ b :: bs, arena.WellSized c)
    (hhi : hi < 2 ^ 64) (hb : block.toNat = b.addr) (hfree : b.used = false)
    (hfit : need.toNat ≤ arena.payloadSize b) (hsplit : ¬ 48 ≤ arena.payloadSize b - need.toNat) :
  ∃ q, Allocated h (takeBlock h block need) (b :: bs) (arena.carve need.toNat b ++ bs)
    (blockPayload block) q
  := by
  obtain ⟨hheader, hrest⟩ := hlinked
  have hwell : 32 ≤ b.size := (hsize b List.mem_cons_self).1
  have hbounds := htiles.mem_bounds List.mem_cons_self
  have hlo := htiles.1
  have hstart := blockPayload_toNat hb (by omega)
  have hmem : (takeBlock h block need).mem = setBlockUsed h.mem block 1 := by
    simp only [takeBlock, if_neg ((splits_iff hheader hb hfit).not.mpr hsplit)]
  have hcarve : arena.carve need.toNat b = [{ b with used := true }] := if_neg hsplit
  have hused := hheader.setBlockUsed hb 1
  have hspec : ∀ x, x < b.addr ∨ b.addr + b.size ≤ x → (takeBlock h block need).mem x = h.mem x := by
    intro x hx
    rw [hmem, setBlockUsed_apply _ (by omega)]
  use blockPayloadSize (takeBlock h block need).mem block
  constructor
  · rw [hcarve, hmem]
    constructor
    · exact hused
    · rw [← hmem]
      apply hrest.congr_tiles htiles.2 (fun c hc => hsize c (List.mem_cons_of_mem _ hc))
      intro x hle _
      apply hspec
      omega
  · rfl
  · rfl
  · rw [hcarve, hmem, hused.blockPayloadSize hb, hstart]
    simp [payloads, hfree, payloadAddr, payloadSize]
  · intro x hx
    apply hspec x (outside_of_not_internal hfree hx)

/-- Taking a free block that is large enough carves it. -/
theorem takeBlock_allocated
    {lo hi : Nat} {bs : List Block} (hlinked : Linked h.mem (b :: bs))
    (htiles : Tiles lo hi (b :: bs)) (hsize : ∀ c ∈ b :: bs, arena.WellSized c)
    (hhi : hi < 2 ^ 64) (hb : block.toNat = b.addr) (hfree : b.used = false)
    (hfit : need.toNat ≤ arena.payloadSize b) :
  ∃ q, Allocated h (takeBlock h block need) (b :: bs) (arena.carve need.toNat b ++ bs)
    (blockPayload block) q
  := by
  by_cases hsplit : 48 ≤ arena.payloadSize b - need.toNat
  · apply takeBlock_splits hlinked htiles hsize hhi hb hfree hfit hsplit
  · apply takeBlock_whole hlinked htiles hsize hhi hb hfree hfit hsplit

/-- A free block in front does not change what the blocks behind it become. -/
theorem Allocated.cons
    {h' : KHeap} {lo hi : Nat} {bs bs' : List Block} {p q : UInt64}
    (halloc : Allocated h h' bs bs' p q) (hfirst : firstAddr bs' = firstAddr bs)
    (hheader : HeaderAt h.mem b (firstAddr bs)) (htiles : Tiles lo hi (b :: bs))
    (hsize : ∀ c ∈ b :: bs, arena.WellSized c) :
  Allocated h h' (b :: bs) (b :: bs') p q
  := by
  have hwell : 32 ≤ b.size := (hsize b List.mem_cons_self).1
  have hlo := htiles.1
  constructor
  · constructor
    · rw [hfirst]
      apply hheader.congr
      intro x hle hlt
      apply halloc.frame
      rintro ⟨c, hc, hcle, -⟩
      have hbounds := htiles.2.mem_bounds hc
      omega
    · exact halloc.linked
  · exact halloc.head
  · exact halloc.used
  · rw [payloads_cons, payloads_cons]
    split
    · apply (halloc.payloads.cons _).trans
      apply List.Perm.swap
    · exact halloc.payloads
  · intro x hx
    apply halloc.frame
    intro hinternal
    apply hx hinternal.cons

/-- The loop of `kheap_alloc` is `allocate`. -/
theorem allocLoop_spec
    {lo hi n : Nat} {bs : List Block} (need : UInt64) (hlinked : Linked h.mem bs) (htiles : Tiles lo hi bs)
    (hsize : ∀ c ∈ bs, arena.WellSized c) (hlo : 0 < lo) (hhi : hi < 2 ^ 64)
    (hn : bs.length < n) (hblock : block.toNat = firstAddr bs) :
  match arena.allocate need.toNat bs with
    | none => allocLoop h need n block = some (h, 0)
    | some (p, bs') => ∃ h' ptr q, allocLoop h need n block = some (h', ptr) ∧ ptr.toNat = p
        ∧ firstAddr bs' = firstAddr bs ∧ Allocated h h' bs bs' ptr q
  := by
  induction bs generalizing lo n block with
  | nil =>
      obtain ⟨n, rfl⟩ := Nat.exists_eq_add_one_of_ne_zero (by omega : n ≠ 0)
      have hzero : block = 0 := UInt64.toNat_inj.mp hblock
      rw [allocate, allocLoop, if_pos hzero]
  | cons b bs ih =>
      obtain ⟨n, rfl⟩ := Nat.exists_eq_add_one_of_ne_zero (by omega : n ≠ 0)
      have hb : block.toNat = b.addr := hblock
      have hwell : 32 ≤ b.size := (hsize b List.mem_cons_self).1
      have hbounds := htiles.mem_bounds List.mem_cons_self
      have hheader := hlinked.1
      have hpos : block ≠ 0 := by
        rintro rfl
        have := htiles.1
        rw [← hb] at this
        simp only [UInt64.toNat_zero] at this
        omega
      have hskip := ih (n := n) hlinked.2 htiles.2
        (fun c hc => hsize c (List.mem_cons_of_mem _ hc)) (by omega)
        (by rw [List.length_cons] at hn; omega) (hheader.blockNext hb)
      rw [allocate]
      by_cases hfit : b.used = false ∧ need.toNat ≤ arena.payloadSize b
      · obtain ⟨q, halloc⟩ := takeBlock_allocated hlinked htiles hsize hhi hb hfit.1 hfit.2
        rw [if_pos hfit]
        use takeBlock h block need, blockPayload block, q
        constructor
        · have hnot : ¬ blockPayloadSize h.mem block < need := by
            rw [UInt64.lt_iff_toNat_lt, hheader.blockPayloadSize hb]
            omega
          rw [allocLoop, if_neg hpos, if_neg (not_not.mpr ((hheader.blockUsed hb).mpr hfit.1)),
            if_neg hnot]
        · constructor
          · apply blockPayload_toNat hb
            omega
          · constructor
            · rw [carve]
              split
              · rfl
              · rfl
            · exact halloc
      · have hloop : allocLoop h need (n + 1) block = allocLoop h need n (blockNext h.mem block) := by
          rw [allocLoop, if_neg hpos]
          by_cases hused : b.used = false
          · have hsmall : blockPayloadSize h.mem block < need := by
              rw [UInt64.lt_iff_toNat_lt, hheader.blockPayloadSize hb]
              apply Nat.lt_of_not_le
              intro hle
              exact hfit ⟨hused, hle⟩
            rw [if_neg (not_not.mpr ((hheader.blockUsed hb).mpr hused)), if_pos hsmall]
          · rw [if_pos ((hheader.blockUsed hb).not.mpr hused)]
        rw [if_neg hfit, hloop]
        cases halloc : arena.allocate need.toNat bs with
        | none =>
            rw [halloc] at hskip
            exact hskip
        | some r =>
            rw [halloc] at hskip
            obtain ⟨h', ptr, q, heq, hptr, hfirst, hskip⟩ := hskip
            exact ⟨h', ptr, q, heq, hptr, rfl, hskip.cons hfirst hheader htiles hsize⟩

end Alloc

/-! ### Coalescing -/

/-- Joining two free neighbours, as the loop of `coalesce_free_blocks` does. -/
theorem join_linked
    {m : Memory} {lo hi : Nat} {b c : Block} {bs : List Block} {block : UInt64}
    (hlinked : Linked m (b :: c :: bs)) (htiles : Tiles lo hi (b :: c :: bs))
    (hsize : ∀ d ∈ b :: c :: bs, arena.WellSized d) (hhi : hi < 2 ^ 64)
    (hb : block.toNat = b.addr) :
  let next := blockNext m block
  let m₁ := setBlockSize m block (blockSize m block + blockSize m next)
  let m₂ := setBlockNext m₁ block (blockNext m₁ next)
  Linked m₂ ({ b with size := b.size + c.size } :: bs)
    ∧ ∀ x, x < b.addr ∨ b.addr + 17 ≤ x → m₂ x = m x
  := by
  intro next m₁ m₂
  obtain ⟨hheader, hcheader, hrest⟩ := hlinked
  obtain ⟨hblo, hclo, htail⟩ := htiles
  have hc : next.toNat = c.addr := hheader.blockNext hb
  have hbsize : 32 ≤ b.size := (hsize b (by simp)).1
  have hcsize : 32 ≤ c.size := (hsize c (by simp)).1
  have hle := htail.le
  have hjoin : (blockSize m block + blockSize m next).toNat = b.size + c.size := by
    rw [UInt64.toNat_add, hheader.blockSize hb, hcheader.blockSize hc]
    omega
  have hframe₁ : ∀ x, x < b.addr ∨ b.addr + 17 ≤ x → m₁ x = m x := by
    intro x hx
    apply setBlockSize_apply
    omega
  have hframe : ∀ x, x < b.addr ∨ b.addr + 17 ≤ x → m₂ x = m x := by
    intro x hx
    rw [← hframe₁ x hx]
    apply setBlockNext_apply
    omega
  have hcheader₁ : HeaderAt m₁ c (firstAddr bs) := by
    apply hcheader.congr
    intro x hle _
    apply hframe₁
    omega
  constructor
  · constructor
    · have hwrite := (hheader.setBlockSize hb (blockSize m block + blockSize m next)).setBlockNext
        hb (blockNext m₁ next)
      rw [hjoin, hcheader₁.blockNext hc] at hwrite
      exact hwrite
    · apply hrest.congr_tiles htail (fun d hd => hsize d (by simp [hd]))
      intro x hle _
      apply hframe
      omega
  · exact hframe

/-- The loop of `coalesce_free_blocks` is `merge`. -/
theorem coalesceLoop_spec
    {m : Memory} {lo hi n : Nat} {bs : List Block} {block : UInt64} (hlinked : Linked m bs)
    (htiles : Tiles lo hi bs) (hsize : ∀ c ∈ bs, arena.WellSized c) (hlo : 0 < lo)
    (hhi : hi < 2 ^ 64) (hn : bs.length < n) (hblock : block.toNat = firstAddr bs) :
  ∃ m', coalesceLoop n m block = some m' ∧ Linked m' (merge bs)
    ∧ ∀ x, ¬ arena.Internal bs x → m' x = m x
  := by
  induction bs using merge.induct generalizing m lo n block with
  | case1 =>
      obtain ⟨n, rfl⟩ := Nat.exists_eq_add_one_of_ne_zero (by omega : n ≠ 0)
      have hzero : block = 0 := UInt64.toNat_inj.mp hblock
      use m
      rw [coalesceLoop, if_pos (Or.inl hzero), merge]
      simp [Linked]
  | case2 b =>
      obtain ⟨n, rfl⟩ := Nat.exists_eq_add_one_of_ne_zero (by omega : n ≠ 0)
      have hlast : blockNext m block = 0 := UInt64.toNat_inj.mp (hlinked.1.blockNext hblock)
      use m
      rw [coalesceLoop, if_pos (Or.inr hlast), merge]
      use rfl, hlinked
      intros
      rfl
  | case3 b c bs hfree ih =>
      obtain ⟨n, rfl⟩ := Nat.exists_eq_add_one_of_ne_zero (by omega : n ≠ 0)
      have hb : block.toNat = b.addr := hblock
      have hc : (blockNext m block).toNat = c.addr := hlinked.1.blockNext hb
      have hbsize : 32 ≤ b.size := (hsize b (by simp)).1
      have hbounds := htiles.mem_bounds (b := b) (by simp)
      obtain ⟨hblo, hclo, htail⟩ := htiles
      have hguard : ¬ (block = 0 ∨ blockNext m block = 0) := by
        simp only [← UInt64.toNat_inj, UInt64.toNat_zero]
        omega
      have hadjacent : blockNext m block = block + blockSize m block := by
        apply UInt64.toNat_inj.mp
        rw [UInt64.toNat_add, hlinked.1.blockSize hb, hb, hc]
        omega
      obtain ⟨hjoined, hframe⟩ := join_linked hlinked ⟨hblo, hclo, htail⟩ hsize hhi hb
      obtain ⟨m', hm', hlinked', hframe'⟩ := ih (n := n) hjoined
        (join_tiles ⟨hblo, hclo, htail⟩) (join_wellSized hsize) hlo
        (by simp only [List.length_cons] at hn ⊢; omega) hb
      use m'
      constructor
      · rw [coalesceLoop, if_neg hguard, if_pos]
        · exact hm'
        · exact ⟨(hlinked.1.blockUsed hb).mpr hfree.1, (hlinked.2.1.blockUsed hc).mpr hfree.2,
            hadjacent⟩
      · rw [merge, if_pos hfree]
        use hlinked'
        intro x hx
        have hout : x < b.addr ∨ b.addr + 17 ≤ x := by
          by_contra hcon
          apply hx
          use b, List.mem_cons_self
          rw [hfree.1]
          simp only [Bool.false_eq_true, if_false]
          omega
        rw [hframe' x (fun hinternal => hx (join_internal ⟨hblo, hclo, htail⟩ hfree hinternal)),
          hframe x hout]
  | case4 b c bs hfree ih =>
      obtain ⟨n, rfl⟩ := Nat.exists_eq_add_one_of_ne_zero (by omega : n ≠ 0)
      have hb : block.toNat = b.addr := hblock
      have hc : (blockNext m block).toNat = c.addr := hlinked.1.blockNext hb
      have hbsize : 32 ≤ b.size := (hsize b (by simp)).1
      have htail : ∀ d ∈ c :: bs, arena.WellSized d := fun d hd => hsize d (by simp [hd])
      have hlo' := htiles.1
      have hclo := htiles.2.1
      have hguard : ¬ (block = 0 ∨ blockNext m block = 0) := by
        simp only [← UInt64.toNat_inj, UInt64.toNat_zero]
        omega
      obtain ⟨m', hm', hlinked', hframe'⟩ := ih (n := n) hlinked.2 htiles.2 htail (by omega)
        (by simp only [List.length_cons] at hn ⊢; omega) hc
      use m'
      constructor
      · rw [coalesceLoop, if_neg hguard, if_neg]
        · exact hm'
        · rintro ⟨hbfree, hcfree, -⟩
          exact hfree ⟨(hlinked.1.blockUsed hb).mp hbfree, (hlinked.2.1.blockUsed hc).mp hcfree⟩
      · rw [merge, if_neg hfree]
        constructor
        · constructor
          · obtain ⟨d, ds, hmerge, -, hd⟩ := merge_head c bs
            have hfirst : firstAddr (merge (c :: bs)) = firstAddr (c :: bs) := by
              rw [hmerge]
              exact hd
            rw [hfirst]
            apply hlinked.1.congr
            intro x hle hlt
            apply hframe'
            intro hinternal
            obtain ⟨e, he, hbounds⟩ := hinternal.mem_block htail
            have := htiles.2.mem_bounds he
            omega
          · exact hlinked'
        · intro x hx
          apply hframe'
          intro hinternal
          apply hx hinternal.cons

end KHeap
