import Woos.Lib.Memory
import Woos.Lib.Arena

/-!
# Blocks whose headers are linked in memory

A header lies at the address of its block: the size, the address of the next block, each of
`word` bytes, and a byte that is not zero when the block is in use.  `Linked L m bs` says that the memory
`m` holds the headers of the blocks `bs`, each with the address of the next.

`Linked.carve`, `Linked.release` and `Linked.join` are what writing the fields of headers does to the
blocks: what `Arena.carve`, `Arena.release` and one step of `Arena.merge` do.
-/

/-- An arena whose headers lie in memory. -/
structure Layout extends Arena where
  word : Nat
  room : 2 * word + 1 ≤ header

namespace Layout

open Arena

variable (L : Layout)

/-! ### Fields -/

/-- The size in the header at `b`. -/
def size (m : Memory) (b : Nat) : Nat := m.load L.word b

/-- The address of the next block in the header at `b`. -/
def next (m : Memory) (b : Nat) : Nat := m.load L.word (b + L.word)

/-- The flag in the header at `b`. -/
def used (m : Memory) (b : Nat) : UInt8 := m (b + 2 * L.word)

/-- Write the size. -/
def setSize (m : Memory) (b size : Nat) : Memory := m.store L.word b size

/-- Write the address of the next block. -/
def setNext (m : Memory) (b next : Nat) : Memory := m.store L.word (b + L.word) next

/-- Write the flag. -/
def setUsed (m : Memory) (b : Nat) (used : UInt8) : Memory :=
  Function.update m (b + 2 * L.word) used

/-- The header of the block `b` is in memory, and its next block is `next`. -/
structure HeaderAt (m : Memory) (b : Block) (next : Nat) : Prop where
  size : L.size m b.addr = b.size
  next : L.next m b.addr = next
  used : L.used m b.addr = 0 ↔ b.used = false

/-- The address of the first block, `0` when there is none. -/
def firstAddr : List Block → Nat
  | [] => 0
  | b :: _ => b.addr

/-- The headers of the blocks are in memory, each with the address of the next. -/
def Linked (m : Memory) : List Block → Prop
  | [] => True
  | b :: bs => L.HeaderAt m b (firstAddr bs) ∧ Linked m bs

variable {L} {m m' : Memory} {b : Block} {next : Nat}

/-! ### Writing a header -/

theorem setSize_apply (v : Nat) {a x : Nat} (hx : x < a ∨ a + L.header ≤ x) :
  L.setSize m a v x = m x
  := by
  have hroom := L.room
  apply Memory.store_apply_outside
  omega

theorem setNext_apply (v : Nat) {a x : Nat} (hx : x < a ∨ a + L.header ≤ x) :
  L.setNext m a v x = m x
  := by
  have hroom := L.room
  apply Memory.store_apply_outside
  omega

theorem setUsed_apply (v : UInt8) {a x : Nat} (hx : x < a ∨ a + L.header ≤ x) :
  L.setUsed m a v x = m x
  := by
  have hroom := L.room
  apply Function.update_of_ne
  omega

/-- A header is determined by its bytes. -/
theorem HeaderAt.congr (h : L.HeaderAt m b next)
    (hm : ∀ x, b.addr ≤ x → x < b.addr + L.header → m' x = m x) :
  L.HeaderAt m' b next
  := by
  have hroom := L.room
  constructor
  · rw [← h.size]
    apply Memory.load_congr
    intro i hi
    exact hm _ (by omega) (by omega)
  · rw [← h.next]
    apply Memory.load_congr
    intro i hi
    exact hm _ (by omega) (by omega)
  · rw [← h.used, Layout.used, Layout.used, hm _ (by omega) (by omega)]

theorem HeaderAt.setSize (h : L.HeaderAt m b next) {v : Nat} (hv : v < 256 ^ L.word) :
  L.HeaderAt (L.setSize m b.addr v) { b with size := v } next
  := by
  constructor
  · exact Memory.load_store_of_lt _ _ hv
  · rw [← h.next]
    exact Memory.load_store_disjoint _ _ (Or.inr (Nat.le_refl _))
  · rw [← h.used, Layout.used, Layout.used, Layout.setSize,
      Memory.store_apply_outside _ _ (Or.inr (by dsimp only; omega))]

theorem HeaderAt.setNext (h : L.HeaderAt m b next) {v : Nat} (hv : v < 256 ^ L.word) :
  L.HeaderAt (L.setNext m b.addr v) b v
  := by
  constructor
  · rw [← h.size]
    exact Memory.load_store_disjoint _ _ (Or.inl (Nat.le_refl _))
  · exact Memory.load_store_of_lt _ _ hv
  · rw [← h.used, Layout.used, Layout.used, Layout.setNext,
      Memory.store_apply_outside _ _ (Or.inr (by omega))]

theorem HeaderAt.setUsed (h : L.HeaderAt m b next) (v : UInt8) :
  L.HeaderAt (L.setUsed m b.addr v) { b with used := v != 0 } next
  := by
  constructor
  · rw [← h.size]
    apply Memory.load_congr
    intro i hi
    apply Function.update_of_ne
    dsimp only
    omega
  · rw [← h.next]
    apply Memory.load_congr
    intro i hi
    apply Function.update_of_ne
    dsimp only
    omega
  · rw [Layout.used, Layout.setUsed, Function.update_self]
    simp

/-- The bytes at any address, read as a header. -/
theorem headerAt_self (m : Memory) (a : Nat) :
  L.HeaderAt m ⟨a, L.size m a, L.used m a != 0⟩ (L.next m a)
  := by
  constructor
  · rfl
  · rfl
  · simp

/-! ### Linked blocks -/

variable {bs : List Block} {lo hi : Nat}

theorem Linked.congr (h : L.Linked m bs)
    (hm : ∀ b ∈ bs, ∀ x, b.addr ≤ x → x < b.addr + L.header → m' x = m x) :
  L.Linked m' bs
  := by
  induction bs with
  | nil => trivial
  | cons b bs ih =>
      constructor
      · exact h.1.congr (hm b List.mem_cons_self)
      · exact ih h.2 (fun c hc => hm c (List.mem_cons_of_mem _ hc))

/-- Blocks stay linked when no byte of the interval they tile changes. -/
theorem Linked.congr_tiles (h : L.Linked m bs) (htiles : Tiles lo hi bs)
    (hsize : ∀ b ∈ bs, L.WellSized b) (hm : ∀ x, lo ≤ x → x < hi → m' x = m x) :
  L.Linked m' bs
  := by
  apply h.congr
  intro b hb x hle hlt
  have hbounds := htiles.mem_bounds hb
  have hheader := (hsize b hb).1
  exact hm x (by omega) (by omega)

/-- The first address of blocks that tile an interval. -/
theorem firstAddr_eq (htiles : Tiles lo hi bs) :
  firstAddr bs = if bs = [] then 0 else lo
  := by
  cases bs with
  | nil => rfl
  | cons b bs => exact htiles.1

theorem Linked.headerAt (h : L.Linked m bs) (hb : b ∈ bs) :
  ∃ next, L.HeaderAt m b next
  := by
  induction bs with
  | nil => cases hb
  | cons c bs ih =>
      rcases List.mem_cons.mp hb with rfl | hb
      · exact ⟨_, h.1⟩
      · exact ih h.2 hb

theorem release_cons (p : Nat) (c : Block) :
  L.release p (c :: bs) = (if L.payloadAddr c = p then { c with used := false } else c) :: L.release p bs
  := rfl

theorem firstAddr_release (p : Nat) :
  firstAddr (L.release p bs) = firstAddr bs
  := by
  cases bs with
  | nil => rfl
  | cons c bs =>
      rw [release_cons]
      split
      · rfl
      · rfl

/-- Clearing the flag of a block releases its payload. -/
theorem Linked.release (h : L.Linked m bs) (htiles : Tiles lo hi bs)
    (hsize : ∀ c ∈ bs, L.WellSized c) (hb : b ∈ bs) :
  L.Linked (L.setUsed m b.addr 0) (L.release (L.payloadAddr b) bs)
  := by
  induction bs generalizing lo with
  | nil => cases hb
  | cons c bs ih =>
      obtain ⟨hlo, htail⟩ := htiles
      have hheader := (hsize c List.mem_cons_self).1
      have hpos := L.header_pos
      have hwell : ∀ d ∈ bs, L.WellSized d := fun d hd => hsize d (List.mem_cons_of_mem _ hd)
      rw [release_cons]
      rcases List.mem_cons.mp hb with rfl | hb
      · have hrest : L.release (L.payloadAddr b) bs = bs := by
          apply release_eq_self
          intro d hd heq
          have hbounds := htail.mem_bounds hd
          rw [payloadAddr, payloadAddr] at heq
          omega
        rw [if_pos rfl, hrest]
        constructor
        · exact h.1.setUsed 0
        · apply h.2.congr_tiles htail hwell
          intro x hle _
          exact setUsed_apply _ (by omega)
      · have hbounds := htail.mem_bounds hb
        have hne : L.payloadAddr c ≠ L.payloadAddr b := by
          rw [payloadAddr, payloadAddr]
          omega
        rw [if_neg hne]
        constructor
        · rw [firstAddr_release]
          apply h.1.congr
          intro x _ hlt
          exact setUsed_apply _ (by omega)
        · exact ih h.2 htail hwell hb

/-- Writing the size of both and the next block of the second to the header of the first of two
neighbours joins them. -/
theorem Linked.join {c : Block} (h : L.Linked m (b :: c :: bs)) (htiles : Tiles lo hi (b :: c :: bs))
    (hsize : ∀ d ∈ b :: c :: bs, L.WellSized d) (hhi : hi < 256 ^ L.word) :
  L.Linked (L.setNext (L.setSize m b.addr (b.size + c.size)) b.addr (firstAddr bs))
    ({ b with size := b.size + c.size } :: bs)
  := by
  obtain ⟨hb, hc, htail⟩ := htiles
  have hheader := (hsize b (by simp)).1
  have hend := htail.le
  have hfirst : firstAddr bs < 256 ^ L.word := by
    rw [firstAddr_eq htail]
    split
    · omega
    · omega
  constructor
  · exact (h.1.setSize (by omega)).setNext hfirst
  · apply h.2.2.congr_tiles htail (fun d hd => hsize d (by simp [hd]))
    intro x hle _
    rw [setNext_apply _ (by omega), setSize_apply _ (by omega)]

/-- An address that is not internal lies outside all headers. -/
theorem outside_of_not_internal (hb : b ∈ bs) {x : Nat} (hx : ¬ L.Internal bs x)
    (hsize : ∀ b ∈ bs, L.WellSized b) :
  x < b.addr ∨ b.addr + L.header ≤ x
  := by
  by_contra hcon
  apply hx
  have hheader := (hsize b hb).1
  refine ⟨b, hb, by omega, ?_⟩
  split
  · omega
  · omega

end Layout
