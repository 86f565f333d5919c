import Mathlib.Data.List.Chain
import Mathlib.Algebra.BigOperators.Group.List.Basic
import Mathlib.Algebra.GroupWithZero.Nat

/-!
# First-fit allocation in a tiled interval

An interval of addresses is tiled by blocks, each with a header of fixed size before its
payload.  `allocate` takes the first free block whose payload is large enough and splits
it when enough remains, `release` marks the block of a payload free, and `merge` joins
neighbouring free blocks.

`Tiling` says that the blocks tile the interval, that their sizes are multiples of the
alignment and at least the header, and that no two neighbours are both free.
`allocate_tiling` and `merge_tiling` show that the operations keep it; `allocate_payloads`,
`release_payloads` and `merge_payloads` say what they do to the payloads in use.
-/

/-- A block of an arena: its address, its size with the header, and whether it is in
use. -/
@[ext]
structure Block where
  addr : Nat
  size : Nat
  used : Bool
  deriving DecidableEq, Repr

/-- The constants of an arena: size of a header, alignment, and the smallest size of a
block that is split off. -/
structure Arena where
  header : Nat
  align : Nat
  minSplit : Nat
  align_pos : 0 < align
  header_pos : 0 < header
  align_header : align ∣ header
  header_le : header ≤ minSplit

namespace Arena

variable (A : Arena)

/-- The address of the payload of a block. -/
def payloadAddr (b : Block) : Nat := b.addr + A.header

/-- The size of the payload of a block. -/
def payloadSize (b : Block) : Nat := b.size - A.header

/-- The payloads in use, each with its size, in the order of the blocks. -/
def payloads (bs : List Block) : List (Nat × Nat) :=
  (bs.filter Block.used).map (fun b => (A.payloadAddr b, A.payloadSize b))

/-- Two neighbouring blocks are not both free. -/
def Separate (b c : Block) : Prop := b.used = true ∨ c.used = true

/-- The address lies in a header or in a free block, so that no client may use it. -/
def Internal (bs : List Block) (x : Nat) : Prop :=
  ∃ b ∈ bs, b.addr ≤ x ∧ x < b.addr + (if b.used then A.header else b.size)

/-- The blocks follow one another without gap from `lo` to `hi`. -/
def Tiles : Nat → Nat → List Block → Prop
  | lo, hi, [] => lo = hi
  | lo, hi, b :: bs => b.addr = lo ∧ Tiles (lo + b.size) hi bs

/-- The size of a block is a multiple of the alignment and leaves room for the header. -/
def WellSized (b : Block) : Prop := A.header ≤ b.size ∧ A.align ∣ b.size

/-- The blocks tile the interval from `lo` to `hi`, all well-sized and no two free ones
neighbours. -/
structure Tiling (lo hi : Nat) (bs : List Block) : Prop where
  tiles : Tiles lo hi bs
  wellSized : ∀ b ∈ bs, A.WellSized b
  separate : bs.IsChain Separate

/-! ### Operations -/

/-- The first free block with `need` payload bytes. -/
def firstFit (need : Nat) (bs : List Block) : Option Block :=
  bs.find? (fun b => !b.used && decide (need ≤ A.payloadSize b))

/-- The size of the payload that is granted when `need` payload bytes of `b` are taken: all
of the payload when the rest is too small to be split off. -/
def granted (need : Nat) (b : Block) : Nat :=
  if A.minSplit ≤ A.payloadSize b - need then need else A.payloadSize b

/-- The blocks a free block `b` becomes when `need` payload bytes of it are taken: the
rest is split off when it is large enough for a block of its own. -/
def carve (need : Nat) (b : Block) : List Block :=
  if A.minSplit ≤ A.payloadSize b - need then
    [⟨b.addr, A.header + need, true⟩, ⟨b.addr + A.header + need, A.payloadSize b - need, false⟩]
  else
    [{ b with used := true }]

/-- Take `need` payload bytes from the first free block that has them: the address of the
payload and the blocks afterwards. -/
def allocate (need : Nat) : List Block → Option (Nat × List Block)
  | [] => none
  | b :: bs =>
      if b.used = false ∧ need ≤ A.payloadSize b then
        some (A.payloadAddr b, A.carve need b ++ bs)
      else
        (allocate need bs).map (fun r => (r.1, b :: r.2))

/-- Mark the block with payload address `p` free. -/
def release (p : Nat) (bs : List Block) : List Block :=
  bs.map (fun b => if A.payloadAddr b = p then { b with used := false } else b)

/-- Join neighbouring free blocks. -/
def merge : List Block → List Block
  | [] => []
  | [b] => [b]
  | b :: c :: bs =>
      if b.used = false ∧ c.used = false then
        merge ({ b with size := b.size + c.size } :: bs)
      else
        b :: merge (c :: bs)
  termination_by bs => bs.length

/-! ### Tiled intervals -/

variable {A}

theorem Tiles.le {lo hi : Nat} {bs : List Block} (h : Tiles lo hi bs) :
  lo ≤ hi
  := by
  induction bs generalizing lo with
  | nil => exact Nat.le_of_eq h
  | cons b bs ih =>
      have := ih h.2
      omega

/-- A block of a tiled interval lies inside it. -/
theorem Tiles.mem_bounds
    {lo hi : Nat} {bs : List Block} (h : Tiles lo hi bs) {b : Block} (hb : b ∈ bs) :
  lo ≤ b.addr ∧ b.addr + b.size ≤ hi
  := by
  induction bs generalizing lo with
  | nil => cases hb
  | cons c bs ih =>
      obtain ⟨hc, htail⟩ := h
      rcases List.mem_cons.mp hb with rfl | hb
      · have := htail.le
        omega
      · have := ih htail hb
        omega

/-- The blocks of a tiled interval are ordered by address and do not overlap. -/
theorem Tiles.pairwise {lo hi : Nat} {bs : List Block} (h : Tiles lo hi bs) :
  bs.Pairwise (fun b c => b.addr + b.size ≤ c.addr)
  := by
  induction bs generalizing lo with
  | nil => apply List.Pairwise.nil
  | cons b bs ih =>
      apply List.Pairwise.cons
      · intro c hc
        have := h.2.mem_bounds hc
        have := h.1
        omega
      · apply ih h.2

/-- Two blocks of a tiled interval with positive sizes are equal when their addresses
are. -/
theorem Tiles.eq_of_addr_eq
    {lo hi : Nat} {bs : List Block} (h : Tiles lo hi bs) (hpos : ∀ b ∈ bs, 0 < b.size)
    {b c : Block} (hb : b ∈ bs) (hc : c ∈ bs) (heq : b.addr = c.addr) :
  b = c
  := by
  induction bs generalizing lo with
  | nil => cases hb
  | cons d bs ih =>
      have hd := hpos d List.mem_cons_self
      obtain ⟨hlo, htail⟩ := h
      rcases List.mem_cons.mp hb with rfl | hb'
      · rcases List.mem_cons.mp hc with rfl | hc'
        · rfl
        · have := htail.mem_bounds hc'
          omega
      · rcases List.mem_cons.mp hc with rfl | hc'
        · have := htail.mem_bounds hb'
          omega
        · apply ih htail (fun b hb => hpos b (List.mem_cons_of_mem _ hb)) hb' hc'

/-- Two different blocks of a tiled interval do not overlap. -/
theorem Tiles.disjoint
    {lo hi : Nat} {bs : List Block} (h : Tiles lo hi bs) {b c : Block} (hb : b ∈ bs) (hc : c ∈ bs)
    (hne : b ≠ c) :
  b.addr + b.size ≤ c.addr ∨ c.addr + c.size ≤ b.addr
  := by
  induction bs generalizing lo with
  | nil => cases hb
  | cons d bs ih =>
      obtain ⟨hlo, htail⟩ := h
      rcases List.mem_cons.mp hb with rfl | hb'
      · rcases List.mem_cons.mp hc with rfl | hc'
        · exact (hne rfl).elim
        · have := htail.mem_bounds hc'
          omega
      · rcases List.mem_cons.mp hc with rfl | hc'
        · have := htail.mem_bounds hb'
          omega
        · apply ih htail hb' hc'

/-- A tiled interval has at most one block for each header. -/
theorem Tiles.length_le
    {lo hi : Nat} {bs : List Block} (h : Tiles lo hi bs) (hsize : ∀ b ∈ bs, A.header ≤ b.size) :
  lo + bs.length * A.header ≤ hi
  := by
  induction bs generalizing lo with
  | nil =>
      have := h.le
      simpa using this
  | cons b bs ih =>
      have hb := hsize b List.mem_cons_self
      have htail := ih h.2 (fun b hb => hsize b (List.mem_cons_of_mem _ hb))
      rw [List.length_cons, Nat.add_mul, Nat.one_mul]
      omega

/-! ### Payloads -/

@[simp]
theorem payloads_nil :
  A.payloads [] = []
  := rfl

theorem payloads_cons (b : Block) (bs : List Block) :
  A.payloads (b :: bs)
    = if b.used then (A.payloadAddr b, A.payloadSize b) :: A.payloads bs else A.payloads bs
  := by
  cases hb : b.used <;> simp [payloads, hb]

theorem payloads_append (bs cs : List Block) :
  A.payloads (bs ++ cs) = A.payloads bs ++ A.payloads cs
  := by
  simp [payloads]

theorem mem_payloads {bs : List Block} {p q : Nat} :
  (p, q) ∈ A.payloads bs
    ↔ ∃ b ∈ bs, b.used = true ∧ A.payloadAddr b = p ∧ A.payloadSize b = q
  := by
  simp [payloads, and_assoc]

theorem le_granted {need : Nat} {b : Block} (hfit : need ≤ A.payloadSize b) :
  need ≤ A.granted need b
  := by
  rw [granted]
  split
  · apply le_refl
  · exact hfit

/-- Carving leaves one payload in use. -/
theorem carve_payloads (need : Nat) (b : Block) :
  A.payloads (A.carve need b) = [(A.payloadAddr b, A.granted need b)]
  := by
  rw [carve, granted]
  split
  · simp [payloads, payloadAddr, payloadSize]
  · simp [payloads, payloadAddr, payloadSize]

/-- Allocation fails when no block fits. -/
theorem allocate_eq_none_iff {need : Nat} {bs : List Block} :
  A.allocate need bs = none ↔ A.firstFit need bs = none
  := by
  induction bs with
  | nil => simp [allocate, firstFit]
  | cons b bs ih =>
      rw [allocate, firstFit, List.find?_cons]
      by_cases hfit : b.used = false ∧ need ≤ A.payloadSize b
      · simp [hfit]
      · have hfit' : (!b.used && decide (need ≤ A.payloadSize b)) = false := by
          simpa using hfit
        rw [if_neg hfit, hfit', Option.map_eq_none_iff, ih]
        rfl

/-- Allocation takes the first block that fits: its payload, of the granted size, is added
to the payloads in use. -/
theorem allocate_payloads
    {need : Nat} {bs bs' : List Block} {p : Nat} (h : A.allocate need bs = some (p, bs')) :
  ∃ b, A.firstFit need bs = some b ∧ p = A.payloadAddr b
    ∧ (A.payloads bs').Perm ((p, A.granted need b) :: A.payloads bs)
  := by
  induction bs generalizing bs' with
  | nil => cases h
  | cons b bs ih =>
      rw [allocate] at h
      rw [firstFit, List.find?_cons]
      by_cases hfit : b.used = false ∧ need ≤ A.payloadSize b
      · rw [if_pos hfit] at h
        cases h
        use b
        constructor
        · simp [hfit]
        · use rfl
          rw [payloads_append, carve_payloads, payloads_cons, hfit.1]
          simp
      · have hfit' : (!b.used && decide (need ≤ A.payloadSize b)) = false := by
          simpa using hfit
        rw [if_neg hfit] at h
        obtain ⟨⟨p', cs⟩, hrest, heq⟩ := Option.map_eq_some_iff.mp h
        cases heq
        obtain ⟨c, hc, hp, hperm⟩ := ih hrest
        use c
        rw [hfit']
        use hc, hp
        rw [payloads_cons, payloads_cons]
        split
        · apply (hperm.cons _).trans
          apply List.Perm.swap
        · exact hperm

theorem mem_of_firstFit {need : Nat} {bs : List Block} {b : Block} (h : A.firstFit need bs = some b) :
  b ∈ bs ∧ b.used = false ∧ need ≤ A.payloadSize b
  := by
  have hmem := List.mem_of_find?_eq_some h
  have hfit := List.find?_some h
  simp only [Bool.and_eq_true, Bool.not_eq_eq_eq_not, Bool.not_true, decide_eq_true_eq] at hfit
  exact ⟨hmem, hfit⟩

/-! ### The operations keep the tiling -/

theorem carve_tiles
    {need lo hi : Nat} {b : Block} {bs : List Block} (h : Tiles lo hi (b :: bs))
    (hsize : A.header ≤ b.size) (hfit : need ≤ A.payloadSize b) :
  Tiles lo hi (A.carve need b ++ bs)
  := by
  obtain ⟨hlo, htail⟩ := h
  rw [carve]
  split
  · have hend : lo + (A.header + need) + (A.payloadSize b - need) = lo + b.size := by
      rw [payloadSize] at hfit ⊢
      omega
    constructor
    · exact hlo
    · constructor
      · rw [← hlo, ← Nat.add_assoc]
      · show Tiles (lo + (A.header + need) + (A.payloadSize b - need)) hi bs
        rw [hend]
        exact htail
  · exact ⟨hlo, htail⟩

theorem allocate_tiles
    {need lo hi : Nat} {bs bs' : List Block} {p : Nat} (h : Tiles lo hi bs)
    (hsize : ∀ b ∈ bs, A.header ≤ b.size) (halloc : A.allocate need bs = some (p, bs')) :
  Tiles lo hi bs'
  := by
  induction bs generalizing lo bs' with
  | nil => cases halloc
  | cons b bs ih =>
      have hb := hsize b List.mem_cons_self
      rw [allocate] at halloc
      split at halloc
      case isTrue hfit =>
        cases halloc
        apply carve_tiles h hb hfit.2
      case isFalse =>
        obtain ⟨⟨p', cs⟩, hrest, heq⟩ := Option.map_eq_some_iff.mp halloc
        cases heq
        constructor
        · exact h.1
        · apply ih h.2 (fun c hc => hsize c (List.mem_cons_of_mem _ hc)) hrest

theorem carve_wellSized
    {need : Nat} {b : Block} (hneed : A.align ∣ need) (hb : A.WellSized b) :
  ∀ c ∈ A.carve need b, A.WellSized c
  := by
  intro c hc
  rw [carve] at hc
  split at hc
  case isTrue hsplit =>
    simp only [List.mem_cons, List.not_mem_nil, or_false] at hc
    rcases hc with rfl | rfl
    · constructor
      · apply Nat.le_add_right
      · apply Nat.dvd_add A.align_header hneed
    · constructor
      · apply A.header_le.trans hsplit
      · apply Nat.dvd_sub (Nat.dvd_sub hb.2 A.align_header) hneed
  case isFalse =>
    obtain rfl := List.mem_singleton.mp hc
    exact hb

theorem allocate_wellSized
    {need : Nat} {bs bs' : List Block} {p : Nat} (hneed : A.align ∣ need)
    (hsize : ∀ b ∈ bs, A.WellSized b) (halloc : A.allocate need bs = some (p, bs')) :
  ∀ b ∈ bs', A.WellSized b
  := by
  induction bs generalizing bs' with
  | nil => cases halloc
  | cons b bs ih =>
      have hb := hsize b List.mem_cons_self
      have hbs : ∀ c ∈ bs, A.WellSized c := fun c hc => hsize c (List.mem_cons_of_mem _ hc)
      rw [allocate] at halloc
      split at halloc
      case isTrue =>
        cases halloc
        intro c hc
        rcases List.mem_append.mp hc with hc | hc
        · apply carve_wellSized hneed hb c hc
        · apply hbs c hc
      case isFalse =>
        obtain ⟨⟨p', cs⟩, hrest, heq⟩ := Option.map_eq_some_iff.mp halloc
        cases heq
        intro c hc
        rcases List.mem_cons.mp hc with rfl | hc
        · exact hb
        · apply ih hbs hrest c hc

/-- What allocation does to the first block: its address stays, and it is not freed. -/
theorem allocate_head
    {need : Nat} {bs bs' : List Block} {p : Nat} (halloc : A.allocate need bs = some (p, bs')) :
  ∃ b c cs ds, bs = b :: cs ∧ bs' = c :: ds ∧ c.addr = b.addr ∧ (b.used = true → c.used = true)
  := by
  cases bs with
  | nil => cases halloc
  | cons b bs =>
      rw [allocate] at halloc
      split at halloc
      case isTrue hfit =>
        cases halloc
        rw [carve]
        split
        · exact ⟨b, _, bs, _, rfl, rfl, rfl, fun _ => rfl⟩
        · exact ⟨b, _, bs, _, rfl, rfl, rfl, fun _ => rfl⟩
      case isFalse =>
        obtain ⟨⟨p', cs⟩, hrest, heq⟩ := Option.map_eq_some_iff.mp halloc
        cases heq
        exact ⟨b, b, bs, cs, rfl, rfl, rfl, id⟩

theorem allocate_separate
    {need : Nat} {bs bs' : List Block} {p : Nat} (hsep : bs.IsChain Separate)
    (halloc : A.allocate need bs = some (p, bs')) :
  bs'.IsChain Separate
  := by
  induction bs generalizing bs' with
  | nil => cases halloc
  | cons b bs ih =>
      obtain ⟨hhead, htail⟩ := List.isChain_cons.mp hsep
      rw [allocate] at halloc
      split at halloc
      case isTrue hfit =>
        cases halloc
        rw [carve]
        split
        · -- the split-off block is free, but so was `b`, whose successor is then in use
          apply List.isChain_cons_cons.mpr
          constructor
          · exact Or.inl rfl
          · apply List.isChain_cons.mpr
            constructor
            · intro c hc
              rcases hhead c hc with hused | hused
              · rw [hfit.1] at hused
                cases hused
              · exact Or.inr hused
            · exact htail
        · apply List.isChain_cons.mpr
          constructor
          · intro _ _
            exact Or.inl rfl
          · exact htail
      case isFalse =>
        obtain ⟨⟨p', cs⟩, hrest, heq⟩ := Option.map_eq_some_iff.mp halloc
        cases heq
        apply List.isChain_cons.mpr
        constructor
        · obtain ⟨c, d, cs', ds, rfl, rfl, -, hused⟩ := allocate_head hrest
          intro e he
          obtain rfl : d = e := by simpa using he
          rcases hhead c rfl with h | h
          · exact Or.inl h
          · exact Or.inr (hused h)
        · apply ih htail hrest

/-- Allocation keeps the tiling. -/
theorem allocate_tiling
    {need lo hi : Nat} {bs bs' : List Block} {p : Nat} (h : A.Tiling lo hi bs)
    (hneed : A.align ∣ need) (halloc : A.allocate need bs = some (p, bs')) :
  A.Tiling lo hi bs'
  := by
  constructor
  · apply allocate_tiles h.tiles (fun b hb => (h.wellSized b hb).1) halloc
  · apply allocate_wellSized hneed h.wellSized halloc
  · apply allocate_separate h.separate halloc

theorem join_tiles {lo hi : Nat} {b c : Block} {bs : List Block} (h : Tiles lo hi (b :: c :: bs)) :
  Tiles lo hi ({ b with size := b.size + c.size } :: bs)
  := by
  obtain ⟨hb, hc, htail⟩ := h
  constructor
  · exact hb
  · show Tiles (lo + (b.size + c.size)) hi bs
    rw [← Nat.add_assoc]
    exact htail

theorem join_wellSized
    {b c : Block} {bs : List Block} (h : ∀ d ∈ b :: c :: bs, A.WellSized d) :
  ∀ d ∈ { b with size := b.size + c.size } :: bs, A.WellSized d
  := by
  intro d hd
  rcases List.mem_cons.mp hd with rfl | hd
  · obtain ⟨hb, hb'⟩ := h b (by simp)
    obtain ⟨hc, hc'⟩ := h c (by simp)
    constructor
    · apply hb.trans
      apply Nat.le_add_right
    · apply Nat.dvd_add hb' hc'
  · apply h d
    simp [hd]

theorem merge_tiles {lo hi : Nat} {bs : List Block} (h : Tiles lo hi bs) :
  Tiles lo hi (merge bs)
  := by
  induction bs using merge.induct generalizing lo with
  | case1 =>
      rw [merge]
      exact h
  | case2 b =>
      rw [merge]
      exact h
  | case3 b c bs hfree ih =>
      rw [merge, if_pos hfree]
      apply ih
      apply join_tiles h
  | case4 b c bs hfree ih =>
      rw [merge, if_neg hfree]
      constructor
      · exact h.1
      · apply ih h.2

theorem merge_wellSized {bs : List Block} (h : ∀ b ∈ bs, A.WellSized b) :
  ∀ b ∈ merge bs, A.WellSized b
  := by
  induction bs using merge.induct with
  | case1 =>
      rw [merge]
      exact h
  | case2 b =>
      rw [merge]
      exact h
  | case3 b c bs hfree ih =>
      rw [merge, if_pos hfree]
      apply ih
      apply join_wellSized h
  | case4 b c bs hfree ih =>
      rw [merge, if_neg hfree]
      intro d hd
      rcases List.mem_cons.mp hd with rfl | hd
      · apply h d
        simp
      · apply ih (fun e he => h e (List.mem_cons_of_mem _ he)) d hd

/-- The first block after merging is as much in use as the first block before. -/
theorem merge_head (b : Block) (bs : List Block) :
  ∃ c cs, merge (b :: bs) = c :: cs ∧ c.used = b.used ∧ c.addr = b.addr
  := by
  induction bs generalizing b with
  | nil => exact ⟨b, [], by rw [merge], rfl, rfl⟩
  | cons c bs ih =>
      rw [merge]
      split
      · obtain ⟨d, ds, hd, hused, haddr⟩ := ih { b with size := b.size + c.size }
        exact ⟨d, ds, hd, hused, haddr⟩
      · exact ⟨b, _, rfl, rfl, rfl⟩

theorem merge_separate (bs : List Block) :
  (merge bs).IsChain Separate
  := by
  induction bs using merge.induct with
  | case1 =>
      rw [merge]
      apply List.IsChain.nil
  | case2 b =>
      rw [merge]
      apply List.IsChain.singleton
  | case3 b c bs hfree ih =>
      rw [merge, if_pos hfree]
      exact ih
  | case4 b c bs hfree ih =>
      rw [merge, if_neg hfree]
      apply List.isChain_cons.mpr
      constructor
      · obtain ⟨d, ds, hd, hused, -⟩ := merge_head c bs
        intro e he
        rw [hd] at he
        obtain rfl : d = e := by simpa using he
        rw [Separate, hused]
        cases hb : b.used
        · cases hc : c.used
          · exact (hfree ⟨hb, hc⟩).elim
          · exact Or.inr rfl
        · exact Or.inl rfl
      · exact ih

/-- Merging turns blocks that tile an interval into a tiling. -/
theorem merge_tiling
    {lo hi : Nat} {bs : List Block} (h : Tiles lo hi bs) (hsize : ∀ b ∈ bs, A.WellSized b) :
  A.Tiling lo hi (merge bs)
  := by
  constructor
  · apply merge_tiles h
  · apply merge_wellSized hsize
  · apply merge_separate

/-- Merging changes nothing when no two free blocks are neighbours. -/
theorem merge_eq_self {bs : List Block} (h : bs.IsChain Separate) :
  merge bs = bs
  := by
  induction bs using merge.induct with
  | case1 => rw [merge]
  | case2 b => rw [merge]
  | case3 b c bs hfree ih =>
      rcases (List.isChain_cons_cons.mp h).1 with hused | hused
      · rw [hfree.1] at hused
        cases hused
      · rw [hfree.2] at hused
        cases hused
  | case4 b c bs hfree ih =>
      rw [merge, if_neg hfree, ih (List.isChain_cons_cons.mp h).2]

/-- Merging changes no payload in use. -/
theorem merge_payloads (bs : List Block) :
  A.payloads (merge bs) = A.payloads bs
  := by
  induction bs using merge.induct with
  | case1 => rw [merge]
  | case2 b => rw [merge]
  | case3 b c bs hfree ih =>
      rw [merge, if_pos hfree, ih]
      simp [payloads_cons, hfree.1, hfree.2]
  | case4 b c bs hfree ih =>
      rw [merge, if_neg hfree, payloads_cons, ih, payloads_cons b]

theorem release_tiles {lo hi : Nat} {bs : List Block} (p : Nat) (h : Tiles lo hi bs) :
  Tiles lo hi (A.release p bs)
  := by
  induction bs generalizing lo with
  | nil => exact h
  | cons b bs ih =>
      rw [release, List.map_cons]
      split
      · exact ⟨h.1, ih h.2⟩
      · exact ⟨h.1, ih h.2⟩

theorem release_wellSized {bs : List Block} (p : Nat) (h : ∀ b ∈ bs, A.WellSized b) :
  ∀ b ∈ A.release p bs, A.WellSized b
  := by
  intro b hb
  obtain ⟨c, hc, rfl⟩ := List.mem_map.mp hb
  split
  · exact h c hc
  · exact h c hc

/-- Releasing an address that is not the payload of a block in use changes nothing. -/
theorem release_eq_self
    {p : Nat} {bs : List Block} (h : ∀ b ∈ bs, A.payloadAddr b = p → b.used = false) :
  A.release p bs = bs
  := by
  apply (List.map_congr_left _).trans (List.map_id bs)
  intro b hb
  split
  case isTrue heq =>
    rw [← h b hb heq, id]
  case isFalse => rfl

/-- Releasing removes the payload at the address from the payloads in use. -/
theorem payloads_release (p : Nat) (bs : List Block) :
  A.payloads (A.release p bs) = (A.payloads bs).filter (fun x => x.1 ≠ p)
  := by
  induction bs with
  | nil => rfl
  | cons b bs ih =>
      rw [release, List.map_cons]
      change A.payloads (_ :: A.release p bs) = _
      rw [payloads_cons, payloads_cons, ih]
      by_cases hp : A.payloadAddr b = p
      · cases hused : b.used with
        | false => simp [hp]
        | true => simp [hp]
      · cases hused : b.used with
        | false => simp [hp, hused]
        | true => simp [hp, hused]

/-- Releasing the payload of a block in use removes it from the payloads in use. -/
theorem release_payloads
    {lo hi : Nat} {bs : List Block} (h : Tiles lo hi bs) (hpos : ∀ b ∈ bs, 0 < b.size)
    {b : Block} (hb : b ∈ bs) (hused : b.used = true) :
  (A.payloads bs).Perm
    ((A.payloadAddr b, A.payloadSize b) :: A.payloads (A.release (A.payloadAddr b) bs))
  := by
  induction bs generalizing lo with
  | nil => cases hb
  | cons c bs ih =>
      obtain ⟨hlo, htail⟩ := h
      have hc := hpos c List.mem_cons_self
      have hpos' : ∀ b ∈ bs, 0 < b.size := fun b hb => hpos b (List.mem_cons_of_mem _ hb)
      rcases List.mem_cons.mp hb with rfl | hb
      · have hrest : A.release (A.payloadAddr b) bs = bs := by
          apply release_eq_self
          intro d hd heq
          have hbounds := htail.mem_bounds hd
          rw [payloadAddr, payloadAddr] at heq
          omega
        have hrelease : A.release (A.payloadAddr b) (b :: bs) = { b with used := false } :: bs := by
          rw [release, List.map_cons, if_pos rfl]
          congr 1
        rw [hrelease, payloads_cons, if_pos hused, payloads_cons]
        simp
      · have hne : A.payloadAddr c ≠ A.payloadAddr b := by
          have hbounds := htail.mem_bounds hb
          rw [payloadAddr, payloadAddr]
          omega
        have hrelease : A.release (A.payloadAddr b) (c :: bs)
            = c :: A.release (A.payloadAddr b) bs := by
          rw [release, List.map_cons, if_neg hne]
          rfl
        rw [hrelease, payloads_cons, payloads_cons]
        split
        · apply ((ih htail hpos' hb).cons _).trans
          apply List.Perm.swap
        · apply ih htail hpos' hb

/-! ### Internal addresses -/

theorem Internal.cons {b : Block} {bs : List Block} {x : Nat} (h : A.Internal bs x) :
  A.Internal (b :: bs) x
  := by
  obtain ⟨c, hc, hx⟩ := h
  exact ⟨c, List.mem_cons_of_mem _ hc, hx⟩

/-- An internal address lies inside its block. -/
theorem Internal.mem_block
    {bs : List Block} {x : Nat} (h : A.Internal bs x) (hsize : ∀ b ∈ bs, A.WellSized b) :
  ∃ b ∈ bs, b.addr ≤ x ∧ x < b.addr + b.size
  := by
  obtain ⟨b, hb, hle, hlt⟩ := h
  have hheader := (hsize b hb).1
  use b, hb, hle
  split at hlt
  · omega
  · exact hlt

theorem join_internal
    {lo hi : Nat} {b c : Block} {bs : List Block} {x : Nat} (h : Tiles lo hi (b :: c :: bs))
    (hfree : b.used = false ∧ c.used = false)
    (hx : A.Internal ({ b with size := b.size + c.size } :: bs) x) :
  A.Internal (b :: c :: bs) x
  := by
  obtain ⟨hb, hc, -⟩ := h
  obtain ⟨d, hd, hle, hlt⟩ := hx
  rcases List.mem_cons.mp hd with rfl | hd
  · simp only [hfree.1, Bool.false_eq_true, if_false] at hle hlt
    by_cases hsplit : x < b.addr + b.size
    · use b, List.mem_cons_self, hle
      rw [hfree.1]
      exact hsplit
    · use c, List.mem_cons_of_mem _ List.mem_cons_self
      rw [hfree.2]
      simp only [Bool.false_eq_true, if_false]
      omega
  · use d, List.mem_cons_of_mem _ (List.mem_cons_of_mem _ hd), hle

/-- What is internal stays internal when a payload is released. -/
theorem Internal.release
    {bs : List Block} {x : Nat} (p : Nat) (h : A.Internal bs x) (hsize : ∀ b ∈ bs, A.WellSized b) :
  A.Internal (A.release p bs) x
  := by
  obtain ⟨b, hb, hle, hlt⟩ := h
  have hheader := (hsize b hb).1
  use if A.payloadAddr b = p then { b with used := false } else b
  constructor
  · apply List.mem_map.mpr
    use b, hb
  · split
    · constructor
      · exact hle
      · show x < b.addr + b.size
        split at hlt
        · omega
        · exact hlt
    · exact ⟨hle, hlt⟩

/-! ### Bounds and disjointness of payloads -/

/-- The payloads in use fit into the interval. -/
theorem Tiles.payloads_sum_le {lo hi : Nat} {bs : List Block} (h : Tiles lo hi bs) :
  lo + ((A.payloads bs).map Prod.snd).sum ≤ hi
  := by
  induction bs generalizing lo with
  | nil => exact Nat.le_of_eq h
  | cons b bs ih =>
      have htail := ih h.2
      rw [payloads_cons]
      split
      · rw [List.map_cons, List.sum_cons, payloadSize]
        omega
      · omega

/-- A payload in use lies inside the interval, after the header of its block. -/
theorem Tiling.payload_bounds
    {lo hi : Nat} {bs : List Block} (h : A.Tiling lo hi bs) {p q : Nat}
    (hp : (p, q) ∈ A.payloads bs) :
  lo + A.header ≤ p ∧ p + q ≤ hi
  := by
  obtain ⟨b, hb, -, rfl, rfl⟩ := mem_payloads.mp hp
  have hbounds := h.tiles.mem_bounds hb
  have hsize := (h.wellSized b hb).1
  rw [payloadAddr, payloadSize]
  omega

/-- Different payloads in use do not overlap, and a header lies between them. -/
theorem Tiling.payloads_pairwise {lo hi : Nat} {bs : List Block} (h : A.Tiling lo hi bs) :
  (A.payloads bs).Pairwise (fun x y => x.1 + x.2 + A.header ≤ y.1)
  := by
  have hsize := h.wellSized
  rw [payloads, List.pairwise_map]
  apply List.Pairwise.filter
  apply h.tiles.pairwise.imp_of_mem
  intro b c hb _ hle
  have := (hsize b hb).1
  rw [payloadAddr, payloadSize, payloadAddr]
  omega

/-- A payload in use is a multiple of the alignment when the interval starts at one. -/
theorem Tiling.payload_aligned
    {lo hi : Nat} {bs : List Block} (h : A.Tiling lo hi bs) (hlo : A.align ∣ lo) {p q : Nat}
    (hp : (p, q) ∈ A.payloads bs) :
  A.align ∣ p
  := by
  obtain ⟨b, hb, -, rfl, -⟩ := mem_payloads.mp hp
  have hsize := h.wellSized
  have htiles := h.tiles
  clear h hp
  induction bs generalizing lo with
  | nil => cases hb
  | cons c bs ih =>
      obtain ⟨hc, htail⟩ := htiles
      rcases List.mem_cons.mp hb with rfl | hb
      · rw [payloadAddr, hc]
        apply Nat.dvd_add hlo A.align_header
      · apply ih _ hb (fun b hb => hsize b (List.mem_cons_of_mem _ hb)) htail
        apply Nat.dvd_add hlo (hsize c List.mem_cons_self).2

/-- No address of a payload in use is internal. -/
theorem payload_not_internal
    {lo hi : Nat} {bs : List Block} (h : Tiles lo hi bs) (hsize : ∀ b ∈ bs, A.WellSized b)
    {p q x : Nat} (hp : (p, q) ∈ A.payloads bs) (hx : p ≤ x ∧ x < p + q) :
  ¬ A.Internal bs x
  := by
  rintro ⟨b, hb, hle, hlt⟩
  obtain ⟨c, hc, hused, rfl, rfl⟩ := mem_payloads.mp hp
  have hbsize := (hsize b hb).1
  have hcsize := (hsize c hc).1
  rw [payloadAddr, payloadSize] at hx
  by_cases heq : b = c
  · subst heq
    rw [if_pos hused] at hlt
    omega
  · have hb' : (if b.used then A.header else b.size) ≤ b.size := by
      split
      · exact hbsize
      · apply le_refl
    rcases h.disjoint hb hc heq with hle | hle
    · omega
    · omega

end Arena
