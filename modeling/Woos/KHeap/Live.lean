import Woos.KHeap.Repr
import Mathlib.Data.List.Nodup

/-!
# Live allocations

`Live h L` says that the heap `h` is well-formed and that `L` lists its payloads in use, each
with its size.  This is the view that a client has of the heap: `kheapAlloc_live`,
`kheapFree_live` and `kheapRealloc_live` say what a call does to the list, and `Keeps` that
it changes no byte of the payloads of others.
-/

namespace KHeap

open Arena

/-- The heap is well-formed and its payloads in use are those of `L`. -/
def Live (h : KHeap) (L : List (Nat × Nat)) : Prop :=
  ∃ bs, Repr h bs ∧ L.Perm (arena.payloads bs)

/-- No byte of a payload of `L` changes from `h` to `h'`. -/
def Keeps (L : List (Nat × Nat)) (h h' : KHeap) : Prop :=
  ∀ y ∈ L, ∀ x, y.1 ≤ x → x < y.1 + y.2 → h'.mem x = h.mem x

/-- The payloads of `L` other than the one at `p`. -/
def without (p : Nat) (L : List (Nat × Nat)) : List (Nat × Nat) :=
  L.filter (fun x => x.1 ≠ p)

section

variable {h : KHeap} {L : List (Nat × Nat)}

theorem mem_without {p : Nat} {x : Nat × Nat} :
  x ∈ without p L ↔ x ∈ L ∧ x.1 ≠ p
  := by
  simp [without]

theorem without_eq_self {p : Nat} (hp : ∀ x ∈ L, x.1 ≠ p) :
  without p L = L
  := by
  apply List.filter_eq_self.mpr
  simpa using hp

theorem without_append (p : Nat) (L F : List (Nat × Nat)) :
  without p (L ++ F) = without p L ++ without p F
  := List.filter_append ..

/-! ### Properties of live allocations -/

theorem Live.bounds (hl : Live h L) {p q : Nat} (hp : (p, q) ∈ L) :
  start + 32 ≤ p ∧ p + q ≤ stop
  := by
  obtain ⟨bs, hr, hperm⟩ := hl
  apply hr.tiling.payload_bounds (hperm.subset hp)

theorem Live.aligned (hl : Live h L) {p q : Nat} (hp : (p, q) ∈ L) :
  16 ∣ p
  := by
  obtain ⟨bs, hr, hperm⟩ := hl
  apply hr.tiling.payload_aligned (by decide) (hperm.subset hp)

/-- Different live allocations do not overlap, and there is a header between them. -/
theorem Live.pairwise (hl : Live h L) :
  L.Pairwise (fun x y => x.1 + x.2 + 32 ≤ y.1 ∨ y.1 + y.2 + 32 ≤ x.1)
  := by
  obtain ⟨bs, hr, hperm⟩ := hl
  apply (hperm.pairwise_iff (fun hxy => hxy.symm)).mpr
  apply hr.tiling.payloads_pairwise.imp
  intro x y hle
  exact Or.inl hle

theorem Live.disjoint
    (hl : Live h L) {x y : Nat × Nat} (hx : x ∈ L) (hy : y ∈ L) (hne : x.1 ≠ y.1) :
  x.1 + x.2 + 32 ≤ y.1 ∨ y.1 + y.2 + 32 ≤ x.1
  := by
  have hsymm : Std.Symm (fun x y : Nat × Nat => x.1 + x.2 + 32 ≤ y.1 ∨ y.1 + y.2 + 32 ≤ x.1) :=
    ⟨fun _ _ hxy => hxy.symm⟩
  apply hl.pairwise.forall hx hy
  rintro rfl
  exact hne rfl

/-- Different live allocations have different addresses. -/
theorem Live.nodup (hl : Live h L) :
  (L.map Prod.fst).Nodup
  := by
  rw [List.Nodup, List.pairwise_map]
  apply hl.pairwise.imp
  intro x y hle heq
  omega

/-- An allocation of one part of the list is not at the address of one of the other. -/
theorem Live.ne_of_append {F : List (Nat × Nat)} (hl : Live h (L ++ F)) {x y : Nat × Nat}
    (hx : x ∈ L) (hy : y ∈ F) :
  x.1 ≠ y.1
  := by
  have hnodup := hl.nodup
  rw [List.map_append, List.nodup_append] at hnodup
  apply hnodup.2.2 _ (List.mem_map_of_mem hx) _ (List.mem_map_of_mem hy)

theorem Live.currentPayload (hl : Live h L) {ptr : UInt64} {q : Nat} (hp : (ptr.toNat, q) ∈ L) :
  (currentPayload h ptr).toNat = q
  := by
  obtain ⟨bs, hr, hperm⟩ := hl
  apply hr.currentPayload (hperm.subset hp)

theorem Live.used (hl : Live h L) :
  h.used.toNat = (L.map Prod.snd).sum
  := by
  obtain ⟨bs, hr, hperm⟩ := hl
  rw [hr.used, (hperm.map Prod.snd).sum_eq]

theorem Live.ne_zero (hl : Live h L) {ptr : UInt64} {q : Nat} (hp : (ptr.toNat, q) ∈ L) :
  ptr ≠ 0
  := by
  rintro rfl
  have hbounds := (hl.bounds hp).1
  simp only [UInt64.toNat_zero] at hbounds
  omega

theorem Live.congr (hl : Live h L) {L' : List (Nat × Nat)} (hperm : L'.Perm L) :
  Live h L'
  := by
  obtain ⟨bs, hr, hbs⟩ := hl
  exact ⟨bs, hr, hperm.trans hbs⟩

/-! ### What the calls do -/

theorem kheapInit_live (m : Memory) :
  Live (kheapInit m) []
  := ⟨_, kheapInit_repr m, List.Perm.refl _⟩

/-- Writing inside a live allocation keeps the heap well-formed. -/
theorem Live.write
    (hl : Live h L) {m : Memory} {p q : Nat} (hp : (p, q) ∈ L)
    (hm : ∀ x, x < p ∨ p + q ≤ x → m x = h.mem x) :
  Live { h with mem := m } L
  := by
  obtain ⟨bs, hr, hperm⟩ := hl
  use bs
  constructor
  · constructor
    · apply hr.linked.congr
      intro b hb x hle hlt
      apply hm
      by_contra hcon
      apply payload_not_internal hr.tiling.tiles hr.tiling.wellSized (hperm.subset hp) (x := x)
      · omega
      · use b, hb, hle
        have hheader := (hr.tiling.wellSized b hb).1
        have hsize : arena.header = 32 := rfl
        split
        · omega
        · omega
    · exact hr.head
    · exact hr.tiling
    · exact hr.used
  · exact hperm

/-- The first free block with `need` payload bytes, as `kheap_alloc` meets it. -/
def firstFitting (m : Memory) (need : UInt64) : Nat → UInt64 → Option UInt64
  | 0, _ => none
  | n + 1, block =>
      if block = 0 then none
      else if blockUsed m block ≠ 0 then firstFitting m need n (blockNext m block)
      else if blockPayloadSize m block < need then firstFitting m need n (blockNext m block)
      else some block

/-- Some free block is large enough for the request. -/
def HasRoom (h : KHeap) (size : UInt64) : Prop :=
  (firstFitting h.mem (alignUp size heapAlign) (maxBlocks + 1) h.head).isSome
  deriving Decidable

/-- The size of the payload that a request rounded to zero bytes is given: nothing of the
first free block when it can be split, and all of it otherwise. -/
def emptyRequestPayload (h : KHeap) : Option UInt64 :=
  (firstFitting h.mem 0 (maxBlocks + 1) h.head).map (fun block =>
    if headerSize + heapAlign ≤ blockPayloadSize h.mem block then 0
    else blockPayloadSize h.mem block)

theorem firstFitting_eq
    {m : Memory} (need : UInt64) {bs : List Block} {lo hi n : Nat} {block : UInt64}
    (hlinked : Linked m bs) (htiles : Tiles lo hi bs) (hsize : ∀ c ∈ bs, arena.WellSized c)
    (hlo : 0 < lo) (hn : bs.length < n) (hblock : block.toNat = firstAddr bs) :
  match arena.firstFit need.toNat bs with
    | none => firstFitting m need n block = none
    | some b => ∃ free next, firstFitting m need n block = some free ∧ free.toNat = b.addr
        ∧ HeaderAt m b next
  := by
  induction bs generalizing lo n block with
  | nil =>
      obtain ⟨n, rfl⟩ := Nat.exists_eq_add_one_of_ne_zero (by omega : n ≠ 0)
      have hzero : block = 0 := UInt64.toNat_inj.mp hblock
      rw [firstFit, List.find?_nil, firstFitting, if_pos hzero]
  | cons b bs ih =>
      obtain ⟨n, rfl⟩ := Nat.exists_eq_add_one_of_ne_zero (by omega : n ≠ 0)
      have hb : block.toNat = b.addr := hblock
      have hfirst := htiles.1
      have hpos : block ≠ 0 := by
        simp only [ne_eq, ← UInt64.toNat_inj, UInt64.toNat_zero]
        omega
      have hused := hlinked.1.blockUsed hb
      have hpayload := hlinked.1.blockPayloadSize hb
      have hrest := ih (n := n) hlinked.2 htiles.2
        (fun c hc => hsize c (List.mem_cons_of_mem _ hc)) (by omega)
        (by rw [List.length_cons] at hn; omega) (hlinked.1.blockNext hb)
      rw [firstFit, List.find?_cons, firstFitting, if_neg hpos]
      cases hb' : b.used with
      | true =>
          have hnot : blockUsed m block ≠ 0 := by
            rw [ne_eq, hused, hb']
            simp
          rw [if_pos hnot]
          exact hrest
      | false =>
          rw [if_neg (not_not.mpr (hused.mpr hb'))]
          by_cases hfit : need.toNat ≤ arena.payloadSize b
          · have hge : ¬ blockPayloadSize m block < need := by
              rw [UInt64.lt_iff_toNat_lt, hpayload]
              omega
            rw [if_neg hge, decide_eq_true hfit]
            exact ⟨block, _, rfl, hb, hlinked.1⟩
          · have hlt : blockPayloadSize m block < need := by
              rw [UInt64.lt_iff_toNat_lt, hpayload]
              omega
            rw [if_pos hlt, decide_eq_false hfit]
            exact hrest

theorem Repr.hasRoom_iff {bs : List Block} (hr : Repr h bs) (size : UInt64) :
  HasRoom h size ↔ (arena.firstFit (alignUp size heapAlign).toNat bs).isSome
  := by
  have hfirst := firstFitting_eq (alignUp size heapAlign) hr.linked hr.tiling.tiles
    hr.tiling.wellSized (by decide) hr.length_lt hr.firstAddr
  rw [HasRoom]
  cases hfit : arena.firstFit (alignUp size heapAlign).toNat bs with
  | none =>
      rw [hfit] at hfirst
      rw [hfirst]
      rfl
  | some b =>
      rw [hfit] at hfirst
      obtain ⟨free, next, hfree, -⟩ := hfirst
      rw [hfree]
      rfl

/-- A call of `kheap_alloc` fails and changes nothing when there is no room, and otherwise
adds a live allocation and keeps the others.  The new payload is as large as the rounded
request, and a request that is rounded to zero is given the payload `emptyRequestPayload`. -/
theorem kheapAlloc_live (hl : Live h L) (size : UInt64) :
  (kheapAlloc h size = some (h, 0) ∧ (size = 0 ∨ ¬ HasRoom h size))
    ∨ ∃ h' ptr q, kheapAlloc h size = some (h', ptr) ∧ HasRoom h size ∧ ptr ≠ 0
        ∧ (alignUp size heapAlign).toNat ≤ q
        ∧ ((alignUp size heapAlign).toNat = 0
            → ∃ r, emptyRequestPayload h = some r ∧ r.toNat = q)
        ∧ Live h' ((ptr.toNat, q) :: L) ∧ Keeps L h h'
  := by
  by_cases hsize : size = 0
  · left
    use by rw [kheapAlloc, if_pos (Or.inl hsize)], Or.inl hsize
  · obtain ⟨bs, hr, hperm⟩ := hl
    have hspec := kheapAlloc_repr hr hsize
    have hroom := hr.hasRoom_iff size
    cases halloc : arena.allocate (alignUp size heapAlign).toNat bs with
    | none =>
        rw [halloc] at hspec
        rw [allocate_eq_none_iff.mp halloc] at hroom
        left
        use hspec
        right
        intro hcon
        cases hroom.mp hcon
    | some r =>
        obtain ⟨p, bs'⟩ := r
        rw [halloc] at hspec
        obtain ⟨h', ptr, heq, hptr, hr', hframe⟩ := hspec
        obtain ⟨b, hfit, hp, hpayloads⟩ := allocate_payloads halloc
        have hlive : Live h' ((ptr.toNat, arena.granted (alignUp size heapAlign).toNat b) :: L) := by
          use bs', hr'
          rw [hptr]
          apply (hperm.cons _).trans hpayloads.symm
        rw [hfit] at hroom
        right
        use h', ptr, arena.granted (alignUp size heapAlign).toNat b, heq, hroom.mpr rfl
        use hlive.ne_zero List.mem_cons_self
        use le_granted (mem_of_firstFit hfit).2.2
        constructor
        · intro hzero
          have hfirst := firstFitting_eq 0 hr.linked hr.tiling.tiles hr.tiling.wellSized
            (by decide) hr.length_lt hr.firstAddr
          rw [hzero] at hfit
          rw [UInt64.toNat_zero, hfit] at hfirst
          obtain ⟨free, next, hfree, haddr, hheader⟩ := hfirst
          have hpayload := hheader.blockPayloadSize haddr
          rw [emptyRequestPayload, hfree, hzero, granted, Nat.sub_zero]
          have hguard : headerSize + heapAlign ≤ blockPayloadSize h.mem free
              ↔ arena.minSplit ≤ arena.payloadSize b := by
            rw [UInt64.le_iff_toNat_le, hpayload]
            rfl
          by_cases hsplit : arena.minSplit ≤ arena.payloadSize b
          · use 0
            rw [if_pos hsplit, Option.map_some, if_pos (hguard.mpr hsplit)]
            exact ⟨rfl, rfl⟩
          · use blockPayloadSize h.mem free
            rw [if_neg hsplit, Option.map_some, if_neg (hguard.not.mpr hsplit)]
            exact ⟨rfl, hpayload⟩
        · use hlive
          intro y hy x hle hlt
          apply hframe
          apply payload_not_internal hr.tiling.tiles hr.tiling.wellSized (hperm.subset hy) ⟨hle, hlt⟩

/-- A call of `kheap_free` removes the live allocation at the address, if there is one, and
keeps the others. -/
theorem kheapFree_live (hl : Live h L) (ptr : UInt64) :
  ∃ h', kheapFree h ptr = some h' ∧ Live h' (without ptr.toNat L) ∧ Keeps (without ptr.toNat L) h h'
  := by
  obtain ⟨bs, hr, hperm⟩ := hl
  obtain ⟨h', hfree, hr', hframe⟩ := kheapFree_repr hr ptr
  have htiles := release_tiles (A := arena) ptr.toNat hr.tiling.tiles
  have hsize := release_wellSized (A := arena) ptr.toNat hr.tiling.wellSized
  have hpayloads : (without ptr.toNat L).Perm (arena.payloads (arena.release ptr.toNat bs)) := by
    rw [payloads_release]
    apply hperm.filter
  use h', hfree
  constructor
  · use merge (arena.release ptr.toNat bs), hr'
    rw [merge_payloads]
    exact hpayloads
  · intro y hy x hle hlt
    apply hframe
    apply payload_not_internal htiles hsize (hpayloads.subset hy) ⟨hle, hlt⟩

/-- A request is rounded to zero bytes when it is empty or does not fit into a word after
rounding. -/
theorem alignUp_eq_zero_iff (size : UInt64) :
  (alignUp size heapAlign).toNat = 0 ↔ size = 0 ∨ 2 ^ 64 - 16 < size.toNat
  := by
  have hlt := size.toNat_lt
  rw [alignUp_toNat, ← UInt64.toNat_inj, UInt64.toNat_zero]
  omega

theorem le_alignUp {size : UInt64} (hsize : size.toNat ≤ 2 ^ 64 - 16) :
  size.toNat ≤ (alignUp size heapAlign).toNat
  := by
  rw [alignUp_toNat]
  omega

/-- `kheap_realloc` does not copy more bytes than the new payload holds: a request that is
rounded to zero is given a payload that is at least as large as the current one. -/
def NoOverrun (h : KHeap) (ptr size : UInt64) : Prop :=
  2 ^ 64 - 16 < size.toNat → ∀ r, emptyRequestPayload h = some r → currentPayload h ptr ≤ r

/-- A call of `kheap_realloc` with size `0` is one of `kheap_free`. -/
theorem kheapRealloc_zero (hl : Live h L) {ptr : UInt64} {q : Nat} (hp : (ptr.toNat, q) ∈ L) :
  ∃ h', kheapRealloc h ptr 0 = some (h', 0) ∧ Live h' (without ptr.toNat L)
    ∧ Keeps (without ptr.toNat L) h h'
  := by
  obtain ⟨h', hfree, hl', hkeeps⟩ := kheapFree_live hl ptr
  use h'
  constructor
  · rw [kheapRealloc, if_neg (hl.ne_zero hp), if_pos rfl, hfree]
    rfl
  · use hl', hkeeps

/-- A call of `kheap_realloc` on a live allocation leaves it as it is when it is large
enough, fails and changes nothing when there is no room, and otherwise moves its bytes to a
new one. -/
theorem kheapRealloc_live
    (hl : Live h L) {ptr size : UInt64} {q : Nat} (hp : (ptr.toNat, q) ∈ L) (hsize : size ≠ 0)
    (hno : NoOverrun h ptr size) :
  (size.toNat ≤ q ∧ kheapRealloc h ptr size = some (h, ptr))
    ∨ (q < size.toNat ∧ ¬ HasRoom h size ∧ kheapRealloc h ptr size = some (h, 0))
    ∨ (q < size.toNat ∧ HasRoom h size ∧ ∃ h' ptr' q', kheapRealloc h ptr size = some (h', ptr') ∧ ptr' ≠ 0
        ∧ (alignUp size heapAlign).toNat ≤ q' ∧ q ≤ q'
        ∧ Live h' ((ptr'.toNat, q') :: without ptr.toNat L) ∧ Keeps (without ptr.toNat L) h h'
        ∧ ∀ i < q, h'.mem (ptr'.toNat + i) = h.mem (ptr.toNat + i))
  := by
  have hcurrent := hl.currentPayload hp
  have hptr := hl.ne_zero hp
  by_cases hfits : size.toNat ≤ q
  · left
    use hfits
    rw [kheapRealloc, if_neg hptr, if_neg hsize, if_pos]
    rw [UInt64.le_iff_toNat_le, hcurrent]
    exact hfits
  · right
    have hlt : q < size.toNat := by omega
    have hgrow : ¬ size ≤ KHeap.currentPayload h ptr := by
      rw [UInt64.le_iff_toNat_le, hcurrent]
      exact hfits
    rcases kheapAlloc_live hl size with
      ⟨halloc, hnone⟩ | ⟨h₁, ptr', q', halloc, hfree, hptr', hneed, hempty, hl₁, hkeeps⟩
    · left
      use hlt, hnone.resolve_left hsize
      rw [kheapRealloc, if_neg hptr, if_neg hsize, if_neg hgrow, halloc]
      rfl
    · right
      use hlt, hfree
      have hroom : q ≤ q' := by
        by_cases hwrap : 2 ^ 64 - 16 < size.toNat
        · obtain ⟨r, hr, hrq⟩ := hempty ((alignUp_eq_zero_iff size).mpr (Or.inr hwrap))
          have hle := UInt64.le_iff_toNat_le.mp (hno hwrap r hr)
          omega
        · have hle : size.toNat ≤ (alignUp size heapAlign).toNat := le_alignUp (by omega)
          omega
      have hp₁ : (ptr.toNat, q) ∈ (ptr'.toNat, q') :: L := List.mem_cons_of_mem _ hp
      have hdisjoint : ptr'.toNat + q' + 32 ≤ ptr.toNat ∨ ptr.toNat + q + 32 ≤ ptr'.toNat :=
        (List.pairwise_cons.mp hl₁.pairwise).1 _ hp
      let m := h₁.mem.copy ptr'.toNat ptr.toNat q
      have hl₂ : Live { h₁ with mem := m } ((ptr'.toNat, q') :: L) := by
        apply hl₁.write List.mem_cons_self
        intro x hx
        apply Memory.copy_apply_outside
        omega
      obtain ⟨h', hdrop, hl', hkeeps'⟩ := kheapFree_live hl₂ ptr
      have hne : ptr'.toNat ≠ ptr.toNat := by omega
      have hwithout : without ptr.toNat ((ptr'.toNat, q') :: L)
          = (ptr'.toNat, q') :: without ptr.toNat L := by
        rw [without, List.filter_cons_of_pos]
        · rfl
        · simpa using hne
      rw [hwithout] at hl' hkeeps'
      use h', ptr', q'
      constructor
      · rw [kheapRealloc, if_neg hptr, if_neg hsize, if_neg hgrow, halloc]
        simp only [Option.bind_eq_bind, Option.bind_some, if_neg hptr', hcurrent, m] at hdrop ⊢
        rw [hdrop, Option.bind_some]
      · use hptr', hneed, hroom, hl'
        constructor
        · intro y hy x hle hlt
          rw [hkeeps' y (List.mem_cons_of_mem _ hy) x hle hlt]
          have hy' := (mem_without.mp hy).1
          have hdisjoint' := (List.pairwise_cons.mp hl₁.pairwise).1 _ hy'
          rw [← hkeeps y hy' x hle hlt]
          apply Memory.copy_apply_outside
          omega
        · intro i hi
          rw [hkeeps' _ List.mem_cons_self _ (Nat.le_add_right _ _) (by omega)]
          rw [← hkeeps _ hp _ (Nat.le_add_right _ _) (by omega)]
          apply Memory.copy_apply _ hi
          omega

end

end KHeap
