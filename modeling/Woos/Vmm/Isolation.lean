import Woos.Lib.Run
import Woos.Vmm.Spaces

/-!
# Isolation of address spaces

The address spaces as finite maps.  `Maps` is the abstract view, what every space translates, and
`Maps.after` says what a call does to it; `Spaces.spaces_independent` says that the page tables
follow it in every state that is reached.
-/

open Vmm Paging

/-- What each space translates every address to. -/
abbrev Maps := UInt64 → UInt64 → Option UInt64

/-- The address spaces: the memory, the page allocator, and the spaces that have been made and not
destroyed. -/
structure Spaces where
  mem : Memory
  pmm : Pmm
  live : List UInt64

namespace Spaces

/-- A call of `vmm.c`, or whatever else happens to the memory and the page allocator. -/
inductive Call where
  | create
  | map (space virt phys flags : UInt64)
  | unmap (space virt : UInt64)
  | destroy (space : UInt64)
  | other (m : Memory) (pmm : Pmm)

variable (image : KernelImage) (k : UInt64)

/-- Execute a call: the state after it, and what it returns. -/
def call (s : Spaces) : Call → Spaces × UInt64
  | .create =>
      let (m, pmm, pml4) := vmmCreateAddressSpace image k s.mem s.pmm
      (⟨m, pmm, if pml4 = 0 then s.live else pml4 :: s.live⟩, pml4)
  | .map space virt phys flags =>
      let (m, pmm, r) := vmmMapPage k s.mem s.pmm space virt phys flags
      (⟨m, pmm, s.live⟩, r.toUInt64)
  | .unmap space virt =>
      let (m, r) := vmmUnmapPage k s.mem space virt
      (⟨m, s.pmm, s.live⟩, r.toUInt64)
  | .destroy space =>
      (⟨s.mem, vmmDestroyAddressSpace image k s.mem s.pmm space, s.live.erase space⟩, 0)
  | .other m pmm => (⟨m, pmm, s.live⟩, 0)

/-- The state after a call. -/
def step (s : Spaces) (c : Call) : Option Spaces := some (s.call image k c).1

/-- A table of the kernel or of a live space. -/
def TablePage (s : Spaces) (p : UInt64) : Prop :=
  ∃ root, (root = k ∨ root ∈ s.live) ∧ ∃ is, is.length ≤ 3 ∧ Radix.node (next (entries s.mem)) root is = some p

/-- Pages are mapped in live spaces at canonical addresses from 4 GiB on, and whatever else happens
leaves the tables alone. -/
def Permitted (s : Spaces) : Call → Prop
  | .create => True
  | .map space virt phys flags => space ∈ s.live ∧ Canonical virt ∧ 2 ^ 32 ≤ virt.toNat
      ∧ phys.toNat < 2 ^ 52 ∧ flags.toNat < 2 ^ 12
  | .unmap space virt => space ∈ s.live ∧ Canonical virt ∧ 2 ^ 32 ≤ virt.toNat
  | .destroy space => space ∈ s.live
  | .other m pmm => AllocatorOk pmm
      ∧ ∀ p, s.TablePage k p → (∀ i, entries m p i = entries s.mem p i) ∧ ¬ Free pmm p

/-- What the spaces translate. -/
def maps (s : Spaces) : Maps := fun root v => translate (entries s.mem) root v

end Spaces

/-- What the spaces translate after a call that returned `r`. -/
def Maps.after (σ : Maps) (k : UInt64) : Spaces.Call → UInt64 → Maps
  | .create, r => fun root v =>
      if r ≠ 0 ∧ root = r then (if v.toNat < 2 ^ 32 then σ k v else none) else σ root v
  | .map space virt phys _, r => fun root v =>
      if r = 1 ∧ root = space ∧ v.toNat / 4096 = virt.toNat / 4096 then
        some ((phys &&& ~~~0xFFF) ||| (v &&& 0xFFF))
      else σ root v
  | .unmap space virt, _ => fun root v =>
      if root = space ∧ v.toNat / 4096 = virt.toNat / 4096 then none else σ root v
  | .destroy _, _ => σ
  | .other _ _, _ => σ

namespace Maps

variable (σ : Maps) (k : UInt64) {space virt phys flags r root v : UInt64}

theorem after_create :
  σ.after k .create r root v
    = if r ≠ 0 ∧ root = r then (if v.toNat < 2 ^ 32 then σ k v else none) else σ root v
  := rfl

theorem after_map :
  σ.after k (.map space virt phys flags) r root v
    = if r = 1 ∧ root = space ∧ v.toNat / 4096 = virt.toNat / 4096 then
        some ((phys &&& ~~~0xFFF) ||| (v &&& 0xFFF))
      else σ root v
  := rfl

theorem after_unmap :
  σ.after k (.unmap space virt) r root v
    = if root = space ∧ v.toNat / 4096 = virt.toNat / 4096 then none else σ root v
  := rfl

end Maps

namespace Spaces

variable (image : KernelImage) (k : UInt64)

/-- A call changes the translations of the kernel and of the live spaces as it should, and
`vmm_get_phys` yields them. -/
structure Independent (s : Spaces) (c : Call) : Prop where
  maps : ∀ root, root = k ∨ root ∈ (s.call image k c).1.live → ∀ v, Canonical v →
    (s.call image k c).1.maps root v = s.maps.after k c (s.call image k c).2 root v
  getPhys : ∀ root ∈ (s.call image k c).1.live, ∀ v, Canonical v → 2 ^ 32 ≤ v.toNat →
    vmmGetPhys k (s.call image k c).1.mem root v = ((s.call image k c).1.maps root v).getD 0
  distinct : (k :: (s.call image k c).1.live).Nodup

/-- The state before any space is made: only entry 0 of the kernel's root is present, and the pages of
the kernel's tables are in use. -/
structure Booted (m : Memory) (pmm : Pmm) : Prop where
  aligned : Aligned k
  root : KernelRoot k (entries m)
  used : ∀ p, KernelTable k (entries m) p → ¬ Free pmm p
  ok : AllocatorOk pmm

variable {image k} {m₀ : Memory} {pmm₀ : Pmm} {s : Spaces}

theorem init_inv (h : Booted k m₀ pmm₀) :
  Inv k (entries m₀) (entries m₀) pmm₀ []
  where
  ok := h.ok
  root := h.aligned
  kernel p hp := ⟨fun _ => rfl, h.used p hp⟩
  nodup := List.nodup_nil
  roots := by simp
  separate := ⟨by simp⟩
  used := by
    rintro p ⟨r, _, hr, -⟩
    cases hr
  low := by simp
  clean := by simp

/-! ### One call -/

/-- The tables are in use. -/
theorem tablePage_cases (h : Inv k (entries m₀) (entries s.mem) s.pmm s.live) {p : UInt64}
    (hp : SpaceTable (entries s.mem) s.live p ∨ KernelTable k (entries m₀) p) :
  s.TablePage k p
  := by
  rcases hp with ⟨r, is, hr, his, hnode⟩ | ⟨is, hlen, hnode⟩
  · exact ⟨r, Or.inr hr, is, his.1, hnode⟩
  · refine ⟨k, Or.inl rfl, is, hlen, ?_⟩
    rw [← hnode]
    apply Radix.node_congr
    intro js i hjs q hq
    have hlt := hjs.length_le
    rw [List.length_append, List.length_singleton] at hlt
    rw [next, next, (h.kernel q ⟨js, by omega, hq⟩).1]

/-- Every permitted call keeps the spaces separate. -/
theorem call_inv (image : KernelImage) (hk : KernelRoot k (entries m₀)) {c : Call}
    (h : Inv k (entries m₀) (entries s.mem) s.pmm s.live) (hpages : PagesClean (entries s.mem) s.live)
    (hc : s.Permitted k c) :
  Inv k (entries m₀) (entries (s.call image k c).1.mem) (s.call image k c).1.pmm
      (s.call image k c).1.live
    ∧ PagesClean (entries (s.call image k c).1.mem) (s.call image k c).1.live
  := by
  cases c with
  | create =>
      rcases vmmCreateAddressSpace_inv image h hk with
        ⟨m, pmm, hcreate, hinv, hsame⟩ | ⟨m, pmm₁, pmm₂, q, t, hcreate, hq, ht, hmade⟩
      · simp only [call, hcreate, if_true]
        exact ⟨hinv, hpages.same hsame⟩
      · simp only [call, hcreate, if_neg hq.ne_zero]
        obtain ⟨hinv, hsame, hempty⟩ := h.insert hk hq ht hmade
        use hinv
        intro r hr is his hlen i
        rcases List.mem_cons.mp hr with rfl | hr
        · rw [hempty is his hlen i, not_present_zero]
          intro hzero
          cases hzero
        · exact hpages.same hsame r hr is his hlen i
  | map space virt phys flags =>
      obtain ⟨hlive, hv, hhigh, hphys, hflags⟩ := hc
      obtain ⟨mid, m, pmm, L, r, hmap, hgrows, -, ⟨-, rfl⟩ | ⟨-, hinv, hsets, -⟩⟩ :=
        vmmMapPage_inv h hlive hv hhigh phys flags
      · simp only [call, hmap]
        exact ⟨hgrows.inv, hpages.same hgrows.same⟩
      · simp only [call, hmap]
        use hinv
        apply (hpages.same hgrows.same).sets hsets
        intro _
        rw [frame_leafEntry hphys hflags]
  | unmap space virt =>
      obtain ⟨hlive, hv, hhigh⟩ := hc
      obtain ⟨m, r, hunmap, hinv, -, ⟨-, rfl, -⟩ | ⟨-, hsets⟩⟩ := vmmUnmapPage_inv h hlive hv hhigh
      · simp only [call, hunmap]
        exact ⟨hinv, hpages⟩
      · simp only [call, hunmap]
        use hinv
        apply hpages.sets hsets
        rw [not_present_zero]
        intro hzero
        cases hzero
  | destroy space =>
      use vmmDestroyAddressSpace_inv image h hc
      intro r hr
      exact hpages r (List.mem_of_mem_erase hr)
  | other m pmm =>
      obtain ⟨hok, htables⟩ := hc
      have hall := fun p hp => htables p (tablePage_cases h hp)
      obtain ⟨hinv, hsame⟩ := h.elsewhere (fun p hp => (hall p hp).1) hok (fun p hp => (hall p hp).2)
      exact ⟨hinv, hpages.same hsame⟩

/-- The pages of a space are as they were. -/
theorem maps_of_sameEntries {T T' : UInt64 → Fin 512 → UInt64} {pmm pmm' : Pmm} {live : List UInt64}
    (hk : KernelRoot k (entries m₀)) (h : Inv k (entries m₀) T pmm live)
    (h' : Inv k (entries m₀) T' pmm' live) (hsame : SameEntries T T' live) {root v : UInt64}
    (hroot : root = k ∨ root ∈ live) (hv : Canonical v) :
  translate T' root v = translate T root v
  := by
  rcases hroot with rfl | hlive
  · rw [h'.translate_kernel, h.translate_kernel]
  · by_cases hlow : v.toNat < 2 ^ 32
    · rw [h'.translate_low hk.entry hlive hlow, h.translate_low hk.entry hlive hlow]
    · have hhigh := Nat.le_of_not_lt hlow
      rw [h'.translate_high hlive hv hhigh, h.translate_high hlive hv hhigh,
        hsame root hlive _ (own_path hv hhigh) (length_pathFrom v 3)]

/-- The entry of one page of a space is set. -/
theorem maps_of_setsEntry {T T' : UInt64 → Fin 512 → UInt64} {pmm : Pmm} {live : List UInt64}
    {space virt e : UInt64} (hk : KernelRoot k (entries m₀)) (h : Inv k (entries m₀) T pmm live)
    (h' : Inv k (entries m₀) T' pmm live) (hsets : SetsEntry T T' live space virt e)
    (hspace : space ∈ live) (hvirt : Canonical virt) (hhigh : 2 ^ 32 ≤ virt.toNat) {root v : UInt64}
    (hroot : root = k ∨ root ∈ live) (hv : Canonical v) :
  translate T' root v
    = if root = space ∧ v.toNat / 4096 = virt.toNat / 4096 then leaf e v else translate T root v
  := by
  have hreached := spaceTable_of_node (T := T) hspace own_nil rfl
  rcases hroot with rfl | hlive
  · rw [h'.translate_kernel, h.translate_kernel, if_neg]
    rintro ⟨rfl, -⟩
    exact (h.used root hreached).2 ⟨[], Nat.zero_le 3, rfl⟩
  · by_cases hlow : v.toNat < 2 ^ 32
    · rw [h'.translate_low hk.entry hlive hlow, h.translate_low hk.entry hlive hlow, if_neg]
      rintro ⟨-, hpage⟩
      norm_num at hlow hhigh
      omega
    · have hvhigh := Nat.le_of_not_lt hlow
      rw [h'.translate_high hlive hv hvhigh, h.translate_high hlive hv hvhigh,
        hsets root hlive _ (own_path hv hvhigh) (length_pathFrom v 3)]
      simp only [page_eq_iff hv hvirt]
      split
      · rfl
      · rfl

theorem leaf_leafEntry (phys v : UInt64) {flags : UInt64} (hphys : phys.toNat < 2 ^ 52)
    (hflags : flags.toNat < 2 ^ 12) :
  leaf (leafEntry phys flags) v = some ((phys &&& ~~~0xFFF) ||| (v &&& 0xFFF))
  := by
  have hmask : offsetMask 0 = 0xFFF := rfl
  have haligned := Word.and_not_mask_eq_self pageMask (entryTable_aligned (leafEntry phys flags))
  rw [leaf, present_leafEntry, if_pos rfl, pageAddress, frame_leafEntry hphys hflags, hmask, haligned,
    entryTable_leafEntry phys hflags]

/-- Every permitted call changes the translations as it should. -/
theorem call_maps (hk : KernelRoot k (entries m₀)) {c : Call}
    (h : Inv k (entries m₀) (entries s.mem) s.pmm s.live) (hpages : PagesClean (entries s.mem) s.live)
    (hc : s.Permitted k c) {root v : UInt64}
    (hroot : root = k ∨ root ∈ (s.call image k c).1.live) (hv : Canonical v) :
  (s.call image k c).1.maps root v = s.maps.after k c (s.call image k c).2 root v
  := by
  have h' := (call_inv image hk h hpages hc).1
  cases c with
  | create =>
      rcases vmmCreateAddressSpace_inv image h hk with
        ⟨m, pmm, hcreate, hinv, hsame⟩ | ⟨m, pmm₁, pmm₂, q, t, hcreate, hq, ht, hmade⟩
      · simp only [call, hcreate, if_true] at hroot ⊢
        rw [Maps.after_create]
        rw [if_neg (fun hand => hand.1 rfl)]
        exact maps_of_sameEntries hk h hinv hsame hroot hv
      · obtain ⟨hinv, hsame, hempty⟩ := h.insert hk hq ht hmade
        simp only [call, hcreate, if_neg hq.ne_zero] at hroot ⊢
        rw [Maps.after_create]
        by_cases hnew : root = q
        · rw [if_pos ⟨hq.ne_zero, hnew⟩, hnew]
          by_cases hlow : v.toNat < 2 ^ 32
          · rw [if_pos hlow, maps, maps, hinv.translate_low hk.entry List.mem_cons_self hlow,
              h.translate_kernel]
          · have hhigh := Nat.le_of_not_lt hlow
            rw [if_neg hlow, maps, hinv.translate_high List.mem_cons_self hv hhigh,
              hempty _ (own_path hv hhigh) (length_pathFrom v 3)]
            exact leaf_of_not_present not_present_zero v
        · rw [if_neg (fun hand => hnew hand.2)]
          rcases hroot with rfl | hmem
          · rw [maps, maps, hinv.translate_kernel, h.translate_kernel]
          · have hlive := (List.mem_cons.mp hmem).resolve_left hnew
            by_cases hlow : v.toNat < 2 ^ 32
            · rw [maps, maps, hinv.translate_low hk.entry hmem hlow, h.translate_low hk.entry hlive hlow]
            · have hhigh := Nat.le_of_not_lt hlow
              rw [maps, maps, hinv.translate_high hmem hv hhigh, h.translate_high hlive hv hhigh,
                hsame root hlive _ (own_path hv hhigh) (length_pathFrom v 3)]
  | map space virt phys flags =>
      obtain ⟨hlive, hvirt, hhigh, hphys, hflags⟩ := hc
      obtain ⟨mid, m, pmm, L, r, hmap, hgrows, -, ⟨rfl, rfl⟩ | ⟨rfl, hinv, hsets, -⟩⟩ :=
        vmmMapPage_inv h hlive hvirt hhigh phys flags
      · simp only [call, hmap] at hroot ⊢
        rw [Maps.after_map]
        rw [if_neg (fun hand => absurd hand.1 (by decide))]
        exact maps_of_sameEntries hk h hgrows.inv hgrows.same hroot hv
      · simp only [call, hmap] at hroot ⊢
        rw [Maps.after_map]
        rw [maps, maps_of_setsEntry hk hgrows.inv hinv hsets hlive hvirt hhigh hroot hv,
          leaf_leafEntry phys v hphys hflags,
          maps_of_sameEntries hk h hgrows.inv hgrows.same hroot hv]
        have hone : (1 : UInt8).toUInt64 = 1 := rfl
        simp only [hone, true_and]
        rfl
  | unmap space virt =>
      obtain ⟨hlive, hvirt, hhigh⟩ := hc
      obtain ⟨m, r, hunmap, hinv, -, ⟨-, rfl, habsent⟩ | ⟨-, hsets⟩⟩ := vmmUnmapPage_inv h hlive hvirt hhigh
      · simp only [call, hunmap] at hroot ⊢
        rw [Maps.after_unmap]
        rw [maps]
        split
        case isTrue hslot =>
          obtain ⟨rfl, hpage⟩ := hslot
          have hvhigh : 2 ^ 32 ≤ v.toNat := by
            norm_num at hhigh ⊢
            omega
          obtain ⟨hpath, hindex⟩ := (page_eq_iff hv hvirt).mpr hpage
          rw [h.translate_high hlive hv hvhigh, hpath, hindex]
          exact leaf_of_not_present habsent v
        case isFalse => rfl
      · simp only [call, hunmap] at hroot ⊢
        rw [Maps.after_unmap]
        rw [maps, maps_of_setsEntry hk h hinv hsets hlive hvirt hhigh hroot hv,
          leaf_of_not_present not_present_zero]
        rfl
  | destroy space => rfl
  | other m pmm =>
      obtain ⟨hok, htables⟩ := hc
      have hall := fun p hp => htables p (tablePage_cases h hp)
      have hsame := (h.elsewhere (fun p hp => (hall p hp).1) hok (fun p hp => (hall p hp).2)).2
      exact maps_of_sameEntries hk h h' hsame hroot hv

theorem call_independent (hk : KernelRoot k (entries m₀)) {c : Call}
    (h : Inv k (entries m₀) (entries s.mem) s.pmm s.live) (hpages : PagesClean (entries s.mem) s.live)
    (hc : s.Permitted k c) :
  s.Independent image k c
  := by
  obtain ⟨h', hpages'⟩ := call_inv image hk h hpages hc
  constructor
  · intro root hroot v hv
    exact call_maps hk h hpages hc hroot hv
  · intro root hroot v hv hhigh
    exact vmmGetPhys_eq h' hpages' hroot hv hhigh
  · apply List.nodup_cons.mpr
    apply And.intro _ h'.nodup
    intro hmem
    exact (h'.used k (spaceTable_of_node hmem own_nil rfl)).2
      ⟨[], Nat.zero_le 3, rfl⟩

/-! ### A small machine -/

/-- The tables of the kernel are at 0x1000 and 0x2000. -/
def smallMemory : Memory := setEntry (fun _ => 0) 0x1000 0 0x2003

/-- Eight pages from 1 MiB on are free. -/
def smallPmm : Pmm where
  lastSearchIdx := 0
  totalPages := 8
  freePages := 8
  ready := true
  bitmap := fun b => if b = 32 then 0 else 0xff

theorem smallMemory_entries {p : UInt64} (hp : Aligned p) (i : Fin 512) :
  entries smallMemory p i = if p = 0x1000 ∧ i = 0 then 0x2003 else 0
  := by
  have hzero : entries (fun _ => 0) p i = 0 := by
    rw [entries, entry, Memory.load_empty]
    rfl
  rw [← hzero]
  exact entries_setEntry (fun _ => 0) 0 i 0x2003 (by decide) hp

theorem smallMemory_next {p : UInt64} (hp : Aligned p) (i : Fin 512) :
  next (entries smallMemory) p i = if p = 0x1000 ∧ i = 0 then some 0x2000 else none
  := by
  rw [next, smallMemory_entries hp]
  split
  · decide
  · exact table_of_not_present not_present_zero

theorem small_kernelTable {p : UInt64} (hp : KernelTable 0x1000 (entries smallMemory) p) :
  p = 0x1000 ∨ p = 0x2000
  := by
  obtain ⟨is, -, hnode⟩ := hp
  have hclosed : ∀ p i q, p = 0x1000 ∨ p = 0x2000 → next (entries smallMemory) p i = some q
      → q = 0x1000 ∨ q = 0x2000 := by
    rintro p i q (rfl | rfl) hq
    · rw [smallMemory_next (by decide)] at hq
      split at hq
      · exact Or.inr (Option.some_inj.mp hq).symm
      · cases hq
    · rw [smallMemory_next (by decide), if_neg (fun hand => absurd hand.1 (by decide))] at hq
      cases hq
  exact Radix.node_closed hclosed (Or.inl rfl) hnode

theorem small_booted :
  Booted 0x1000 smallMemory smallPmm
  where
  aligned := by decide
  root := by
    have hentry : entries smallMemory 0x1000 0 = 0x2003 := smallMemory_entries (by decide) 0
    constructor
    · rw [next, hentry]
      decide
    · rw [hentry]
      decide
    · intro i hi
      rw [smallMemory_entries (by decide), if_neg (fun hand => hi hand.2)]
      decide
  used := by
    intro p hp
    rcases small_kernelTable hp with rfl | rfl
    · rintro ⟨-, hfree⟩
      revert hfree
      decide
    · rintro ⟨-, hfree⟩
      revert hfree
      decide
  ok := by
    constructor
    · decide
    · decide

theorem small_alloc :
  (smallPmm.pmmAllocPage).2 = 0x100000 ∧ ((smallPmm.pmmAllocPage).1.pmmAllocPage).2 = 0x101000
  := by decide +kernel

theorem small_create (m : Memory) :
  (vmmCreateAddressSpace Pmm.Session.smallImage 0x1000 m smallPmm).2
    = ((smallPmm.pmmAllocPage).1.pmmAllocPage.1, 0x100000)
  := by
  have hq : smallPmm.pmmAllocPage = ((smallPmm.pmmAllocPage).1, 0x100000) := by
    rw [← small_alloc.1]
  have hs : (smallPmm.pmmAllocPage).1.pmmAllocPage
      = ((smallPmm.pmmAllocPage).1.pmmAllocPage.1, 0x101000) := by
    rw [← small_alloc.2]
  exact vmmCreateAddressSpace_snd Pmm.Session.smallImage hq (by decide) hs (by decide)

/-! ### Runs -/

/-- A step is a call. -/
theorem step_inv (hboot : Booted k m₀ pmm₀) (s : Spaces) (c : Call)
    (h : Inv k (entries m₀) (entries s.mem) s.pmm s.live ∧ PagesClean (entries s.mem) s.live)
    (hc : s.Permitted k c) :
  ∃ s', step image k s c = some s' ∧ Inv k (entries m₀) (entries s'.mem) s'.pmm s'.live
    ∧ PagesClean (entries s'.mem) s'.live
  := ⟨_, rfl, call_inv image hboot.root h.1 h.2 hc⟩

/-- Every run of permitted calls keeps the spaces separate. -/
theorem calls_inv (image : KernelImage) (hboot : Booted k m₀ pmm₀) {calls : List Call}
    (h : Run.Guarded (step image k) (Permitted k) ⟨m₀, pmm₀, []⟩ calls) :
  ∃ s, Run.exec (step image k) ⟨m₀, pmm₀, []⟩ calls = some s
    ∧ Inv k (entries m₀) (entries s.mem) s.pmm s.live ∧ PagesClean (entries s.mem) s.live
  := by
  have hinit : Inv k (entries m₀) (entries m₀) pmm₀ [] ∧ PagesClean (entries m₀) [] :=
    ⟨init_inv hboot, by simp [PagesClean]⟩
  apply Run.exec_invariant (step_inv hboot) _ h
  exact hinit

/-- In every state that a run of permitted calls reaches, every permitted call acts on the address
spaces as on independent finite maps. -/
theorem spaces_independent (image : KernelImage) (k : UInt64) (m : Memory) (pmm : Pmm)
    (hboot : Booted k m pmm) (calls : List Call)
    (h : Run.Guarded (step image k) (Permitted k) ⟨m, pmm, []⟩ calls) :
  ∃ s, Run.exec (step image k) ⟨m, pmm, []⟩ calls = some s
    ∧ ∀ c, s.Permitted k c → s.Independent image k c
  := by
  obtain ⟨s, hrun, hs, hpages⟩ := calls_inv image hboot h
  refine ⟨s, hrun, ?_⟩
  intro c hc
  exact call_independent hboot.root hs hpages hc

/-- A space is made, a page is mapped and unmapped, and the space is destroyed. -/
theorem spaces_independent_small :
  ∃ s, Run.exec (step Pmm.Session.smallImage 0x1000) ⟨smallMemory, smallPmm, []⟩
      [.create, .map 0x100000 0x8000000000 0x103000 2, .unmap 0x100000 0x8000000000, .destroy 0x100000]
        = some s
    ∧ ∀ c, s.Permitted 0x1000 c → s.Independent Pmm.Session.smallImage 0x1000 c
  := by
  apply spaces_independent Pmm.Session.smallImage 0x1000 smallMemory smallPmm small_booted
  refine ⟨trivial, ?_⟩
  intro s₁ h₁
  have hlive₁ : 0x100000 ∈ s₁.live := by
    rw [← Option.some_inj.mp h₁]
    simp only [call, small_create]
    exact List.mem_singleton_self _
  refine ⟨⟨hlive₁, by decide, by decide, by decide, by decide⟩, ?_⟩
  intro s₂ h₂
  have hlive₂ : 0x100000 ∈ s₂.live := by
    rw [← Option.some_inj.mp h₂]
    exact hlive₁
  refine ⟨⟨hlive₂, by decide, by decide⟩, ?_⟩
  intro s₃ h₃
  have hlive₃ : 0x100000 ∈ s₃.live := by
    rw [← Option.some_inj.mp h₃]
    exact hlive₂
  exact ⟨hlive₃, fun _ _ => trivial⟩

end Spaces
