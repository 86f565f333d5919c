import Woos.Vmm.Isolation

/-!
# Large pages

The kernel's tables map memory below 4 GiB by large pages, whose entries point to memory and not to
tables.  `Spaces.large_pages_respected_iff` says that the functions of `vmm.c` follow the walk of the
processor exactly at the addresses whose walk meets no large page.

`mapWalk` and `lookupWalk` list the tables that the functions read and write.
-/

namespace Vmm

open Paging

/-! ### The tables that are accessed -/

/-- The tables that the levels of `vmm_map_page` access, from the table `t` on. -/
def mapWalk (m : Memory) (pmm : Pmm) (flags t : UInt64) :
    List (Fin 512) → Memory × Pmm × List UInt64
  | [] => (m, pmm, [t])
  | i :: is =>
      match mapLevel m pmm t i flags with
      | (m, pmm, none) => (m, pmm, [t])
      | (m, pmm, some t') =>
          let (m, pmm, ts) := mapWalk m pmm flags t' is
          (m, pmm, t :: ts)

/-- The tables that `vmm_unmap_page` and `vmm_get_phys` access, from the table `t` on. -/
def lookupWalk (m : Memory) (t : UInt64) : List (Fin 512) → List UInt64
  | [] => [t]
  | i :: is =>
      match lookupLevel m t i with
      | none => [t]
      | some t' => t :: lookupWalk m t' is

/-- `vmm_map_page` accesses the tables of the walk, and writes the entry of the page into the fourth. -/
theorem vmmMapPage_eq_mapWalk (k : UInt64) (m : Memory) (pmm : Pmm) (pml4 virt phys flags : UInt64) :
  vmmMapPage k m pmm pml4 virt phys flags
    = let (m, pmm, ts) := mapWalk m pmm flags (if pml4 = 0 then k else pml4) (path virt)
      match ts[3]? with
      | none => (m, pmm, 0)
      | some pt => (setEntry m pt (tableIndex virt 12) (leafEntry phys flags), pmm, 1)
  := by
  rw [vmmMapPage]
  simp only [tableIndex_eq virt 39 rfl (by decide : 3 < 4), tableIndex_eq virt 30 rfl (by decide : 2 < 4),
    tableIndex_eq virt 21 rfl (by decide : 1 < 4), path, pathFrom, mapWalk]
  rcases h₁ : mapLevel m pmm (if pml4 = 0 then k else pml4) (index virt 3) flags with
    ⟨m₁, pmm₁, _ | pdpt⟩
  · rfl
  · simp only
    rcases h₂ : mapLevel m₁ pmm₁ pdpt (index virt 2) flags with ⟨m₂, pmm₂, _ | pd⟩
    · rfl
    · simp only
      rcases h₃ : mapLevel m₂ pmm₂ pd (index virt 1) flags with ⟨m₃, pmm₃, _ | pt⟩
      · rfl
      · rfl

/-- The tables of the walk are those that the code's steps lead to. -/
theorem lookupWalk_getElem? (m : Memory) (t : UInt64) (is : List (Fin 512)) {d : Nat} (hd : d ≤ is.length) :
  (lookupWalk m t is)[d]? = Radix.node (codeNext m) t (is.take d)
  := by
  induction is generalizing t d with
  | nil =>
      obtain rfl : d = 0 := Nat.le_zero.mp hd
      rfl
  | cons i is ih =>
      rw [lookupWalk]
      cases d with
      | zero =>
          cases hnext : lookupLevel m t i with
          | none => rfl
          | some t' => rfl
      | succ d =>
          rw [List.take_succ_cons, Radix.node, codeNext]
          cases hnext : lookupLevel m t i with
          | none => rfl
          | some t' => exact ih t' (Nat.le_of_succ_le_succ hd)

/-- `vmm_unmap_page` and `vmm_get_phys` access the entry of the page in the fourth table of the walk. -/
theorem pageTable_eq_lookupWalk (m : Memory) (root virt : UInt64) :
  pageTable m root virt = (lookupWalk m root (path virt))[3]?
  := by
  have hlen : 3 ≤ (path virt).length := (length_pathFrom virt 3).ge
  rw [pageTable_eq_node, lookupWalk_getElem? m root (path virt) hlen]
  rfl

/-! ### Where the walks agree -/

variable {k : UInt64} {T₀ T T' : UInt64 → Fin 512 → UInt64} {m : Memory} {pmm : Pmm}
  {live : List UInt64} {r t v : UInt64} {is : List (Fin 512)}

/-- The tables on a path are in use, and the entries that point to tables hold addresses that the
processor and the code read alike. -/
def Readable (T : UInt64 → Fin 512 → UInt64) (pmm : Pmm) (t : UInt64) (is : List (Fin 512)) : Prop :=
  ∀ js, js <+: is → ∀ p, Radix.node (next T) t js = some p → (Aligned p ∧ ¬ Free pmm p)
    ∧ ∀ i, js ++ [i] <+: is → present (T p i) → large (T p i) = false → entryTable (T p i) = frame (T p i)

/-- No entry on a path maps a large page. -/
def Plain (T : UInt64 → Fin 512 → UInt64) (t : UInt64) (is : List (Fin 512)) : Prop :=
  ∀ js i, js ++ [i] <+: is → ∀ p, Radix.node (next T) t js = some p → present (T p i)
    → large (T p i) = false

theorem noLarge_iff_plain :
  NoLarge T v t 3 ↔ Plain T t (path v)
  := Iff.rfl

theorem Readable.step {i : Fin 512} {t' : UInt64} (h : Readable T pmm t (i :: is))
    (ht : next T t i = some t') :
  Readable T pmm t' is
  := by
  intro js hjs p hp
  have hnode : Radix.node (next T) t (i :: js) = some p := by
    rw [Radix.node, ht, Option.bind_some, hp]
  obtain ⟨hused, hframe⟩ := h (i :: js) ((List.prefix_cons_inj i).mpr hjs) p hnode
  use hused
  intro j hj
  exact hframe j ((List.prefix_cons_inj i).mpr hj)

theorem Plain.step {i : Fin 512} {t' : UInt64} (h : Plain T t (i :: is)) (ht : next T t i = some t') :
  Plain T t' is
  := by
  intro js j hjs p hp
  apply h (i :: js) j ((List.prefix_cons_inj i).mpr hjs) p
  rw [Radix.node, ht, Option.bind_some, hp]

/-- The code goes where the processor goes, up to a large page. -/
theorem Readable.code_node {js : List (Fin 512)} {p : UInt64} (h : Readable (entries m) pmm t is)
    (hjs : js <+: is) (hp : Radix.node (next (entries m)) t js = some p) :
  Radix.node (codeNext m) t js = some p
  := by
  rw [← hp]
  apply Radix.node_congr
  intro ks j hks q hq
  -- the processor goes on from this table, so its entry is no large page
  obtain ⟨q', hq'⟩ : ∃ q', next (entries m) q j = some q' := by
    obtain ⟨rest, rfl⟩ := hks
    rw [Radix.node_append, Radix.node_snoc_of_node hq] at hp
    obtain ⟨q', hq', -⟩ := Option.bind_eq_some_iff.mp hp
    exact ⟨q', hq'⟩
  obtain ⟨hpresent, hlarge, rfl⟩ := table_eq_some hq'
  have hframe := (h ks ((List.prefix_append ks [j]).trans (hks.trans hjs)) q hq).2 j (hks.trans hjs)
    hpresent hlarge
  have hthere : ¬ entry m q j &&& pagePresent = 0 := by
    rw [not_present_iff, hpresent]
    decide
  rw [hq', codeNext, lookupLevel, if_neg hthere, ← hframe]
  rfl

/-- Where no large page is met, the code goes nowhere else. -/
theorem Readable.node_of_code {js : List (Fin 512)} {p : UInt64} (h : Readable (entries m) pmm t is)
    (hplain : Plain (entries m) t is) (hjs : js <+: is) (hp : Radix.node (codeNext m) t js = some p) :
  Radix.node (next (entries m)) t js = some p
  := by
  rw [← hp]
  apply Eq.symm
  apply Radix.node_congr
  intro ks j hks q hq
  have hpath := hks.trans hjs
  rw [codeNext, lookupLevel, next]
  cases hpresent : present (entries m q j) with
  | false => rw [if_pos (not_present_iff.mpr hpresent), table_of_not_present hpresent]
  | true =>
      have hthere : ¬ entry m q j &&& pagePresent = 0 := by
        rw [not_present_iff, hpresent]
        decide
      have hlarge := hplain ks j hpath q hq hpresent
      have hframe := (h ks ((List.prefix_append ks [j]).trans hpath) q hq).2 j hpath hpresent hlarge
      rw [if_neg hthere, table_of_present hpresent hlarge, ← hframe]
      rfl

/-- The code goes on from a large page. -/
theorem Readable.code_large {js : List (Fin 512)} {i : Fin 512} {p : UInt64}
    (h : Readable (entries m) pmm t is) (hjs : js ++ [i] <+: is)
    (hp : Radix.node (next (entries m)) t js = some p) (hpresent : present (entries m p i))
    (hlarge : large (entries m p i)) :
  Radix.node (codeNext m) t (js ++ [i]) = some (entryTable (entries m p i))
    ∧ Radix.node (next (entries m)) t (js ++ [i]) = none
  := by
  have hthere : ¬ entry m p i &&& pagePresent = 0 := by
    rw [not_present_iff, hpresent]
    decide
  constructor
  · rw [Radix.node_snoc_of_node (h.code_node ((List.prefix_append js [i]).trans hjs) hp), codeNext,
      lookupLevel, if_neg hthere]
    rfl
  · rw [Radix.node_snoc_of_node hp, next, table, hpresent, hlarge]
    rfl

/-! ### The tables of a mapping -/

/-- Pages are handed out, and none is given back. -/
theorem mapWalk_free (hpmm : AllocatorOk pmm) (ht : Aligned t) (flags : UInt64) (is : List (Fin 512))
    {p : UInt64} (hp : Aligned p) (hfree : Free (mapWalk m pmm flags t is).2.1 p) :
  Free pmm p
  := by
  induction is generalizing m pmm t with
  | nil => exact hfree
  | cons i is ih =>
      rw [mapWalk] at hfree
      rcases mapLevel_cases hpmm ht i flags (m := m) with
        ⟨-, -, hmap⟩ | ⟨-, pmm', q, m', hq, hmap, -⟩ | ⟨-, m', e, -, hmap, -⟩
      · rw [hmap] at hfree
        exact hfree
      · rw [hmap] at hfree
        exact ((hq.rest p hp).mp (ih hq.ok hq.aligned hfree)).1
      · rw [hmap] at hfree
        exact ih hpmm (entryTable_aligned _) hfree

/-- The page was handed out. -/
def HandedOut (pmm pmm' : Pmm) (p : UInt64) : Prop := Aligned p ∧ Free pmm p ∧ ¬ Free pmm' p

/-- From an empty table on, all tables are new. -/
theorem mapWalk_new (hpmm : AllocatorOk pmm) (ht : Aligned t) (hzero : ∀ i, entries m t i = 0)
    (hused : ¬ Free pmm t) (flags : UInt64) (is : List (Fin 512)) {d : Nat} {p : UInt64}
    (hp : (mapWalk m pmm flags t is).2.2[d]? = some p) :
  p = t ∨ HandedOut pmm (mapWalk m pmm flags t is).2.1 p
  := by
  induction is generalizing m pmm t d with
  | nil =>
      left
      exact List.mem_singleton.mp (List.mem_of_getElem? hp)
  | cons i is ih =>
      have hnone : present (entries m t i) = false := by
        rw [hzero]
        exact not_present_zero
      rw [mapWalk] at hp ⊢
      rcases mapLevel_cases hpmm ht i flags (m := m) with
        ⟨-, -, hmap⟩ | ⟨-, pmm', q, m', hq, hmap, hT⟩ | ⟨hpresent, -⟩
      · rw [hmap] at hp
        left
        exact List.mem_singleton.mp (List.mem_of_getElem? hp)
      · rw [hmap] at hp ⊢
        simp only at hp ⊢
        cases d with
        | zero =>
            cases hp
            exact Or.inl rfl
        | succ d =>
            right
            have hqt : q ≠ t := by
              rintro rfl
              exact hused hq.free
            have hempty : ∀ j, entries m' q j = 0 := by
              intro j
              rw [hT q hq.aligned, if_neg (fun hand => hqt hand.1), if_pos rfl]
            have hqused : ¬ Free pmm' q := fun hfree => ((hq.rest q hq.aligned).mp hfree).2 rfl
            rcases ih hq.ok hq.aligned hempty hqused hp with rfl | ⟨haligned, hfree, hnot⟩
            · refine ⟨hq.aligned, hq.free, ?_⟩
              intro hfree
              exact hqused (mapWalk_free hq.ok hq.aligned flags is hq.aligned hfree)
            · exact ⟨haligned, ((hq.rest p haligned).mp hfree).1, hnot⟩
      · rw [hnone] at hpresent
        cases hpresent

theorem Alike.trans {e e' e'' : UInt64} (h : Alike e e') (h' : Alike e' e'') :
  Alike e e''
  where
  present := h'.present.trans h.present
  large := h'.large.trans h.large
  frame := h'.frame.trans h.frame
  entryTable := h'.entryTable.trans h.entryTable

/-- Where no large page is met, `vmm_map_page` accesses the tables that the processor's walk reaches, and
new ones.  On the way entries are changed to ones alike. -/
theorem mapWalk_spec (hpmm : AllocatorOk pmm) (hread : Readable T pmm t is) (hplain : Plain T t is)
    (hT : ∀ p, Aligned p → ∀ j, Alike (T p j) (entries m p j)) (flags : UInt64) {d : Nat} {p : UInt64}
    (hp : (mapWalk m pmm flags t is).2.2[d]? = some p) :
  Radix.node (next T) t (is.take d) = some p ∨ HandedOut pmm (mapWalk m pmm flags t is).2.1 p
  := by
  induction is generalizing m t d with
  | nil =>
      left
      cases d with
      | zero => exact hp
      | succ d => cases hp
  | cons i is ih =>
      obtain ⟨⟨haligned, hused⟩, hframe⟩ := hread [] List.nil_prefix t rfl
      have halike := hT t haligned i
      have hstart : [] ++ [i] <+: i :: is := List.prefix_append [i] is
      rw [mapWalk] at hp ⊢
      rcases mapLevel_cases hpmm haligned i flags (m := m) with
        ⟨-, -, hmap⟩ | ⟨hnone, pmm', q, m', hq, hmap, hm'⟩ | ⟨hpresent, m', e, he, hmap, hm'⟩
      · rw [hmap] at hp
        left
        cases d with
        | zero => exact hp
        | succ d => cases hp
      · rw [hmap] at hp ⊢
        simp only at hp ⊢
        cases d with
        | zero => exact Or.inl hp
        | succ d =>
            right
            have hempty : ∀ j, entries m' q j = 0 := by
              intro j
              rw [hm' q hq.aligned, if_neg, if_pos rfl]
              rintro ⟨rfl, -⟩
              exact hused hq.free
            have hqused : ¬ Free pmm' q := fun hfree => ((hq.rest q hq.aligned).mp hfree).2 rfl
            rcases mapWalk_new hq.ok hq.aligned hempty hqused flags is hp with rfl | ⟨hp, hfree, hnot⟩
            · refine ⟨hq.aligned, hq.free, ?_⟩
              intro hfree
              exact hqused (mapWalk_free hq.ok hq.aligned flags is hq.aligned hfree)
            · exact ⟨hp, ((hq.rest p hp).mp hfree).1, hnot⟩
      · rw [hmap] at hp ⊢
        simp only at hp ⊢
        cases d with
        | zero => exact Or.inl hp
        | succ d =>
            rw [halike.present] at hpresent
            have hlarge := hplain [] i hstart t rfl hpresent
            have hnext : next T t i = some (entryTable (entries m t i)) := by
              rw [next, table_of_present hpresent hlarge, halike.entryTable, hframe i hstart hpresent hlarge]
            have hT' : ∀ p, Aligned p → ∀ j, Alike (T p j) (entries m' p j) := by
              intro p hp j
              rw [hm' p hp]
              split
              case isTrue hslot =>
                rw [hslot.1, hslot.2]
                exact halike.trans he
              case isFalse => exact hT p hp j
            rw [List.take_succ_cons, Radix.node, hnext]
            exact ih (hread.step hnext) (hplain.step hnext) hT' hp

/-! ### The tables of a state that is reached -/

/-- The entries of the kernel's tables have no bits beyond the addresses. -/
def KernelBits (k : UInt64) (T : UInt64 → Fin 512 → UInt64) : Prop :=
  ∀ p, KernelTable k T p → ∀ i, (T p i).toNat < 2 ^ 52

theorem KernelBits.frame (h : KernelBits k T) {p : UInt64} (hp : KernelTable k T p) (i : Fin 512) :
  entryTable (T p i) = Paging.frame (T p i)
  := by
  apply Eq.symm
  apply frame_eq_entryTable
  have hlt := h p hp i
  rw [entryTable, Word.toNat_and_not_mask _ _ pageMask]
  omega

/-- The tables of a live space below 4 GiB are the kernel's. -/
theorem Inv.low_table (h : Inv k T₀ T pmm live) (hk : KernelRoot k T₀) (hr : r ∈ live) {j : Fin 512}
    {js : List (Fin 512)} {p : UInt64} (hj : j.val < 4) (hlen : js.length ≤ 1)
    (hp : Radix.node (next T) r (0 :: j :: js) = some p) :
  KernelTable k T₀ p
  := by
  obtain ⟨q, hq, hsame⟩ := h.low r hr
  rw [← List.singleton_append, Radix.node_append, hq, Option.bind_some, Radix.node] at hp
  obtain ⟨d, hd, hrest⟩ := Option.bind_eq_some_iff.mp hp
  rw [next, hsame j hj] at hd
  have hkernel : ∀ ks, Radix.node (next T₀) k (0 :: j :: ks) = Radix.node (next T₀) d ks := by
    intro ks
    have hd' : next T₀ (frame (T₀ k 0)) j = some d := hd
    rw [Radix.node, hk.entry, Option.bind_some, Radix.node, hd', Option.bind_some]
  use 0 :: j :: js
  constructor
  · rw [List.length_cons, List.length_cons]
    omega
  · rw [hkernel, ← hrest]
    apply Eq.symm
    apply Radix.node_congr
    intro ks i hks s hs
    have hlt := hks.length_le
    rw [List.length_append, List.length_singleton] at hlt
    rw [next, next, (h.kernel s ⟨0 :: j :: ks, by simp only [List.length_cons]; omega, (hkernel ks).trans hs⟩).1]

/-- An entry of a live space below 4 GiB is one of the kernel's. -/
theorem Inv.low_entry (h : Inv k T₀ T pmm live) (hk : KernelRoot k T₀) (hr : r ∈ live)
    {js : List (Fin 512)} {i : Fin 512} {p : UInt64} (hlow : isLow (js ++ [i]) = true)
    (hlen : js.length ≤ 3) (hp : Radix.node (next T) r js = some p) :
  ∃ q, KernelTable k T₀ q ∧ T p i = T₀ q i
  := by
  match js with
  | [] => cases hlow
  | [a] =>
      simp only [isLow, List.cons_append, List.nil_append, Bool.and_eq_true, decide_eq_true_iff] at hlow
      obtain rfl : a = 0 := Fin.ext hlow.1
      obtain ⟨q, hq, hsame⟩ := h.low r hr
      rw [hp] at hq
      cases hq
      use frame (T₀ k 0)
      constructor
      · use [0], by decide
        have hnil : Radix.node (next T₀) k [] = some k := rfl
        exact (Radix.node_snoc_of_node hnil 0).trans hk.entry
      · exact hsame i hlow.2
  | a :: j :: js =>
      simp only [isLow, List.cons_append, Bool.and_eq_true, decide_eq_true_iff] at hlow
      obtain rfl : a = 0 := Fin.ext hlow.1
      simp only [List.length_cons] at hlen
      have hkernel := h.low_table hk hr hlow.2 (by omega) hp
      exact ⟨p, hkernel, (h.kernel p hkernel).1 i⟩

/-- In a state that is reached, the tables of the kernel and of the live spaces can be read. -/
theorem Inv.readable (h : Inv k T₀ T pmm live) (hk : KernelRoot k T₀) (hbits : KernelBits k T₀)
    (ht : t = k ∨ t ∈ live) (v : UInt64) :
  Readable T pmm t (path v)
  := by
  intro js hjs p hp
  have hlen := hjs.length_le
  rw [path, length_pathFrom] at hlen
  rcases ht with rfl | hr
  · have hkernel := h.kernelTable_congr ⟨js, hlen, hp⟩
    obtain ⟨hsame, hused⟩ := h.kernel p hkernel
    refine ⟨⟨h.kernel_aligned hkernel, hused⟩, ?_⟩
    intro i _ _ _
    rw [hsame]
    exact hbits.frame hkernel i
  · have haligned := node_aligned (h.roots t hr).1 hp
    constructor
    · use haligned
      by_cases hown : own js
      · exact (h.used p (spaceTable_of_node hr hown hp)).1
      · have hlow : isLow js = true := by
          rw [← Bool.not_eq_false]
          exact fun hlow => hown ⟨hlen, hlow⟩
        rcases js with _ | ⟨a, _ | ⟨j, js⟩⟩
        · cases hlow
        · cases hlow
        · simp only [isLow, Bool.and_eq_true, decide_eq_true_iff] at hlow
          obtain rfl : a = 0 := Fin.ext hlow.1
          simp only [List.length_cons] at hlen
          exact (h.kernel p (h.low_table hk hr hlow.2 (by omega) hp)).2
    · intro i hi hpresent _
      have hshort := hi.length_le
      rw [List.length_append, List.length_singleton, path, length_pathFrom] at hshort
      cases hlow : isLow (js ++ [i]) with
      | false => exact (h.clean t hr js i ⟨hlen, hlow⟩ p hp hpresent (by omega)).1
      | true =>
          obtain ⟨q, hq, hentry⟩ := h.low_entry hk hr hlow hlen hp
          rw [hentry]
          exact hbits.frame hq i

/-- The entries of pages hold addresses that the processor and the code read alike. -/
theorem Inv.leaf_frame (h : Inv k T₀ T pmm live) (hk : KernelRoot k T₀) (hbits : KernelBits k T₀)
    (hpages : PagesClean T live) (ht : t = k ∨ t ∈ live) (hv : Canonical v) {p : UInt64}
    (hp : Radix.node (next T) t (path v) = some p) (hpresent : present (T p (index v 0))) :
  entryTable (T p (index v 0)) = frame (T p (index v 0))
  := by
  have hlen : (path v).length ≤ 3 := (length_pathFrom v 3).le
  rcases ht with rfl | hr
  · have hkernel := h.kernelTable_congr ⟨path v, hlen, hp⟩
    rw [(h.kernel p hkernel).1]
    exact hbits.frame hkernel _
  · by_cases hlow : v.toNat < 2 ^ 32
    · obtain ⟨h3, h2⟩ := low_indices hlow
      have hlow' : isLow (path v ++ [index v 0]) = true := by
        simp only [path, pathFrom, List.cons_append, isLow, Bool.and_eq_true, decide_eq_true_iff]
        exact ⟨h3, h2⟩
      obtain ⟨q, hq, hentry⟩ := h.low_entry hk hr hlow' hlen hp
      rw [hentry]
      exact hbits.frame hq _
    · have hclean := hpages t hr (path v) (own_path hv (Nat.le_of_not_lt hlow)) (length_pathFrom v 3)
        (index v 0)
      rw [entryAt, hp] at hclean
      exact hclean hpresent

end Vmm

namespace Spaces

open Vmm Paging

/-- The root that a call of `vmm.c` works on: the null pointer stands for the kernel's. -/
def rootOf (k root : UInt64) : UInt64 := if root = 0 then k else root

/-- Large pages are respected at an address: `vmm_get_phys` agrees with the processor, and each table that
`vmm_map_page` and `vmm_unmap_page` access is the one that the processor's walk reaches at that level, or
one that was handed out for it. -/
structure Respects (k : UInt64) (s : Spaces) (root v : UInt64) : Prop where
  getPhys : vmmGetPhys k s.mem root v = (translate (entries s.mem) (rootOf k root) v).getD 0
  map : ∀ flags d p, (mapWalk s.mem s.pmm flags (rootOf k root) (path v)).2.2[d]? = some p
    → Radix.node (next (entries s.mem)) (rootOf k root) ((path v).take d) = some p
      ∨ HandedOut s.pmm (mapWalk s.mem s.pmm flags (rootOf k root) (path v)).2.1 p
  unmap : ∀ d p, (lookupWalk s.mem (rootOf k root) (path v))[d]? = some p
    → Radix.node (next (entries s.mem)) (rootOf k root) ((path v).take d) = some p

variable {k t v : UInt64} {s : Spaces}

theorem length_lookupWalk (m : Memory) (t : UInt64) (is : List (Fin 512)) :
  (lookupWalk m t is).length ≤ is.length + 1
  := by
  induction is generalizing t with
  | nil => exact Nat.le_refl 1
  | cons i is ih =>
      rw [lookupWalk]
      cases lookupLevel m t i with
      | none => exact Nat.succ_le_succ (Nat.zero_le _)
      | some t' => exact Nat.succ_le_succ (ih t')

theorem respects_of_plain {root : UInt64} (hpmm : AllocatorOk s.pmm)
    (hread : Readable (entries s.mem) s.pmm (rootOf k root) (path v))
    (hleaf : ∀ p, Radix.node (next (entries s.mem)) (rootOf k root) (path v) = some p
      → present (entries s.mem p (index v 0))
      → entryTable (entries s.mem p (index v 0)) = frame (entries s.mem p (index v 0)))
    (hplain : Plain (entries s.mem) (rootOf k root) (path v)) :
  Respects k s root v
  := by
  have hcode : ∀ js, js <+: path v → ∀ p, Radix.node (codeNext s.mem) (rootOf k root) js = some p
      → Radix.node (next (entries s.mem)) (rootOf k root) js = some p :=
    fun js hjs p hp => hread.node_of_code hplain hjs hp
  have hnodes : Radix.node (codeNext s.mem) (rootOf k root) (path v)
      = Radix.node (next (entries s.mem)) (rootOf k root) (path v) := by
    cases hnode : Radix.node (codeNext s.mem) (rootOf k root) (path v) with
    | some p => exact (hcode _ (List.prefix_refl _) p hnode).symm
    | none =>
        cases hnode' : Radix.node (next (entries s.mem)) (rootOf k root) (path v) with
        | none => rfl
        | some p =>
            rw [hread.code_node (List.prefix_refl _) hnode'] at hnode
            cases hnode
  constructor
  · exact vmmGetPhys_of_node rfl hnodes (translate_eq_node hplain) hleaf
  · intro flags d p hp
    exact mapWalk_spec hpmm hread hplain (fun p _ j => Alike.refl _) flags hp
  · intro d p hp
    have hd : d ≤ (path v).length := by
      have hlt := (List.getElem?_eq_some_iff.mp hp).1
      have hlen := length_lookupWalk s.mem (rootOf k root) (path v)
      omega
    rw [lookupWalk_getElem? s.mem _ _ hd] at hp
    exact hcode _ (List.take_prefix d _) p hp

theorem plain_of_respects {root : UInt64}
    (hread : Readable (entries s.mem) s.pmm (rootOf k root) (path v)) (h : Respects k s root v) :
  Plain (entries s.mem) (rootOf k root) (path v)
  := by
  intro js i hjs p hp hpresent
  by_contra hlarge
  rw [Bool.not_eq_false] at hlarge
  obtain ⟨hcode, hnone⟩ := hread.code_large hjs hp hpresent hlarge
  have htake : (path v).take (js ++ [i]).length = js ++ [i] := (List.prefix_iff_eq_take.mp hjs).symm
  have hwalk := lookupWalk_getElem? s.mem (rootOf k root) (path v) hjs.length_le
  rw [htake, hcode] at hwalk
  have hunmap := h.unmap _ _ hwalk
  rw [htake, hnone] at hunmap
  cases hunmap

/-- In every state that a run of permitted calls reaches, large pages are respected at exactly the
addresses whose walk meets none. -/
theorem large_pages_respected_iff (image : KernelImage) (k : UInt64) (m : Memory) (pmm : Pmm)
    (hboot : Booted k m pmm) (hbits : KernelBits k (entries m)) (calls : List Call)
    (h : Run.Guarded (step image k) (Permitted k) ⟨m, pmm, []⟩ calls) :
  ∃ s, Run.exec (step image k) ⟨m, pmm, []⟩ calls = some s
    ∧ ∀ root, root = 0 ∨ root = k ∨ root ∈ s.live → ∀ v, Canonical v
      → (Respects k s root v ↔ NoLarge (entries s.mem) v (rootOf k root) 3)
  := by
  obtain ⟨s, hrun, hinv, hpages⟩ := calls_inv image hboot h
  refine ⟨s, hrun, ?_⟩
  intro root hroot v hv
  have ht : rootOf k root = k ∨ rootOf k root ∈ s.live := by
    rw [rootOf]
    split
    · exact Or.inl rfl
    · rcases hroot with hzero | hrest
      · contradiction
      · exact hrest
  have hread := hinv.readable hboot.root hbits ht v
  rw [noLarge_iff_plain]
  constructor
  · exact plain_of_respects hread
  · apply respects_of_plain hinv.ok hread
    intro p hp
    exact hinv.leaf_frame hboot.root hbits hpages ht hv hp

/-! ### A large page -/

/-- The kernel's tables map the large page at 2 MiB. -/
def largeMemory : Memory := setEntry (setEntry smallMemory 0x2000 0 0x3003) 0x3000 1 0x200083

theorem largeMemory_entries {p : UInt64} (hp : Aligned p) (i : Fin 512) :
  entries largeMemory p i = if p = 0x3000 ∧ i = 1 then 0x200083 else if p = 0x2000 ∧ i = 0 then 0x3003
    else if p = 0x1000 ∧ i = 0 then 0x2003 else 0
  := by
  have hlast := entries_setEntry (setEntry smallMemory 0x2000 0 0x3003) 1 i 0x200083 (t := 0x3000)
    (by decide) hp
  have hfirst := entries_setEntry smallMemory 0 i 0x3003 (t := 0x2000) (by decide) hp
  rw [smallMemory_entries hp] at hfirst
  rw [← hfirst]
  exact hlast

theorem largeMemory_next {p q : UInt64} (hp : Aligned p) {i : Fin 512}
    (hq : next (entries largeMemory) p i = some q) :
  (p = 0x2000 ∧ q = 0x3000) ∨ (p = 0x1000 ∧ q = 0x2000)
  := by
  have hlarge : table 0x200083 = none := by decide
  have hpd : table 0x3003 = some 0x3000 := by decide
  have hpdpt : table 0x2003 = some 0x2000 := by decide
  rw [next, largeMemory_entries hp] at hq
  split at hq
  · rw [hlarge] at hq
    cases hq
  · split at hq
    case isTrue hslot =>
      rw [hpd] at hq
      exact Or.inl ⟨hslot.1, (Option.some_inj.mp hq).symm⟩
    case isFalse =>
      split at hq
      case isTrue hslot =>
        rw [hpdpt] at hq
        exact Or.inr ⟨hslot.1, (Option.some_inj.mp hq).symm⟩
      case isFalse =>
        rw [table_of_not_present not_present_zero] at hq
        cases hq

theorem large_kernelTable {p : UInt64} (hp : KernelTable 0x1000 (entries largeMemory) p) :
  p = 0x1000 ∨ p = 0x2000 ∨ p = 0x3000
  := by
  obtain ⟨is, -, hnode⟩ := hp
  have hclosed : ∀ p i q, p = 0x1000 ∨ p = 0x2000 ∨ p = 0x3000
      → next (entries largeMemory) p i = some q → q = 0x1000 ∨ q = 0x2000 ∨ q = 0x3000 := by
    intro p i q hp hq
    have haligned : Aligned p := by
      rcases hp with rfl | rfl | rfl
      · decide
      · decide
      · decide
    rcases largeMemory_next haligned hq with ⟨-, rfl⟩ | ⟨-, rfl⟩
    · exact Or.inr (Or.inr rfl)
    · exact Or.inr (Or.inl rfl)
  exact Radix.node_closed hclosed (Or.inl rfl) hnode

theorem large_booted :
  Booted 0x1000 largeMemory smallPmm
  where
  aligned := by decide
  root := by
    have hentry : entries largeMemory 0x1000 0 = 0x2003 := largeMemory_entries (by decide) 0
    constructor
    · rw [next, hentry]
      decide
    · rw [hentry]
      decide
    · intro i hi
      rw [largeMemory_entries (by decide), if_neg (fun hand => absurd hand.1 (by decide)),
        if_neg (fun hand => absurd hand.1 (by decide)), if_neg (fun hand => hi hand.2)]
      decide
  used := by
    rintro p hp ⟨-, hfree⟩
    revert hfree
    rcases large_kernelTable hp with rfl | rfl | rfl
    · decide
    · decide
    · decide
  ok := small_booted.ok

theorem large_kernelBits :
  KernelBits 0x1000 (entries largeMemory)
  := by
  intro p hp i
  have hp' : Aligned p := by
    rcases large_kernelTable hp with rfl | rfl | rfl
    · decide
    · decide
    · decide
  rw [largeMemory_entries hp']
  split
  · decide
  · split
    · decide
    · split
      · decide
      · decide

/-- At boot large pages are respected above 4 GiB. -/
theorem large_pages_respected_iff_boot :
  ∃ s, Run.exec (step Pmm.Session.smallImage 0x1000) ⟨largeMemory, smallPmm, []⟩ [] = some s
    ∧ ∀ root, root = 0 ∨ root = 0x1000 ∨ root ∈ s.live → ∀ v, Canonical v
      → (Respects 0x1000 s root v ↔ NoLarge (entries s.mem) v (rootOf 0x1000 root) 3)
  := large_pages_respected_iff Pmm.Session.smallImage 0x1000 largeMemory smallPmm large_booted
    large_kernelBits [] trivial

/-- At boot `vmm_get_phys` does not find the large page at 2 MiB, but reads memory there as a table. -/
theorem not_respected_large :
  Booted 0x1000 largeMemory smallPmm ∧ KernelBits 0x1000 (entries largeMemory)
    ∧ ¬ Respects 0x1000 ⟨largeMemory, smallPmm, []⟩ 0 0x200000
  := by
  refine ⟨large_booted, large_kernelBits, ?_⟩
  intro h
  have hcode : vmmGetPhys 0x1000 largeMemory 0 0x200000 = 0 := by decide +kernel
  have hwalk : (translate (entries largeMemory) (rootOf 0x1000 0) 0x200000).getD 0 = 0x200000 := by
    decide +kernel
  have hagree := h.getPhys
  rw [hcode, hwalk] at hagree
  exact absurd hagree (by decide)

end Spaces
