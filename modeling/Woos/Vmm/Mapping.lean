import Woos.Vmm.Separation

/-!
# Mapping

What `vmm_map_page` and `vmm_unmap_page` do to the address spaces.  `Grows` says what the tables that
are made on the way to an address change: no page of any space.
-/

namespace Vmm

open Paging

/-! ### Tables on the way -/

/-- The pages of a list are handed out, one after the other. -/
def TakesAll : Pmm → List UInt64 → Pmm → Prop
  | pmm, [], pmm' => pmm' = pmm
  | pmm, q :: L, pmm' => ∃ mid, Takes pmm mid q ∧ TakesAll mid L pmm'

theorem TakesAll.append {pmm pmm' pmm'' : Pmm} {L L' : List UInt64} (h : TakesAll pmm L pmm')
    (h' : TakesAll pmm' L' pmm'') :
  TakesAll pmm (L ++ L') pmm''
  := by
  induction L generalizing pmm with
  | nil =>
      cases h
      exact h'
  | cons q L ih =>
      obtain ⟨mid, hq, hrest⟩ := h
      exact ⟨mid, hq, ih hrest⟩

variable {k : UInt64} {T₀ : UInt64 → Fin 512 → UInt64} {m m' m'' : Memory} {pmm pmm' pmm'' : Pmm}
  {live : List UInt64} {r t : UInt64} {full is : List (Fin 512)} {i : Fin 512} {L L' : List UInt64}

/-- The tables `L` are added on the path `full` of the space `r`, and no page changes. -/
structure Grows (k : UInt64) (T₀ : UInt64 → Fin 512 → UInt64) (live : List UInt64) (r : UInt64)
    (full : List (Fin 512)) (m : Memory) (pmm : Pmm) (m' : Memory) (pmm' : Pmm) (L : List UInt64) :
    Prop where
  inv : Inv k T₀ (entries m') pmm' live
  same : SameEntries (entries m) (entries m') live
  takes : TakesAll pmm L pmm'
  mono : ∀ s ∈ live, ∀ js, own js → ∀ p, Radix.node (next (entries m)) s js = some p
    → Radix.node (next (entries m')) s js = some p
  old : ∀ s ∈ live, ∀ js, own js → ∀ p, Radix.node (next (entries m')) s js = some p
    → Radix.node (next (entries m)) s js = some p ∨ (s = r ∧ js <+: full ∧ js ≠ [] ∧ p ∈ L)
  new : ∀ p ∈ L, ∃ js, js <+: full ∧ js ≠ [] ∧ Radix.node (next (entries m')) r js = some p

theorem Grows.refl (h : Inv k T₀ (entries m) pmm live) :
  Grows k T₀ live r full m pmm m pmm []
  where
  inv := h
  same _ _ _ _ _ _ := rfl
  takes := rfl
  mono _ _ _ _ _ hp := hp
  old _ _ _ _ _ hp := Or.inl hp
  new := by simp

theorem Grows.trans (hr : r ∈ live) (hfull : own full) (h : Grows k T₀ live r full m pmm m' pmm' L)
    (h' : Grows k T₀ live r full m' pmm' m'' pmm'' L') :
  Grows k T₀ live r full m pmm m'' pmm'' (L ++ L')
  where
  inv := h'.inv
  same := h.same.trans h'.same
  takes := h.takes.append h'.takes
  mono s hs js hjs p hp := h'.mono s hs js hjs p (h.mono s hs js hjs p hp)
  old := by
    intro s hs js hjs p hp
    rcases h'.old s hs js hjs p hp with hmid | ⟨hsr, hpath, hne, hmem⟩
    · rcases h.old s hs js hjs p hmid with hold | ⟨hsr, hpath, hne, hmem⟩
      · exact Or.inl hold
      · exact Or.inr ⟨hsr, hpath, hne, List.mem_append_left L' hmem⟩
    · exact Or.inr ⟨hsr, hpath, hne, List.mem_append_right L hmem⟩
  new := by
    intro p hp
    rcases List.mem_append.mp hp with hmem | hmem
    · obtain ⟨js, hpath, hne, hnode⟩ := h.new p hmem
      use js, hpath, hne
      exact h'.mono r hr js (own_prefixClosed.of_prefix hfull hpath) p hnode
    · exact h'.new p hmem

/-- One level of `vmm_map_page` on the way to an address of a live space. -/
theorem mapLevel_grows (h : Inv k T₀ (entries m) pmm live) (hr : r ∈ live) (hfull : own full)
    (hpath : is ++ [i] <+: full) (ht : Radix.node (next (entries m)) r is = some t) (flags : UInt64) :
  ∃ m' pmm' L res, mapLevel m pmm t i flags = (m', pmm', res)
    ∧ Grows k T₀ live r full m pmm m' pmm' L
    ∧ (∀ t', res = some t' → Radix.node (next (entries m')) r (is ++ [i]) = some t')
    ∧ (present (entries m t i) = false → (pmm.pmmAllocPage).2 ≠ 0 → L ≠ [])
  := by
  have hown := own_prefixClosed.of_prefix hfull hpath
  have hproper := proper_of_own_snoc hown
  have hlen : is.length < 3 := by
    have hle := hown.1
    rw [List.length_append, List.length_singleton] at hle
    omega
  have haligned := node_aligned (h.roots r hr).1 ht
  rcases mapLevel_cases h.ok haligned i flags with
    ⟨hnone, halloc, hmap⟩ | ⟨hnone, pmm', q, m', htakes, hmap, hT⟩ | ⟨hpresent, m', e, he, hmap, hT⟩
  · refine ⟨m, pmm, [], none, hmap, Grows.refl h, by simp, ?_⟩
    intro _ hpage
    rw [halloc] at hpage
    exact absurd rfl hpage
  · have hnode : ∀ {s : UInt64}, s ∈ live → ∀ {js : List (Fin 512)}, own js →
        Radix.node (next (entries m')) s js
          = if s = r ∧ js = is ++ [i] then some q else Radix.node (next (entries m)) s js :=
      fun hs _ hjs => h.node_graft hr hproper ht hnone htakes flags hT hs hjs
    have hnew : Radix.node (next (entries m')) r (is ++ [i]) = some q := by
      rw [hnode hr hown, if_pos ⟨rfl, rfl⟩]
    have habsent : Radix.node (next (entries m)) r (is ++ [i]) = none := by
      rw [Radix.node_snoc_of_node ht, next, table_of_not_present hnone]
    refine ⟨m', pmm', [q], some q, hmap, ⟨?_, ?_, ⟨pmm', htakes, rfl⟩, ?_, ?_, ?_⟩, ?_, by simp⟩
    · exact h.graft hr hproper ht hnone htakes flags hT
    · exact h.graft_sameEntries hr hproper hlen ht hnone htakes flags hT
    · intro s hs js hjs p hp
      rw [hnode hs hjs, if_neg, hp]
      rintro ⟨rfl, rfl⟩
      rw [habsent] at hp
      cases hp
    · intro s hs js hjs p hp
      rw [hnode hs hjs] at hp
      split at hp
      case isTrue hslot =>
        cases hp
        obtain ⟨rfl, rfl⟩ := hslot
        exact Or.inr ⟨rfl, hpath, by simp, List.mem_singleton_self q⟩
      case isFalse => exact Or.inl hp
    · intro p hp
      rw [List.mem_singleton.mp hp]
      exact ⟨is ++ [i], hpath, by simp, hnew⟩
    · rintro t' ⟨⟩
      exact hnew
  · obtain ⟨hframe, hlarge⟩ := h.clean r hr is i hproper t ht hpresent hlen
    have hclean : Clean is.length e := by
      intro _ _
      rw [he.entryTable, he.frame, he.large]
      exact ⟨hframe, hlarge⟩
    have hnodes := h.nodes_alike he hT
    refine ⟨m', pmm, [], some _, hmap, ⟨?_, ?_, rfl, ?_, ?_, by simp⟩, ?_, ?_⟩
    · exact h.write hr hproper ht hT hnodes hclean
    · intro s hs js hjs hfull j
      rw [h.entryAt_write hr hproper.own ht hT hnodes hs hjs, if_neg]
      rintro ⟨-, rfl, -⟩
      omega
    · intro s hs js hjs p hp
      rw [hnodes s hs js hjs, hp]
    · intro s hs js hjs p hp
      rw [hnodes s hs js hjs] at hp
      exact Or.inl hp
    · rintro t' ⟨⟩
      rw [hnodes r hr _ hown, Radix.node_snoc_of_node ht, next, table_of_present hpresent hlarge,
        hframe]
    · intro hnone
      rw [hpresent] at hnone
      cases hnone

/-! ### vmm_map_page -/

/-- The entry of a page is set in one space. -/
def SetsEntry (T T' : UInt64 → Fin 512 → UInt64) (live : List UInt64) (r v e : UInt64) : Prop :=
  ∀ s ∈ live, ∀ is, own is → is.length = 3 → ∀ i,
    entryAt T' s is i = if s = r ∧ is = path v ∧ i = index v 0 then e else entryAt T s is i

/-- The entry of a page is written in a page table that is there. -/
theorem setEntry_page {v e : UInt64} (h : Inv k T₀ (entries m) pmm live) (hr : r ∈ live)
    (hown : own (path v)) (ht : Radix.node (next (entries m)) r (path v) = some t) :
  Inv k T₀ (entries (setEntry m t (index v 0) e)) pmm live
    ∧ SetsEntry (entries m) (entries (setEntry m t (index v 0) e)) live r v e
    ∧ ∀ s ∈ live, ∀ js, own js → Radix.node (next (entries (setEntry m t (index v 0) e))) s js
      = Radix.node (next (entries m)) s js
  := by
  have hlen : (path v).length = 3 := length_pathFrom v 3
  have haligned := node_aligned (h.roots r hr).1 ht
  have hT : ∀ p, Aligned p → ∀ j, entries (setEntry m t (index v 0) e) p j
      = if p = t ∧ j = index v 0 then e else entries m p j :=
    fun p hp j => entries_setEntry m (index v 0) j e haligned hp
  have hnodes := h.nodes_leaf hr hown hlen ht hT
  have hclean : Clean (path v).length e := by
    intro _ hlt
    omega
  refine ⟨h.write hr (hown.proper_full hlen _) ht hT hnodes hclean, ?_, hnodes⟩
  intro s hs js hjs _ j
  exact h.entryAt_write hr hown ht hT hnodes hs hjs j

/-- `vmm_map_page` for a page of a live space from 4 GiB on. -/
theorem vmmMapPage_inv {v : UInt64} (h : Inv k T₀ (entries m) pmm live) (hr : r ∈ live)
    (hv : Canonical v) (hhigh : 2 ^ 32 ≤ v.toNat) (phys flags : UInt64) :
  ∃ mid m' pmm' L res, vmmMapPage k m pmm r v phys flags = (m', pmm', res)
    ∧ Grows k T₀ live r (path v) m pmm mid pmm' L
    ∧ (present (entries m r (index v 3)) = false → (pmm.pmmAllocPage).2 ≠ 0 → L ≠ [])
    ∧ ((res = 0 ∧ m' = mid)
      ∨ (res = 1 ∧ Inv k T₀ (entries m') pmm' live
        ∧ SetsEntry (entries mid) (entries m') live r v (leafEntry phys flags)
        ∧ ∀ s ∈ live, ∀ js, own js → Radix.node (next (entries m')) s js
          = Radix.node (next (entries mid)) s js))
  := by
  have hown := own_path hv hhigh
  have hne := (h.roots r hr).2
  have h3 : [] ++ [index v 3] <+: path v := List.prefix_append [index v 3] _
  have h2 : [index v 3] ++ [index v 2] <+: path v := List.prefix_append [index v 3, index v 2] _
  have h1 : [index v 3, index v 2] ++ [index v 1] <+: path v := List.prefix_refl _
  rw [vmmMapPage]
  simp only [if_neg hne, tableIndex_eq v 39 rfl (by decide : 3 < 4),
    tableIndex_eq v 30 rfl (by decide : 2 < 4), tableIndex_eq v 21 rfl (by decide : 1 < 4),
    tableIndex_eq v 12 rfl (by decide : 0 < 4)]
  obtain ⟨m₁, pmm₁, L₁, res₁, hmap₁, hgrows₁, hnode₁, hfirst⟩ := mapLevel_grows h hr hown h3 rfl flags
  have hnew : ∀ L, present (entries m r (index v 3)) = false → (pmm.pmmAllocPage).2 ≠ 0 → L₁ ++ L ≠ [] := by
    intro L habsent hpage happend
    exact hfirst habsent hpage (List.append_eq_nil_iff.mp happend).1
  rw [hmap₁]
  cases res₁ with
  | none => exact ⟨m₁, m₁, pmm₁, L₁, 0, rfl, hgrows₁, hfirst, Or.inl ⟨rfl, rfl⟩⟩
  | some pdpt =>
      obtain ⟨m₂, pmm₂, L₂, res₂, hmap₂, hgrows₂, hnode₂, -⟩ :=
        mapLevel_grows hgrows₁.inv hr hown h2 (hnode₁ pdpt rfl) flags
      have hgrows := hgrows₁.trans hr hown hgrows₂
      simp only [hmap₂]
      cases res₂ with
      | none => exact ⟨m₂, m₂, pmm₂, _, 0, rfl, hgrows, hnew L₂, Or.inl ⟨rfl, rfl⟩⟩
      | some pd =>
          obtain ⟨m₃, pmm₃, L₃, res₃, hmap₃, hgrows₃, hnode₃, -⟩ :=
            mapLevel_grows hgrows.inv hr hown h1 (hnode₂ pd rfl) flags
          have hgrows' := hgrows.trans hr hown hgrows₃
          rw [List.append_assoc] at hgrows'
          simp only [hmap₃]
          cases res₃ with
          | none => exact ⟨m₃, m₃, pmm₃, _, 0, rfl, hgrows', hnew (L₂ ++ L₃), Or.inl ⟨rfl, rfl⟩⟩
          | some pt =>
              obtain ⟨hinv, hsets, hnodes⟩ := setEntry_page hgrows'.inv hr hown (hnode₃ pt rfl)
              exact ⟨m₃, _, pmm₃, _, 1, rfl, hgrows', hnew (L₂ ++ L₃), Or.inr ⟨rfl, hinv, hsets, hnodes⟩⟩

/-! ### vmm_unmap_page -/

/-- `vmm_unmap_page` for a page of a live space from 4 GiB on. -/
theorem vmmUnmapPage_inv {v : UInt64} (h : Inv k T₀ (entries m) pmm live) (hr : r ∈ live)
    (hv : Canonical v) (hhigh : 2 ^ 32 ≤ v.toNat) :
  ∃ m' res, vmmUnmapPage k m r v = (m', res) ∧ Inv k T₀ (entries m') pmm live
    ∧ (∀ s ∈ live, ∀ js, own js → Radix.node (next (entries m')) s js
      = Radix.node (next (entries m)) s js)
    ∧ ((res = 0 ∧ m' = m ∧ present (entryAt (entries m) r (path v) (index v 0)) = false)
      ∨ (res = 1 ∧ SetsEntry (entries m) (entries m') live r v 0))
  := by
  have hown := own_path hv hhigh
  rw [vmmUnmapPage]
  simp only [if_neg (h.roots r hr).2, pageTable_eq_node, h.code_node hr hown,
    tableIndex_eq v 12 rfl (by decide : 0 < 4)]
  cases hpt : Radix.node (next (entries m)) r (path v) with
  | none =>
      refine ⟨m, 0, rfl, h, fun _ _ _ _ => rfl, Or.inl ⟨rfl, rfl, ?_⟩⟩
      rw [entryAt, hpt]
      exact not_present_zero
  | some pt =>
      simp only
      split
      case isTrue habsent =>
        refine ⟨m, 0, rfl, h, fun _ _ _ _ => rfl, Or.inl ⟨rfl, rfl, ?_⟩⟩
        rw [entryAt, hpt]
        exact not_present_iff.mp habsent
      case isFalse =>
        obtain ⟨hinv, hsets, hnodes⟩ := setEntry_page h hr hown hpt
        exact ⟨_, 1, rfl, hinv, hnodes, Or.inr ⟨rfl, hsets⟩⟩

/-- The entries of pages hold addresses that the processor and the code read alike. -/
def PagesClean (T : UInt64 → Fin 512 → UInt64) (live : List UInt64) : Prop :=
  ∀ r ∈ live, ∀ is, own is → is.length = 3 → ∀ i, present (entryAt T r is i)
    → entryTable (entryAt T r is i) = frame (entryAt T r is i)

theorem PagesClean.same {T T' : UInt64 → Fin 512 → UInt64} (h : PagesClean T live)
    (hsame : SameEntries T T' live) :
  PagesClean T' live
  := by
  intro s hs is his hlen i
  rw [hsame s hs is his hlen i]
  exact h s hs is his hlen i

theorem PagesClean.sets {T T' : UInt64 → Fin 512 → UInt64} {v e : UInt64} (h : PagesClean T live)
    (hsets : SetsEntry T T' live r v e) (he : present e → entryTable e = frame e) :
  PagesClean T' live
  := by
  intro s hs is his hlen i
  rw [hsets s hs is his hlen i]
  split
  · exact he
  · exact h s hs is his hlen i

theorem frame_leafEntry {phys flags : UInt64} (hphys : phys.toNat < 2 ^ 52)
    (hflags : flags.toNat < 2 ^ 12) :
  frame (leafEntry phys flags) = entryTable (leafEntry phys flags)
  := by
  apply frame_eq_entryTable
  rw [entryTable_leafEntry phys hflags, Word.toNat_and_not_mask _ _ pageMask]
  omega

/-- `vmm_get_phys` where the code and the processor reach the same table. -/
theorem vmmGetPhys_of_node {root v t : UInt64} (ht : (if root = 0 then k else root) = t)
    (hnode : Radix.node (codeNext m) t (path v) = Radix.node (next (entries m)) t (path v))
    (htranslate : translate (entries m) t v
      = (Radix.node (next (entries m)) t (path v)).bind (fun p => leaf (entries m p (index v 0)) v))
    (hleaf : ∀ p, Radix.node (next (entries m)) t (path v) = some p → present (entries m p (index v 0))
      → entryTable (entries m p (index v 0)) = frame (entries m p (index v 0))) :
  vmmGetPhys k m root v = (translate (entries m) t v).getD 0
  := by
  rw [htranslate, vmmGetPhys]
  simp only [ht, pageTable_eq_node, hnode, tableIndex_eq v 12 rfl (by decide : 0 < 4)]
  cases hpt : Radix.node (next (entries m)) t (path v) with
  | none => rfl
  | some pt =>
      rw [Option.bind_some]
      simp only
      cases hpresent : present (entries m pt (index v 0)) with
      | false =>
          rw [if_pos (not_present_iff.mpr hpresent), leaf_of_not_present hpresent]
          rfl
      | true =>
          have hthere : ¬ entry m pt (index v 0) &&& pagePresent = 0 := by
            rw [not_present_iff, hpresent]
            decide
          have haligned := Word.and_not_mask_eq_self pageMask
            (entryTable_aligned (entries m pt (index v 0)))
          have hmask : offsetMask 0 = 0xFFF := rfl
          rw [if_neg hthere, leaf, hpresent, if_pos rfl, Option.getD_some, pageAddress,
            ← hleaf pt hpt hpresent, hmask, haligned]
          rfl

/-- `vmm_get_phys` for an address of a live space from 4 GiB on. -/
theorem vmmGetPhys_eq {v : UInt64} (h : Inv k T₀ (entries m) pmm live)
    (hpages : PagesClean (entries m) live) (hr : r ∈ live) (hv : Canonical v)
    (hhigh : 2 ^ 32 ≤ v.toNat) :
  vmmGetPhys k m r v = (translate (entries m) r v).getD 0
  := by
  have hown := own_path hv hhigh
  apply vmmGetPhys_of_node (if_neg (h.roots r hr).2) (h.code_node hr hown)
  · rw [h.translate_high hr hv hhigh, entryAt]
    cases Radix.node (next (entries m)) r (path v) with
    | none => exact leaf_of_not_present not_present_zero v
    | some pt => rfl
  · intro pt hpt
    have hclean := hpages r hr (path v) hown (length_pathFrom v 3) (index v 0)
    rw [entryAt, hpt] at hclean
    exact hclean

end Vmm
