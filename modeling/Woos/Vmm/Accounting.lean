import Mathlib.Data.List.Nodup
import Woos.Vmm.Spaces

/-!
# Accounting of table pages

What the page allocator loses when pages are handed out for tables, and gains when they are given
back.  `destroyedPages_nodup` says that `vmm_destroy_address_space` gives no page back twice.
-/

namespace Vmm

open Paging

variable {k : UInt64} {T₀ : UInt64 → Fin 512 → UInt64} {m : Memory} {pmm pmm' : Pmm}
  {live L : List UInt64} {r p q : UInt64}

/-! ### Pages handed out -/

theorem Takes.count (h : Takes pmm pmm' q) :
  pmm'.ready = true ∧ pmm'.freePages + 1 = pmm.freePages
  := by
  have halloc := h.alloc
  have htake : ∀ i, pmm.takePage i = (pmm', q) → pmm'.ready = pmm.ready
      ∧ pmm'.freePages + 1 = pmm.freePages := by
    rintro i ⟨⟩
    use rfl
    exact UInt64.sub_add_cancel _ _
  rw [Pmm.pmmAllocPage] at halloc
  split at halloc
  case isTrue => exact absurd (congrArg Prod.snd halloc).symm h.ne_zero
  case isFalse hready =>
    have htrue : pmm.ready = true := by
      rw [← Bool.not_eq_false]
      intro hfalse
      exact hready (Or.inl hfalse)
    split at halloc
    · obtain ⟨hsame, hcount⟩ := htake _ halloc
      exact ⟨hsame.trans htrue, hcount⟩
    · split at halloc
      · obtain ⟨hsame, hcount⟩ := htake _ halloc
        exact ⟨hsame.trans htrue, hcount⟩
      · exact absurd (congrArg Prod.snd halloc).symm h.ne_zero

namespace TakesAll

theorem mem (h : TakesAll pmm L pmm') (hp : p ∈ L) :
  Aligned p ∧ p ≠ 0 ∧ Free pmm p
  := by
  induction L generalizing pmm with
  | nil => cases hp
  | cons q L ih =>
      obtain ⟨mid, hq, hrest⟩ := h
      rcases List.mem_cons.mp hp with rfl | hp
      · exact ⟨hq.aligned, hq.ne_zero, hq.free⟩
      · obtain ⟨haligned, hne, hfree⟩ := ih hrest hp
        exact ⟨haligned, hne, ((hq.rest p haligned).mp hfree).1⟩

theorem free_iff (h : TakesAll pmm L pmm') (hp : Aligned p) :
  Free pmm' p ↔ Free pmm p ∧ p ∉ L
  := by
  induction L generalizing pmm with
  | nil =>
      cases h
      simp
  | cons q L ih =>
      obtain ⟨mid, hq, hrest⟩ := h
      rw [ih hrest, hq.rest p hp, List.mem_cons]
      tauto

theorem nodup (h : TakesAll pmm L pmm') :
  L.Nodup
  := by
  induction L generalizing pmm with
  | nil => exact List.nodup_nil
  | cons q L ih =>
      obtain ⟨mid, hq, hrest⟩ := h
      apply List.nodup_cons.mpr
      apply And.intro _ (ih hrest)
      intro hmem
      exact ((hq.rest q hq.aligned).mp (hrest.mem hmem).2.2).2 rfl

theorem freePages (h : TakesAll pmm L pmm') :
  pmm'.freePages + UInt64.ofNat L.length = pmm.freePages
  := by
  induction L generalizing pmm with
  | nil =>
      cases h
      exact UInt64.add_zero _
  | cons q L ih =>
      obtain ⟨mid, hq, hrest⟩ := h
      have hlength : UInt64.ofNat (L.length + 1) = UInt64.ofNat L.length + 1 := UInt64.ofNat_add _ _
      rw [List.length_cons, hlength, ← UInt64.add_assoc, ih hrest, hq.count.2]

theorem ready (h : TakesAll pmm L pmm') (hL : L ≠ []) :
  pmm'.ready = true
  := by
  induction L generalizing pmm with
  | nil => exact absurd rfl hL
  | cons q L ih =>
      obtain ⟨mid, hq, hrest⟩ := h
      cases L with
      | nil =>
          cases hrest
          exact hq.count.1
      | cons q' L => exact ih hrest (List.cons_ne_nil q' L)

theorem eq_nil (h : TakesAll pmm L pmm') (hnone : (pmm.pmmAllocPage).2 = 0) :
  L = []
  := by
  cases L with
  | nil => rfl
  | cons q L =>
      obtain ⟨mid, hq, -⟩ := h
      rw [hq.alloc] at hnone
      exact absurd hnone hq.ne_zero

end TakesAll

/-! ### Pages given back -/

/-- The page is in use, and `pmm_free_page` accepts it. -/
structure Returnable (image : KernelImage) (pmm : Pmm) (p : UInt64) : Prop where
  aligned : Aligned p
  ne_zero : p ≠ 0
  managed : p.toNat / 4096 < Pmm.maxPages
  unreserved : Pmm.pageIsReserved image p = false
  used : Pmm.bitmapTest pmm.bitmap (p.toNat / 4096) = true

theorem pmmFreePage_returns {image : KernelImage} (hready : pmm.ready = true)
    (h : Returnable image pmm p) :
  (pmm.pmmFreePage image p).ready = true
    ∧ (pmm.pmmFreePage image p).freePages = pmm.freePages + 1
    ∧ ∀ j, Pmm.bitmapTest (pmm.pmmFreePage image p).bitmap j
      = (!decide (j = p.toNat / 4096) && Pmm.bitmapTest pmm.bitmap j)
  := by
  have hsize : (Pmm.pageSize - 1).toNat = 2 ^ 12 - 1 := rfl
  have hidx : (p / Pmm.pageSize).toNat = p.toNat / 4096 := UInt64.toNat_div _ _
  have hmask : p &&& (Pmm.pageSize - 1) = 0 := by
    rw [← UInt64.toNat_inj, Word.toNat_and_mask _ _ hsize]
    exact h.aligned
  rw [Pmm.pmmFreePage, if_neg (by simp [hready, h.ne_zero]), if_neg (by simp [hmask, h.unreserved])]
  simp only [hidx, if_neg (not_le.mpr h.managed), h.used, if_true]
  refine ⟨hready, trivial, ?_⟩
  intro j
  rw [Pmm.bitmapTest_bitmapClear]

theorem freeAll_returns {image : KernelImage} {D : List UInt64} (hready : pmm.ready = true)
    (h : ∀ p ∈ D, Returnable image pmm p) (hnodup : D.Nodup) :
  (freeAll image pmm D).freePages = pmm.freePages + UInt64.ofNat D.length
    ∧ ∀ q, Aligned q → (Free (freeAll image pmm D) q ↔ Free pmm q ∨ q ∈ D)
  := by
  induction D generalizing pmm with
  | nil =>
      constructor
      · exact (UInt64.add_zero _).symm
      · intro q _
        simp [freeAll]
  | cons p D ih =>
      obtain ⟨hnot, hrest⟩ := List.nodup_cons.mp hnodup
      have hp := h p List.mem_cons_self
      obtain ⟨hready', hcount, hbits⟩ := pmmFreePage_returns hready hp
      have hreturnable : ∀ q ∈ D, Returnable image (pmm.pmmFreePage image p) q := by
        intro q hq
        obtain ⟨haligned, hne, hmanaged, hunreserved, hused⟩ := h q (List.mem_cons_of_mem p hq)
        refine ⟨haligned, hne, hmanaged, hunreserved, ?_⟩
        have hqp : q.toNat / 4096 ≠ p.toNat / 4096 := by
          intro heq
          rw [page_inj haligned hp.aligned heq] at hq
          exact hnot hq
        rw [hbits, hused, decide_eq_false hqp]
        rfl
      obtain ⟨hcount', hfree'⟩ := ih hready' hreturnable hrest
      have hlength : UInt64.ofNat (D.length + 1) = UInt64.ofNat D.length + 1 := UInt64.ofNat_add _ _
      constructor
      · rw [List.length_cons, hlength, UInt64.add_comm _ 1, ← UInt64.add_assoc, ← hcount]
        exact hcount'
      · intro q hq
        have hiff : Free (pmm.pmmFreePage image p) q ↔ Free pmm q ∨ q = p := by
          rw [Free, Free, hbits, Bool.and_eq_false_iff, Bool.not_eq_false', decide_eq_true_iff]
          constructor
          · rintro ⟨hmanaged, hpage | hbit⟩
            · exact Or.inr (page_inj hq hp.aligned hpage)
            · exact Or.inl ⟨hmanaged, hbit⟩
          · rintro (⟨hmanaged, hbit⟩ | rfl)
            · exact ⟨hmanaged, Or.inr hbit⟩
            · exact ⟨hp.managed, Or.inl rfl⟩
        rw [List.mem_cons, ← or_assoc, ← hiff]
        exact hfree' q hq

/-! ### The pages that are given back are distinct -/

theorem directoryPages_nodup {pd : UInt64} {i : Fin 512} (h : Inv k T₀ (entries m) pmm live)
    (hr : r ∈ live) (hi : 4 ≤ i.val) (hpd : Radix.node (next (entries m)) r [0, i] = some pd) :
  (directoryPages m pd).Nodup
  := by
  have hchild : ∀ j (hj : j < 512), ∀ p, p ∈ (if entry m pd j &&& pagePresent ≠ 0 then
      [entryTable (entry m pd j)] else []) → Radix.node (next (entries m)) r [0, i, ⟨j, hj⟩] = some p :=
    fun j hj p hp => (h.mem_child [0, i] ⟨j, hj⟩ hr (own_upper hi (by simp)) hpd).mp hp
  rw [directoryPages, List.nodup_flatMap]
  constructor
  · intro j _
    split
    · exact List.nodup_singleton _
    · exact List.nodup_nil
  · apply List.nodup_range.pairwise_of_forall_ne
    intro j hj j' hj' hne p hp hp'
    apply hne
    have hnode := hchild j (List.mem_range.mp hj) p hp
    have hnode' := hchild j' (List.mem_range.mp hj') p hp'
    obtain ⟨-, hpath⟩ := h.separate.eq hr hr (own_upper hi (by simp)) (own_upper hi (by simp)) hnode hnode'
    simp only [List.cons.injEq, true_and, and_true, Fin.mk.injEq] at hpath
    exact hpath

theorem pdptPages_nodup {pdpt : UInt64} (h : Inv k T₀ (entries m) pmm live) (hr : r ∈ live)
    (hpdpt : Radix.node (next (entries m)) r [0] = some pdpt) :
  (pdptPages m pdpt).Nodup
  := by
  -- every page that a round of the loop gives back is reached through the entry of that round
  have hround : ∀ i (hlo : 4 ≤ i) (hlt : i < 512) p, p ∈ (if entry m pdpt i &&& pagePresent ≠ 0 then
        directoryPages m (entryTable (entry m pdpt i)) ++ [entryTable (entry m pdpt i)] else [])
      → ∃ js, own (0 :: ⟨i, hlt⟩ :: js) ∧ Radix.node (next (entries m)) r (0 :: ⟨i, hlt⟩ :: js) = some p := by
    intro i hlo hlt p hp
    rcases h.child_cases [0] ⟨i, hlt⟩ hr (own_upper hlo (by simp)) hpdpt with
      ⟨habsent, -⟩ | ⟨hpresent, hnode⟩
    · rw [if_neg (not_not.mpr habsent)] at hp
      cases hp
    · rw [if_pos hpresent] at hp
      rcases List.mem_append.mp hp with hinner | hlast
      · obtain ⟨j, hj⟩ := (mem_directoryPages h hr (i := ⟨i, hlt⟩) hlo hnode).mp hinner
        exact ⟨[j], own_upper hlo (by simp), hj⟩
      · rw [List.mem_singleton.mp hlast]
        exact ⟨[], own_upper hlo (by simp), hnode⟩
  rw [pdptPages, List.nodup_flatMap]
  constructor
  · intro i hi
    rw [List.mem_range'_1] at hi
    have hlt : i < 512 := by omega
    rcases h.child_cases [0] ⟨i, hlt⟩ hr (own_upper hi.1 (by simp)) hpdpt with
      ⟨habsent, -⟩ | ⟨hpresent, hnode⟩
    · rw [if_neg (not_not.mpr habsent)]
      exact List.nodup_nil
    · rw [if_pos hpresent, List.nodup_append]
      refine ⟨directoryPages_nodup h hr (i := ⟨i, hlt⟩) hi.1 hnode, List.nodup_singleton _, ?_⟩
      intro p hp p' hp' heq
      rw [List.mem_singleton.mp hp'] at heq
      obtain ⟨j, hj⟩ := (mem_directoryPages h hr (i := ⟨i, hlt⟩) hi.1 hnode).mp hp
      rw [heq] at hj
      obtain ⟨-, hpath⟩ := h.separate.eq hr hr (own_upper hi.1 (by simp)) (own_upper hi.1 (by simp)) hj hnode
      simp at hpath
  · have hnodup : (List.range' 4 508).Nodup := List.nodup_range'
    apply hnodup.pairwise_of_forall_ne
    intro i hi i' hi' hne p hp hp'
    rw [List.mem_range'_1] at hi hi'
    obtain ⟨js, hown, hnode⟩ := hround i hi.1 (by omega) p hp
    obtain ⟨js', hown', hnode'⟩ := hround i' hi'.1 (by omega) p hp'
    obtain ⟨-, hpath⟩ := h.separate.eq hr hr hown hown' hnode hnode'
    simp only [List.cons.injEq, true_and, Fin.mk.injEq] at hpath
    exact hne hpath.1

/-- `vmm_destroy_address_space` gives no page back twice. -/
theorem destroyedPages_nodup (h : Inv k T₀ (entries m) pmm live) (hr : r ∈ live) :
  (destroyedPages m r).Nodup
  := by
  obtain ⟨pdpt, hpdpt, -⟩ := h.low r hr
  have hnil : Radix.node (next (entries m)) r [] = some r := rfl
  obtain ⟨hpresent, rfl⟩ := h.pdpt_present hr hpdpt
  have hroot : ∀ js, own (0 :: js) → Radix.node (next (entries m)) r (0 :: js) ≠ some r := by
    intro js hown hnode
    obtain ⟨-, hpath⟩ := h.separate.eq hr hr hown own_nil hnode hnil
    cases hpath
  rw [destroyedPages, if_pos hpresent, List.nodup_append, List.nodup_append]
  refine ⟨⟨pdptPages_nodup h hr hpdpt, List.nodup_singleton _, ?_⟩, List.nodup_singleton _, ?_⟩
  · intro p hp p' hp' heq
    rw [List.mem_singleton.mp hp'] at heq
    obtain ⟨i, js, hown, hnode⟩ := (mem_pdptPages h hr hpdpt).mp hp
    rw [heq] at hnode
    obtain ⟨-, hpath⟩ := h.separate.eq hr hr hown own_zero hnode hpdpt
    cases hpath
  · intro p hp p' hp' heq
    rw [List.mem_singleton.mp hp'] at heq
    rcases List.mem_append.mp hp with hinner | hlast
    · obtain ⟨i, js, hown, hnode⟩ := (mem_pdptPages h hr hpdpt).mp hinner
      rw [heq] at hnode
      exact hroot _ hown hnode
    · rw [← List.mem_singleton.mp hlast, heq] at hpdpt
      exact hroot [] own_zero hpdpt

end Vmm
