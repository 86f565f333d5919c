import Woos.Vmm.Accounting
import Woos.Vmm.Isolation

/-!
# Reclaiming the tables of a space

A space is made, pages are mapped and unmapped in it, and it is destroyed.
`Spaces.space_reclaimed_iff` says when `vmm_destroy_address_space` gives back all the tables of the
space: it looks only below entry 0 of the root, so no table may have been made elsewhere.
-/

open Vmm Paging

namespace Spaces

/-- An address at which pages are mapped. -/
def UpperAddress : Type := {virt : UInt64 // Canonical virt ∧ 2 ^ 32 ≤ virt.toNat}

/-- A call that maps or unmaps a page of one space. -/
inductive Edit where
  | map (virt : UpperAddress) (phys flags : UInt64)
  | unmap (virt : UpperAddress)

/-- The call for the space `r`. -/
def Edit.call (r : UInt64) : Edit → Call
  | .map virt phys flags => .map r virt.val phys flags
  | .unmap virt => .unmap r virt.val

variable (image : KernelImage) (k r : UInt64)

/-- Execute a call on the space `r`. -/
def edit (s : Spaces) (e : Edit) : Option Spaces := some (s.call image k (e.call r)).1

/-- The space is destroyed: every page that was handed out since the state `before` is given back once,
no page of the kernel's tables and none that was in use before is, and the count of free pages is as
before. -/
structure Reclaimed (before : Pmm) (s : Spaces) : Prop where
  once : ∀ p, Aligned p → Free before p → ¬ Free s.pmm p → (destroyedPages s.mem r).count p = 1
  own : ∀ p ∈ destroyedPages s.mem r, Free before p
  kernel : ∀ p ∈ destroyedPages s.mem r, ¬ KernelTable k (entries s.mem) p
  count : (s.call image k (.destroy r)).1.pmm.freePages = before.freePages

/-- A page is mapped below 512 GiB, or there is no page for a table. -/
def BelowEntryOne (s : Spaces) : Edit → Prop
  | .map virt _ _ => virt.val.toNat < 2 ^ 39 ∨ (s.pmm.pmmAllocPage).2 = 0
  | .unmap _ => True

variable {image k r} {m₀ : Memory} {before : Pmm} {s : Spaces} {L : List UInt64}

/-- The pages `L` were handed out since the state `before`, and they are the tables of the space. -/
structure Holds (k r : UInt64) (m₀ : Memory) (before : Pmm) (s : Spaces) (L : List UInt64) : Prop where
  inv : Inv k (entries m₀) (entries s.mem) s.pmm s.live
  live : r ∈ s.live
  takes : TakesAll before L s.pmm
  tables : ∀ p, p ∈ L ↔ ∃ js, Vmm.own js ∧ Radix.node (next (entries s.mem)) r js = some p

/-- No table is reached through an entry of the root other than entry 0. -/
def Confined (r : UInt64) (s : Spaces) : Prop :=
  ∀ i : Fin 512, i ≠ 0 → Radix.node (next (entries s.mem)) r [i] = none

/-! ### At the end -/

theorem own_singleton (i : Fin 512) :
  Vmm.own [i]
  := ⟨by simp, rfl⟩

theorem mem_destroyed (h : Holds k r m₀ before s L) {p : UInt64} (hp : p ∈ destroyedPages s.mem r) :
  p ∈ L
  := by
  obtain ⟨js, hown, -, hnode⟩ := (mem_destroyedPages h.inv h.live).mp hp
  exact (h.tables p).mpr ⟨js, hown, hnode⟩

/-- The paths of a confined space start with entry 0. -/
theorem Confined.starts (hr : Confined r s) {js : List (Fin 512)} {p : UInt64}
    (hnode : Radix.node (next (entries s.mem)) r js = some p) :
  js = [] ∨ ∃ is, js = 0 :: is
  := by
  match js with
  | [] => exact Or.inl rfl
  | i :: is =>
      right
      by_cases hi : i = 0
      · exact ⟨is, by rw [hi]⟩
      · have happend := Radix.node_append (next (entries s.mem)) r [i] is
        rw [hr i hi, Option.bind_none, List.singleton_append, hnode] at happend
        cases happend

theorem destroyed_perm (h : Holds k r m₀ before s L) (hr : Confined r s) :
  (destroyedPages s.mem r).Perm L
  := by
  apply (List.perm_ext_iff_of_nodup (destroyedPages_nodup h.inv h.live) h.takes.nodup).mpr
  intro p
  constructor
  · exact mem_destroyed h
  · intro hp
    obtain ⟨js, hown, hnode⟩ := (h.tables p).mp hp
    exact (mem_destroyedPages h.inv h.live).mpr ⟨js, hown, hr.starts hnode, hnode⟩

/-- The root of the space is one of its tables. -/
theorem Holds.root_mem (h : Holds k r m₀ before s L) :
  r ∈ L
  := (h.tables r).mpr ⟨[], own_nil, rfl⟩

theorem Holds.returnable (h : Holds k r m₀ before s L)
    (hreserved : ∀ p, Aligned p → Free before p → Pmm.pageIsReserved image p = false) {p : UInt64}
    (hp : p ∈ L) :
  Returnable image s.pmm p
  := by
  obtain ⟨haligned, hne, hfree⟩ := h.takes.mem hp
  refine ⟨haligned, hne, hfree.1, hreserved p haligned hfree, ?_⟩
  by_contra hnot
  rw [Bool.not_eq_true] at hnot
  exact ((h.takes.free_iff haligned).mp ⟨hfree.1, hnot⟩).2 hp

theorem reclaimed_of_confined (h : Holds k r m₀ before s L) (hr : Confined r s)
    (hreserved : ∀ p, Aligned p → Free before p → Pmm.pageIsReserved image p = false) :
  Reclaimed image k r before s
  := by
  have hperm := destroyed_perm h hr
  have hnodup := destroyedPages_nodup h.inv h.live
  have hrk : r ≠ k := by
    rintro rfl
    exact (h.inv.used r (spaceTable_of_node h.live own_nil rfl)).2 ⟨[], Nat.zero_le 3, rfl⟩
  constructor
  · intro p hp hbefore hafter
    apply List.count_eq_one_of_mem hnodup
    rw [hperm.mem_iff]
    by_contra hnot
    exact hafter ((h.takes.free_iff hp).mpr ⟨hbefore, hnot⟩)
  · intro p hp
    exact (h.takes.mem (hperm.mem_iff.mp hp)).2.2
  · intro p hp hkernel
    obtain ⟨js, hown, -, hnode⟩ := (mem_destroyedPages h.inv h.live).mp hp
    exact (h.inv.used p (spaceTable_of_node h.live hown hnode)).2 (h.inv.kernelTable_congr hkernel)
  · have hready := h.takes.ready (List.ne_nil_of_mem h.root_mem)
    have hcount := (freeAll_returns hready
      (fun p hp => h.returnable hreserved (hperm.mem_iff.mp hp)) hnodup).1
    simp only [call, vmmDestroyAddressSpace_eq image s.mem s.pmm (h.inv.roots r h.live).2 hrk]
    rw [hcount, hperm.length_eq, h.takes.freePages]

theorem not_reclaimed (h : Holds k r m₀ before s L) (hr : ¬ Confined r s) :
  ¬ Reclaimed image k r before s
  := by
  intro hreclaimed
  obtain ⟨i, hleak⟩ := not_forall.mp hr
  obtain ⟨hi, hsome⟩ := Classical.not_imp.mp hleak
  obtain ⟨p, hp⟩ := Option.ne_none_iff_exists'.mp hsome
  have hown := own_singleton i
  have hmem := (h.tables p).mpr ⟨[i], hown, hp⟩
  obtain ⟨haligned, -, hfree⟩ := h.takes.mem hmem
  have hused : ¬ Free s.pmm p := fun hafter => ((h.takes.free_iff haligned).mp hafter).2 hmem
  have hcount := hreclaimed.once p haligned hfree hused
  have hdestroyed : p ∈ destroyedPages s.mem r := by
    rw [← List.count_pos_iff, hcount]
    exact Nat.one_pos
  obtain ⟨js, hown', hstart, hnode⟩ := (mem_destroyedPages h.inv h.live).mp hdestroyed
  obtain ⟨-, rfl⟩ := h.inv.separate.eq h.live h.live hown' hown hnode hp
  rcases hstart with hnil | ⟨is, hzero⟩
  · cases hnil
  · cases hzero
    exact hi rfl

/-! ### One call -/

theorem index_three_eq_zero {v : UInt64} (hv : Canonical v) :
  index v 3 = 0 ↔ v.toNat < 2 ^ 39
  := by
  have hlt := v.toNat_lt
  rw [← Fin.val_inj]
  simp only [Canonical, index] at hv ⊢
  norm_num at hv ⊢
  omega

/-- A page is mapped in the space: what tables it adds. -/
theorem edit_map (image : KernelImage) (h : Holds k r m₀ before s L) (virt : UpperAddress) (phys flags : UInt64) :
  ∃ s' L', edit image k r s (.map virt phys flags) = some s' ∧ Holds k r m₀ before s' (L ++ L')
    ∧ TakesAll s.pmm L' s'.pmm
    ∧ (∀ js, Vmm.own js → ∀ p, Radix.node (next (entries s.mem)) r js = some p
      → Radix.node (next (entries s'.mem)) r js = some p)
    ∧ (∀ js, Vmm.own js → ∀ p, Radix.node (next (entries s'.mem)) r js = some p
      → Radix.node (next (entries s.mem)) r js = some p ∨ (js <+: path virt.val ∧ p ∈ L'))
    ∧ (∀ p ∈ L', ∃ js, js <+: path virt.val ∧ js ≠ [] ∧ Radix.node (next (entries s'.mem)) r js = some p)
    ∧ (present (entries s.mem r (index virt.val 3)) = false → (s.pmm.pmmAllocPage).2 ≠ 0 → L' ≠ [])
  := by
  have hown := own_path virt.property.1 virt.property.2
  obtain ⟨mid, m, pmm, L', res, hmap, hgrows, hfirst, hend⟩ :=
    vmmMapPage_inv h.inv h.live virt.property.1 virt.property.2 phys flags
  have hinv : Inv k (entries m₀) (entries m) pmm s.live ∧ ∀ js, Vmm.own js
      → Radix.node (next (entries m)) r js = Radix.node (next (entries mid)) r js := by
    rcases hend with ⟨-, rfl⟩ | ⟨-, hinv, -, hnodes⟩
    · exact ⟨hgrows.inv, fun _ _ => rfl⟩
    · exact ⟨hinv, hnodes r h.live⟩
  obtain ⟨hinv, hnodes⟩ := hinv
  have hmono : ∀ js, Vmm.own js → ∀ p, Radix.node (next (entries s.mem)) r js = some p
      → Radix.node (next (entries m)) r js = some p := by
    intro js hjs p hp
    rw [hnodes js hjs]
    exact hgrows.mono r h.live js hjs p hp
  have hold : ∀ js, Vmm.own js → ∀ p, Radix.node (next (entries m)) r js = some p
      → Radix.node (next (entries s.mem)) r js = some p ∨ (js <+: path virt.val ∧ p ∈ L') := by
    intro js hjs p hp
    rw [hnodes js hjs] at hp
    rcases hgrows.old r h.live js hjs p hp with hbefore | ⟨-, hjspath, -, hmem⟩
    · exact Or.inl hbefore
    · exact Or.inr ⟨hjspath, hmem⟩
  have hnew : ∀ p ∈ L', ∃ js, js <+: path virt.val ∧ js ≠ []
      ∧ Radix.node (next (entries m)) r js = some p := by
    intro p hp
    obtain ⟨js, hjspath, hne, hnode⟩ := hgrows.new p hp
    use js, hjspath, hne
    rw [hnodes js (own_prefixClosed.of_prefix hown hjspath)]
    exact hnode
  refine ⟨⟨m, pmm, s.live⟩, L', ?_, ⟨hinv, h.live, h.takes.append hgrows.takes, ?_⟩, hgrows.takes,
    hmono, hold, hnew, hfirst⟩
  · simp only [edit, call, Edit.call, hmap]
  · intro p
    rw [List.mem_append, h.tables p]
    constructor
    · rintro (⟨js, hjs, hnode⟩ | hmem)
      · exact ⟨js, hjs, hmono js hjs p hnode⟩
      · obtain ⟨js, hjspath, -, hnode⟩ := hnew p hmem
        exact ⟨js, own_prefixClosed.of_prefix hown hjspath, hnode⟩
    · rintro ⟨js, hjs, hnode⟩
      rcases hold js hjs p hnode with hbefore | ⟨-, hmem⟩
      · exact Or.inl ⟨js, hjs, hbefore⟩
      · exact Or.inr hmem

/-- A page is unmapped in the space: the tables stay. -/
theorem edit_unmap (image : KernelImage) (h : Holds k r m₀ before s L) (virt : UpperAddress) :
  ∃ s', edit image k r s (.unmap virt) = some s' ∧ Holds k r m₀ before s' L
    ∧ ∀ js, Vmm.own js
      → Radix.node (next (entries s'.mem)) r js = Radix.node (next (entries s.mem)) r js
  := by
  obtain ⟨m, res, hunmap, hinv, hnodes, -⟩ :=
    vmmUnmapPage_inv h.inv h.live virt.property.1 virt.property.2
  refine ⟨⟨m, s.pmm, s.live⟩, ?_, ⟨hinv, h.live, h.takes, ?_⟩, hnodes r h.live⟩
  · simp only [edit, call, Edit.call, hunmap]
  · intro p
    rw [h.tables p]
    constructor
    · rintro ⟨js, hjs, hnode⟩
      exact ⟨js, hjs, (hnodes r h.live js hjs).trans hnode⟩
    · rintro ⟨js, hjs, hnode⟩
      exact ⟨js, hjs, (hnodes r h.live js hjs).symm.trans hnode⟩

/-- A call that keeps to entry 0, or finds no page. -/
theorem edit_confined (image : KernelImage) (h : Holds k r m₀ before s L) (hr : Confined r s) {e : Edit}
    (he : BelowEntryOne s e) :
  ∃ s', edit image k r s e = some s' ∧ (∃ L', Holds k r m₀ before s' L') ∧ Confined r s'
  := by
  cases e with
  | map virt phys flags =>
      obtain ⟨s', L', hedit, hholds, htakes, -, hold, -, -⟩ := edit_map image h virt phys flags
      refine ⟨s', hedit, ⟨L ++ L', hholds⟩, ?_⟩
      intro i hi
      by_contra hsome
      obtain ⟨p, hp⟩ := Option.ne_none_iff_exists'.mp hsome
      rcases hold [i] (own_singleton i) p hp with hbefore | ⟨hpath, hmem⟩
      · rw [hr i hi] at hbefore
        cases hbefore
      · rcases he with hlow | hnone
        · obtain ⟨rfl, -⟩ := List.cons_prefix_cons.mp hpath
          exact hi ((index_three_eq_zero virt.property.1).mpr hlow)
        · rw [htakes.eq_nil hnone] at hmem
          cases hmem
  | unmap virt =>
      obtain ⟨s', hedit, hholds, hnodes⟩ := edit_unmap image h virt
      refine ⟨s', hedit, ⟨L, hholds⟩, ?_⟩
      intro i hi
      rw [hnodes [i] (own_singleton i), hr i hi]

/-- A page is mapped elsewhere, and there is a page for a table. -/
theorem edit_escapes (image : KernelImage) (h : Holds k r m₀ before s L) (hr : Confined r s) {e : Edit}
    (he : ¬ BelowEntryOne s e) :
  ∃ s', edit image k r s e = some s' ∧ (∃ L', Holds k r m₀ before s' L') ∧ ¬ Confined r s'
  := by
  cases e with
  | unmap virt => exact absurd trivial he
  | map virt phys flags =>
      obtain ⟨hhigh, hpage⟩ := not_or.mp he
      obtain ⟨s', L', hedit, hholds, -, -, -, hnew, hfirst⟩ := edit_map image h virt phys flags
      refine ⟨s', hedit, ⟨L ++ L', hholds⟩, ?_⟩
      have hi : index virt.val 3 ≠ 0 := fun hzero => hhigh ((index_three_eq_zero virt.property.1).mp hzero)
      have habsent : present (entries s.mem r (index virt.val 3)) = false := by
        rcases h.inv.child_cases [] (index virt.val 3) h.live (own_singleton _) rfl with
          ⟨habsent, -⟩ | ⟨-, hnode⟩
        · exact not_present_iff.mp habsent
        · rw [List.nil_append, hr _ hi] at hnode
          cases hnode
      obtain ⟨p, hp⟩ := List.exists_mem_of_ne_nil _ (hfirst habsent hpage)
      obtain ⟨js, hpath, hne, hnode⟩ := hnew p hp
      intro hconfined
      rcases hconfined.starts hnode with hnil | ⟨is, hzero⟩
      · exact hne hnil
      · rw [hzero] at hpath
        exact hi (List.cons_prefix_cons.mp hpath).1.symm

/-- A table elsewhere stays. -/
theorem edit_escaped (image : KernelImage) (h : Holds k r m₀ before s L) (hr : ¬ Confined r s) (e : Edit) :
  ∃ s', edit image k r s e = some s' ∧ (∃ L', Holds k r m₀ before s' L') ∧ ¬ Confined r s'
  := by
  obtain ⟨i, hleak⟩ := not_forall.mp hr
  obtain ⟨hi, hsome⟩ := Classical.not_imp.mp hleak
  obtain ⟨p, hp⟩ := Option.ne_none_iff_exists'.mp hsome
  cases e with
  | map virt phys flags =>
      obtain ⟨s', L', hedit, hholds, -, hmono, -, -, -⟩ := edit_map image h virt phys flags
      refine ⟨s', hedit, ⟨L ++ L', hholds⟩, ?_⟩
      intro hconfined
      have hkept := hmono [i] (own_singleton i) p hp
      rw [hconfined i hi] at hkept
      cases hkept
  | unmap virt =>
      obtain ⟨s', hedit, hholds, hnodes⟩ := edit_unmap image h virt
      refine ⟨s', hedit, ⟨L, hholds⟩, ?_⟩
      intro hconfined
      have hkept := (hnodes [i] (own_singleton i)).trans hp
      rw [hconfined i hi] at hkept
      cases hkept

/-! ### Runs -/

/-- A space is made. -/
theorem create_holds (image : KernelImage) (hk : KernelRoot k (entries m₀))
    (h : Inv k (entries m₀) (entries s.mem) s.pmm s.live) (hr : (s.call image k .create).2 = r)
    (hne : r ≠ 0) :
  (∃ L, Holds k r m₀ s.pmm (s.call image k .create).1 L) ∧ Confined r (s.call image k .create).1
  := by
  rcases vmmCreateAddressSpace_inv image h hk with
    ⟨m, pmm, hcreate, -, -⟩ | ⟨m, pmm₁, pmm₂, q, t, hcreate, hq, ht, hmade⟩
  · simp only [call, hcreate] at hr
    exact absurd hr.symm hne
  · simp only [call, hcreate] at hr ⊢
    subst hr
    rw [if_neg hne]
    have hnode : ∀ js, Vmm.own js → Radix.node (next (entries m)) q js
        = if js = [] then some q else if js = [0] then some t else none :=
      fun js hjs => hmade.node hk ht.aligned ht.lt hjs
    constructor
    · use [q, t]
      refine ⟨(h.insert hk hq ht hmade).1, List.mem_cons_self, ⟨pmm₁, hq, pmm₂, ht, rfl⟩, ?_⟩
      intro p
      constructor
      · intro hp
        rcases List.mem_cons.mp hp with rfl | hp
        · exact ⟨[], own_nil, rfl⟩
        · rw [List.mem_singleton.mp hp]
          exact ⟨[0], own_zero, hnode [0] own_zero⟩
      · rintro ⟨js, hjs, hp⟩
        rw [hnode js hjs] at hp
        split at hp
        case isTrue =>
          cases hp
          exact List.mem_cons_self
        case isFalse =>
          split at hp
          case isTrue =>
            cases hp
            exact List.mem_cons_of_mem _ (List.mem_singleton_self _)
          case isFalse => cases hp
    · intro i hi
      rw [hnode [i] (own_singleton i), if_neg (List.cons_ne_nil i []), if_neg]
      intro heq
      exact hi (List.singleton_inj.mp heq)

/-- Pages are mapped and unmapped in a space. -/
theorem edits_confined_iff (image : KernelImage) (edits : List Edit) (h : Holds k r m₀ before s L)
    (hr : Confined r s) :
  ∃ s', Run.exec (edit image k r) s edits = some s' ∧ (∃ L', Holds k r m₀ before s' L')
    ∧ (Confined r s' ↔ Run.Guarded (edit image k r) BelowEntryOne s edits)
  := by
  have hgood : ∀ s e, (∃ L, Holds k r m₀ before s L) ∧ Confined r s → BelowEntryOne s e
      → ∃ s', edit image k r s e = some s' ∧ (∃ L, Holds k r m₀ before s' L) ∧ Confined r s' :=
    fun s e ⟨⟨L, hholds⟩, hconfined⟩ he => edit_confined image hholds hconfined he
  have hbreak : ∀ s e, (∃ L, Holds k r m₀ before s L) ∧ Confined r s → ¬ BelowEntryOne s e
      → ∃ s', edit image k r s e = some s' ∧ (∃ L, Holds k r m₀ before s' L) ∧ ¬ Confined r s' :=
    fun s e ⟨⟨L, hholds⟩, hconfined⟩ he => edit_escapes image hholds hconfined he
  have hbad : ∀ s e, (∃ L, Holds k r m₀ before s L) ∧ ¬ Confined r s
      → ∃ s', edit image k r s e = some s' ∧ (∃ L, Holds k r m₀ before s' L) ∧ ¬ Confined r s' :=
    fun s e ⟨⟨L, hholds⟩, hescaped⟩ => edit_escaped image hholds hescaped e
  obtain ⟨s', hrun, hmeets, hmisses⟩ := Run.exec_good_or_bad hgood hbreak hbad edits ⟨⟨L, h⟩, hr⟩
  use s', hrun
  by_cases hguard : Run.Guarded (edit image k r) BelowEntryOne s edits
  · obtain ⟨hholds, hconfined⟩ := hmeets hguard
    exact ⟨hholds, iff_of_true hconfined hguard⟩
  · obtain ⟨hholds, hescaped⟩ := hmisses hguard
    exact ⟨hholds, iff_of_false hescaped hguard⟩

/-- A space is made in a state that a run reaches, pages are mapped and unmapped in it, and it is
destroyed: all its tables are given back exactly when every page was mapped below 512 GiB, or when there
was no page for a table. -/
theorem space_reclaimed_iff (image : KernelImage) (k : UInt64) (m : Memory) (pmm : Pmm)
    (hboot : Booted k m pmm) (calls : List Call)
    (h : Run.Guarded (step image k) (Permitted k) ⟨m, pmm, []⟩ calls) (s : Spaces)
    (hs : Run.exec (step image k) ⟨m, pmm, []⟩ calls = some s)
    (hreserved : ∀ p, Aligned p → Free s.pmm p → Pmm.pageIsReserved image p = false)
    (r : UInt64) (hr : (s.call image k .create).2 = r) (hne : r ≠ 0) (edits : List Edit) :
  ∃ s', Run.exec (edit image k r) (s.call image k .create).1 edits = some s'
    ∧ (Reclaimed image k r s.pmm s'
      ↔ Run.Guarded (edit image k r) BelowEntryOne (s.call image k .create).1 edits)
  := by
  obtain ⟨t, ht, hinv, -⟩ := calls_inv image hboot h
  obtain rfl : t = s := Option.some_inj.mp (ht.symm.trans hs)
  obtain ⟨⟨L, hholds⟩, hconfined⟩ := create_holds image hboot.root hinv hr hne
  obtain ⟨s', hrun, ⟨L', hholds'⟩, hiff⟩ := edits_confined_iff image edits hholds hconfined
  refine ⟨s', hrun, ?_⟩
  rw [← hiff]
  constructor
  · intro hreclaimed
    by_contra hescaped
    exact not_reclaimed hholds' hescaped hreclaimed
  · intro hconfined'
    exact reclaimed_of_confined hholds' hconfined' hreserved

/-- The page at 4 GiB is mapped and unmapped. -/
def lowEdits : List Edit :=
  [.map ⟨0x100000000, by decide⟩ 0x107000 3, .unmap ⟨0x100000000, by decide⟩]

/-- The page at 512 GiB is mapped. -/
def highEdits : List Edit := [.map ⟨0x8000000000, by decide⟩ 0x107000 3]

/-- The small machine before any space is made. -/
def smallStart : Spaces := ⟨smallMemory, smallPmm, []⟩

theorem small_unreserved (p : UInt64) (hp : Aligned p) (hfree : Free smallPmm p) :
  Pmm.pageIsReserved Pmm.Session.smallImage p = false
  := by
  obtain ⟨hmanaged, hbit⟩ := hfree
  have hpage : p.toNat = 4096 * (p.toNat / 4096) := by
    rw [Aligned] at hp
    omega
  have hrow : p.toNat / 4096 / 8 = 32 := by
    by_contra hne
    have hall : ∀ k : Fin 8, (0xff : UInt8).toNat.testBit k.val = true := by decide
    have hones : smallPmm.bitmap (p.toNat / 4096 / 8) = 0xff := if_neg hne
    rw [Pmm.bitmapTest_eq, hones, hall ⟨p.toNat / 4096 % 8, Nat.mod_lt _ (by decide)⟩] at hbit
    cases hbit
  rw [← Bool.not_eq_true, Pmm.pageIsReserved_iff Pmm.Session.smallImage hmanaged hpage]
  rintro ⟨r, hr, hlo, hhi⟩
  have hranges : ∀ r ∈ Pmm.reservedRanges Pmm.Session.smallImage, r.2 ≤ 0x100000 ∨ 0x1000000 ≤ r.1 := by
    decide
  have hrange := hranges r hr
  omega

theorem smallStart_create :
  (smallStart.call Pmm.Session.smallImage 0x1000 .create).2 = 0x100000
    ∧ (smallStart.call Pmm.Session.smallImage 0x1000 .create).1.pmm
      = (smallPmm.pmmAllocPage).1.pmmAllocPage.1
  := by
  simp only [smallStart, call, small_create, and_self]

/-- All tables are given back when the page at 4 GiB was mapped and unmapped. -/
theorem space_reclaimed_iff_low :
  ∃ s', Run.exec (edit Pmm.Session.smallImage 0x1000 0x100000)
        (smallStart.call Pmm.Session.smallImage 0x1000 .create).1 lowEdits = some s'
    ∧ (Reclaimed Pmm.Session.smallImage 0x1000 0x100000 smallPmm s'
      ↔ Run.Guarded (edit Pmm.Session.smallImage 0x1000 0x100000) BelowEntryOne
        (smallStart.call Pmm.Session.smallImage 0x1000 .create).1 lowEdits)
  := by
  apply space_reclaimed_iff Pmm.Session.smallImage 0x1000 smallMemory smallPmm small_booted [] trivial
  · rfl
  · exact small_unreserved
  · exact smallStart_create.1
  · decide

/-- A table of the space is lost when the page at 512 GiB was mapped. -/
theorem not_reclaimed_high :
  ∃ s', Run.exec (edit Pmm.Session.smallImage 0x1000 0x100000)
        (smallStart.call Pmm.Session.smallImage 0x1000 .create).1 highEdits = some s'
    ∧ ¬ Reclaimed Pmm.Session.smallImage 0x1000 0x100000 smallPmm s'
  := by
  have hinv := init_inv small_booted
  obtain ⟨⟨L, hholds⟩, hconfined⟩ := create_holds Pmm.Session.smallImage (s := smallStart) small_booted.root hinv
    smallStart_create.1 (by decide)
  obtain ⟨s', hrun, ⟨L', hholds'⟩, hiff⟩ := edits_confined_iff Pmm.Session.smallImage highEdits hholds
    hconfined
  refine ⟨s', hrun, not_reclaimed hholds' ?_⟩
  rw [hiff]
  rintro ⟨hlow | hnone, -⟩
  · exact absurd hlow (by decide)
  · rw [smallStart_create.2] at hnone
    exact absurd hnone (by decide +kernel)

end Spaces
