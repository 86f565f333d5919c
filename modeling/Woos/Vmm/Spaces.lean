import Woos.Vmm.Mapping

/-!
# Making and destroying address spaces

What `vmm_create_address_space` and `vmm_destroy_address_space` do to the address spaces.
`destroyedPages` lists the pages that the latter gives back.
-/

namespace Vmm

open Paging

variable {k : UInt64} {T₀ T T' : UInt64 → Fin 512 → UInt64} {m : Memory} {pmm pmm' : Pmm}
  {live : List UInt64} {r q : UInt64}

/-! ### Pages that are not tables -/

/-- Only pages change that are not tables. -/
theorem nodes_elsewhere
    (hT : ∀ p, SpaceTable T live p → ∀ i, T' p i = T p i) :
  ∀ s ∈ live, ∀ js, own js → Radix.node (next T') s js = Radix.node (next T) s js
  := by
  intro s hs js hjs
  apply Radix.node_congr
  intro ks j hks p hp
  have hown := own_prefixClosed.of_prefix hjs hks
  rw [next, next, hT p (spaceTable_of_node hs (own_prefixClosed.init ks j hown) hp)]

theorem Inv.elsewhere (h : Inv k T₀ T pmm live)
    (hT : ∀ p, SpaceTable T live p ∨ KernelTable k T₀ p → ∀ i, T' p i = T p i)
    (hok : AllocatorOk pmm') (hfree : ∀ p, SpaceTable T live p ∨ KernelTable k T₀ p → ¬ Free pmm' p) :
  Inv k T₀ T' pmm' live ∧ SameEntries T T' live
  := by
  have hnodes := nodes_elsewhere (fun p hp => hT p (Or.inl hp))
  have hentry : ∀ s ∈ live, ∀ js, own js → ∀ p, Radix.node (next T) s js = some p
      → ∀ i, T' p i = T p i := by
    intro s hs js hjs p hp
    exact hT p (Or.inl (spaceTable_of_node hs hjs hp))
  constructor
  · constructor
    · exact hok
    · exact h.root
    · intro p hp
      apply And.intro _ (hfree p (Or.inr hp))
      intro i
      rw [hT p (Or.inr hp), (h.kernel p hp).1]
    · exact h.nodup
    · exact h.roots
    · exact h.separate.congr hnodes
    · intro p hp
      have hold := Radix.Separate.reached_congr hnodes hp
      exact ⟨hfree p (Or.inl hold), (h.used p hold).2⟩
    · intro s hs
      obtain ⟨p, hp, hsame⟩ := h.low s hs
      use p
      rw [hnodes s hs [0] own_zero]
      use hp
      intro j hj
      rw [hentry s hs [0] own_zero p hp, hsame j hj]
    · intro s hs js j hjs p hp
      rw [hnodes s hs js hjs.own] at hp
      rw [hentry s hs js hjs.own p hp]
      exact h.clean s hs js j hjs p hp
  · intro s hs js hjs _ i
    rw [entryAt, hnodes s hs js hjs, entryAt]
    cases hp : Radix.node (next T) s js with
    | none => rfl
    | some p =>
        rw [Option.elim_some, Option.elim_some, hentry s hs js hjs p hp]

/-! ### vmm_create_address_space -/

/-- The tables of the kernel at boot: entry 0 of its root points to a table, and no other entry is
present. -/
structure KernelRoot (k : UInt64) (T₀ : UInt64 → Fin 512 → UInt64) : Prop where
  entry : next T₀ k 0 = some (frame (T₀ k 0))
  table : entryTable (T₀ k 0) = frame (T₀ k 0)
  only : ∀ i, i ≠ 0 → present (T₀ k i) = false

/-- The tables when a space is made: its root `q` and its table `s`. -/
structure Made (k : UInt64) (T₀ T T' : UInt64 → Fin 512 → UInt64) (q s : UInt64) : Prop where
  root : ∀ j, T' q j = if j = 0 then newEntry s pageUser else T₀ k j
  table : ∀ j : Fin 512, T' s j = if j.val < 4 then T₀ (frame (T₀ k 0)) j else 0
  rest : ∀ p, Aligned p → p ≠ q → p ≠ s → ∀ j, T' p j = T p j

/-- The new space has two tables of its own. -/
theorem Made.node {s : UInt64} (h : Made k T₀ T T' q s) (hk : KernelRoot k T₀) (hs : Aligned s)
    (hlt : s.toNat < 2 ^ 32) {js : List (Fin 512)} (hjs : own js) :
  Radix.node (next T') q js = if js = [] then some q else if js = [0] then some s else none
  := by
  have hroot : ∀ j, next T' q j = if j = 0 then some s else none := by
    intro j
    rw [next, h.root]
    split
    case isTrue => exact table_newEntry hs (hlt.trans (by decide)) pageUser
    case isFalse hj => exact table_of_not_present (hk.only j hj)
  rcases js with _ | ⟨i, _ | ⟨j, js⟩⟩
  · rfl
  · have hsnoc : Radix.node (next T') q [i] = next T' q i := by
      have hnil : Radix.node (next T') q [] = some q := rfl
      exact Radix.node_snoc_of_node hnil i
    rw [hsnoc, hroot i, if_neg (List.cons_ne_nil i [])]
    simp only [List.cons.injEq, and_true]
  · rw [if_neg (List.cons_ne_nil i (j :: js)), if_neg (by simp), Radix.node, hroot]
    split
    case isTrue hi =>
      have hj : ¬ j.val < 4 := by
        intro hlow
        have hnot := hjs.2
        simp [isLow, hi, hlow] at hnot
      rw [Option.bind_some, Radix.node, next, h.table, if_neg hj,
        table_of_not_present not_present_zero]
      rfl
    case isFalse => rfl

/-- A new space. -/
theorem Inv.insert {s : UInt64} {pmm₁ pmm₂ : Pmm} (h : Inv k T₀ T pmm live) (hk : KernelRoot k T₀)
    (hq : Takes pmm pmm₁ q) (hs : Takes pmm₁ pmm₂ s) (hmade : Made k T₀ T T' q s) :
  Inv k T₀ T' pmm₂ (q :: live) ∧ SameEntries T T' live
    ∧ ∀ is, own is → is.length = 3 → ∀ i, entryAt T' q is i = 0
  := by
  have hfree : ∀ p, Aligned p → Free pmm₂ p → Free pmm p ∧ p ≠ q ∧ p ≠ s := by
    intro p hp hfree
    obtain ⟨hfree₁, hps⟩ := (hs.rest p hp).mp hfree
    obtain ⟨hfree₀, hpq⟩ := (hq.rest p hp).mp hfree₁
    exact ⟨hfree₀, hpq, hps⟩
  have hsfree : Free pmm s ∧ s ≠ q := (hq.rest s hs.aligned).mp hs.free
  have hold : ∀ p, SpaceTable T live p ∨ KernelTable k T₀ p → Aligned p ∧ p ≠ q ∧ p ≠ s
      ∧ ¬ Free pmm p := by
    rintro p (hp | hp)
    · have hused := (h.used p hp).1
      refine ⟨h.aligned hp, ?_, ?_, hused⟩
      · rintro rfl
        exact hused hq.free
      · rintro rfl
        exact hused hsfree.1
    · have hused := (h.kernel p hp).2
      refine ⟨h.kernel_aligned hp, ?_, ?_, hused⟩
      · rintro rfl
        exact hused hq.free
      · rintro rfl
        exact hused hsfree.1
  have hwhere : Inv k T₀ T' pmm₂ live ∧ SameEntries T T' live := h.elsewhere
    (fun p hp i => hmade.rest p (hold p hp).1 (hold p hp).2.1 (hold p hp).2.2.1 i) hs.ok
    (fun p hp hp' => (hold p hp).2.2.2 (hfree p (hold p hp).1 hp').1)
  obtain ⟨hrest, hsame⟩ := hwhere
  have hnew : ∀ {js : List (Fin 512)}, own js → Radix.node (next T') q js
      = if js = [] then some q else if js = [0] then some s else none :=
    fun hjs => hmade.node hk hs.aligned hs.lt hjs
  have hcases : ∀ {js : List (Fin 512)} {p : UInt64}, own js → Radix.node (next T') q js = some p
      → (js = [] ∧ p = q) ∨ (js = [0] ∧ p = s) := by
    intro js p hjs hp
    rw [hnew hjs] at hp
    split at hp
    case isTrue hnil =>
      cases hp
      exact Or.inl ⟨hnil, rfl⟩
    case isFalse =>
      split at hp
      case isTrue hzero =>
        cases hp
        exact Or.inr ⟨hzero, rfl⟩
      case isFalse => cases hp
  have hnot : ∀ p, p = q ∨ p = s → ¬ SpaceTable T' live p ∧ ¬ KernelTable k T₀ p := by
    rintro p hp
    have hpfree : Free pmm p := by
      rcases hp with rfl | rfl
      · exact hq.free
      · exact hsfree.1
    constructor
    · intro hreached
      exact h.not_reached_of_free hpfree (Radix.Separate.reached_congr
        (nodes_elsewhere (fun p hp i => hmade.rest p (hold p (Or.inl hp)).1 (hold p (Or.inl hp)).2.1
          (hold p (Or.inl hp)).2.2.1 i)) hreached)
    · exact h.not_kernel_of_free hpfree
  have hreached : ∀ p, SpaceTable T' (q :: live) p → (p = q ∨ p = s) ∨ SpaceTable T' live p := by
    rintro p ⟨r, js, hr, hjs, hp⟩
    rcases List.mem_cons.mp hr with rfl | hr
    · rcases hcases hjs hp with ⟨-, rfl⟩ | ⟨-, rfl⟩
      · exact Or.inl (Or.inl rfl)
      · exact Or.inl (Or.inr rfl)
    · exact Or.inr (spaceTable_of_node hr hjs hp)
  constructor
  · constructor
    · exact hs.ok
    · exact h.root
    · exact hrest.kernel
    · apply List.nodup_cons.mpr
      apply And.intro _ h.nodup
      intro hmem
      exact (hnot q (Or.inl rfl)).1 (spaceTable_of_node hmem own_nil rfl)
    · intro r hr
      rcases List.mem_cons.mp hr with rfl | hr
      · exact ⟨hq.aligned, hq.ne_zero⟩
      · exact h.roots r hr
    · have hinsert : Radix.Separate (next T') (fun r => r = q ∨ r ∈ live) own :=
        hrest.separate.insert (fun {is is' p} his his' hp hp' => by
        rcases hcases his hp with ⟨rfl, rfl⟩ | ⟨rfl, rfl⟩
        · rcases hcases his' hp' with ⟨rfl, -⟩ | ⟨-, heq⟩
          · rfl
          · exact absurd heq.symm hsfree.2
        · rcases hcases his' hp' with ⟨-, heq⟩ | ⟨rfl, -⟩
          · exact absurd heq hsfree.2
          · rfl) (fun {is p} his hp => (hnot p (by
            rcases hcases his hp with ⟨-, rfl⟩ | ⟨-, rfl⟩
            · exact Or.inl rfl
            · exact Or.inr rfl)).1)
      apply hinsert.mono
      intro r hr
      exact List.mem_cons.mp hr
    · intro p hp
      rcases hreached p hp with hpnew | hpold
      · apply And.intro _ (hnot p hpnew).2
        intro hp'
        have haligned : Aligned p := by
          rcases hpnew with rfl | rfl
          · exact hq.aligned
          · exact hs.aligned
        obtain ⟨-, hpq, hps⟩ := hfree p haligned hp'
        rcases hpnew with rfl | rfl
        · exact hpq rfl
        · exact hps rfl
      · exact hrest.used p hpold
    · intro r hr
      rcases List.mem_cons.mp hr with rfl | hr
      · use s
        rw [hnew own_zero]
        use rfl
        intro j hj
        rw [hmade.table, if_pos hj]
      · exact hrest.low r hr
    · intro r hr js j hjs p hp
      rcases List.mem_cons.mp hr with rfl | hr
      · rcases hcases hjs.own hp with ⟨rfl, rfl⟩ | ⟨rfl, rfl⟩
        · rw [hmade.root]
          split
          case isTrue =>
            intro _ _
            have htable := entryTable_newEntry hs.aligned pageUser
            constructor
            · rw [frame_eq_entryTable]
              rw [htable]
              exact hs.lt.trans (by decide)
            · exact large_newEntry hs.aligned pageUser
          case isFalse hj =>
            intro hpresent
            rw [hk.only j hj] at hpresent
            cases hpresent
        · rw [hmade.table, if_neg]
          · intro hpresent
            rw [not_present_zero] at hpresent
            cases hpresent
          · intro hj
            have hlow := hjs.2
            simp [isLow, hj] at hlow
      · exact hrest.clean r hr js j hjs p hp
  · use hsame
    intro is his hlen i
    rw [entryAt, hnew his, if_neg, if_neg]
    · rfl
    · rintro rfl
      cases hlen
    · rintro rfl
      cases hlen

theorem Inv.kernel_root (h : Inv k T₀ T pmm live) :
  (∀ i, T k i = T₀ k i) ∧ ¬ Free pmm k
  := h.kernel k ⟨[], Nat.zero_le 3, rfl⟩

theorem Inv.kernel_pdpt (h : Inv k T₀ T pmm live) (hk : KernelRoot k T₀) :
  (∀ i, T (frame (T₀ k 0)) i = T₀ (frame (T₀ k 0)) i) ∧ ¬ Free pmm (frame (T₀ k 0))
  := by
  apply h.kernel _ ⟨[0], by decide, _⟩
  have hnil : Radix.node (next T₀) k [] = some k := rfl
  exact (Radix.node_snoc_of_node hnil 0).trans hk.entry

/-- The memory after the tables of a space are made. -/
theorem made_space {s : UInt64} {pmm₁ pmm₂ : Pmm} (h : Inv k T₀ (entries m) pmm live)
    (hk : KernelRoot k T₀) (hq : Takes pmm pmm₁ q) (hs : Takes pmm₁ pmm₂ s) :
  Made k T₀ (entries m) (entries (setEntry (copyEntries (clearEntries (copyEntries
    (clearEntries m q 512) q k 512) s 512) s (frame (T₀ k 0)) 4) q 0 (newEntry s pageUser))) q s
  := by
  obtain ⟨hroot, hrootUsed⟩ := h.kernel_root
  obtain ⟨hpdpt, hpdptUsed⟩ := h.kernel_pdpt hk
  have hsfree : Free pmm s ∧ s ≠ q := (hq.rest s hs.aligned).mp hs.free
  have hd : Aligned (frame (T₀ k 0)) := frame_aligned _
  have hkq : k ≠ q := by
    rintro rfl
    exact hrootUsed hq.free
  have hdq : frame (T₀ k 0) ≠ q := by
    intro heq
    rw [heq] at hpdptUsed
    exact hpdptUsed hq.free
  have hds : frame (T₀ k 0) ≠ s := by
    intro heq
    rw [heq] at hpdptUsed
    exact hpdptUsed hsfree.1
  -- the copy of the kernel's root
  have h₁ : ∀ p, Aligned p → ∀ j, entries (copyEntries (clearEntries m q 512) q k 512) p j
      = if p = q then T₀ k j else entries m p j := by
    intro p hp j
    rw [entries, entry_copyEntries _ hq.aligned h.root hkq hp (Nat.le_refl 512) j.isLt]
    simp only [j.isLt, and_true]
    split
    case isTrue =>
      have hclear := entries_clear m j hq.aligned h.root
      rw [if_neg hkq] at hclear
      exact hclear.trans (hroot j)
    case isFalse hpq =>
      have hclear := entries_clear m j hq.aligned hp
      rw [if_neg hpq] at hclear
      exact hclear
  -- the empty table
  have h₂ : ∀ p, Aligned p → ∀ j, entries (clearEntries (copyEntries (clearEntries m q 512) q k 512)
      s 512) p j = if p = s then 0 else if p = q then T₀ k j else entries m p j := by
    intro p hp j
    rw [entries_clear _ _ hs.aligned hp, h₁ p hp]
  -- the four entries of the kernel
  have h₃ : ∀ p, Aligned p → ∀ j : Fin 512, entries (copyEntries (clearEntries (copyEntries
      (clearEntries m q 512) q k 512) s 512) s (frame (T₀ k 0)) 4) p j
      = if p = s ∧ j.val < 4 then T₀ (frame (T₀ k 0)) j
        else if p = s then 0 else if p = q then T₀ k j else entries m p j := by
    intro p hp j
    rw [entries, entry_copyEntries _ hs.aligned hd hds hp (by decide) j.isLt]
    split
    case isTrue =>
      have hread := h₂ _ hd j
      rw [if_neg hds, if_neg hdq] at hread
      exact hread.trans (hpdpt j)
    case isFalse => exact h₂ p hp j
  have h₄ := fun p hp j => entries_setEntry (copyEntries (clearEntries (copyEntries
    (clearEntries m q 512) q k 512) s 512) s (frame (T₀ k 0)) 4) 0 j (newEntry s pageUser) hq.aligned
    (p := p) hp
  constructor
  · intro j
    rw [show (0 : Nat) = ((0 : Fin 512) : Nat) from rfl, h₄ q hq.aligned, h₃ q hq.aligned]
    simp only [true_and, hsfree.2.symm, false_and, if_false, if_true]
  · intro j
    rw [show (0 : Nat) = ((0 : Fin 512) : Nat) from rfl, h₄ s hs.aligned, h₃ s hs.aligned]
    simp only [true_and, hsfree.2, false_and, if_false, if_true]
  · intro p hp hpq hps j
    rw [show (0 : Nat) = ((0 : Fin 512) : Nat) from rfl, h₄ p hp, h₃ p hp]
    simp only [hpq, hps, false_and, if_false]

/-- With two pages `vmm_create_address_space` succeeds. -/
theorem vmmCreateAddressSpace_snd (image : KernelImage) {pmm₁ pmm₂ : Pmm} {q s : UInt64}
    (hq : pmm.pmmAllocPage = (pmm₁, q)) (hqne : q ≠ 0) (hs : pmm₁.pmmAllocPage = (pmm₂, s))
    (hsne : s ≠ 0) :
  (vmmCreateAddressSpace image k m pmm).2 = (pmm₂, q)
  := by
  rw [vmmCreateAddressSpace, hq]
  simp only [if_neg hqne, hs, if_neg hsne]

/-- `vmm_create_address_space` -/
theorem vmmCreateAddressSpace_inv (image : KernelImage) (h : Inv k T₀ (entries m) pmm live)
    (hk : KernelRoot k T₀) :
  (∃ m' pmm', vmmCreateAddressSpace image k m pmm = (m', pmm', 0) ∧ Inv k T₀ (entries m') pmm' live
      ∧ SameEntries (entries m) (entries m') live)
    ∨ ∃ m' pmm₁ pmm₂ q s, vmmCreateAddressSpace image k m pmm = (m', pmm₂, q)
      ∧ Takes pmm pmm₁ q ∧ Takes pmm₁ pmm₂ s ∧ Made k T₀ (entries m) (entries m') q s
  := by
  rcases alloc_cases h.ok with hnone | ⟨pmm₁, q, hq⟩
  · left
    use m, pmm
    refine ⟨?_, h, fun _ _ _ _ _ _ => rfl⟩
    rw [vmmCreateAddressSpace, hnone]
    rfl
  · rcases alloc_cases hq.ok with hnone | ⟨pmm₂, s, hs⟩
    · left
      use copyEntries (clearEntries m q 512) q k 512, pmm₁.pmmFreePage image q
      obtain ⟨hok, hfree⟩ := pmmFreePage_free image hq.ok hq.aligned
      have hold : ∀ p, SpaceTable (entries m) live p ∨ KernelTable k T₀ p → Aligned p ∧ ¬ Free pmm p := by
        rintro p (hp | hp)
        · exact ⟨h.aligned hp, (h.used p hp).1⟩
        · exact ⟨h.kernel_aligned hp, (h.kernel p hp).2⟩
      have hkq : k ≠ q := by
        rintro rfl
        exact h.kernel_root.2 hq.free
      constructor
      · rw [vmmCreateAddressSpace, hq.alloc]
        simp only [if_neg hq.ne_zero, hnone, if_true]
      · apply h.elsewhere _ hok
        · intro p hp hp'
          obtain ⟨haligned, hused⟩ := hold p hp
          rcases hfree p haligned hp' with hfree₁ | rfl
          · exact hused ((hq.rest p haligned).mp hfree₁).1
          · exact hused hq.free
        · intro p hp i
          obtain ⟨haligned, hused⟩ := hold p hp
          have hpq : p ≠ q := by
            rintro rfl
            exact hused hq.free
          rw [entries, entry_copyEntries _ hq.aligned h.root hkq haligned (Nat.le_refl 512) i.isLt,
            if_neg (fun hand => hpq hand.1)]
          have hclear := entries_clear m i hq.aligned haligned
          rw [if_neg hpq] at hclear
          exact hclear
    · right
      have hsfree : Free pmm s ∧ s ≠ q := (hq.rest s hs.aligned).mp hs.free
      have hks : k ≠ s := by
        rintro rfl
        exact h.kernel_root.2 hsfree.1
      have hkq : k ≠ q := by
        rintro rfl
        exact h.kernel_root.2 hq.free
      refine ⟨_, pmm₁, pmm₂, q, s, ?_, hq, hs, made_space h hk hq hs⟩
      have hread : entry (clearEntries (copyEntries (clearEntries m q 512) q k 512) s 512) k 0
          = T₀ k 0 := by
        rw [entry_clearEntries _ hs.aligned h.root (Nat.le_refl 512) (by decide), if_neg (fun hand => hks hand.1),
          entry_copyEntries _ hq.aligned h.root hkq h.root (Nat.le_refl 512) (by decide),
          if_neg (fun hand => hkq hand.1),
          entry_clearEntries _ hq.aligned h.root (Nat.le_refl 512) (by decide),
          if_neg (fun hand => hkq hand.1)]
        exact h.kernel_root.1 0
      rw [vmmCreateAddressSpace, hq.alloc]
      simp only [if_neg hq.ne_zero, hs.alloc, if_neg hs.ne_zero]
      rw [hread, hk.table]
      rfl

/-! ### vmm_destroy_address_space -/

/-- The pages that the loop over a page directory gives back. -/
def directoryPages (m : Memory) (pd : UInt64) : List UInt64 :=
  (List.range 512).flatMap (fun j =>
    if entry m pd j &&& pagePresent ≠ 0 then [entryTable (entry m pd j)] else [])

/-- The pages that the loop over the page directories above 4 GiB gives back. -/
def pdptPages (m : Memory) (pdpt : UInt64) : List UInt64 :=
  (List.range' 4 508).flatMap (fun i =>
    if entry m pdpt i &&& pagePresent ≠ 0 then
      directoryPages m (entryTable (entry m pdpt i)) ++ [entryTable (entry m pdpt i)]
    else [])

/-- The pages that `vmm_destroy_address_space` gives back, in this order. -/
def destroyedPages (m : Memory) (pml4 : UInt64) : List UInt64 :=
  (if entry m pml4 0 &&& pagePresent ≠ 0 then
    pdptPages m (entryTable (entry m pml4 0)) ++ [entryTable (entry m pml4 0)]
  else []) ++ [pml4]

/-- Give back the pages of a list. -/
def freeAll (image : KernelImage) (pmm : Pmm) (pages : List UInt64) : Pmm :=
  pages.foldl (fun pmm p => pmm.pmmFreePage image p) pmm

theorem freeDirectory_eq (image : KernelImage) (m : Memory) (pd : UInt64) (pmm : Pmm) :
  freeDirectory image m pd pmm = freeAll image pmm (directoryPages m pd)
  := by
  rw [freeDirectory, freeAll, directoryPages, List.foldl_flatMap]
  congr 1
  funext pmm j
  split
  · rfl
  · rfl

theorem freePdpt_eq (image : KernelImage) (m : Memory) (pdpt : UInt64) (pmm : Pmm) :
  freePdpt image m pdpt pmm = freeAll image pmm (pdptPages m pdpt)
  := by
  rw [freePdpt, freeAll, pdptPages, List.foldl_flatMap]
  congr 1
  funext pmm i
  split
  · simp only [freeDirectory_eq, freeAll, List.foldl_append, List.foldl_cons, List.foldl_nil]
  · rfl

theorem vmmDestroyAddressSpace_eq (image : KernelImage) (m : Memory) (pmm : Pmm) {pml4 : UInt64}
    (hne : pml4 ≠ 0) (hk : pml4 ≠ k) :
  vmmDestroyAddressSpace image k m pmm pml4 = freeAll image pmm (destroyedPages m pml4)
  := by
  rw [vmmDestroyAddressSpace, if_neg (not_or.mpr ⟨hne, hk⟩), destroyedPages, freeAll, List.foldl_append]
  split
  · simp only [freePdpt_eq, freeAll, List.foldl_append, List.foldl_cons, List.foldl_nil]
  · rfl

/-- An entry of a table of a live space is absent, or points to a table of the space. -/
theorem Inv.child_cases {t : UInt64} (h : Inv k T₀ (entries m) pmm live) (is : List (Fin 512)) (i : Fin 512)
    (hr : r ∈ live) (hown : own (is ++ [i]))
    (ht : Radix.node (next (entries m)) r is = some t) :
  (entry m t i &&& pagePresent = 0 ∧ Radix.node (next (entries m)) r (is ++ [i]) = none)
    ∨ (entry m t i &&& pagePresent ≠ 0
      ∧ Radix.node (next (entries m)) r (is ++ [i]) = some (entryTable (entry m t i)))
  := by
  rw [Radix.node_snoc_of_node ht, next]
  cases hpresent : present (entries m t i) with
  | false =>
      left
      exact ⟨not_present_iff.mpr hpresent, table_of_not_present hpresent⟩
  | true =>
      right
      have hlen := hown.1
      rw [List.length_append, List.length_singleton] at hlen
      obtain ⟨hframe, hlarge⟩ := h.clean r hr is i (proper_of_own_snoc hown) t ht hpresent (by omega)
      constructor
      · intro habsent
        rw [not_present_iff, hpresent] at habsent
        cases habsent
      · rw [table_of_present hpresent hlarge, ← hframe]
        rfl

theorem own_upper {i : Fin 512} (hi : 4 ≤ i.val) {js : List (Fin 512)} (hlen : js.length ≤ 1) :
  own (0 :: i :: js)
  := by
  constructor
  · simp only [List.length_cons]
    omega
  · simp only [isLow, Bool.and_eq_false_iff, decide_eq_false_iff_not]
    right
    omega

theorem upper_of_own {i : Fin 512} {js : List (Fin 512)} (h : own (0 :: i :: js)) :
  4 ≤ i.val
  := by
  have hlow := h.2
  simp only [isLow, Fin.val_zero, decide_true, Bool.true_and, decide_eq_false_iff_not] at hlow
  omega

/-- The page that a loop gives back for an entry of a table. -/
theorem Inv.mem_child {t p : UInt64} (h : Inv k T₀ (entries m) pmm live) (is : List (Fin 512)) (i : Fin 512)
    (hr : r ∈ live) (hown : own (is ++ [i])) (ht : Radix.node (next (entries m)) r is = some t) :
  p ∈ (if entry m t i &&& pagePresent ≠ 0 then [entryTable (entry m t i)] else [])
    ↔ Radix.node (next (entries m)) r (is ++ [i]) = some p
  := by
  rcases h.child_cases is i hr hown ht with ⟨habsent, hnode⟩ | ⟨hpresent, hnode⟩
  · rw [if_neg (not_not.mpr habsent), hnode]
    simp
  · rw [if_pos hpresent, hnode, List.mem_singleton, Option.some_inj, eq_comm]

/-- The pages that a page directory of a live space has. -/
theorem mem_directoryPages {pd p : UInt64} {i : Fin 512} (h : Inv k T₀ (entries m) pmm live)
    (hr : r ∈ live) (hi : 4 ≤ i.val) (hpd : Radix.node (next (entries m)) r [0, i] = some pd) :
  p ∈ directoryPages m pd ↔ ∃ j, Radix.node (next (entries m)) r [0, i, j] = some p
  := by
  have hchild := fun j => h.mem_child (p := p) [0, i] j hr (own_upper hi (by simp)) hpd
  rw [directoryPages, List.mem_flatMap]
  constructor
  · rintro ⟨j, hj, hp⟩
    use ⟨j, List.mem_range.mp hj⟩
    exact (hchild ⟨j, List.mem_range.mp hj⟩).mp hp
  · rintro ⟨j, hp⟩
    use j.val, List.mem_range.mpr j.isLt
    exact (hchild j).mpr hp

/-- The pages that the table of entry 0 of a live space has from 4 GiB on. -/
theorem mem_pdptPages {pdpt p : UInt64} (h : Inv k T₀ (entries m) pmm live) (hr : r ∈ live)
    (hpdpt : Radix.node (next (entries m)) r [0] = some pdpt) :
  p ∈ pdptPages m pdpt ↔ ∃ i js, own (0 :: i :: js) ∧ Radix.node (next (entries m)) r (0 :: i :: js) = some p
  := by
  rw [pdptPages, List.mem_flatMap]
  constructor
  · rintro ⟨i, hi, hp⟩
    rw [List.mem_range'_1] at hi
    have hlt : i < 512 := by omega
    rcases h.child_cases [0] ⟨i, hlt⟩ hr (own_upper hi.1 (by simp)) hpdpt with
      ⟨habsent, -⟩ | ⟨hpresent, hnode⟩
    · rw [if_neg (not_not.mpr habsent)] at hp
      cases hp
    · rw [if_pos hpresent] at hp
      rcases List.mem_append.mp hp with hinner | hlast
      · obtain ⟨j, hj⟩ := (mem_directoryPages h hr (i := ⟨i, hlt⟩) hi.1 hnode).mp hinner
        exact ⟨⟨i, hlt⟩, [j], own_upper hi.1 (by simp), hj⟩
      · rw [List.mem_singleton.mp hlast]
        exact ⟨⟨i, hlt⟩, [], own_upper hi.1 (by simp), hnode⟩
  · rintro ⟨i, js, hown, hp⟩
    have hi := upper_of_own hown
    use i.val
    rw [List.mem_range'_1]
    use ⟨hi, i.isLt⟩
    rcases h.child_cases [0] i hr (own_upper hi (by simp)) hpdpt with
      ⟨-, hnode⟩ | ⟨hpresent, hnode⟩
    · rw [show 0 :: i :: js = [0, i] ++ js from rfl, Radix.node_append, ← List.singleton_append, hnode] at hp
      cases hp
    · rw [if_pos hpresent]
      match js, hown with
      | [], _ =>
          rw [← List.singleton_append, hnode] at hp
          cases hp
          exact List.mem_append_right _ (List.mem_singleton_self _)
      | [j], _ =>
          apply List.mem_append_left
          apply (mem_directoryPages h hr hi hnode).mpr
          exact ⟨j, hp⟩
      | _ :: _ :: _, hown =>
          have hlen := hown.1
          simp only [List.length_cons] at hlen
          omega

/-- Entry 0 of a live space. -/
theorem Inv.pdpt_present {pdpt : UInt64} (h : Inv k T₀ (entries m) pmm live) (hr : r ∈ live)
    (hpdpt : Radix.node (next (entries m)) r [0] = some pdpt) :
  entry m r 0 &&& pagePresent ≠ 0 ∧ pdpt = entryTable (entry m r 0)
  := by
  have hnil : Radix.node (next (entries m)) r [] = some r := rfl
  rcases h.child_cases [] 0 hr own_zero hnil with ⟨-, hnode⟩ | ⟨hpresent, hnode⟩
  · rw [List.nil_append, hpdpt] at hnode
    cases hnode
  · rw [List.nil_append, hpdpt] at hnode
    cases hnode
    exact ⟨hpresent, rfl⟩

/-- `vmm_destroy_address_space` gives back the tables of the space below 512 GiB. -/
theorem mem_destroyedPages {p : UInt64} (h : Inv k T₀ (entries m) pmm live) (hr : r ∈ live) :
  p ∈ destroyedPages m r
    ↔ ∃ js, own js ∧ (js = [] ∨ ∃ is, js = 0 :: is) ∧ Radix.node (next (entries m)) r js = some p
  := by
  obtain ⟨pdpt, hpdpt, -⟩ := h.low r hr
  have hpresent := h.pdpt_present hr hpdpt
  rw [destroyedPages, if_pos hpresent.1, ← hpresent.2, List.mem_append, List.mem_append,
    mem_pdptPages h hr hpdpt, List.mem_singleton, List.mem_singleton]
  constructor
  · rintro ((⟨i, js, hown, hp⟩ | rfl) | rfl)
    · exact ⟨0 :: i :: js, hown, Or.inr ⟨i :: js, rfl⟩, hp⟩
    · exact ⟨[0], own_zero, Or.inr ⟨[], rfl⟩, hpdpt⟩
    · exact ⟨[], own_nil, Or.inl rfl, rfl⟩
  · rintro ⟨js, hown, rfl | ⟨is, rfl⟩, hp⟩
    · cases hp
      exact Or.inr rfl
    · left
      match is, hown with
      | [], _ =>
          rw [hpdpt] at hp
          cases hp
          exact Or.inr rfl
      | i :: js, hown => exact Or.inl ⟨i, js, hown, hp⟩

/-- Giving back pages frees no others. -/
theorem freeAll_free (image : KernelImage) {pages : List UInt64} (hok : AllocatorOk pmm)
    (haligned : ∀ p ∈ pages, Aligned p) :
  AllocatorOk (freeAll image pmm pages)
    ∧ ∀ p, Aligned p → Free (freeAll image pmm pages) p → Free pmm p ∨ p ∈ pages
  := by
  induction pages generalizing pmm with
  | nil => exact ⟨hok, fun _ _ hp => Or.inl hp⟩
  | cons q pages ih =>
      obtain ⟨hok', hfree⟩ := pmmFreePage_free image hok (haligned q List.mem_cons_self)
      obtain ⟨hok'', hfree'⟩ := ih hok' (fun p hp => haligned p (List.mem_cons_of_mem q hp))
      use hok''
      intro p hp hp'
      rcases hfree' p hp hp' with hmid | hmem
      · rcases hfree p hp hmid with hbefore | rfl
        · exact Or.inl hbefore
        · exact Or.inr List.mem_cons_self
      · exact Or.inr (List.mem_cons_of_mem q hmem)

/-- `vmm_destroy_address_space` for a live space. -/
theorem vmmDestroyAddressSpace_inv (image : KernelImage) (h : Inv k T₀ (entries m) pmm live)
    (hr : r ∈ live) :
  Inv k T₀ (entries m) (vmmDestroyAddressSpace image k m pmm r) (live.erase r)
  := by
  have hrk : r ≠ k := by
    rintro rfl
    exact (h.used r (spaceTable_of_node hr own_nil rfl)).2 ⟨[], Nat.zero_le 3, rfl⟩
  rw [vmmDestroyAddressSpace_eq image m pmm (h.roots r hr).2 hrk]
  have hpages : ∀ p ∈ destroyedPages m r, SpaceTable (entries m) live p := by
    intro p hp
    obtain ⟨js, hown, -, hnode⟩ := (mem_destroyedPages h hr).mp hp
    exact spaceTable_of_node hr hown hnode
  obtain ⟨hok, hfree⟩ := freeAll_free image h.ok (fun p hp => h.aligned (hpages p hp))
  have hlive : ∀ s, s ∈ live.erase r → s ∈ live ∧ s ≠ r := by
    intro s hs
    have hmem := h.nodup.mem_erase_iff.mp hs
    exact ⟨hmem.2, hmem.1⟩
  constructor
  · exact hok
  · exact h.root
  · intro p hp
    obtain ⟨hsame, hused⟩ := h.kernel p hp
    use hsame
    intro hp'
    rcases hfree p (h.kernel_aligned hp) hp' with hbefore | hmem
    · exact hused hbefore
    · exact (h.used p (hpages p hmem)).2 hp
  · exact h.nodup.erase r
  · intro s hs
    exact h.roots s (hlive s hs).1
  · exact h.separate.mono (fun s hs => (hlive s hs).1)
  · rintro p ⟨s, is, hs, his, hp⟩
    obtain ⟨hmem, hne⟩ := hlive s hs
    have hreached := spaceTable_of_node hmem his hp
    obtain ⟨hused, hkernel⟩ := h.used p hreached
    apply And.intro _ hkernel
    intro hp'
    rcases hfree p (h.aligned hreached) hp' with hbefore | hdestroyed
    · exact hused hbefore
    · obtain ⟨js, hown, -, hnode⟩ := (mem_destroyedPages h hr).mp hdestroyed
      exact hne (h.separate.eq hmem hr his hown hp hnode).1
  · intro s hs
    exact h.low s (hlive s hs).1
  · intro s hs
    exact h.clean s (hlive s hs).1

end Vmm
