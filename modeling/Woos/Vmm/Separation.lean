import Woos.Vmm.Tables

/-!
# Separation of address spaces

`Inv k T₀ T pmm live` is the invariant of the address spaces with the tables `live`, while the kernel's
own tables, under `k`, are those of `T₀`.  The entries of a live space below 4 GiB are those of the
kernel; all its other tables are its own, and belong neither to another live space nor to the kernel.

`Inv.setEntry`, `Inv.graft` and `Inv.insert` are the rules for an entry that is written, for a new table
and for a new space.
-/

namespace Vmm

open Paging

/-! ### Paths -/

/-- The path leads to addresses below 4 GiB. -/
def isLow : List (Fin 512) → Bool
  | i :: j :: _ => i.val = 0 && j.val < 4
  | _ => false

/-- The paths of the tables that an address space has for itself. -/
def own (is : List (Fin 512)) : Prop := is.length ≤ 3 ∧ isLow is = false

/-- The entry `i` of the table at the end of a path is not shared with the kernel. -/
def proper (is : List (Fin 512)) (i : Fin 512) : Prop := is.length ≤ 3 ∧ isLow (is ++ [i]) = false

theorem isLow_init {is : List (Fin 512)} {i : Fin 512} (h : isLow (is ++ [i]) = false) :
  isLow is = false
  := by
  match is with
  | [] => rfl
  | [_] => rfl
  | _ :: _ :: _ => exact h

theorem own_prefixClosed :
  Radix.PrefixClosed own
  where
  init := by
    rintro is i ⟨hlen, hlow⟩
    rw [List.length_append, List.length_singleton] at hlen
    exact ⟨by omega, isLow_init hlow⟩

theorem own_nil :
  own []
  := ⟨by decide, rfl⟩

theorem own_zero :
  own [0]
  := ⟨by decide, rfl⟩

theorem proper.own {is : List (Fin 512)} {i : Fin 512} (h : proper is i) :
  own is
  := ⟨h.1, isLow_init h.2⟩

theorem proper_of_own_snoc {is : List (Fin 512)} {i : Fin 512} (h : own (is ++ [i])) :
  proper is i
  := ⟨(own_prefixClosed.init is i h).1, h.2⟩

theorem own.proper_full {is : List (Fin 512)} (h : own is) (hlen : is.length = 3) (i : Fin 512) :
  proper is i
  := by
  use h.1
  match is, hlen with
  | [_, _, _], _ => exact h.2

theorem not_own_of_full {is : List (Fin 512)} {i : Fin 512} (hlen : is.length = 3) :
  ¬ own (is ++ [i])
  := by
  rintro ⟨hle, -⟩
  rw [List.length_append, List.length_singleton] at hle
  omega

/-- The path of an address from 4 GiB on. -/
theorem own_path {v : UInt64} (hv : Canonical v) (hhigh : 2 ^ 32 ≤ v.toNat) :
  own (path v)
  := by
  use (length_pathFrom v 3).le
  have hvlt := v.toNat_lt
  simp only [path, pathFrom, isLow, index, Bool.and_eq_false_iff, decide_eq_false_iff_not]
  simp only [Canonical] at hv
  norm_num at hv hhigh ⊢
  omega

/-- The indices of an address below 4 GiB. -/
theorem low_indices {v : UInt64} (hlow : v.toNat < 2 ^ 32) :
  (index v 3).val = 0 ∧ (index v 2).val < 4
  := by
  simp only [index]
  norm_num at hlow ⊢
  omega

/-! ### The invariant -/

/-- An entry of a table that a path of length `n` reaches: if it is not one of a page, the processor and
the code go on to the same table. -/
def Clean (n : Nat) (e : UInt64) : Prop :=
  present e → n < 3 → entryTable e = frame e ∧ large e = false

/-- A table of the kernel. -/
def KernelTable (k : UInt64) (T : UInt64 → Fin 512 → UInt64) (p : UInt64) : Prop :=
  ∃ is, is.length ≤ 3 ∧ Radix.node (next T) k is = some p

/-- A table of a live space. -/
abbrev SpaceTable (T : UInt64 → Fin 512 → UInt64) (live : List UInt64) (p : UInt64) : Prop :=
  Radix.Reached (next T) (· ∈ live) own p

theorem spaceTable_of_node {T : UInt64 → Fin 512 → UInt64} {live : List UInt64} {r p : UInt64}
    {is : List (Fin 512)} (hr : r ∈ live) (his : own is) (hp : Radix.node (next T) r is = some p) :
  SpaceTable T live p
  := ⟨r, is, hr, his, hp⟩

/-- The tables of the live spaces are separate from each other and from those of the kernel, and are
in use. -/
structure Inv (k : UInt64) (T₀ T : UInt64 → Fin 512 → UInt64) (pmm : Pmm) (live : List UInt64) :
    Prop where
  ok : AllocatorOk pmm
  root : Aligned k
  kernel : ∀ p, KernelTable k T₀ p → (∀ i, T p i = T₀ p i) ∧ ¬ Free pmm p
  nodup : live.Nodup
  roots : ∀ r ∈ live, Aligned r ∧ r ≠ 0
  separate : Radix.Separate (next T) (· ∈ live) own
  used : ∀ p, SpaceTable T live p → ¬ Free pmm p ∧ ¬ KernelTable k T₀ p
  low : ∀ r ∈ live, ∃ q, Radix.node (next T) r [0] = some q
    ∧ ∀ j : Fin 512, j.val < 4 → T q j = T₀ (frame (T₀ k 0)) j
  clean : ∀ r ∈ live, ∀ is i, proper is i → ∀ p, Radix.node (next T) r is = some p
    → Clean is.length (T p i)

/-- The entry at a path of length 3; absent tables count as tables of zeros. -/
def entryAt (T : UInt64 → Fin 512 → UInt64) (r : UInt64) (is : List (Fin 512)) (i : Fin 512) : UInt64 :=
  (Radix.node (next T) r is).elim 0 (fun p => T p i)

theorem frame_aligned (e : UInt64) :
  Aligned (frame e)
  := by
  have hmask : (0x000FFFFFFFFFFFFF : UInt64).toNat = 2 ^ 52 - 1 := rfl
  have haligned := entryTable_aligned e
  rw [Aligned] at haligned ⊢
  rw [frame, addressMask, ← UInt64.and_assoc, Word.toNat_and_mask _ _ hmask]
  rw [entryTable] at haligned
  omega

theorem node_aligned {T : UInt64 → Fin 512 → UInt64} {r p : UInt64} {is : List (Fin 512)}
    (hr : Aligned r) (hp : Radix.node (next T) r is = some p) :
  Aligned p
  := by
  induction is generalizing r with
  | nil =>
      cases hp
      exact hr
  | cons i is ih =>
      obtain ⟨q, hq, hrest⟩ := Option.bind_eq_some_iff.mp hp
      apply ih _ hrest
      rw [(table_eq_some hq).2.2]
      apply frame_aligned

/-- The pages of the live spaces from 4 GiB on are as they were. -/
def SameEntries (T T' : UInt64 → Fin 512 → UInt64) (live : List UInt64) : Prop :=
  ∀ r ∈ live, ∀ is, own is → is.length = 3 → ∀ i, entryAt T' r is i = entryAt T r is i

theorem SameEntries.trans {T T' T'' : UInt64 → Fin 512 → UInt64} {live : List UInt64}
    (h : SameEntries T T' live) (h' : SameEntries T' T'' live) :
  SameEntries T T'' live
  := by
  intro r hr is his hlen i
  rw [h' r hr is his hlen i, h r hr is his hlen i]

namespace Inv

variable {k : UInt64} {T₀ T T' : UInt64 → Fin 512 → UInt64} {pmm pmm' : Pmm} {live : List UInt64}

theorem aligned (h : Inv k T₀ T pmm live) {p : UInt64} (hp : SpaceTable T live p) :
  Aligned p
  := by
  obtain ⟨r, is, hr, -, hnode⟩ := hp
  exact node_aligned (h.roots r hr).1 hnode

/-- A page that is free is not a table. -/
theorem not_reached_of_free (h : Inv k T₀ T pmm live) {q : UInt64} (hq : Free pmm q) :
  ¬ SpaceTable T live q
  := fun hreached => (h.used q hreached).1 hq

theorem kernel_aligned (h : Inv k T₀ T pmm live) {p : UInt64} (hp : KernelTable k T₀ p) :
  Aligned p
  := by
  obtain ⟨is, -, hnode⟩ := hp
  exact node_aligned h.root hnode

theorem not_kernel_of_free (h : Inv k T₀ T pmm live) {q : UInt64} (hq : Free pmm q) :
  ¬ KernelTable k T₀ q
  := fun hkernel => (h.kernel q hkernel).2 hq

/-- The tables of the kernel are where they were. -/
theorem kernelTable_congr (h : Inv k T₀ T pmm live) {p : UInt64} (hp : KernelTable k T p) :
  KernelTable k T₀ p
  := by
  obtain ⟨is, hlen, hnode⟩ := hp
  use is, hlen
  rw [← hnode]
  apply Eq.symm
  apply Radix.node_congr
  intro js i hjs q hq
  have hlt := hjs.length_le
  rw [List.length_append, List.length_singleton] at hlt
  rw [next, next, (h.kernel q ⟨js, by omega, hq⟩).1]

/-! ### Translation -/

/-- What a live space translates an address from 4 GiB on to. -/
theorem translate_high (h : Inv k T₀ T pmm live) {r v : UInt64} (hr : r ∈ live) (hv : Canonical v)
    (hhigh : 2 ^ 32 ≤ v.toNat) :
  translate T r v = leaf (entryAt T r (path v) (index v 0)) v
  := by
  have hnolarge : NoLarge T v r 3 := by
    intro js i hjs p hp hpresent
    have hown := own_prefixClosed.of_prefix (own_path hv hhigh) hjs
    have hlen := hown.1
    rw [List.length_append, List.length_singleton] at hlen
    exact ((h.clean r hr js i (proper_of_own_snoc hown) p hp) hpresent (by omega)).2
  rw [translate_eq_node hnolarge, entryAt]
  cases Radix.node (next T) r (path v) with
  | none => exact (leaf_of_not_present not_present_zero v).symm
  | some p => rfl

/-- The translations of the kernel do not change. -/
theorem translate_kernel (h : Inv k T₀ T pmm live) (v : UInt64) :
  translate T k v = translate T₀ k v
  := by
  apply translate_congr
  intro js hjs p hp
  have hlen := hjs.length_le
  rw [path, length_pathFrom] at hlen
  exact (h.kernel p ⟨js, hlen, hp⟩).1

/-- A live space translates an address below 4 GiB as the kernel does. -/
theorem translate_low (h : Inv k T₀ T pmm live) (hentry : next T₀ k 0 = some (frame (T₀ k 0)))
    {r v : UInt64} (hr : r ∈ live) (hlow : v.toNat < 2 ^ 32) :
  translate T r v = translate T₀ k v
  := by
  obtain ⟨q, hq, hsame⟩ := h.low r hr
  obtain ⟨h3, h2⟩ := low_indices hlow
  have hindex : index v 3 = 0 := Fin.ext h3
  have hroot : next T r (index v 3) = some q := by
    rw [hindex]
    have hnil : Radix.node (next T) r [] = some r := rfl
    exact (Radix.node_snoc_of_node hnil 0).symm.trans hq
  rw [← hindex] at hentry hsame
  rw [Paging.translate, Paging.translate, walk_of_next hroot, walk_of_next hentry]
  apply walk_congr_entry (hsame (index v 2) h2)
  intro p hp
  apply walk_congr
  intro js hjs s hs
  apply (h.kernel s _).1
  use index v 3 :: index v 2 :: js
  constructor
  · have hlen := hjs.length_le
    rw [length_pathFrom] at hlen
    rw [List.length_cons, List.length_cons]
    omega
  · rw [Radix.node, hentry, Option.bind_some, Radix.node, hp, Option.bind_some]
    exact hs

/-! ### The walk of the code -/

/-- On the tables of a live space, the code goes where the processor goes. -/
theorem code_node {m : Memory} (h : Inv k T₀ (entries m) pmm live) {r : UInt64} (hr : r ∈ live)
    {is : List (Fin 512)} (his : own is) :
  Radix.node (codeNext m) r is = Radix.node (next (entries m)) r is
  := by
  apply Radix.node_congr
  intro js i hjs p hp
  have hown := own_prefixClosed.of_prefix his hjs
  have hclean := h.clean r hr js i (proper_of_own_snoc hown) p hp
  have hlen : js.length < 3 := by
    have hle := hown.1
    rw [List.length_append, List.length_singleton] at hle
    omega
  rw [codeNext, lookupLevel, next]
  cases hpresent : present (entries m p i) with
  | false => rw [if_pos (not_present_iff.mpr hpresent), table_of_not_present hpresent]
  | true =>
      have hthere : ¬ entry m p i &&& pagePresent = 0 := by
        rw [not_present_iff, hpresent]
        decide
      obtain ⟨hframe, hlarge⟩ := hclean hpresent hlen
      rw [if_neg hthere, table_of_present hpresent hlarge, ← hframe]
      rfl

/-! ### An entry is written -/

section

variable {r t q e : UInt64} {is : List (Fin 512)} {i : Fin 512}

/-- The entry `i` of the table `t` is written, and the tables are reached as before. -/
theorem write (h : Inv k T₀ T pmm live) (hr : r ∈ live) (hproper : proper is i)
    (ht : Radix.node (next T) r is = some t)
    (hT : ∀ p, Aligned p → ∀ j, T' p j = if p = t ∧ j = i then e else T p j)
    (hnodes : ∀ s ∈ live, ∀ js, own js → Radix.node (next T') s js = Radix.node (next T) s js)
    (he : Clean is.length e) :
  Inv k T₀ T' pmm live
  := by
  have hreached := spaceTable_of_node hr hproper.own ht
  constructor
  · exact h.ok
  · exact h.root
  · intro p hp
    obtain ⟨hsame, hused⟩ := h.kernel p hp
    apply And.intro _ hused
    intro j
    rw [hT p (h.kernel_aligned hp), if_neg, hsame]
    rintro ⟨rfl, -⟩
    exact (h.used p hreached).2 hp
  · exact h.nodup
  · exact h.roots
  · exact h.separate.congr hnodes
  · intro p hp
    exact h.used p (Radix.Separate.reached_congr hnodes hp)
  · intro s hs
    obtain ⟨p, hp, hsame⟩ := h.low s hs
    use p
    rw [hnodes s hs [0] own_zero]
    use hp
    intro j hj
    rw [hT p (node_aligned (h.roots s hs).1 hp), if_neg, hsame j hj]
    rintro ⟨rfl, rfl⟩
    obtain ⟨-, rfl⟩ := h.separate.eq hr hs hproper.own own_zero ht hp
    have hlow := hproper.2
    simp [isLow, hj] at hlow
  · intro s hs js j hjs p hp
    rw [hnodes s hs js hjs.own] at hp
    rw [hT p (node_aligned (h.roots s hs).1 hp)]
    split
    case isTrue hslot =>
      obtain ⟨rfl, rfl⟩ := hslot
      obtain ⟨-, rfl⟩ := h.separate.eq hr hs hproper.own hjs.own ht hp
      exact he
    case isFalse => exact h.clean s hs js j hjs p hp

/-- An entry that points where it pointed. -/
theorem nodes_alike (h : Inv k T₀ T pmm live) (he : Alike (T t i) e)
    (hT : ∀ p, Aligned p → ∀ j, T' p j = if p = t ∧ j = i then e else T p j) :
  ∀ s ∈ live, ∀ js, own js → Radix.node (next T') s js = Radix.node (next T) s js
  := by
  intro s hs js _
  apply Radix.node_congr
  intro ks j _ p hp
  rw [next, next, hT p (node_aligned (h.roots s hs).1 hp)]
  split
  case isTrue hslot =>
    rw [hslot.1, hslot.2]
    exact he.table
  case isFalse => rfl

/-- An entry for a page. -/
theorem nodes_leaf (h : Inv k T₀ T pmm live) (hr : r ∈ live) (his : own is) (hlen : is.length = 3)
    (ht : Radix.node (next T) r is = some t)
    (hT : ∀ p, Aligned p → ∀ j, T' p j = if p = t ∧ j = i then e else T p j) :
  ∀ s ∈ live, ∀ js, own js → Radix.node (next T') s js = Radix.node (next T) s js
  := by
  intro s hs js hjs
  apply h.separate.node_leaf (i := i) own_prefixClosed hr his ht (not_own_of_full hlen) _ hs hjs
  intro p hp j hslot
  rw [next, next, hT p (h.aligned hp), if_neg hslot]

/-- The entries of pages when one entry is written, and the tables are reached as before. -/
theorem entryAt_write (h : Inv k T₀ T pmm live) (hr : r ∈ live) (his : own is)
    (ht : Radix.node (next T) r is = some t)
    (hT : ∀ p, Aligned p → ∀ j, T' p j = if p = t ∧ j = i then e else T p j)
    (hnodes : ∀ s ∈ live, ∀ js, own js → Radix.node (next T') s js = Radix.node (next T) s js)
    {s : UInt64} (hs : s ∈ live) {js : List (Fin 512)} (hjs : own js) (j : Fin 512) :
  entryAt T' s js j = if s = r ∧ js = is ∧ j = i then e else entryAt T s js j
  := by
  rw [entryAt, hnodes s hs js hjs, entryAt]
  split
  case isTrue hslot =>
    obtain ⟨rfl, rfl, rfl⟩ := hslot
    rw [ht, Option.elim_some, hT t (node_aligned (h.roots s hs).1 ht), if_pos ⟨rfl, rfl⟩]
  case isFalse hslot =>
    cases hp : Radix.node (next T) s js with
    | none => rfl
    | some p =>
        rw [Option.elim_some, Option.elim_some, hT p (node_aligned (h.roots s hs).1 hp), if_neg]
        rintro ⟨rfl, rfl⟩
        obtain ⟨rfl, rfl⟩ := h.separate.eq hr hs his hjs ht hp
        exact hslot ⟨rfl, rfl, rfl⟩

/-! ### A table is added -/

/-- The tables when the entry `i` of the table `t` gets a new table. -/
theorem node_graft (h : Inv k T₀ T pmm live) (hr : r ∈ live) (hproper : proper is i)
    (ht : Radix.node (next T) r is = some t) (hnone : present (T t i) = false)
    (htakes : Takes pmm pmm' q) (flags : UInt64)
    (hT : ∀ p, Aligned p → ∀ j, T' p j
      = if p = t ∧ j = i then newEntry q flags else if p = q then 0 else T p j)
    {s : UInt64} (hs : s ∈ live) {js : List (Fin 512)} (hjs : own js) :
  Radix.node (next T') s js = if s = r ∧ js = is ++ [i] then some q else Radix.node (next T) s js
  := by
  have hfresh := h.not_reached_of_free htakes.free
  have hreached := spaceTable_of_node hr hproper.own ht
  have hlt : q.toNat < 2 ^ 52 := htakes.lt.trans (by decide)
  apply h.separate.node_graft own_prefixClosed hr hproper.own ht (table_of_not_present hnone) _ _ _ hs hjs
  · intro p hp j hslot
    rw [next, next, hT p (h.aligned hp), if_neg hslot, if_neg]
    rintro rfl
    exact hfresh hp
  · rw [next, hT t (h.aligned hreached), if_pos ⟨rfl, rfl⟩]
    exact table_newEntry htakes.aligned hlt flags
  · intro j
    rw [next, hT q htakes.aligned, if_neg, if_pos rfl]
    · exact table_of_not_present not_present_zero
    · rintro ⟨rfl, -⟩
      exact hfresh hreached

/-- A new table. -/
theorem graft (h : Inv k T₀ T pmm live) (hr : r ∈ live) (hproper : proper is i)
    (ht : Radix.node (next T) r is = some t) (hnone : present (T t i) = false)
    (htakes : Takes pmm pmm' q) (flags : UInt64)
    (hT : ∀ p, Aligned p → ∀ j, T' p j
      = if p = t ∧ j = i then newEntry q flags else if p = q then 0 else T p j) :
  Inv k T₀ T' pmm' live
  := by
  have hfresh := h.not_reached_of_free htakes.free
  have hreached := spaceTable_of_node hr hproper.own ht
  have hnodes : ∀ s ∈ live, ∀ js, own js → Radix.node (next T') s js
      = if s = r ∧ js = is ++ [i] then some q else Radix.node (next T) s js :=
    fun s hs js hjs => h.node_graft hr hproper ht hnone htakes flags hT hs hjs
  have hfree : ∀ p, Aligned p → Free pmm' p → Free pmm p :=
    fun p hp hp' => ((htakes.rest p hp).mp hp').1
  have hother : ∀ s ∈ live, ∀ js j p, proper js j → Radix.node (next T) s js = some p
      → ¬ (p = t ∧ j = i) → T' p j = T p j := by
    intro s hs js j p hjs hp hslot
    rw [hT p (node_aligned (h.roots s hs).1 hp), if_neg hslot, if_neg]
    rintro rfl
    exact hfresh (spaceTable_of_node hs hjs.own hp)
  constructor
  · exact htakes.ok
  · exact h.root
  · intro p hp
    obtain ⟨hsame, hused⟩ := h.kernel p hp
    have haligned := h.kernel_aligned hp
    apply And.intro _ (fun hp' => hused (hfree p haligned hp'))
    intro j
    rw [hT p haligned, if_neg, if_neg, hsame]
    · rintro rfl
      exact h.not_kernel_of_free htakes.free hp
    · rintro ⟨rfl, -⟩
      exact (h.used p hreached).2 hp
  · exact h.nodup
  · exact h.roots
  · exact h.separate.graft hfresh hnodes
  · intro p hp
    rcases Radix.Separate.reached_graft hnodes hp with rfl | hold
    · constructor
      · intro hp'
        exact ((htakes.rest p htakes.aligned).mp hp').2 rfl
      · exact h.not_kernel_of_free htakes.free
    · obtain ⟨hused, hkernel⟩ := h.used p hold
      exact ⟨fun hp' => hused (hfree p (h.aligned hold) hp'), hkernel⟩
  · intro s hs
    obtain ⟨p, hp, hsame⟩ := h.low s hs
    use p
    rw [hnodes s hs [0] own_zero, if_neg]
    · use hp
      intro j hj
      rw [hT p (node_aligned (h.roots s hs).1 hp), if_neg, if_neg, hsame j hj]
      · rintro rfl
        exact hfresh (spaceTable_of_node hs own_zero hp)
      · rintro ⟨rfl, rfl⟩
        obtain ⟨-, rfl⟩ := h.separate.eq hr hs hproper.own own_zero ht hp
        have hlow := hproper.2
        simp [isLow, hj] at hlow
    · rintro ⟨rfl, heq⟩
      rw [heq, Radix.node_snoc_of_node ht, next, table_of_not_present hnone] at hp
      cases hp
  · intro s hs js j hjs p hp
    rw [hnodes s hs js hjs.own] at hp
    split at hp
    case isTrue hnew =>
      cases hp
      rw [hT q htakes.aligned, if_neg, if_pos rfl]
      · intro hzero
        rw [not_present_zero] at hzero
        cases hzero
      · rintro ⟨rfl, -⟩
        exact hfresh hreached
    case isFalse =>
      by_cases hslot : p = t ∧ j = i
      · obtain ⟨rfl, rfl⟩ := hslot
        rw [hT p (node_aligned (h.roots s hs).1 hp), if_pos ⟨rfl, rfl⟩]
        intro _ _
        have htable := entryTable_newEntry htakes.aligned flags
        constructor
        · rw [frame_eq_entryTable]
          rw [htable]
          exact htakes.lt.trans (by decide)
        · exact large_newEntry htakes.aligned flags
      · rw [hother s hs js j p hjs hp hslot]
        exact h.clean s hs js j hjs p hp

/-- A new table adds no page. -/
theorem graft_sameEntries (h : Inv k T₀ T pmm live) (hr : r ∈ live) (hproper : proper is i)
    (hlen : is.length < 3) (ht : Radix.node (next T) r is = some t) (hnone : present (T t i) = false)
    (htakes : Takes pmm pmm' q) (flags : UInt64)
    (hT : ∀ p, Aligned p → ∀ j, T' p j
      = if p = t ∧ j = i then newEntry q flags else if p = q then 0 else T p j) :
  SameEntries T T' live
  := by
  intro s hs js hjs hfull j
  have hfresh := h.not_reached_of_free htakes.free
  rw [entryAt, h.node_graft hr hproper ht hnone htakes flags hT hs hjs, entryAt]
  split
  case isTrue hnew =>
    obtain ⟨rfl, rfl⟩ := hnew
    rw [Option.elim_some, Radix.node_snoc_of_node ht, next, table_of_not_present hnone, Option.elim_none,
      hT q htakes.aligned, if_neg, if_pos rfl]
    rintro ⟨rfl, -⟩
    exact hfresh (spaceTable_of_node hr hproper.own ht)
  case isFalse =>
    cases hp : Radix.node (next T) s js with
    | none => rfl
    | some p =>
        rw [Option.elim_some, Option.elim_some, hT p (node_aligned (h.roots s hs).1 hp), if_neg, if_neg]
        · rintro rfl
          exact hfresh (spaceTable_of_node hs hjs hp)
        · rintro ⟨rfl, -⟩
          obtain ⟨-, rfl⟩ := h.separate.eq hr hs hproper.own hjs ht hp
          omega

end

end Inv

end Vmm
