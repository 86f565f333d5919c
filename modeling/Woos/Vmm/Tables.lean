import Woos.Lib.Paging
import Woos.Pmm.Ownership
import Woos.Vmm.Basic

/-!
# Page tables in memory

`Vmm.entries m` reads the page tables off the memory.  The lemmas of this file say what the writes of
`vmm.c` do to them, and what the page allocator hands out for a new table; `mapLevel_cases` is the
outcome of one level of `vmm_map_page`.
-/

namespace Vmm

open Paging

/-! ### Entries -/

/-- The address of a page. -/
def Aligned (p : UInt64) : Prop := p.toNat % 4096 = 0

instance (p : UInt64) : Decidable (Aligned p) := inferInstanceAs (Decidable (_ = _))

/-- The tables in a memory. -/
def entries (m : Memory) (p : UInt64) (i : Fin 512) : UInt64 := entry m p i

theorem entry_setEntry_self (m : Memory) (t : UInt64) (i : Nat) (e : UInt64) :
  entry (setEntry m t i e) t i = e
  := by
  rw [entry, setEntry, Memory.load_store_of_lt m _ e.toNat_lt, UInt64.ofNat_toNat]

theorem entry_setEntry_of_ne {t p : UInt64} {i j : Nat} (m : Memory) (e : UInt64) (ht : Aligned t)
    (hp : Aligned p) (hi : i < 512) (hj : j < 512) (hne : ¬ (p = t ∧ j = i)) :
  entry (setEntry m t i e) p j = entry m p j
  := by
  rw [entry, setEntry, Memory.load_store_disjoint]
  · rfl
  · by_cases hpt : p = t
    · have hji : j ≠ i := fun h => hne ⟨hpt, h⟩
      rw [hpt]
      omega
    · have hneq : p.toNat ≠ t.toNat := fun h => hpt (UInt64.toNat_inj.mp h)
      rw [Aligned] at ht hp
      omega

/-- An entry of a table is written. -/
theorem entries_setEntry {t p : UInt64} (m : Memory) (i j : Fin 512) (e : UInt64) (ht : Aligned t)
    (hp : Aligned p) :
  entries (setEntry m t i e) p j = if p = t ∧ j = i then e else entries m p j
  := by
  split
  case isTrue h =>
    rw [h.1, h.2]
    apply entry_setEntry_self
  case isFalse h =>
    apply entry_setEntry_of_ne m e ht hp i.isLt j.isLt
    rintro ⟨rfl, hji⟩
    exact h ⟨rfl, Fin.ext hji⟩

theorem entry_clearEntries {t p : UInt64} {n j : Nat} (m : Memory) (ht : Aligned t) (hp : Aligned p)
    (hn : n ≤ 512) (hj : j < 512) :
  entry (clearEntries m t n) p j = if p = t ∧ j < n then 0 else entry m p j
  := by
  induction n with
  | zero => simp [clearEntries]
  | succ n ih =>
      rw [clearEntries]
      by_cases hlast : p = t ∧ j = n
      · rw [hlast.1, hlast.2, entry_setEntry_self, if_pos ⟨rfl, Nat.lt_succ_self n⟩]
      · rw [entry_setEntry_of_ne _ _ ht hp (by omega) hj hlast, ih (by omega)]
        have hiff : (p = t ∧ j < n) ↔ (p = t ∧ j < n + 1) := by
          apply and_congr_right
          intro hpt
          have hjn : j ≠ n := fun h => hlast ⟨hpt, h⟩
          omega
        simp only [hiff]

/-- All entries of a table are cleared. -/
theorem entries_clear {t p : UInt64} (m : Memory) (j : Fin 512) (ht : Aligned t) (hp : Aligned p) :
  entries (clearEntries m t 512) p j = if p = t then 0 else entries m p j
  := by
  rw [entries, entry_clearEntries m ht hp (Nat.le_refl 512) j.isLt]
  simp only [j.isLt, and_true]
  rfl

/-- The first entries of a table are copied from another. -/
theorem entry_copyEntries {dst src p : UInt64} {n j : Nat} (m : Memory) (hdst : Aligned dst)
    (hsrc : Aligned src) (hne : src ≠ dst) (hp : Aligned p) (hn : n ≤ 512) (hj : j < 512) :
  entry (copyEntries m dst src n) p j = if p = dst ∧ j < n then entry m src j else entry m p j
  := by
  induction n generalizing p j with
  | zero => simp [copyEntries]
  | succ n ih =>
      rw [copyEntries]
      by_cases hlast : p = dst ∧ j = n
      · rw [hlast.1, hlast.2, entry_setEntry_self, if_pos ⟨rfl, Nat.lt_succ_self n⟩,
          ih hsrc (by omega) (by omega), if_neg (fun h => hne h.1)]
      · rw [entry_setEntry_of_ne _ _ hdst hp (by omega) hj hlast, ih hp (by omega) hj]
        have hiff : (p = dst ∧ j < n) ↔ (p = dst ∧ j < n + 1) := by
          apply and_congr_right
          intro hpt
          have hjn : j ≠ n := fun h => hlast ⟨hpt, h⟩
          omega
        simp only [hiff]

theorem tableIndex_eq (virt shift : UInt64) {k : Nat} (hshift : shift.toNat = 12 + 9 * k)
    (hk : k < 4) :
  tableIndex virt shift = index virt k
  := by
  have hmask : (0x1FF : UInt64).toNat = 2 ^ 9 - 1 := rfl
  have hsmall : (12 + 9 * k) % 64 = 12 + 9 * k := Nat.mod_eq_of_lt (by omega)
  rw [tableIndex, Word.toNat_and_mask _ _ hmask, UInt64.toNat_shiftRight, hshift, hsmall,
    Nat.shiftRight_eq_div_pow]
  rfl

/-! ### What is written -/

theorem pageMask : (0xFFF : UInt64).toNat = 2 ^ 12 - 1 := rfl

theorem addressMask :
  (0x000FFFFFFFFFF000 : UInt64) = ~~~0xFFF &&& 0x000FFFFFFFFFFFFF
  := by decide

theorem entryTable_aligned (e : UInt64) :
  Aligned (entryTable e)
  := by
  rw [Aligned, entryTable, Word.toNat_and_not_mask _ _ pageMask]
  omega

/-- The address of a page has no bits of an offset. -/
theorem Aligned.and_eq_zero {q c : UInt64} (hq : Aligned q) (hc : ~~~0xFFF &&& c = 0) :
  q &&& c = 0
  := by
  rw [← Word.and_not_mask_eq_self pageMask hq, UInt64.and_assoc, hc, UInt64.and_zero]

/-- The address of a page is that of an entry with bits of an offset besides. -/
theorem entryTable_or {q f : UInt64} (hq : Aligned q) (hf : f.toNat < 4096) :
  entryTable (q ||| f) = q
  := by
  rw [entryTable, Word.or_and, Word.and_not_mask_eq_self pageMask hq,
    Word.and_not_mask_eq_zero pageMask hf, UInt64.or_zero]

theorem frame_eq_entryTable {e : UInt64} (he : (entryTable e).toNat < 2 ^ 52) :
  frame e = entryTable e
  := by
  have hmask : (0x000FFFFFFFFFFFFF : UInt64).toNat = 2 ^ 52 - 1 := rfl
  rw [frame, addressMask, ← UInt64.and_assoc]
  exact Word.and_mask_eq_self hmask he

/-- The entry that `vmm_map_page` makes for a new table. -/
def newEntry (q flags : UInt64) : UInt64 :=
  q ||| pagePresent ||| pageWritable ||| (flags &&& pageUser)

theorem newEntry_bits (flags : UInt64) :
  (pagePresent ||| pageWritable ||| (flags &&& pageUser)).toNat < 4096
    ∧ (pagePresent ||| pageWritable ||| (flags &&& pageUser)) &&& 1 = 1
    ∧ (pagePresent ||| pageWritable ||| (flags &&& pageUser)) &&& 0x80 = 0
  := by
  have hand : flags &&& pageUser = 0 ∨ flags &&& pageUser = 4 := by
    have hbit : (flags &&& pageUser).toNat = (flags.toNat.testBit 2).toNat * 2 ^ 2 := by
      rw [UInt64.toNat_and]
      exact Nat.and_two_pow _ 2
    rw [← UInt64.toNat_inj, ← UInt64.toNat_inj, hbit]
    cases flags.toNat.testBit 2 with
    | false => left; rfl
    | true => right; rfl
  rcases hand with hand | hand
  · rw [hand]
    decide
  · rw [hand]
    decide

theorem newEntry_eq (q flags : UInt64) :
  newEntry q flags = q ||| (pagePresent ||| pageWritable ||| (flags &&& pageUser))
  := by
  rw [newEntry, UInt64.or_assoc, UInt64.or_assoc, UInt64.or_assoc]

theorem entryTable_newEntry {q : UInt64} (hq : Aligned q) (flags : UInt64) :
  entryTable (newEntry q flags) = q
  := by
  rw [newEntry_eq]
  exact entryTable_or hq (newEntry_bits flags).1

theorem present_newEntry {q : UInt64} (hq : Aligned q) (flags : UInt64) :
  present (newEntry q flags) = true
  := by
  rw [newEntry_eq, present, Word.or_and, (newEntry_bits flags).2.1, hq.and_eq_zero (by decide)]
  rfl

theorem large_newEntry {q : UInt64} (hq : Aligned q) (flags : UInt64) :
  large (newEntry q flags) = false
  := by
  rw [newEntry_eq, large, Word.or_and, (newEntry_bits flags).2.2, hq.and_eq_zero (by decide)]
  rfl

/-- The new entry points to the table. -/
theorem table_newEntry {q : UInt64} (hq : Aligned q) (hlt : q.toNat < 2 ^ 52) (flags : UInt64) :
  table (newEntry q flags) = some q
  := by
  have htable := entryTable_newEntry hq flags
  rw [table_of_present (present_newEntry hq flags) (large_newEntry hq flags), frame_eq_entryTable, htable]
  rw [htable]
  exact hlt

/-- Two entries that lead to the same table or page. -/
structure Alike (e e' : UInt64) : Prop where
  present : present e' = present e
  large : large e' = large e
  frame : frame e' = frame e
  entryTable : entryTable e' = entryTable e

theorem Alike.refl (e : UInt64) :
  Alike e e
  := ⟨rfl, rfl, rfl, rfl⟩

theorem Alike.table {e e' : UInt64} (h : Alike e e') :
  Paging.table e' = Paging.table e
  := by
  rw [Paging.table, Paging.table, h.present, h.large, h.frame]

theorem or_user_and (e : UInt64) {c : UInt64} (hc : pageUser &&& c = 0) :
  (e ||| pageUser) &&& c = e &&& c
  := by
  rw [Word.or_and, hc, UInt64.or_zero]

/-- Granting an entry to the user. -/
theorem alike_user (e : UInt64) :
  Alike e (e ||| pageUser)
  where
  present := by
    rw [Paging.present, or_user_and e (by decide), Paging.present]
  large := by
    rw [Paging.large, or_user_and e (by decide), Paging.large]
  frame := by
    rw [Paging.frame, or_user_and e (by decide), Paging.frame]
  entryTable := by
    rw [Vmm.entryTable, or_user_and e (by decide), Vmm.entryTable]

/-- The entry that `vmm_map_page` makes for a page. -/
def leafEntry (phys flags : UInt64) : UInt64 := (phys &&& ~~~0xFFF) ||| flags ||| pagePresent

theorem present_leafEntry (phys flags : UInt64) :
  present (leafEntry phys flags) = true
  := by
  have hone : (leafEntry phys flags) &&& 1 = ((phys &&& ~~~0xFFF ||| flags) &&& 1) ||| 1 := by
    rw [leafEntry, Word.or_and]
    rfl
  rw [present, hone, bne_iff_ne]
  intro hzero
  exact absurd (UInt64.or_eq_zero_iff.mp hzero).2 (by decide)

theorem entryTable_leafEntry (phys : UInt64) {flags : UInt64} (hflags : flags.toNat < 4096) :
  entryTable (leafEntry phys flags) = phys &&& ~~~0xFFF
  := by
  have hf : (flags ||| pagePresent).toNat < 4096 := by
    rw [UInt64.toNat_or]
    exact Nat.or_lt_two_pow (n := 12) hflags (by decide)
  rw [leafEntry, UInt64.or_assoc]
  exact entryTable_or (entryTable_aligned phys) hf

/-! ### Pages for tables -/

/-- The page is managed, and not in use. -/
def Free (pmm : Pmm) (p : UInt64) : Prop :=
  p.toNat / 4096 < Pmm.maxPages ∧ Pmm.bitmapTest pmm.bitmap (p.toNat / 4096) = false

/-- What the page allocator keeps to itself: its search starts at a managed page, and the page at
address 0 is never free. -/
structure AllocatorOk (pmm : Pmm) : Prop where
  search : pmm.lastSearchIdx ≤ Pmm.maxPages
  zero : Pmm.bitmapTest pmm.bitmap 0 = true

/-- A page that was free, and is handed out. -/
structure Takes (pmm pmm' : Pmm) (q : UInt64) : Prop where
  alloc : pmm.pmmAllocPage = (pmm', q)
  ne_zero : q ≠ 0
  aligned : Aligned q
  lt : q.toNat < 2 ^ 32
  free : Free pmm q
  rest : ∀ p, Aligned p → (Free pmm' p ↔ Free pmm p ∧ p ≠ q)
  ok : AllocatorOk pmm'

theorem page_inj {p q : UInt64} (hp : Aligned p) (hq : Aligned q)
    (h : p.toNat / 4096 = q.toNat / 4096) :
  p = q
  := by
  rw [← UInt64.toNat_inj]
  rw [Aligned] at hp hq
  omega

/-- The page allocator has no page, or hands one out. -/
theorem alloc_cases {pmm : Pmm} (h : AllocatorOk pmm) :
  pmm.pmmAllocPage = (pmm, 0) ∨ ∃ pmm' q, Takes pmm pmm' q
  := by
  rcases Pmm.Session.pmmAllocPage_grants h.search with hnone | ⟨i, haddr, hrow, hbits, hsearch⟩
  · exact Or.inl hnone
  · right
    obtain ⟨hi, hfree⟩ := hrow i ⟨Nat.le_refl i, Nat.lt_succ_self i⟩
    have hpos : i ≠ 0 := by
      rintro rfl
      rw [h.zero] at hfree
      cases hfree
    have hmax : Pmm.maxPages = 1048576 := rfl
    have hidx : (pmm.pmmAllocPage).2.toNat / 4096 = i := by omega
    have haligned : Aligned (pmm.pmmAllocPage).2 := by
      rw [Aligned]
      omega
    use (pmm.pmmAllocPage).1, (pmm.pmmAllocPage).2
    refine ⟨rfl, ?_, haligned, ?_, ?_, ?_, ⟨hsearch, ?_⟩⟩
    · intro hzero
      rw [hzero] at haddr
      apply hpos
      simpa using haddr
    · omega
    · rw [Free, hidx]
      exact ⟨hi, hfree⟩
    · intro p hp
      rw [Free, Free, hbits, Bool.or_eq_false_iff, decide_eq_false_iff_not]
      have hiff : Pmm.Session.InRow i 1 (p.toNat / 4096) ↔ p = (pmm.pmmAllocPage).2 := by
        rw [Pmm.Session.InRow]
        constructor
        · intro hrow
          apply page_inj hp haligned
          omega
        · rintro rfl
          omega
      rw [hiff]
      tauto
    · rw [hbits, h.zero, Bool.or_true]

/-- Freeing a page frees no other. -/
theorem pmmFreePage_free (image : KernelImage) {pmm : Pmm} (h : AllocatorOk pmm) {p : UInt64}
    (hp : Aligned p) :
  AllocatorOk (pmm.pmmFreePage image p)
    ∧ ∀ q, Aligned q → Free (pmm.pmmFreePage image p) q → Free pmm q ∨ q = p
  := by
  obtain ⟨hbits, hsearch⟩ := Pmm.Session.pmmFreePage_bits image p h.search
  constructor
  · use hsearch
    by_contra hnot
    rw [Bool.not_eq_true] at hnot
    rcases hbits 0 hnot with hfree | hrow
    · rw [h.zero] at hfree
      cases hfree
    · have hzero : p = 0 := by
        rw [← UInt64.toNat_inj]
        rw [Aligned] at hp
        rw [Pmm.Session.InRow] at hrow
        simp only [UInt64.toNat_zero]
        omega
      rw [hzero, Pmm.pmmFreePage, if_pos (Or.inr rfl), h.zero] at hnot
      cases hnot
  · rintro q hq ⟨hmanaged, hfree⟩
    rcases hbits _ hfree with hbefore | hrow
    · exact Or.inl ⟨hmanaged, hbefore⟩
    · right
      apply page_inj hq hp
      rw [Pmm.Session.InRow] at hrow
      omega

/-! ### Levels -/

/-- The table that the code goes on to from an entry. -/
def codeNext (m : Memory) (p : UInt64) (i : Fin 512) : Option UInt64 := lookupLevel m p i

theorem not_present_iff {m : Memory} {p : UInt64} {i : Fin 512} :
  entry m p i &&& pagePresent = 0 ↔ present (entries m p i) = false
  := by
  rw [present, bne_eq_false_iff_eq]
  rfl

/-- The walk of the code. -/
theorem pageTable_eq_node (m : Memory) (root virt : UInt64) :
  pageTable m root virt = Radix.node (codeNext m) root (path virt)
  := by
  simp only [pageTable, tableIndex_eq virt 39 rfl (by decide : 3 < 4),
    tableIndex_eq virt 30 rfl (by decide : 2 < 4), tableIndex_eq virt 21 rfl (by decide : 1 < 4),
    path, pathFrom, Radix.node, codeNext, Option.bind_eq_bind, Option.bind_fun_some]

/-- One level of `vmm_map_page` finds the entry absent and no page for a table, or makes a table, or
goes on to the table that is there. -/
theorem mapLevel_cases {m : Memory} {pmm : Pmm} (hpmm : AllocatorOk pmm) {t : UInt64} (ht : Aligned t)
    (i : Fin 512) (flags : UInt64) :
  (present (entries m t i) = false ∧ pmm.pmmAllocPage = (pmm, 0)
      ∧ mapLevel m pmm t i flags = (m, pmm, none))
    ∨ (present (entries m t i) = false ∧ ∃ pmm' q m', Takes pmm pmm' q
      ∧ mapLevel m pmm t i flags = (m', pmm', some q)
      ∧ ∀ p, Aligned p → ∀ j, entries m' p j
          = if p = t ∧ j = i then newEntry q flags else if p = q then 0 else entries m p j)
    ∨ (present (entries m t i) ∧ ∃ m' e, Alike (entries m t i) e
      ∧ mapLevel m pmm t i flags = (m', pmm, some (entryTable (entries m t i)))
      ∧ ∀ p, Aligned p → ∀ j, entries m' p j = if p = t ∧ j = i then e else entries m p j)
  := by
  cases hpresent : present (entries m t i) with
  | false =>
      have habsent := not_present_iff.mpr hpresent
      rcases alloc_cases hpmm with hnone | ⟨pmm', q, hq⟩
      · left
        refine ⟨rfl, hnone, ?_⟩
        rw [mapLevel, if_pos habsent, hnone]
        rfl
      · right
        left
        use rfl, pmm', q, setEntry (clearEntries m q 512) t i (newEntry q flags), hq
        constructor
        · rw [mapLevel, if_pos habsent, hq.alloc]
          simp only [if_neg hq.ne_zero]
          have hread := entry_setEntry_self (clearEntries m q 512) t i (newEntry q flags)
          rw [newEntry] at hread
          rw [hread]
          have htable := entryTable_newEntry hq.aligned flags
          rw [newEntry] at htable
          rw [htable]
          rfl
        · intro p hp j
          rw [entries_setEntry _ _ _ _ ht hp, entries_clear _ _ hq.aligned hp]
  | true =>
      right
      right
      have hthere : ¬ entry m t i &&& pagePresent = 0 := by
        rw [not_present_iff, hpresent]
        decide
      use rfl
      by_cases huser : flags &&& pageUser ≠ 0
      · use setEntry m t i (entry m t i ||| pageUser), entries m t i ||| pageUser, alike_user _
        constructor
        · rw [mapLevel, if_neg hthere]
          simp only [if_pos huser, entry_setEntry_self]
          rw [(alike_user (entry m t i)).entryTable]
          rfl
        · intro p hp j
          apply entries_setEntry _ _ _ _ ht hp
      · use m, entries m t i, Alike.refl _
        constructor
        · rw [mapLevel, if_neg hthere]
          simp only [if_neg huser]
          rfl
        · intro p _ j
          split
          case isTrue h => rw [h.1, h.2]
          case isFalse => rfl

end Vmm
