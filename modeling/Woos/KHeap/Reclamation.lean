import Woos.KHeap.Session

/-!
# Reclamation of the kernel heap

When all allocations are freed, in whatever order, the heap is one free block again:
neighbouring free blocks are always joined, so without a block in use only one is left.
-/

namespace KHeap

open Arena

/-- One free block spans the arena and nothing is in use, as `kheap_init` leaves it. -/
structure Whole (h : KHeap) : Prop where
  head : h.head = base
  size : blockSize h.mem base = arenaSize
  next : blockNext h.mem base = 0
  free : blockUsed h.mem base = 0
  used : h.used = 0

/-- Without a payload in use, neighbours that are not both free are a single block. -/
theorem length_le_one {bs : List Block} (hsep : bs.IsChain Separate) (hfree : arena.payloads bs = []) :
  bs.length ≤ 1
  := by
  match bs with
  | [] => exact Nat.zero_le 1
  | [_] => exact Nat.le_refl 1
  | b :: c :: bs =>
      rw [payloads_cons, payloads_cons] at hfree
      rcases (List.isChain_cons_cons.mp hsep).1 with hb | hc
      · rw [if_pos hb] at hfree
        cases hfree
      · rw [if_pos hc] at hfree
        split at hfree
        · cases hfree
        · cases hfree

/-- A heap without live allocations. -/
theorem Live.whole {h : KHeap} (hl : Live h []) :
  Whole h
  := by
  obtain ⟨bs, hr, hperm⟩ := hl
  have hfree : arena.payloads bs = [] := List.nil_perm.mp hperm
  have hlen := length_le_one hr.tiling.separate hfree
  match bs with
  | [] =>
      have hempty : start = stop := hr.tiling.tiles
      cases hempty
  | [b] =>
      obtain ⟨haddr, hend⟩ := hr.tiling.tiles
      have hsize : start + b.size = stop := hend
      have hheader : HeaderAt h.mem b 0 := hr.linked.1
      have hbase : base.toNat = b.addr := haddr.symm
      have hnotUsed : b.used = false := by
        rw [payloads_cons] at hfree
        rw [← Bool.not_eq_true]
        intro hused
        rw [if_pos hused] at hfree
        cases hfree
      constructor
      · exact hr.head
      · rw [← UInt64.toNat_inj, hheader.blockSize hbase]
        have hstart : start = 33554432 := rfl
        have hstop : stop = 167772160 := rfl
        have harena : arenaSize.toNat = 134217728 := rfl
        omega
      · rw [← UInt64.toNat_inj, hheader.blockNext hbase]
        rfl
      · exact (hheader.blockUsed hbase).mpr hnotUsed
      · rw [← UInt64.toNat_inj, hr.used, hfree]
        rfl
  | _ :: _ :: _ =>
      simp only [List.length_cons] at hlen
      omega

theorem kheapInit_whole (m : Memory) :
  Whole (kheapInit m)
  := (kheapInit_live m).whole

namespace Session

/-- The allocations are freed one after the other. -/
theorem free_all {s : Session} (hs : s.Holds []) {ps : List UInt64} (hperm : ps.Perm s.live) :
  ∃ s', Run.exec call s (ps.map .free) = some s' ∧ s'.Holds [] ∧ s'.live = []
  := by
  induction ps generalizing s with
  | nil => exact ⟨s, rfl, hs, List.nil_perm.mp hperm⟩
  | cons p ps ih =>
      obtain ⟨s₁, hfree, hs₁⟩ := call_holds (c := .free p) hs trivial trivial (avoids_nil _)
      have hlive : s₁.live = s.live.erase p := by
        obtain ⟨h, -, heq⟩ := Option.bind_eq_some_iff.mp hfree
        cases heq
        rfl
      have hrest : ps.Perm s₁.live := by
        rw [hlive]
        exact (List.cons_perm_iff_perm_erase.mp hperm).2
      obtain ⟨s', hrun, hs', hempty⟩ := ih hs₁ hrest
      use s'
      rw [List.map_cons, Run.exec_cons _ hfree]
      exact ⟨hrun, hs', hempty⟩

/-- After every run in which no reallocation overruns its new payload, freeing all that is held, in any
order, makes the heap whole. -/
theorem heap_reclaimed
    (m : Memory) (calls : List Call)
    (h : Run.Guarded call (fun s c => s.Permitted c ∧ s.DoesNotOverrun c) (init m) calls) :
  ∃ s, Run.exec call (init m) calls = some s
    ∧ ∀ ps : List UInt64, ps.Perm s.live → ∃ s', Run.exec call s (ps.map .free) = some s' ∧ s'.live = []
      ∧ Whole s'.heap
  := by
  obtain ⟨s, hrun, hs⟩ := exec_holds m h
  use s, hrun
  intro ps hperm
  obtain ⟨s', hrun', ⟨L, hl, hlive⟩, hempty⟩ := free_all hs hperm
  use s', hrun', hempty
  rw [hempty, List.map_nil] at hlive
  have hnil : L = [] := List.map_eq_nil_iff.mp (List.nil_perm.mp hlive)
  rw [hnil] at hl
  exact hl.whole

/-- Two blocks are allocated, in both ways. -/
theorem heap_reclaimed_two :
  ∃ s, Run.exec call (init (fun _ => 0)) [.alloc 16, .realloc 0 40] = some s
    ∧ ∀ ps : List UInt64, ps.Perm s.live → ∃ s', Run.exec call s (ps.map .free) = some s' ∧ s'.live = []
      ∧ Whole s'.heap
  := heap_reclaimed (fun _ => 0) [.alloc 16, .realloc 0 40]
    ⟨⟨trivial, trivial⟩, fun _ _ => ⟨⟨Or.inl rfl, Or.inl rfl⟩, fun _ _ => trivial⟩⟩

/-- After `overrun` one block is held; it is freed, and the free block that is left does not span the
arena. -/
theorem not_reclaimed_after_overrun :
  Run.Guarded call Permitted (init (fun _ => 0)) overrun
    ∧ ∃ s, Run.exec call (init (fun _ => 0)) overrun = some s ∧ s.live = [0x2000050]
      ∧ ∃ s', Run.exec call s [.free 0x2000050] = some s' ∧ ¬ Whole s'.heap
  := by
  have halloc : (call (init (fun _ => 0)) (.alloc 16)).map live = some [0x2000020] := by
    decide +kernel
  have hrun : (Run.exec call (init (fun _ => 0)) overrun).map live = some [0x2000050] := by
    decide +kernel
  have hfreed : ((Run.exec call (init (fun _ => 0)) overrun).bind (fun s =>
      Run.exec call s [.free 0x2000050])).map (fun s => blockSize s.heap.mem base) = some 0x50 := by
    decide +kernel
  constructor
  · use trivial
    intro s hs
    rw [hs, Option.map_some, Option.some_inj] at halloc
    constructor
    · right
      rw [halloc]
      apply List.mem_singleton_self
    · intros
      trivial
  · obtain ⟨s, hs, hlive⟩ := Option.map_eq_some_iff.mp hrun
    rw [hs, Option.bind_some] at hfreed
    obtain ⟨s', hs', hsize⟩ := Option.map_eq_some_iff.mp hfreed
    use s, hs, hlive, s', hs'
    intro hwhole
    rw [hwhole.size] at hsize
    exact absurd hsize (by decide)

end Session

end KHeap
