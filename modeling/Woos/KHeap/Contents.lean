import Woos.KHeap.Sizes

/-!
# Contents of reallocated payloads

What `kheap_realloc` does to the bytes of the payload it is called on, and to the payloads of
others.  `contents_kept` says that it returns a payload that is large enough and begins with the
old bytes, or fails and leaves the old payload as it is, or frees it when the size is zero.
-/

namespace KHeap

/-- The payload at `p` is in use with the same size and the same bytes as before. -/
def Intact (h h' : KHeap) (p : UInt64) : Prop :=
  PayloadAt h' p (currentPayload h p).toNat
    ∧ ∀ i < (currentPayload h p).toNat, h'.mem (p.toNat + i) = h.mem (p.toNat + i)

/-- The payload at `r` has room for `size` bytes, and begins with those of the one at `ptr`. -/
def Carried (h h' : KHeap) (ptr r size : UInt64) : Prop :=
  (∃ q, PayloadAt h' r q ∧ size.toNat ≤ q)
    ∧ ∀ i < min (currentPayload h ptr).toNat size.toNat,
        h'.mem (r.toNat + i) = h.mem (ptr.toNat + i)

theorem Live.intact {h h' : KHeap} {L L' : List (Nat × Nat)} {p : UInt64} {q : Nat}
    (hl : Live h L) (hl' : Live h' L') (hp : (p.toNat, q) ∈ L) (hp' : (p.toNat, q) ∈ L')
    (hbytes : ∀ i < q, h'.mem (p.toNat + i) = h.mem (p.toNat + i)) :
  Intact h h' p
  := by
  rw [Intact, hl.currentPayload hp]
  exact ⟨hl'.payloadAt_iff.mpr hp', hbytes⟩

namespace Session

/-- The payloads that are held other than the one at `ptr` are intact in `h'`. -/
def OthersIntact (s : Session) (ptr : UInt64) (h' : KHeap) : Prop :=
  ∀ p ∈ s.live, p ≠ ptr → Intact s.heap h' p

/-- A reallocation returns a payload with the old bytes, or fails for a size that is not zero and
leaves the old one. -/
def ReallocKeeps (s : Session) (ptr size : UInt64) : Prop :=
  ∃ h' r, kheapRealloc s.heap ptr size = some (h', r) ∧ s.OthersIntact ptr h'
    ∧ ((r ≠ 0 ∧ Carried s.heap h' ptr r size) ∨ (r = 0 ∧ size ≠ 0 ∧ Intact s.heap h' ptr))

/-- A reallocation to size zero returns nothing and frees the payload. -/
def ReallocFrees (s : Session) (ptr : UInt64) : Prop :=
  ∃ h', kheapRealloc s.heap ptr 0 = some (h', 0) ∧ s.OthersIntact ptr h'
    ∧ ∀ q, ¬ PayloadAt h' ptr q

section

variable {s : Session} {L : List (Nat × Nat)}

/-- Payloads that a call keeps are intact. -/
theorem othersIntact (hl : Live s.heap L) (hperm : (s.live.map UInt64.toNat).Perm (L.map Prod.fst))
    {ptr : UInt64} {h' : KHeap} {L' : List (Nat × Nat)} (hl' : Live h' L')
    (hsubset : ∀ x ∈ without ptr.toNat L, x ∈ L') (hkeeps : Keeps (without ptr.toNat L) s.heap h') :
  s.OthersIntact ptr h'
  := by
  intro p hp hne
  obtain ⟨q, hq⟩ := exists_of_mem hperm hp
  have hother : (p.toNat, q) ∈ without ptr.toNat L := by
    apply mem_without.mpr
    exact ⟨hq, fun heq => hne (UInt64.toNat_inj.mp heq)⟩
  apply hl.intact hl' hq (hsubset _ hother)
  intro i hi
  apply hkeeps _ hother
  · apply Nat.le_add_right
  · exact Nat.add_lt_add_left hi _

theorem othersIntact_self (hl : Live s.heap L)
    (hperm : (s.live.map UInt64.toNat).Perm (L.map Prod.fst)) (ptr : UInt64) :
  s.OthersIntact ptr s.heap
  := by
  apply othersIntact hl hperm hl
  · exact fun x hx => (mem_without.mp hx).1
  · exact fun _ _ _ _ _ => rfl

theorem reallocFrees (hl : Live s.heap L)
    (hperm : (s.live.map UInt64.toNat).Perm (L.map Prod.fst)) {ptr : UInt64} (hptr : ptr ∈ s.live) :
  s.ReallocFrees ptr
  := by
  obtain ⟨q, hq⟩ := exists_of_mem hperm hptr
  obtain ⟨h', hrealloc, hl', hkeeps⟩ := kheapRealloc_zero hl hq
  use h', hrealloc, othersIntact hl hperm hl' (fun _ hx => hx) hkeeps
  intro q' hpayload
  exact (mem_without.mp (hl'.payloadAt_iff.mp hpayload)).2 rfl

theorem reallocKeeps (hl : Live s.heap L)
    (hperm : (s.live.map UInt64.toNat).Perm (L.map Prod.fst)) {ptr size : UInt64}
    (hptr : ptr ∈ s.live) (hne : size ≠ 0) (hsize : size.toNat ≤ 2 ^ 64 - 16) :
  s.ReallocKeeps ptr size
  := by
  obtain ⟨q, hq⟩ := exists_of_mem hperm hptr
  have hpayload := hl.currentPayload hq
  have hno : NoOverrun s.heap ptr size := fun hlarge => absurd hlarge (not_lt.mpr hsize)
  rcases kheapRealloc_live hl hq hne hno with
    ⟨hfits, hrealloc⟩ | ⟨-, -, hrealloc⟩
      | ⟨hlarger, -, h', r, q', hrealloc, hr, hle, -, hl', hkeeps, hbytes⟩
  · use s.heap, ptr, hrealloc, othersIntact_self hl hperm ptr
    left
    use hl.ne_zero hq
    exact ⟨⟨q, hl.payloadAt_iff.mpr hq, hfits⟩, fun _ _ => rfl⟩
  · use s.heap, 0, hrealloc, othersIntact_self hl hperm ptr
    right
    use rfl, hne
    exact hl.intact hl hq hq (fun _ _ => rfl)
  · use h', r, hrealloc
    constructor
    · exact othersIntact hl hperm hl' (fun _ hx => List.mem_cons_of_mem _ hx) hkeeps
    · left
      use hr
      constructor
      · exact ⟨q', hl'.payloadAt_iff.mpr List.mem_cons_self, (le_alignUp hsize).trans hle⟩
      · intro i hi
        have hlive : i < q := by
          rw [hpayload] at hi
          omega
        exact hbytes i hlive

end

/-- In every heap that a run reaches in which no reallocation overruns, a call of `kheap_realloc` on
a payload that is held, of a size that can be rounded up in a word, keeps the contents; with size
zero it frees the payload. -/
theorem contents_kept (m : Memory) (calls : List Call)
    (h : Run.Guarded call (fun s c => s.Permitted c ∧ s.DoesNotOverrun c) (init m) calls) :
  ∃ s, Run.exec call (init m) calls = some s ∧ ∀ ptr ∈ s.live,
    s.ReallocFrees ptr
      ∧ ∀ size : UInt64, size ≠ 0 → size.toNat ≤ 2 ^ 64 - 16 → s.ReallocKeeps ptr size
  := by
  obtain ⟨s, hrun, L, hl, hperm⟩ := exec_holds m h
  rw [List.append_nil] at hl
  use s, hrun
  intro ptr hptr
  use reallocFrees hl hperm hptr
  intro size hne hsize
  apply reallocKeeps hl hperm hptr hne hsize

/-- The case of two allocations. -/
theorem contents_kept_two :
  ∃ s, Run.exec call (init (fun _ => 0)) [.alloc 16, .alloc 100] = some s ∧ ∀ ptr ∈ s.live,
    s.ReallocFrees ptr
      ∧ ∀ size : UInt64, size ≠ 0 → size.toNat ≤ 2 ^ 64 - 16 → s.ReallocKeeps ptr size
  := by
  apply contents_kept
  exact ⟨⟨trivial, trivial⟩, fun _ _ => ⟨⟨trivial, trivial⟩, fun _ _ => trivial⟩⟩

/-- A reallocation to size zero returns nothing, and so neither keeps the payload. -/
theorem not_contents_kept_zero :
  ¬ ∀ (m : Memory) (calls : List Call),
    Run.Guarded call (fun s c => s.Permitted c ∧ s.DoesNotOverrun c) (init m) calls →
      ∃ s, Run.exec call (init m) calls = some s
        ∧ ∀ ptr ∈ s.live, ∀ size : UInt64, s.ReallocKeeps ptr size
  := by
  intro hkept
  have halloc : (Run.exec call (init (fun _ => 0)) [.alloc 16]).map
      (fun s => (s.live, (kheapRealloc s.heap 0x2000020 0).map Prod.snd))
        = some ([0x2000020], some 0) := by
    decide +kernel
  obtain ⟨s, hs, hptr⟩ := hkept (fun _ => 0) [.alloc 16] ⟨⟨trivial, trivial⟩, fun _ _ => trivial⟩
  rw [hs, Option.map_some, Option.some.injEq, Prod.mk.injEq] at halloc
  obtain ⟨hlive, hrealloc⟩ := halloc
  have hmem : 0x2000020 ∈ s.live := by
    rw [hlive]
    apply List.mem_singleton_self
  obtain ⟨h', r, hcall, -, hcases⟩ := hptr 0x2000020 hmem 0
  rw [hcall, Option.map_some, Option.some.injEq] at hrealloc
  rcases hcases with ⟨hr, -⟩ | ⟨-, hzero, -⟩
  · exact hr hrealloc
  · exact hzero rfl

end Session

end KHeap
