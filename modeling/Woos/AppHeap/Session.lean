import Woos.AppHeap.Live
import Woos.Lib.Run

/-!
# Runs of the allocator of an application

A `Session` is the heap together with the pointers that the application holds, each with the number of
bytes that it asked for.  Its steps are the calls of the allocator, and writes into the blocks held.

`heap_sound` says what holds after every run whose requests can be aligned in 32 bits.
-/

namespace AppHeap

open Arena Layout

/-- The heap, and the pointers held with the sizes that were asked for. -/
structure Session where
  heap : AppHeap
  live : List (Nat × Nat)

/-- A call of the allocator, or a write of a byte. -/
inductive Call where
  | malloc (size : UInt32)
  | calloc (nmemb size : UInt32)
  | realloc (ptr : Nat) (size : UInt32)
  | free (ptr : Nat)
  | write (addr : Nat) (value : UInt8)

namespace Session

/-- The session of an application that has just been started. -/
def init (m : Memory) : Session := ⟨⟨m, 0⟩, []⟩

/-- The pointers held without `ptr`. -/
def drop (live : List (Nat × Nat)) (ptr : Nat) : List (Nat × Nat) :=
  live.eraseP (fun x => x.1 = ptr)

/-- Execute a call. -/
def call (g : Base) (s : Session) : Call → Option Session
  | .malloc size => do
      let (h, p) ← woosMalloc g s.heap size
      some ⟨h, if p = 0 then s.live else (p, size.toNat) :: s.live⟩
  | .calloc nmemb size => do
      let (h, p) ← woosCalloc g s.heap nmemb size
      some ⟨h, if p = 0 then s.live else (p, nmemb.toNat * size.toNat) :: s.live⟩
  | .realloc ptr size => do
      let (h, p) ← woosRealloc g s.heap ptr size
      some ⟨h, if p ≠ 0 then (p, size.toNat) :: drop s.live ptr
        else if size = 0 then drop s.live ptr else s.live⟩
  | .free ptr => do
      let h ← woosFree s.heap ptr
      some ⟨h, drop s.live ptr⟩
  | .write addr value =>
      some { s with heap := { s.heap with mem := Function.update s.heap.mem addr value } }

/-- The pointer is null or held. -/
def Held (s : Session) (ptr : Nat) : Prop := ptr = 0 ∨ ∃ n, (ptr, n) ∈ s.live

/-- Anything may be requested, but only null and held pointers are freed and reallocated, and only bytes
that were asked for are written. -/
def Permitted (s : Session) : Call → Prop
  | .malloc _ => True
  | .calloc _ _ => True
  | .realloc ptr _ => s.Held ptr
  | .free ptr => s.Held ptr
  | .write addr _ => ∃ x ∈ s.live, x.1 ≤ addr ∧ addr < x.1 + x.2

/-- The request of the call can be aligned in 32 bits, or it is not met. -/
def Representable (g : Base) (s : Session) : Call → Prop
  | .malloc size => Fits g s.heap size
  | .calloc nmemb size => FitsAll g s.heap nmemb size
  | .realloc _ size => Fits g s.heap size
  | _ => True

/-- The blocks `bs` are linked in memory and tile the heap in the order of their addresses.  The pointers
held are their payloads in use, of at least the sizes that were asked for, disjoint, and inside the heap. -/
structure Consistent (g : Base) (s : Session) (bs : List Block) : Prop where
  linked : wasmBlock.Linked s.heap.mem bs
  head : s.heap.head = firstAddr bs
  tiles : Tiles g.addr (g.addr + heapSize) bs
  header : ∀ b ∈ bs, 16 ≤ b.size
  live : (s.live.map Prod.fst).Perm ((bs.filter Block.used).map wasmBlock.payloadAddr)
  size : ∀ x ∈ s.live, x.2 ≤ oldPayload s.heap x.1
  inside : ∀ x ∈ s.live,
    g.addr ≤ x.1 ∧ x.1 + oldPayload s.heap x.1 ≤ g.addr + heapSize
  disjoint : s.live.Pairwise (fun x y =>
    x.1 + oldPayload s.heap x.1 ≤ y.1 ∨ y.1 + oldPayload s.heap y.1 ≤ x.1)

/-- Nothing has been allocated yet, or the session is consistent. -/
def Sound (g : Base) (s : Session) : Prop :=
  (s.heap.head = 0 ∧ s.live = []) ∨ ∃ bs, s.Consistent g bs

/-- A reallocation that succeeds keeps the bytes that fit into both payloads, and one that fails all of
them. -/
def ReallocKeeps (g : Base) (s : Session) (ptr : Nat) (size : UInt32) : Prop :=
  ∃ h p, woosRealloc g s.heap ptr size = some (h, p)
    ∧ (p ≠ 0 → ∀ i < oldPayload s.heap ptr, i < size.toNat →
        h.mem (p + i) = s.heap.mem (ptr + i))
    ∧ (p = 0 → size ≠ 0 → ∀ i < oldPayload s.heap ptr, h.mem (ptr + i) = s.heap.mem (ptr + i))

/-! ### One call -/

/-- A live payload provides what was asked for. -/
def Covers (x y : Nat × Nat) : Prop := x.1 = y.1 ∧ x.2 ≤ y.2

/-- The pointers held are the live payloads. -/
def Owned (g : Base) (s : Session) : Prop :=
  ∃ L, Ready g s.heap L ∧ List.Forall₂ Covers s.live L

variable {g : Base} {s : Session}

theorem init_owned (m : Memory) :
  (init m).Owned g
  := ⟨[], Or.inl ⟨rfl, rfl⟩, List.Forall₂.nil⟩

theorem drop_cons (x : Nat × Nat) (N : List (Nat × Nat)) (ptr : Nat) :
  drop (x :: N) ptr = if x.1 = ptr then N else x :: drop N ptr
  := by
  rw [drop, List.eraseP_cons]
  by_cases hx : x.1 = ptr
  · rw [if_pos hx, decide_eq_true hx]
    rfl
  · rw [if_neg hx, decide_eq_false hx]
    rfl

/-- The payload of a pointer that is dropped, and those of the others. -/
theorem covers_drop {N L : List (Nat × Nat)} (hcovers : List.Forall₂ Covers N L) {p n : Nat}
    (hp : (p, n) ∈ N) :
  ∃ q L', L.Perm ((p, q) :: L') ∧ List.Forall₂ Covers (drop N p) L'
  := by
  induction hcovers with
  | nil => cases hp
  | @cons x y N L hxy hrest ih =>
      rw [drop_cons]
      by_cases hx : x.1 = p
      · have hy : y = (p, y.2) := by rw [← hx, hxy.1]
        refine ⟨y.2, L, ?_, ?_⟩
        · rw [← hy]
        · rw [if_pos hx]
          exact hrest
      · have hmem : (p, n) ∈ N := by
          rcases List.mem_cons.mp hp with rfl | hmem
          · exact absurd rfl hx
          · exact hmem
        obtain ⟨q, L', hperm, hcovers'⟩ := ih hmem
        refine ⟨q, y :: L', ?_, ?_⟩
        · exact (hperm.cons y).trans (List.Perm.swap ..)
        · rw [if_neg hx]
          exact List.Forall₂.cons hxy hcovers'

/-- A pointer that is held has a live payload. -/
theorem Owned.pick (hs : s.Owned g) {p n : Nat} (hp : (p, n) ∈ s.live) :
  ∃ q L F, Live g s.heap ((p, q) :: L) ∧ List.Forall₂ Covers (drop s.live p) L
    ∧ List.Forall₂ Covers s.live F ∧ F.Perm ((p, q) :: L)
  := by
  obtain ⟨F, hr, hcovers⟩ := hs
  obtain ⟨q, L, hperm, hcovers'⟩ := covers_drop hcovers hp
  rcases hr with ⟨-, rfl⟩ | hl
  · exact absurd hperm.length_eq (by simp)
  · exact ⟨q, L, F, hl.congr hperm.symm, hcovers', hcovers, hperm⟩

/-- The payload of a pointer that is held has the bytes that were asked for. -/
theorem covers_mem {N L : List (Nat × Nat)} (hcovers : List.Forall₂ Covers N L) {x : Nat × Nat}
    (hx : x ∈ N) :
  ∃ q, (x.1, q) ∈ L ∧ x.2 ≤ q
  := by
  induction hcovers with
  | nil => cases hx
  | @cons z y N L hzy _ ih =>
      rcases List.mem_cons.mp hx with rfl | hx
      · refine ⟨y.2, ?_, hzy.2⟩
        rw [hzy.1]
        exact List.mem_cons_self
      · obtain ⟨q, hq, hle⟩ := ih hx
        exact ⟨q, List.mem_cons_of_mem _ hq, hle⟩

theorem covers_fst {N L : List (Nat × Nat)} (hcovers : List.Forall₂ Covers N L) :
  N.map Prod.fst = L.map Prod.fst
  := by
  induction hcovers with
  | nil => rfl
  | cons hxy _ ih => rw [List.map_cons, List.map_cons, hxy.1, ih]

theorem drop_zero (hs : s.Owned g) :
  drop s.live 0 = s.live
  := by
  obtain ⟨L, hr, hcovers⟩ := hs
  apply List.eraseP_of_forall_not
  intro x hx
  simp only [decide_eq_true_eq]
  intro hzero
  have hmem : x.1 ∈ L.map Prod.fst := by
    rw [← covers_fst hcovers]
    exact List.mem_map_of_mem hx
  obtain ⟨y, hy, heq⟩ := List.mem_map.mp hmem
  rcases hr with ⟨-, rfl⟩ | hl
  · cases hy
  · have hbounds := hl.bounds hy
    omega

/-- What a request leaves. -/
theorem Granted.owned {h : AppHeap} {L : List (Nat × Nat)} {p size : Nat}
    (hcovers : List.Forall₂ Covers s.live L) (h' : Granted g L size s.heap h p) :
  Owned g ⟨h, if p = 0 then s.live else (p, size) :: s.live⟩
  := by
  obtain ⟨-, ⟨hp, hr⟩ | ⟨hp, q, hq, hl⟩⟩ := h'
  · rw [if_pos hp]
    exact ⟨L, hr, hcovers⟩
  · rw [if_neg hp]
    exact ⟨_, Or.inr hl, List.Forall₂.cons ⟨rfl, hq⟩ hcovers⟩

theorem malloc_owned {size : UInt32} (hs : s.Owned g) (hfits : Fits g s.heap size) :
  ∃ h p, woosMalloc g s.heap size = some (h, p)
    ∧ Owned g ⟨h, if p = 0 then s.live else (p, size.toNat) :: s.live⟩
  := by
  obtain ⟨L, hr, hcovers⟩ := hs
  obtain ⟨h, p, hmalloc, hgranted⟩ := woosMalloc_live hr hfits
  exact ⟨h, p, hmalloc, Granted.owned hcovers hgranted⟩

theorem free_owned {ptr : Nat} (hs : s.Owned g) (hheld : s.Held ptr) :
  ∃ h, woosFree s.heap ptr = some h ∧ Owned g ⟨h, drop s.live ptr⟩
  := by
  rcases hheld with rfl | ⟨n, hptr⟩
  · refine ⟨s.heap, ?_, ?_⟩
    · rw [woosFree, if_pos rfl]
    · rw [drop_zero hs]
      exact hs
  · obtain ⟨q, L, -, hl, hcovers, -⟩ := hs.pick hptr
    obtain ⟨h, hfree, hl', -⟩ := woosFree_live hl
    exact ⟨h, hfree, L, Or.inr hl', hcovers⟩

/-- A call whose request can be represented has a result, after which the pointers held are the live
payloads. -/
theorem call_owned {c : Call} (hs : s.Owned g) (hpermitted : s.Permitted c)
    (hfits : s.Representable g c) :
  ∃ s', s.call g c = some s' ∧ s'.Owned g
  := by
  cases c with
  | malloc size =>
      obtain ⟨h, p, hmalloc, howned⟩ := malloc_owned hs hfits
      refine ⟨_, ?_, howned⟩
      rw [call, hmalloc]
      rfl
  | calloc nmemb size =>
      obtain ⟨L, hr, hcovers⟩ := hs
      obtain ⟨h, p, hcalloc, hgranted⟩ := woosCalloc_live hr hfits
      refine ⟨_, ?_, Granted.owned hcovers hgranted⟩
      rw [call, hcalloc]
      rfl
  | free ptr =>
      obtain ⟨h, hfree, howned⟩ := free_owned hs hpermitted
      refine ⟨_, ?_, howned⟩
      rw [call, hfree]
      rfl
  | realloc ptr size =>
      by_cases hptr : ptr = 0
      · obtain ⟨h, p, hmalloc, howned⟩ := malloc_owned hs hfits
        refine ⟨_, ?_, howned⟩
        rw [call, woosRealloc, if_pos hptr, hmalloc, Option.bind_eq_bind, Option.bind_some, hptr,
          drop_zero hs]
        dsimp only
        rw [ite_not, ite_self]
      obtain ⟨n, hmem⟩ := hpermitted.resolve_left hptr
      by_cases hsize : size = 0
      · obtain ⟨h, hfree, howned⟩ := free_owned hs hpermitted
        refine ⟨_, ?_, howned⟩
        rw [call, woosRealloc, if_neg hptr, if_pos hsize, hfree, Option.map_some,
          Option.bind_eq_bind, Option.bind_some]
        dsimp only
        rw [if_neg (not_not.mpr rfl), if_pos hsize]
      obtain ⟨q, L, F, hl, hcovers, hcovers', hperm⟩ := hs.pick hmem
      obtain ⟨h, p, hrealloc, -, ⟨hp, hl', -⟩ | ⟨hp, q', hq', hl', -⟩⟩ :=
        woosRealloc_live hl hsize hfits
      · refine ⟨⟨h, s.live⟩, ?_, F, Or.inr (hl'.congr hperm), hcovers'⟩
        rw [call, hrealloc, Option.bind_eq_bind, Option.bind_some]
        dsimp only
        rw [if_neg (not_not.mpr hp), if_neg hsize]
      · refine ⟨⟨h, (p, size.toNat) :: drop s.live ptr⟩, ?_, (p, q') :: L, Or.inr hl',
          List.Forall₂.cons ⟨rfl, hq'⟩ hcovers⟩
        rw [call, hrealloc, Option.bind_eq_bind, Option.bind_some]
        dsimp only
        rw [if_pos hp]
  | write addr value =>
      obtain ⟨x, hx, hle, hlt⟩ := hpermitted
      obtain ⟨L, hr, hcovers⟩ := hs
      obtain ⟨q, hq, hsize⟩ := covers_mem hcovers hx
      have hl : Live g s.heap L := by
        rcases hr with ⟨-, rfl⟩ | hl
        · cases hq
        · exact hl
      refine ⟨_, rfl, L, Or.inr (hl.write hq ?_), hcovers⟩
      intro y hy
      exact Function.update_of_ne (by omega) ..

/-! ### Consistency -/

theorem covers_eq_map {N L : List (Nat × Nat)} {h : AppHeap} (hcovers : List.Forall₂ Covers N L)
    (hsize : ∀ y ∈ L, oldPayload h y.1 = y.2) :
  L = N.map (fun x => (x.1, oldPayload h x.1))
  := by
  induction hcovers with
  | nil => rfl
  | @cons x y N L hxy _ ih =>
      have hy : y = (x.1, oldPayload h x.1) := by
        rw [hxy.1, hsize y List.mem_cons_self]
      rw [List.map_cons, ← ih (fun z hz => hsize z (List.mem_cons_of_mem _ hz)), ← hy]

theorem Owned.sound (hs : s.Owned g) :
  s.Sound g
  := by
  obtain ⟨L, ⟨hhead, rfl⟩ | hl, hcovers⟩ := hs
  · left
    exact ⟨hhead, List.forall₂_nil_right_iff.mp hcovers⟩
  · right
    have hsize : ∀ y ∈ L, oldPayload s.heap y.1 = y.2 := fun y hy => hl.oldPayload hy
    have hmap := covers_eq_map hcovers hsize
    have hpairwise := hl.pairwise
    rw [hmap, List.pairwise_map] at hpairwise
    obtain ⟨bs, hlinked, hhead, htiling, hperm⟩ := hl
    refine ⟨bs, hlinked, hhead.trans (head_eq htiling), htiling.tiles,
      fun b hb => (htiling.wellSized b hb).1, ?_, ?_, ?_, ?_⟩
    · rw [covers_fst hcovers]
      apply (hperm.map Prod.fst).trans
      rw [payloads, List.map_map]
      rfl
    · intro x hx
      obtain ⟨q, hq, hle⟩ := covers_mem hcovers hx
      rw [hsize _ hq]
      exact hle
    · intro x hx
      obtain ⟨q, hq, -⟩ := covers_mem hcovers hx
      have hbounds := htiling.payload_bounds (hperm.subset hq)
      rw [hsize _ hq]
      omega
    · apply hpairwise.imp
      intro x y hdisjoint
      omega

theorem Owned.reallocKeeps (hs : s.Owned g) {x : Nat × Nat} (hx : x ∈ s.live) {size : UInt32}
    (hfits : Fits g s.heap size) :
  s.ReallocKeeps g x.1 size
  := by
  obtain ⟨q, L, -, hl, -, -, -⟩ := hs.pick hx
  have hold := hl.oldPayload List.mem_cons_self
  by_cases hsize : size = 0
  · obtain ⟨h, hfree, -⟩ := woosFree_live hl
    have hptr := hl.bounds List.mem_cons_self
    refine ⟨h, 0, ?_, fun hcon => absurd rfl hcon, fun _ hcon => absurd hsize hcon⟩
    rw [woosRealloc, if_neg (by omega), if_pos hsize, hfree, Option.map_some]
  · obtain ⟨h, p, hrealloc, -, ⟨hp, -, hkeeps⟩ | ⟨hp, -, -, -, hbytes⟩⟩ :=
      woosRealloc_live hl hsize hfits
    · refine ⟨h, p, hrealloc, fun hcon => absurd hp hcon, ?_⟩
      intro _ _ i hi
      rw [hold] at hi
      exact hkeeps _ List.mem_cons_self _ (Nat.le_add_right _ _) (Nat.add_lt_add_left hi _)
    · refine ⟨h, p, hrealloc, ?_, fun hcon => absurd hcon hp⟩
      intro _ i hi hlt
      rw [hold] at hi
      exact hbytes i hi hlt

/-! ### Runs -/

/-- After every run whose requests can be aligned in 32 bits or are not met, the blocks tile the heap, the
pointers held are disjoint payloads of at least the sizes that were asked for, and a reallocation keeps
the bytes that fit. -/
theorem heap_sound
    (g : Base) (m : Memory) (calls : List Call)
    (h : Run.Guarded (call g) (fun s c => s.Permitted c ∧ s.Representable g c) (init m) calls) :
  ∃ s, Run.exec (call g) (init m) calls = some s ∧ s.Sound g
    ∧ ∀ x ∈ s.live, ∀ size, s.Representable g (.realloc x.1 size) → s.ReallocKeeps g x.1 size
  := by
  have hstep : ∀ s c, Owned g s → s.Permitted c ∧ s.Representable g c →
      ∃ s', s.call g c = some s' ∧ s'.Owned g := by
    intro s c hs hc
    exact call_owned hs hc.1 hc.2
  obtain ⟨s, hrun, hs⟩ := Run.exec_invariant hstep (init_owned m) h
  exact ⟨s, hrun, hs.sound, fun x hx size hfits => hs.reallocKeeps hx hfits⟩

/-- A heap at the address 4096. -/
def base : Base := ⟨4096, by decide, by decide⟩

/-- Two allocations, and the first enlarged. -/
theorem heap_sound_enlarged :
  ∃ s, Run.exec (call base) (init (fun _ => 0)) [.malloc 10, .calloc 3 8, .realloc 4112 100] = some s
    ∧ s.Sound base
    ∧ ∀ x ∈ s.live, ∀ size, s.Representable base (.realloc x.1 size)
        → s.ReallocKeeps base x.1 size
  := by
  have hlive : (Run.exec (call base) (init (fun _ => 0)) [.malloc 10, .calloc 3 8]).map live
      = some [(4144, 24), (4112, 10)] := by
    decide +kernel
  have hfirst : Run.Guarded (call base) (fun s c => s.Permitted c ∧ s.Representable base c)
      (init (fun _ => 0)) [.malloc 10, .calloc 3 8] :=
    ⟨⟨trivial, Or.inl (by decide)⟩, fun _ _ => ⟨⟨trivial, Or.inl (by decide)⟩, fun _ _ => trivial⟩⟩
  apply heap_sound
  apply Run.guarded_concat hfirst
  intro s hs
  rw [hs, Option.map_some, Option.some_inj] at hlive
  constructor
  · right
    use 10
    rw [hlive]
    decide
  · exact Or.inl (by decide)

/-- A request of 2^32 - 1 bytes is aligned to 0. -/
theorem not_heap_sound :
  ¬ ∀ (g : Base) (m : Memory) (calls : List Call),
    Run.Guarded (call g) Permitted (init m) calls →
      ∃ s, Run.exec (call g) (init m) calls = some s ∧ s.Sound g
  := by
  intro hsound
  have hmalloc : (Run.exec (call base) (init (fun _ => 0)) [.malloc 0xFFFFFFFF]).map
      (fun s => (s.live, oldPayload s.heap 4112)) = some ([(4112, 4294967295)], 0) := by
    decide +kernel
  obtain ⟨s, hs, hcases⟩ := hsound base (fun _ => 0) [.malloc 0xFFFFFFFF] ⟨trivial, fun _ _ => trivial⟩
  rw [hs, Option.map_some, Option.some_inj, Prod.mk.injEq] at hmalloc
  obtain ⟨hlive, hpayload⟩ := hmalloc
  rcases hcases with ⟨-, hempty⟩ | ⟨bs, hbs⟩
  · rw [hlive] at hempty
    exact absurd hempty (List.cons_ne_nil _ _)
  · have hsize := hbs.size (4112, 4294967295) (by rw [hlive]; exact List.mem_cons_self)
    rw [hpayload] at hsize
    exact absurd hsize (by decide)

end Session

end AppHeap
