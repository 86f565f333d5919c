import Woos.AppHeap.Refinement
import Mathlib.Data.List.Forall2

/-!
# Live blocks of an application

`Live g h L` says that the heap `h` is set up and that `L` lists the payloads in use, each with its size.
The calls are related to it: `woosMalloc_live` adds a payload, `woosFree_live` takes one away, and
`woosRealloc_live` moves one with its bytes.  `Keeps` says that no byte of a payload changes.
-/

namespace AppHeap

open Arena Layout

/-- The headers of the heap are linked, its blocks tile it, and the payloads in use are those of `L`. -/
def Live (g : Base) (h : AppHeap) (L : List (Nat × Nat)) : Prop :=
  ∃ bs, wasmBlock.Linked h.mem bs ∧ h.head = g.addr
    ∧ wasmBlock.Tiling g.addr (g.addr + heapSize) bs ∧ L.Perm (wasmBlock.payloads bs)

/-- The heap is not set up yet, or has the payloads `L` in use. -/
def Ready (g : Base) (h : AppHeap) (L : List (Nat × Nat)) : Prop := (h.head = 0 ∧ L = []) ∨ Live g h L

/-- No byte of a payload of `L` changes from `h` to `h'`. -/
def Keeps (L : List (Nat × Nat)) (h h' : AppHeap) : Prop :=
  ∀ y ∈ L, ∀ x, y.1 ≤ x → x < y.1 + y.2 → h'.mem x = h.mem x

variable {g : Base} {h : AppHeap} {L : List (Nat × Nat)}

theorem Keeps.trans {h' h'' : AppHeap} (hkeeps : Keeps L h h') (hkeeps' : Keeps L h' h'') :
  Keeps L h h''
  := by
  intro y hy x hle hlt
  rw [hkeeps' y hy x hle hlt, hkeeps y hy x hle hlt]

theorem Live.congr {L' : List (Nat × Nat)} (hl : Live g h L) (hperm : L'.Perm L) :
  Live g h L'
  := by
  obtain ⟨bs, hlinked, hhead, htiling, hbs⟩ := hl
  exact ⟨bs, hlinked, hhead, htiling, hperm.trans hbs⟩

/-- A live payload lies behind a header in the heap. -/
theorem Live.bounds (hl : Live g h L) {p q : Nat} (hp : (p, q) ∈ L) :
  g.addr + 16 ≤ p ∧ p + q ≤ g.addr + heapSize
  := by
  obtain ⟨bs, -, -, htiling, hperm⟩ := hl
  exact htiling.payload_bounds (hperm.subset hp)

theorem Live.pairwise (hl : Live g h L) :
  L.Pairwise (fun x y => x.1 + x.2 + 16 ≤ y.1 ∨ y.1 + y.2 + 16 ≤ x.1)
  := by
  obtain ⟨bs, -, -, htiling, hperm⟩ := hl
  apply (hperm.pairwise_iff (fun hxy => hxy.symm)).mpr
  apply htiling.payloads_pairwise.imp
  intro x y hle
  exact Or.inl hle

/-- `woos_realloc` finds the size of a live payload in front of it. -/
theorem Live.oldPayload (hl : Live g h L) {p q : Nat} (hp : (p, q) ∈ L) :
  oldPayload h p = q
  := by
  obtain ⟨bs, hlinked, -, -, hperm⟩ := hl
  obtain ⟨b, hb, -, rfl, rfl⟩ := mem_payloads.mp (hperm.subset hp)
  obtain ⟨next, hheader⟩ := hlinked.headerAt hb
  have haddr : wasmBlock.payloadAddr b - 16 = b.addr := Nat.add_sub_cancel ..
  rw [AppHeap.oldPayload, haddr, hheader.size]
  rfl

theorem length_lt {bs : List Block} (htiling : wasmBlock.Tiling g.addr (g.addr + heapSize) bs) :
  bs.length < maxBlocks + 1
  := by
  have hle := htiling.tiles.length_le (fun b hb => (htiling.wellSized b hb).1)
  have hheader : wasmBlock.header = 16 := rfl
  have hheap : heapSize = 16777216 := rfl
  have hmax : maxBlocks = 1048576 := rfl
  rw [hheader] at hle
  omega

theorem head_eq {bs : List Block} (htiling : wasmBlock.Tiling g.addr (g.addr + heapSize) bs) :
  g.addr = firstAddr bs
  := by
  rw [firstAddr_eq htiling.tiles, if_neg]
  rintro rfl
  have hempty : g.addr = g.addr + heapSize := htiling.tiles
  have hheap : heapSize = 16777216 := rfl
  omega

/-- A write into a live payload. -/
theorem Live.write (hl : Live g h L) {m : Memory} {p q : Nat} (hp : (p, q) ∈ L)
    (hm : ∀ x, x < p ∨ p + q ≤ x → m x = h.mem x) :
  Live g { h with mem := m } L
  := by
  obtain ⟨bs, hlinked, hhead, htiling, hperm⟩ := hl
  refine ⟨bs, ?_, hhead, htiling, hperm⟩
  apply hlinked.congr
  intro b hb x hle hlt
  apply hm
  by_contra hcon
  apply payload_not_internal htiling.tiles htiling.wellSized (hperm.subset hp) (x := x) (by omega)
  have hheader := (htiling.wellSized b hb).1
  refine ⟨b, hb, hle, ?_⟩
  split
  · exact hlt
  · omega

/-! ### `woos_malloc` -/

theorem initIfNeeded_live (hr : Ready g h L) :
  Live g (initIfNeeded g h) L ∧ Keeps L h (initIfNeeded g h)
  := by
  have hpos := g.pos
  have hheap : heapSize = 16777216 := rfl
  rcases hr with ⟨hhead, rfl⟩ | hl
  · refine ⟨⟨[⟨g.addr, heapSize, false⟩], ?_, ?_, ?_, List.Perm.refl _⟩, fun y hy => by cases hy⟩
    · rw [initIfNeeded, if_pos hhead]
      have hself := headerAt_self (L := wasmBlock) h.mem g.addr
      have hsize := hself.setSize (v := heapSize) (by decide)
      exact ⟨(hsize.setNext (v := 0) (by decide)).setUsed 0, trivial⟩
    · rw [initIfNeeded, if_pos hhead]
    · constructor
      · exact ⟨rfl, rfl⟩
      · intro b hb
        rw [List.mem_singleton.mp hb]
        exact ⟨(by decide : 16 ≤ heapSize), (by decide : 8 ∣ heapSize)⟩
      · apply List.IsChain.singleton
  · have hhead : h.head ≠ 0 := by
      obtain ⟨bs, -, hhead, -⟩ := hl
      omega
    rw [initIfNeeded, if_neg hhead]
    exact ⟨hl, fun _ _ _ _ _ => rfl⟩

theorem alignUp_eq (size : UInt32) :
  alignUp size = (size.toNat + 7) % 2 ^ 32 / 8 * 8
  := by
  rw [alignUp, Word.toNat_and_not_mask_32 _ 7 (k := 3) rfl, UInt32.toNat_add]
  rfl

/-- No free block is large enough for a request. -/
def Exhausted (g : Base) (h : AppHeap) (size : UInt32) : Prop :=
  findBlock (initIfNeeded g h).mem (alignUp size) (maxBlocks + 1) (initIfNeeded g h).head = some 0

/-- A request that can be aligned in 32 bits, or for which there is no block. -/
def Fits (g : Base) (h : AppHeap) (size : UInt32) : Prop :=
  size.toNat ≤ 2 ^ 32 - 8 ∨ Exhausted g h size

/-- What a call of `woos_malloc` leaves: nothing is returned, or a new live payload of at least `size`
bytes.  The others keep their bytes. -/
def Granted (g : Base) (L : List (Nat × Nat)) (size : Nat) (h h' : AppHeap) (p : Nat) : Prop :=
  Keeps L h h' ∧ ((p = 0 ∧ Ready g h' L) ∨ (p ≠ 0 ∧ ∃ q, size ≤ q ∧ Live g h' ((p, q) :: L)))

theorem woosMalloc_eq {size : UInt32} (hsize : size ≠ 0) :
  woosMalloc g h size
    = (findBlock (initIfNeeded g h).mem (alignUp size) (maxBlocks + 1) (initIfNeeded g h).head).bind
        (fun cur => if cur = 0 then some (initIfNeeded g h, 0)
          else some ({ initIfNeeded g h with
            mem := takeBlock (initIfNeeded g h).mem cur (alignUp size) }, cur + 16))
  := by
  rw [woosMalloc, if_neg hsize]
  rfl

theorem woosMalloc_exhausted {size : UInt32} (hsize : size ≠ 0) (hexhausted : Exhausted g h size) :
  woosMalloc g h size = some (initIfNeeded g h, 0)
  := by
  rw [Exhausted] at hexhausted
  rw [woosMalloc_eq hsize, hexhausted, Option.bind_some, if_pos rfl]

theorem initIfNeeded_granted (hr : Ready g h L) (size : Nat) :
  Granted g L size h (initIfNeeded g h) 0
  := by
  obtain ⟨hl, hkeeps⟩ := initIfNeeded_live hr
  exact ⟨hkeeps, Or.inl ⟨rfl, Or.inr hl⟩⟩

/-- A call of `woos_malloc` returns nothing or a new payload that is large enough. -/
theorem woosMalloc_live {size : UInt32} (hr : Ready g h L) (hfits : Fits g h size) :
  ∃ h' p, woosMalloc g h size = some (h', p) ∧ Granted g L size.toNat h h' p
  := by
  by_cases hsize : size = 0
  · refine ⟨h, 0, ?_, fun _ _ _ _ _ => rfl, Or.inl ⟨rfl, hr⟩⟩
    rw [woosMalloc, if_pos hsize]
  rcases hfits with hle | hexhausted
  · obtain ⟨⟨bs, hlinked, hhead, htiling, hperm⟩, hkeeps⟩ := initIfNeeded_live hr
    have hpos : 0 < size.toNat := by
      rw [Nat.pos_iff_ne_zero]
      exact fun hcon => hsize (UInt32.toNat_inj.mp hcon)
    have halign := alignUp_eq size
    have hneed : size.toNat ≤ alignUp size := by omega
    have hbase := g.pos
    have hfits := g.fits
    have hheap : heapSize = 16777216 := rfl
    have hfind := findBlock_eq hlinked htiling.tiles htiling.wellSized hbase
      (Nat.lt_of_lt_of_le hpos hneed) (length_lt htiling) (hhead.trans (head_eq htiling))
    cases hfit : wasmBlock.firstFit (alignUp size) bs with
    | none =>
        rw [hfit] at hfind
        exact ⟨_, _, woosMalloc_exhausted hsize hfind, initIfNeeded_granted hr _⟩
    | some b =>
        rw [hfit] at hfind
        obtain ⟨hb, hfree, hroom⟩ := mem_of_firstFit hfit
        have hbounds := htiling.tiles.mem_bounds hb
        have hpayload : wasmBlock.payloadSize b = b.size - 16 := rfl
        obtain ⟨bs', halloc, hlinked', hfirst, hframe⟩ := takeBlock_linked hlinked htiling.tiles
          htiling.wellSized hfits (by omega) hfit
        obtain ⟨c, hc, -, hpayloads⟩ := allocate_payloads halloc
        obtain rfl : b = c := Option.some_inj.mp (hfit.symm.trans hc)
        refine ⟨{ initIfNeeded g h with mem := takeBlock (initIfNeeded g h).mem b.addr (alignUp size) },
          b.addr + 16, ?_, ?_, Or.inr ⟨by omega, wasmBlock.granted (alignUp size) b, ?_, ?_⟩⟩
        · rw [woosMalloc_eq hsize, hfind, Option.bind_some, if_neg (by dsimp only; omega)]
        · apply hkeeps.trans
          intro y hy x hle hlt
          apply hframe
          by_contra hcon
          apply payload_not_internal htiling.tiles htiling.wellSized (hperm.subset hy) ⟨hle, hlt⟩
          refine ⟨b, hb, by omega, ?_⟩
          rw [hfree]
          simp only [Bool.false_eq_true, if_false]
          omega
        · exact hneed.trans (le_granted hroom)
        · refine ⟨bs', hlinked', hhead, ?_, ?_⟩
          · apply allocate_tiling htiling _ halloc
            rw [halign]
            exact Nat.dvd_mul_left _ _
          · exact (hperm.cons _).trans hpayloads.symm
  · exact ⟨_, _, woosMalloc_exhausted hsize hexhausted, initIfNeeded_granted hr _⟩

/-! ### `woos_free` -/

/-- A call of `woos_free` takes a live payload away. -/
theorem woosFree_live {p q : Nat} (hl : Live g h ((p, q) :: L)) :
  ∃ h', woosFree h p = some h' ∧ Live g h' L ∧ Keeps L h h'
  := by
  obtain ⟨bs, hlinked, hhead, htiling, hperm⟩ := hl
  obtain ⟨b, hb, hused, rfl, rfl⟩ := mem_payloads.mp (hperm.subset List.mem_cons_self)
  have hbase := g.pos
  have hpos : ∀ c ∈ bs, 0 < c.size :=
    fun c hc => Nat.lt_of_lt_of_le wasmBlock.header_pos (htiling.wellSized c hc).1
  have htiles' := release_tiles (A := wasmBlock.toArena) (wasmBlock.payloadAddr b) htiling.tiles
  have hsize' := release_wellSized (A := wasmBlock.toArena) (wasmBlock.payloadAddr b)
    htiling.wellSized
  have hlinked' := hlinked.release htiling.tiles htiling.wellSized hb
  have hpayloads := release_payloads (A := wasmBlock.toArena) htiling.tiles hpos hb hused
  have haddr : wasmBlock.payloadAddr b - 16 = b.addr := Nat.add_sub_cancel ..
  have hlength : (wasmBlock.release (wasmBlock.payloadAddr b) bs).length < maxBlocks + 1 := by
    rw [Arena.release, List.length_map]
    exact length_lt htiling
  have hfirst : h.head = firstAddr (wasmBlock.release (wasmBlock.payloadAddr b) bs) := by
    rw [firstAddr_release, hhead]
    exact head_eq htiling
  obtain ⟨m', hm', hmerged, hframe⟩ :=
    coalesceLoop_spec hlinked' htiles' hsize' hbase g.fits hlength hfirst
  have hrest : L.Perm (wasmBlock.payloads (wasmBlock.release (wasmBlock.payloadAddr b) bs)) :=
    (hperm.trans hpayloads).cons_inv
  refine ⟨{ h with mem := m' }, ?_, ⟨_, hmerged, hhead, merge_tiling htiles' hsize', ?_⟩, ?_⟩
  · rw [woosFree, if_neg, haddr, hm', Option.bind_eq_bind, Option.bind_some]
    have hle : wasmBlock.payloadAddr b = b.addr + 16 := rfl
    omega
  · rw [merge_payloads]
    exact hrest
  · intro y hy x hle hlt
    have hinternal := payload_not_internal htiles' hsize' (hrest.subset hy) ⟨hle, hlt⟩
    change m' x = h.mem x
    rw [hframe x hinternal]
    apply setUsed_apply
    have hreleased : { b with used := false } ∈ wasmBlock.release (wasmBlock.payloadAddr b) bs := by
      apply List.mem_map.mpr
      exact ⟨b, hb, if_pos rfl⟩
    exact outside_of_not_internal hreleased hinternal hsize'

/-! ### `woos_realloc` -/

/-- A call of `woos_realloc` on a live payload fails and keeps it, or leaves one that is large enough and
has its first bytes. -/
theorem woosRealloc_live {p q : Nat} {size : UInt32} (hl : Live g h ((p, q) :: L))
    (hsize : size ≠ 0) (hfits : Fits g h size) :
  ∃ h' p', woosRealloc g h p size = some (h', p') ∧ Keeps L h h'
    ∧ ((p' = 0 ∧ Live g h' ((p, q) :: L) ∧ Keeps [(p, q)] h h')
      ∨ (p' ≠ 0 ∧ ∃ q', size.toNat ≤ q' ∧ Live g h' ((p', q') :: L)
        ∧ ∀ i < q, i < size.toNat → h'.mem (p' + i) = h.mem (p + i)))
  := by
  have hp := hl.bounds List.mem_cons_self
  have hold := hl.oldPayload List.mem_cons_self
  rw [woosRealloc, if_neg (by omega), if_neg hsize, hold]
  by_cases hfit : size.toNat ≤ q
  · rw [if_pos hfit]
    refine ⟨h, p, rfl, fun _ _ _ _ _ => rfl, Or.inr ⟨by omega, q, hfit, hl, fun _ _ _ => rfl⟩⟩
  rw [if_neg hfit]
  obtain ⟨h₁, p', hmalloc, hkeeps, ⟨hp', hr⟩ | ⟨hp', q', hq', hl₁⟩⟩ := woosMalloc_live (Or.inr hl) hfits
  · have hl' : Live g h₁ ((p, q) :: L) := hr.resolve_left (fun hcon => List.cons_ne_nil _ _ hcon.2)
    refine ⟨h₁, 0, ?_, fun y hy => hkeeps y (List.mem_cons_of_mem _ hy), Or.inl ⟨rfl, hl', ?_⟩⟩
    · rw [hmalloc, Option.bind_eq_bind, Option.bind_some]
      exact if_pos hp'
    · intro y hy
      rw [List.mem_singleton.mp hy]
      exact hkeeps _ List.mem_cons_self
  have hdisjoint := (List.pairwise_cons.mp hl₁.pairwise).1
  have hdisjoint' := hdisjoint (p, q) List.mem_cons_self
  dsimp only at hdisjoint'
  generalize hm : h₁.mem.copy p' p q = m
  have hcopied : ∀ x, x < p' ∨ p' + q' ≤ x → m x = h₁.mem x := by
    intro x hx
    rw [← hm]
    exact Memory.copy_apply_outside _ (by omega)
  have hl₂ : Live g { h₁ with mem := m } ((p, q) :: (p', q') :: L) :=
    (hl₁.write List.mem_cons_self hcopied).congr (List.Perm.swap ..)
  obtain ⟨h', hfree, hl', hkeeps'⟩ := woosFree_live hl₂
  refine ⟨h', p', ?_, ?_, Or.inr ⟨hp', q', hq', hl', ?_⟩⟩
  · rw [hmalloc, Option.bind_eq_bind, Option.bind_some]
    dsimp only
    rw [if_neg hp', hm, hfree, Option.map_some]
  · intro y hy x hle hlt
    have hother := hdisjoint y (List.mem_cons_of_mem _ hy)
    rw [hkeeps' y (List.mem_cons_of_mem _ hy) x hle hlt,
      ← hkeeps y (List.mem_cons_of_mem _ hy) x hle hlt]
    exact hcopied x (by dsimp only at hother; omega)
  · intro i hi _
    rw [hkeeps' (p', q') List.mem_cons_self _ (Nat.le_add_right _ _) (by dsimp only; omega),
      ← hkeeps (p, q) List.mem_cons_self _ (Nat.le_add_right _ _) (by dsimp only; omega), ← hm]
    exact Memory.copy_apply _ hi (by omega)

/-! ### `woos_calloc` -/

/-- The size of all elements can be aligned in 32 bits, or is cut to zero, or there is no block. -/
def FitsAll (g : Base) (h : AppHeap) (nmemb size : UInt32) : Prop :=
  nmemb.toNat * size.toNat ≤ 2 ^ 32 - 8 ∨ nmemb * size = 0 ∨ Exhausted g h (nmemb * size)

/-- A call of `woos_calloc` returns nothing or a new payload for all elements. -/
theorem woosCalloc_live {nmemb size : UInt32} (hr : Ready g h L) (hfits : FitsAll g h nmemb size) :
  ∃ h' p, woosCalloc g h nmemb size = some (h', p)
    ∧ Granted g L (nmemb.toNat * size.toNat) h h' p
  := by
  rw [woosCalloc]
  by_cases hzero : nmemb * size = 0
  · refine ⟨h, 0, ?_, fun _ _ _ _ _ => rfl, Or.inl ⟨rfl, hr⟩⟩
    rw [hzero, woosMalloc, if_pos rfl]
    rfl
  rcases hfits with hle | hcon | hexhausted
  · have htotal : (nmemb * size).toNat = nmemb.toNat * size.toNat := by
      rw [UInt32.toNat_mul, Nat.mod_eq_of_lt (by omega)]
    have hfits : Fits g h (nmemb * size) := Or.inl (by omega)
    obtain ⟨h₁, p, hmalloc, hkeeps, hcases⟩ := woosMalloc_live hr hfits
    rw [htotal] at hcases
    rw [hmalloc]
    rcases hcases with ⟨hp, hr'⟩ | ⟨hp, q, hq, hl⟩
    · exact ⟨h₁, 0, if_pos hp, hkeeps, Or.inl ⟨rfl, hr'⟩⟩
    · have hfilled : ∀ x, x < p ∨ p + q ≤ x →
          h₁.mem.fill p 0 (nmemb * size).toNat x = h₁.mem x := by
        intro x hx
        exact Memory.fill_apply_outside _ _ (by omega)
      refine ⟨_, p, if_neg hp, ?_, Or.inr ⟨hp, q, hq, hl.write List.mem_cons_self hfilled⟩⟩
      intro y hy x hle hlt
      have hdisjoint := (List.pairwise_cons.mp hl.pairwise).1 y hy
      dsimp only at hdisjoint
      rw [← hkeeps y hy x hle hlt]
      exact hfilled x (by omega)
  · exact absurd hcon hzero
  · refine ⟨initIfNeeded g h, 0, ?_, initIfNeeded_granted hr _⟩
    rw [woosMalloc_exhausted hzero hexhausted, Option.bind_eq_bind, Option.bind_some]
    exact if_pos rfl

end AppHeap
