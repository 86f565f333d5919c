import Woos.KHeap.Session
import Mathlib.Data.List.Perm.Basic

/-!
# Allocations of a client

`Backed s N` is the view of a client that holds the allocations `N`, each with the number of
bytes the client relies on, while the callers of the session `s` hold others.  The lemmas
say what a call of the client, a write of the client, or a call of the others does to it.
-/

namespace KHeap

namespace Session

/-- An allocation provides what is relied on. -/
def Covers (x y : Nat × Nat) : Prop := x.1 = y.1 ∧ x.2 ≤ y.2

/-- Each pair of `N` is a live allocation of its own, with at least as many bytes, that the
callers of the session do not hold. -/
def Backed (s : Session) (N : List (Nat × Nat)) : Prop :=
  ∃ F, s.Holds F ∧ List.Forall₂ Covers N F

theorem covers_mk {a n q : Nat} (hn : n ≤ q) :
  Covers (a, n) (a, q)
  := ⟨rfl, hn⟩

variable {h : KHeap} {ps : List UInt64} {s : Session} {N : List (Nat × Nat)} {p : UInt64} {n : Nat}

theorem Backed.perm {N' : List (Nat × Nat)} (hb : s.Backed N) (hN : N'.Perm N) :
  s.Backed N'
  := by
  obtain ⟨F, ⟨L, hl, hperm⟩, hcovers⟩ := hb
  obtain ⟨F', hcovers', hF⟩ := List.perm_comp_forall₂ hN hcovers
  exact ⟨F', ⟨L, hl.congr (hF.append_left L), hperm⟩, hcovers'⟩

/-- What the client relies on is the address and the size of a live allocation. -/
theorem Backed.live (hb : s.Backed ((p.toNat, n) :: N)) :
  ∃ L q, Live s.heap ((p.toNat, q) :: L) ∧ n ≤ q ∧ (currentPayload s.heap p).toNat = q
  := by
  obtain ⟨F, ⟨L, hl, -⟩, hcovers⟩ := hb
  obtain ⟨⟨a, q⟩, F', ⟨hp, hn⟩, -, rfl⟩ := List.forall₂_cons_left_iff.mp hcovers
  cases hp
  have hl' := hl.congr List.perm_middle.symm
  exact ⟨L ++ F', q, hl', hn, hl'.currentPayload List.mem_cons_self⟩

theorem covers_fst {F : List (Nat × Nat)} (h : List.Forall₂ Covers N F) :
  N.map Prod.fst = F.map Prod.fst
  := by
  induction h with
  | nil => rfl
  | cons hxy _ ih => rw [List.map_cons, List.map_cons, hxy.1, ih]

/-- The live allocations of the heap are those of the client and of the others. -/
theorem Backed.exists_live (hb : s.Backed N) :
  ∃ L, Live s.heap L ∧ (s.live.map UInt64.toNat ++ N.map Prod.fst).Perm (L.map Prod.fst)
    ∧ ∀ x ∈ N, ∃ q, (x.1, q) ∈ L ∧ x.2 ≤ q
  := by
  obtain ⟨F, ⟨L, hl, hperm⟩, hcovers⟩ := hb
  refine ⟨L ++ F, hl, ?_, ?_⟩
  · rw [List.map_append, covers_fst hcovers]
    apply hperm.append_right
  · clear hl
    induction hcovers with
    | nil => simp
    | @cons x y N F hxy _ ih =>
        intro z hz
        rcases List.mem_cons.mp hz with rfl | hz
        · use y.2
          rw [hxy.1]
          exact ⟨List.mem_append_right L List.mem_cons_self, hxy.2⟩
        · obtain ⟨q, hq, hle⟩ := ih z hz
          use q
          constructor
          · rcases List.mem_append.mp hq with hL | hF
            · apply List.mem_append_left _ hL
            · apply List.mem_append_right L (List.mem_cons_of_mem y hF)
          · exact hle

theorem Backed.ne_zero (hb : s.Backed ((p.toNat, n) :: N)) :
  p ≠ 0
  := by
  obtain ⟨L, q, hl, -, -⟩ := hb.live
  apply hl.ne_zero List.mem_cons_self

theorem Backed.bounds (hb : s.Backed ((p.toNat, n) :: N)) :
  p.toNat + n ≤ stop
  := by
  obtain ⟨L, q, hl, hn, -⟩ := hb.live
  have hstop := (hl.bounds List.mem_cons_self).2
  omega

theorem Backed.payload (hb : s.Backed ((p.toNat, n) :: N)) :
  n ≤ (currentPayload s.heap p).toNat
  := by
  obtain ⟨L, q, -, hn, hpayload⟩ := hb.live
  omega

/-- The client may rely on more bytes than before, as long as the payload has them. -/
theorem Backed.mono {k : Nat} (hb : s.Backed ((p.toNat, n) :: N))
    (hk : k ≤ (currentPayload s.heap p).toNat) :
  s.Backed ((p.toNat, k) :: N)
  := by
  obtain ⟨F, ⟨L, hl, hperm⟩, hcovers⟩ := hb
  obtain ⟨⟨a, q⟩, F', ⟨hp, hn⟩, hrest, rfl⟩ := List.forall₂_cons_left_iff.mp hcovers
  cases hp
  have hpayload := hl.currentPayload (List.mem_append_right L List.mem_cons_self)
  use (p.toNat, q) :: F', ⟨L, hl, hperm⟩
  apply List.Forall₂.cons (covers_mk _) hrest
  omega

/-- The allocations of the client and of the others are all at different addresses. -/
theorem Backed.nodup (hb : s.Backed N) :
  (s.live.map UInt64.toNat ++ N.map Prod.fst).Nodup
  := by
  obtain ⟨L, hl, hperm, -⟩ := hb.exists_live
  apply hperm.nodup_iff.mpr hl.nodup

/-! ### Calls of the client -/

/-- A write of the client into its allocation. -/
theorem Backed.write {m : Memory} (hb : (⟨h, ps⟩ : Session).Backed ((p.toNat, n) :: N))
    (hm : ∀ x, x < p.toNat ∨ p.toNat + n ≤ x → m x = h.mem x) :
  (⟨{ h with mem := m }, ps⟩ : Session).Backed ((p.toNat, n) :: N)
  := by
  obtain ⟨F, ⟨L, hl, hperm⟩, hcovers⟩ := hb
  obtain ⟨⟨a, q⟩, F', ⟨hp, hn⟩, -, rfl⟩ := List.forall₂_cons_left_iff.mp hcovers
  cases hp
  have hl' : Live { h with mem := m } (L ++ (p.toNat, q) :: F') := by
    apply hl.write (p := p.toNat) (List.mem_append_right L List.mem_cons_self)
    intro x hx
    have hn : n ≤ q := hn
    apply hm
    omega
  exact ⟨_, ⟨L, hl', hperm⟩, hcovers⟩

theorem Backed.alloc (hb : (⟨h, ps⟩ : Session).Backed N) (size : UInt64) :
  (kheapAlloc h size = some (h, 0) ∧ (size = 0 ∨ ¬ HasRoom h size))
    ∨ ∃ h' p, kheapAlloc h size = some (h', p) ∧ size ≠ 0 ∧ HasRoom h size
        ∧ (⟨h', ps⟩ : Session).Backed ((p.toNat, (alignUp size heapAlign).toNat) :: N)
  := by
  obtain ⟨F, ⟨L, hl, hperm⟩, hcovers⟩ := hb
  rcases kheapAlloc_live hl size with hfail | ⟨h', p, q, halloc, hroom, hp, hq, -, hl', -⟩
  · left
    exact hfail
  · right
    use h', p, halloc
    constructor
    · rintro rfl
      apply hp
      have hzero : kheapAlloc h 0 = some (h, 0) := by rw [kheapAlloc, if_pos (Or.inl rfl)]
      rw [halloc] at hzero
      cases hzero
      rfl
    · use hroom, (p.toNat, q) :: F
      constructor
      · exact ⟨L, hl'.congr List.perm_middle, hperm⟩
      · apply List.Forall₂.cons (covers_mk hq) hcovers

theorem without_of_perm {L F : List (Nat × Nat)} {q : Nat} (hl : Live h (L ++ (p.toNat, q) :: F)) :
  (L ++ F).Perm (without p.toNat (L ++ (p.toNat, q) :: F))
  := by
  have hfirst := (List.nodup_cons.mp (hl.congr List.perm_middle.symm).nodup).1
  rw [without_append, without, without, List.filter_cons_of_neg (by simp)]
  rw [← without, ← without, ← without_append, without_eq_self]
  intro x hx heq
  apply hfirst
  rw [← heq]
  apply List.mem_map_of_mem hx

theorem Backed.free (hb : (⟨h, ps⟩ : Session).Backed ((p.toNat, n) :: N)) :
  ∃ h', kheapFree h p = some h' ∧ (⟨h', ps⟩ : Session).Backed N
  := by
  obtain ⟨F, ⟨L, hl, hperm⟩, hcovers⟩ := hb
  obtain ⟨⟨a, q⟩, F', ⟨hp, -⟩, hrest, rfl⟩ := List.forall₂_cons_left_iff.mp hcovers
  cases hp
  obtain ⟨h', hfree, hl', -⟩ := kheapFree_live hl p
  use h', hfree, F'
  constructor
  · exact ⟨L, hl'.congr (without_of_perm hl), hperm⟩
  · exact hrest

/-- A reallocation of the client that does not overrun leaves the allocation where it is,
fails, or moves it. -/
theorem Backed.realloc (hb : (⟨h, ps⟩ : Session).Backed ((p.toNat, n) :: N)) {size : UInt64}
    (hsize : size ≠ 0) (hno : NoOverrun h p size) :
  (size ≤ currentPayload h p ∧ kheapRealloc h p size = some (h, p))
    ∨ (currentPayload h p < size ∧ ¬ HasRoom h size ∧ kheapRealloc h p size = some (h, 0))
    ∨ (currentPayload h p < size ∧ HasRoom h size
        ∧ ∃ h' p', kheapRealloc h p size = some (h', p') ∧ p' ≠ 0
          ∧ (⟨h', ps⟩ : Session).Backed
              ((p'.toNat, max n (alignUp size heapAlign).toNat) :: N))
  := by
  obtain ⟨F, ⟨L, hl, hperm⟩, hcovers⟩ := hb
  obtain ⟨⟨a, q⟩, F', ⟨hp, hn⟩, hrest, rfl⟩ := List.forall₂_cons_left_iff.mp hcovers
  cases hp
  have hmem : (p.toNat, q) ∈ L ++ (p.toNat, q) :: F' := List.mem_append_right L List.mem_cons_self
  rw [UInt64.le_iff_toNat_le, UInt64.lt_iff_toNat_lt, hl.currentPayload hmem]
  rcases kheapRealloc_live hl hmem hsize hno with
    hfits | hfail | ⟨hlt, hroom, h', p', q', hrealloc, hp', hq', hgrow, hl', -⟩
  · left
    exact hfits
  · right
    left
    exact hfail
  · right
    right
    use hlt, hroom, h', p', hrealloc, hp', (p'.toNat, q') :: F'
    constructor
    · use L
      constructor
      · apply hl'.congr
        apply List.perm_middle.trans
        apply (without_of_perm hl).cons
      · exact hperm
    · apply List.Forall₂.cons (covers_mk (max_le (le_trans hn hgrow) hq')) hrest

/-! ### Calls of the others -/

/-- The call does not free an allocation of the client. -/
theorem Backed.call {c : Call} (hb : s.Backed N) (hpermitted : s.Permitted c)
    (hno : s.DoesNotOverrun c) (havoids : Avoids N c) :
  ∃ s', s.call c = some s' ∧ s'.Backed N
  := by
  obtain ⟨F, hs, hcovers⟩ := hb
  have havoids' : Avoids F c := by
    cases c with
    | alloc size => trivial
    | realloc ptr size => trivial
    | write addr value => trivial
    | free ptr =>
        clear hs
        induction hcovers with
        | nil => simp [Avoids]
        | cons hxy _ ih =>
            have hrest := ih (fun x hx => havoids x (List.mem_cons_of_mem _ hx))
            intro x hx
            rcases List.mem_cons.mp hx with rfl | hx
            · rw [← hxy.1]
              apply havoids _ List.mem_cons_self
            · apply hrest x hx
  obtain ⟨s', hcall, hs'⟩ := call_holds hs hpermitted hno havoids'
  exact ⟨s', hcall, F, hs', hcovers⟩

end Session

end KHeap
