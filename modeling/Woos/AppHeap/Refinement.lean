import Woos.AppHeap.Basic
import Woos.Lib.Word

/-!
# The allocator of an application is a first-fit arena

`findBlock_eq` and `takeBlock_linked` say that the loop of `woos_malloc` computes `Arena.allocate` on
the blocks whose headers are linked in memory, and `coalesceLoop_spec` that the loops of `woos_free`
compute `Arena.merge`.
-/

namespace AppHeap

open Arena Layout

variable {m : Memory} {bs : List Block} {b : Block} {lo hi need n : Nat}

/-! ### Allocation -/

/-- The loop of `woos_malloc` finds the first block that fits. -/
theorem findBlock_eq {cur : Nat} (hlinked : wasmBlock.Linked m bs) (htiles : Tiles lo hi bs)
    (hsize : ∀ c ∈ bs, wasmBlock.WellSized c) (hlo : 0 < lo) (hneed : 0 < need)
    (hn : bs.length < n) (hcur : cur = firstAddr bs) :
  findBlock m need n cur = some (match wasmBlock.firstFit need bs with
    | none => 0
    | some b => b.addr)
  := by
  induction bs generalizing lo n cur with
  | nil =>
      obtain ⟨n, rfl⟩ := Nat.exists_eq_add_one_of_ne_zero (by omega : n ≠ 0)
      have hzero : cur = 0 := hcur
      rw [findBlock, if_pos hzero]
      rfl
  | cons b bs ih =>
      obtain ⟨n, rfl⟩ := Nat.exists_eq_add_one_of_ne_zero (by omega : n ≠ 0)
      obtain ⟨hb, htail⟩ := htiles
      have hcur : cur = b.addr := hcur
      have hrest := ih (n := n) hlinked.2 htail (fun c hc => hsize c (List.mem_cons_of_mem _ hc))
        (by omega) (by rw [List.length_cons] at hn; omega) rfl
      have hpayload : wasmBlock.payloadSize b = b.size - 16 := rfl
      rw [findBlock, if_neg (by omega), hcur, hlinked.1.size, hlinked.1.next, hrest, firstFit,
        firstFit, List.find?_cons]
      cases hused : b.used with
      | true =>
          have hflag : wasmBlock.used m b.addr ≠ 0 := by
            rw [ne_eq, hlinked.1.used, hused]
            simp
          rw [if_pos hflag]
          rfl
      | false =>
          rw [if_neg (not_not.mpr (hlinked.1.used.mpr hused))]
          by_cases hfit : need ≤ wasmBlock.payloadSize b
          · rw [if_neg (by omega), if_neg (by omega), decide_eq_true hfit]
            rfl
          · rw [decide_eq_false hfit]
            split
            · rfl
            · rw [if_pos (by omega)]
              rfl

/-- Splitting writes the headers of both parts. -/
theorem splitBlock_headers {next : Nat} (hheader : wasmBlock.HeaderAt m b next)
    (hnext : next < 2 ^ 32) (hend : b.addr + b.size < 2 ^ 32)
    (hfit : need + 24 ≤ wasmBlock.payloadSize b) :
  wasmBlock.HeaderAt (splitBlock m b.addr need) { b with size := 16 + need } (b.addr + 16 + need)
    ∧ wasmBlock.HeaderAt (splitBlock m b.addr need)
        ⟨b.addr + 16 + need, wasmBlock.payloadSize b - need, false⟩ next
    ∧ ∀ x, x < b.addr ∨ b.addr + b.size ≤ x → splitBlock m b.addr need x = m x
  := by
  have hpayload : wasmBlock.payloadSize b = b.size - 16 := rfl
  have hheaderSize : wasmBlock.header = 16 := rfl
  have hword : 256 ^ wasmBlock.word = 2 ^ 32 := rfl
  generalize hsplit : b.addr + 16 + need = split
  generalize hm₁ : wasmBlock.setSize m split (b.size - 16 - need) = m₁
  generalize hm₂ : wasmBlock.setUsed m₁ split 0 = m₂
  have hkeep : wasmBlock.HeaderAt m₂ b next := by
    apply hheader.congr
    intro x hle hlt
    rw [← hm₂, setUsed_apply _ (by omega), ← hm₁, setSize_apply _ (by omega)]
  generalize hm₃ : wasmBlock.setNext m₂ split next = m₃
  have hkeep' : wasmBlock.HeaderAt m₃ b next := by
    apply hkeep.congr
    intro x hle hlt
    rw [← hm₃, setNext_apply _ (by omega)]
  have hwrite : splitBlock m b.addr need
      = wasmBlock.setNext (wasmBlock.setSize m₃ b.addr (16 + need)) b.addr split := by
    simp only [splitBlock, hsplit, hheader.size, hm₁, hm₂, hkeep.next, hm₃]
  have hnew : wasmBlock.HeaderAt m₃ ⟨split, wasmBlock.payloadSize b - need, false⟩ next := by
    have hself := (headerAt_self (L := wasmBlock) m split).setSize
      (v := b.size - 16 - need) (by omega)
    have hself' := (hself.setUsed 0).setNext (v := next) (by omega)
    rw [hm₁, hm₂, hm₃] at hself'
    exact hself'
  rw [hwrite]
  refine ⟨(hkeep'.setSize (by omega)).setNext (by omega), ?_, ?_⟩
  · apply hnew.congr
    intro x hle _
    have hle : split ≤ x := hle
    rw [setNext_apply _ (by omega), setSize_apply _ (by omega)]
  · intro x hx
    rw [setNext_apply _ (by omega), setSize_apply _ (by omega), ← hm₃, setNext_apply _ (by omega),
      ← hm₂, setUsed_apply _ (by omega), ← hm₁, setSize_apply _ (by omega)]

/-- Taking the first of the blocks carves it. -/
theorem takeBlock_carve (hlinked : wasmBlock.Linked m (b :: bs)) (htiles : Tiles lo hi (b :: bs))
    (hsize : ∀ c ∈ b :: bs, wasmBlock.WellSized c) (hhi : hi < 2 ^ 32)
    (hneed : need < 2 ^ 31) (hfit : need ≤ wasmBlock.payloadSize b) :
  wasmBlock.Linked (takeBlock m b.addr need) (wasmBlock.carve need b ++ bs)
    ∧ ∀ x, x < b.addr ∨ b.addr + b.size ≤ x → takeBlock m b.addr need x = m x
  := by
  have hwell : 16 ≤ b.size := (hsize b List.mem_cons_self).1
  have hbs : ∀ c ∈ bs, wasmBlock.WellSized c := fun c hc => hsize c (List.mem_cons_of_mem _ hc)
  have hheaderSize : wasmBlock.header = 16 := rfl
  have hpayload : wasmBlock.payloadSize b = b.size - 16 := rfl
  have hbounds := htiles.mem_bounds List.mem_cons_self
  obtain ⟨hheader, hrest⟩ := hlinked
  obtain ⟨hlo, htail⟩ := htiles
  have hend := htail.le
  rw [takeBlock, hheader.size, carve]
  have hsplit : (need + 24) % 2 ^ 32 ≤ b.size - 16
      ↔ wasmBlock.minSplit ≤ wasmBlock.payloadSize b - need := by
    rw [Nat.mod_eq_of_lt (by omega), hpayload]
    change _ ↔ 24 ≤ _
    omega
  by_cases hroom : (need + 24) % 2 ^ 32 ≤ b.size - 16
  · have hroom' : 24 ≤ wasmBlock.payloadSize b - need := hsplit.mp hroom
    have hnext : firstAddr bs < 2 ^ 32 := by
      rw [firstAddr_eq htail]
      split
      · omega
      · omega
    have hfits : need + 24 ≤ wasmBlock.payloadSize b := by omega
    obtain ⟨hfirst, hsecond, hframe⟩ := splitBlock_headers hheader hnext (by omega) hfits
    rw [if_pos hroom, if_pos (hsplit.mp hroom)]
    have hkeeps : ∀ x, x < b.addr ∨ b.addr + b.size ≤ x →
        wasmBlock.setUsed (splitBlock m b.addr need) b.addr 1 x = m x := by
      intro x hx
      rw [setUsed_apply _ (by omega), hframe x hx]
    refine ⟨⟨hfirst.setUsed 1, ?_, ?_⟩, hkeeps⟩
    · apply hsecond.congr
      intro x hle _
      have hle : b.addr + 16 + need ≤ x := hle
      exact setUsed_apply _ (by omega)
    · apply hrest.congr_tiles htail hbs
      intro x hle _
      exact hkeeps x (by omega)
  · rw [if_neg hroom, if_neg (fun hcon => hroom (hsplit.mpr hcon))]
    refine ⟨⟨hheader.setUsed 1, ?_⟩, ?_⟩
    · apply hrest.congr_tiles htail hbs
      intro x hle _
      exact setUsed_apply _ (by omega)
    · intro x hx
      exact setUsed_apply _ (by omega)

/-- Taking the first block that fits is `allocate`. -/
theorem takeBlock_linked (hlinked : wasmBlock.Linked m bs) (htiles : Tiles lo hi bs)
    (hsize : ∀ c ∈ bs, wasmBlock.WellSized c) (hhi : hi < 2 ^ 32)
    (hneed : need < 2 ^ 31) (hfit : wasmBlock.firstFit need bs = some b) :
  ∃ bs', wasmBlock.allocate need bs = some (b.addr + 16, bs')
    ∧ wasmBlock.Linked (takeBlock m b.addr need) bs' ∧ firstAddr bs' = firstAddr bs
    ∧ ∀ x, x < b.addr ∨ b.addr + b.size ≤ x → takeBlock m b.addr need x = m x
  := by
  induction bs generalizing lo with
  | nil => cases hfit
  | cons c bs ih =>
      have hbs : ∀ d ∈ bs, wasmBlock.WellSized d := fun d hd => hsize d (List.mem_cons_of_mem _ hd)
      rw [firstFit, List.find?_cons] at hfit
      rw [allocate]
      by_cases hfits : c.used = false ∧ need ≤ wasmBlock.payloadSize c
      · have htest : (!c.used && decide (need ≤ wasmBlock.payloadSize c)) = true := by
          simpa using hfits
        rw [htest] at hfit
        cases hfit
        obtain ⟨hlinked', hframe⟩ := takeBlock_carve hlinked htiles hsize hhi hneed hfits.2
        rw [if_pos hfits]
        refine ⟨_, rfl, hlinked', ?_, hframe⟩
        rw [carve]
        split
        · rfl
        · rfl
      · have htest : (!c.used && decide (need ≤ wasmBlock.payloadSize c)) = false := by
          simpa using hfits
        rw [htest] at hfit
        obtain ⟨bs', halloc, hlinked', hfirst, hframe⟩ := ih hlinked.2 htiles.2 hbs hfit
        have hbounds := htiles.2.mem_bounds (mem_of_firstFit hfit).1
        have hwell := (hsize c List.mem_cons_self).1
        have hlo := htiles.1
        rw [if_neg hfits, halloc]
        refine ⟨_, rfl, ⟨?_, hlinked'⟩, rfl, hframe⟩
        rw [hfirst]
        apply hlinked.1.congr
        intro x _ hlt
        exact hframe x (by omega)

/-! ### Coalescing -/

/-- The loops of `woos_free` are `merge`. -/
theorem coalesceLoop_spec {cur : Nat} (hlinked : wasmBlock.Linked m bs) (htiles : Tiles lo hi bs)
    (hsize : ∀ c ∈ bs, wasmBlock.WellSized c) (hlo : 0 < lo) (hhi : hi < 2 ^ 32)
    (hn : bs.length < n) (hcur : cur = firstAddr bs) :
  ∃ m', coalesceLoop n m cur = some m' ∧ wasmBlock.Linked m' (merge bs)
    ∧ ∀ x, ¬ wasmBlock.Internal bs x → m' x = m x
  := by
  induction bs using merge.induct generalizing m lo n cur with
  | case1 =>
      obtain ⟨n, rfl⟩ := Nat.exists_eq_add_one_of_ne_zero (by omega : n ≠ 0)
      have hzero : cur = 0 := hcur
      refine ⟨m, ?_, ?_, fun _ _ => rfl⟩
      · rw [coalesceLoop, if_pos hzero]
      · rw [merge]
        trivial
  | case2 b =>
      obtain ⟨n, rfl⟩ := Nat.exists_eq_add_one_of_ne_zero (by omega : n ≠ 0)
      obtain ⟨k, rfl⟩ := Nat.exists_eq_add_one_of_ne_zero
        (by rw [List.length_singleton] at hn; omega : n ≠ 0)
      have hb : cur = b.addr := hcur
      have hlast : wasmBlock.next m b.addr = 0 := hlinked.1.next
      have haddr := htiles.1
      refine ⟨m, ?_, ?_, fun _ _ => rfl⟩
      · rw [coalesceLoop, if_neg (by omega), hb, hlast, if_neg (fun hcon => hcon.1 rfl),
          coalesceLoop, if_pos rfl]
      · rw [merge]
        exact hlinked
  | case3 b c bs hfree ih =>
      obtain ⟨n, rfl⟩ := Nat.exists_eq_add_one_of_ne_zero (by omega : n ≠ 0)
      have hb : cur = b.addr := hcur
      have hnext : wasmBlock.next m b.addr = c.addr := hlinked.1.next
      have hbsize : 16 ≤ b.size := (hsize b (by simp)).1
      obtain ⟨hblo, hclo, htail⟩ := htiles
      have hjoined := hlinked.join ⟨hblo, hclo, htail⟩ hsize hhi
      have hwritten : wasmBlock.next (wasmBlock.setSize m b.addr (b.size + c.size)) c.addr
          = firstAddr bs := by
        have hkept : wasmBlock.HeaderAt (wasmBlock.setSize m b.addr (b.size + c.size)) c
            (firstAddr bs) := by
          apply hlinked.2.1.congr
          intro x hle _
          have hheader : wasmBlock.header = 16 := rfl
          exact setSize_apply _ (by omega)
        exact hkept.next
      obtain ⟨m', hm', hlinked', hframe⟩ := ih (n := n) hjoined
        (join_tiles ⟨hblo, hclo, htail⟩) (join_wellSized hsize) hlo
        (by simp only [List.length_cons] at hn ⊢; omega) rfl
      have hguard : c.addr ≠ 0 ∧ wasmBlock.used m b.addr = 0 ∧ wasmBlock.used m c.addr = 0
          ∧ b.addr + b.size = c.addr :=
        ⟨by omega, hlinked.1.used.mpr hfree.1, hlinked.2.1.used.mpr hfree.2, by omega⟩
      refine ⟨m', ?_, ?_, ?_⟩
      · rw [coalesceLoop, if_neg (by omega), hb, hnext, hlinked.1.size, if_pos hguard,
          hlinked.2.1.size]
        change coalesceLoop n (wasmBlock.setNext (wasmBlock.setSize m b.addr (b.size + c.size)) b.addr
          (wasmBlock.next (wasmBlock.setSize m b.addr (b.size + c.size)) c.addr)) b.addr = some m'
        rw [hwritten]
        exact hm'
      · rw [merge, if_pos hfree]
        exact hlinked'
      · intro x hx
        have houtside := outside_of_not_internal (by simp) hx hsize (b := b)
        rw [hframe x (fun hcon => hx (join_internal ⟨hblo, hclo, htail⟩ hfree hcon)),
          setNext_apply _ houtside, setSize_apply _ houtside]
  | case4 b c bs hfree ih =>
      obtain ⟨n, rfl⟩ := Nat.exists_eq_add_one_of_ne_zero (by omega : n ≠ 0)
      have hb : cur = b.addr := hcur
      have hnext : wasmBlock.next m b.addr = c.addr := hlinked.1.next
      have htail : ∀ d ∈ c :: bs, wasmBlock.WellSized d := fun d hd => hsize d (by simp [hd])
      have hbsize : 16 ≤ b.size := (hsize b (by simp)).1
      have hblo := htiles.1
      obtain ⟨m', hm', hlinked', hframe⟩ := ih (n := n) hlinked.2 htiles.2 htail
        (by omega) (by simp only [List.length_cons] at hn ⊢; omega) rfl
      have hguard : ¬ (c.addr ≠ 0 ∧ wasmBlock.used m b.addr = 0 ∧ wasmBlock.used m c.addr = 0
          ∧ b.addr + wasmBlock.size m b.addr = c.addr) := by
        rintro ⟨-, hbused, hcused, -⟩
        exact hfree ⟨hlinked.1.used.mp hbused, hlinked.2.1.used.mp hcused⟩
      refine ⟨m', ?_, ?_, ?_⟩
      · rw [coalesceLoop, if_neg (by omega), hb, hnext, if_neg hguard]
        exact hm'
      · rw [merge, if_neg hfree]
        refine ⟨?_, hlinked'⟩
        obtain ⟨d, ds, hmerge, -, hd⟩ := merge_head c bs
        have hfirst : firstAddr (merge (c :: bs)) = c.addr := by
          rw [hmerge]
          exact hd
        rw [hfirst]
        apply hlinked.1.congr
        intro x _ hlt
        apply hframe
        intro hinternal
        obtain ⟨e, he, hbounds⟩ := hinternal.mem_block htail
        have hheader : wasmBlock.header = 16 := rfl
        have hle := htiles.2.mem_bounds he
        omega
      · intro x hx
        exact hframe x (fun hinternal => hx hinternal.cons)

end AppHeap
