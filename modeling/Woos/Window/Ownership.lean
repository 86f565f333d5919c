import Woos.KHeap.Client
import Woos.Window.Buffers

/-!
# Window buffers are owned

A `Desktop` is the state of the window calls together with the pointers that the other
callers of the kernel heap hold.  Its steps are the window calls, and calls and writes of the
others.

`Desktop.Backed` says that the buffer of every window is an allocation of its own with room
for the pixels of the window.  `buffers_owned` shows that it holds after every run in which no
call computes a wrong size for a buffer, frees it, or fails to enlarge it after the window has
been enlarged.
-/

open KHeap (HasRoom currentPayload heapAlign alignUp)

/-! ### Writing pixels -/

namespace WinMgr

section

variable {m : Memory} {dst src : UInt64} {dstW dstH : UInt32}

/-- A row of an image whose pixels lie below `KHEAP_BASE + KHEAP_ARENA_SIZE`. -/
theorem rowAddr_toNat {r : Nat} (hr : r < dstH.toNat)
    (hdst : dst.toNat + 4 * (dstW.toNat * dstH.toNat) ≤ 2 ^ 32) :
  (rowAddr dst dstW (UInt32.ofNat r)).toNat = dst.toNat + 4 * (dstW.toNat * r)
  := by
  have hH := dstH.toNat_lt
  have hle : dstW.toNat * r ≤ dstW.toNat * dstH.toNat := Nat.mul_le_mul_left _ hr.le
  have hmod : r * dstW.toNat % 2 ^ 32 = dstW.toNat * r := by
    rw [Nat.mul_comm]
    apply Nat.mod_eq_of_lt
    omega
  have hfour : (4 : UInt64).toNat = 4 := rfl
  rw [rowAddr, UInt64.toNat_add, UInt64.toNat_mul, UInt32.toNat_toUInt64, UInt32.toNat_mul,
    UInt32.toNat_ofNat_of_lt' (hr.trans hH), hmod, hfour]
  omega

/-- The bytes of the first pixels of a row. -/
theorem row_mem {r x : Nat} (hr : r < dstH.toNat)
    (hx : x < dst.toNat ∨ dst.toNat + 4 * (dstW.toNat * dstH.toNat) ≤ x) :
  x < dst.toNat + 4 * (dstW.toNat * r) ∨ dst.toNat + 4 * (dstW.toNat * r) + 4 * dstW.toNat ≤ x
  := by
  have hle : dstW.toNat * (r + 1) ≤ dstW.toNat * dstH.toNat := Nat.mul_le_mul_left _ hr
  rw [Nat.mul_succ] at hle
  omega

variable (hdst : dst.toNat + 4 * (dstW.toNat * dstH.toNat) ≤ 2 ^ 32) {x : Nat}
  (hx : x < dst.toNat ∨ dst.toNat + 4 * (dstW.toNat * dstH.toNat) ≤ x)
include hdst hx

theorem copyRows_outside {srcW width : UInt32} {n : Nat} (hn : n ≤ dstH.toNat)
    (hwidth : width.toNat ≤ dstW.toNat) :
  copyRows m dst src dstW srcW width n x = m x
  := by
  induction n with
  | zero => rfl
  | succ r ih =>
      have hlen : (width * 4).toNat ≤ 4 * dstW.toNat := by
        have hfour : (4 : UInt32).toNat = 4 := rfl
        have hmod := Nat.mod_le (width.toNat * 4) (2 ^ 32)
        rw [UInt32.toNat_mul, hfour]
        omega
      have hrow := row_mem hn hx
      rw [copyRows, rowAddr_toNat hn hdst, Memory.copy_apply_outside]
      · apply ih
        omega
      · omega

omit hdst hx in
theorem scaleRow_outside {dstRow srcRow : UInt64} {srcW : UInt32} {n : Nat} (hn : n ≤ dstW.toNat)
    (hrow : dstRow.toNat + 4 * dstW.toNat < 2 ^ 64)
    (hx : x < dstRow.toNat ∨ dstRow.toNat + 4 * dstW.toNat ≤ x) :
  scaleRow m dstRow srcRow dstW srcW n x = m x
  := by
  induction n with
  | zero => rfl
  | succ dx ih =>
      have hW := dstW.toNat_lt
      have hfour : (4 : UInt64).toNat = 4 := rfl
      have haddr : (dstRow + UInt64.ofNat dx * 4).toNat = dstRow.toNat + dx * 4 := by
        have hdx : dx < UInt64.size := (Nat.lt_trans hn hW).trans (by decide)
        rw [UInt64.toNat_add, UInt64.toNat_mul, UInt64.toNat_ofNat_of_lt' hdx, hfour]
        omega
      rw [scaleRow, haddr, Memory.store_apply_outside]
      · apply ih
        omega
      · omega

theorem scaleRows_outside {srcW srcH : UInt32} {n : Nat} (hn : n ≤ dstH.toNat) :
  scaleRows m dst src dstW dstH srcW srcH n x = m x
  := by
  induction n with
  | zero => rfl
  | succ dy ih =>
      have hrow := row_mem hn hx
      have haddr := rowAddr_toNat hn hdst
      have hle : dstW.toNat * (dy + 1) ≤ dstW.toNat * dstH.toNat := Nat.mul_le_mul_left _ hn
      rw [Nat.mul_succ] at hle
      rw [scaleRows, scaleRow_outside le_rfl]
      · apply ih
        omega
      · omega
      · omega

end

/-- A blit writes into the pixels of the window only. -/
theorem blitPixels_outside {m : Memory} {v : Window} {wasmBuf : UInt64} {w h : UInt32}
    (hv : v.buffer.toNat + 4 * (v.w.toNat * v.h.toNat) ≤ 2 ^ 32) {x : Nat}
    (hx : x < v.buffer.toNat ∨ v.buffer.toNat + 4 * (v.w.toNat * v.h.toNat) ≤ x) :
  blitPixels m v wasmBuf w h x = m x
  := by
  rw [blitPixels]
  split
  · apply copyRows_outside hv hx le_rfl le_rfl
  · split
    · apply scaleRows_outside hv hx le_rfl
    · apply copyRows_outside hv hx
      · split
        case isTrue hlt => exact (UInt32.lt_iff_toNat_lt.mp hlt).le
        case isFalse => exact le_rfl
      · split
        case isTrue hlt => exact (UInt32.lt_iff_toNat_lt.mp hlt).le
        case isFalse => exact le_rfl

end WinMgr

/-! ### Reallocating a buffer -/

/-- The bytes that a window relies on: the pixels of its size, and of the size that it had
when it was maximized. -/
def Window.need (v : Window) : Nat :=
  max (4 * (v.w.toNat * v.h.toNat)) (4 * (v.savedW.toNat * v.savedH.toNat))

/-- The allocation that a window relies on. -/
def Window.entry (v : Window) : Nat × Nat := (v.buffer.toNat, v.need)

namespace WinMgr

section

variable {heap : KHeap} {ps : List UInt64} {N : List (Nat × Nat)} {buffer : UInt64} {n : Nat}

/-- A reallocation can be carried out: the payload is large enough, or there is room for
another one. -/
def CanGrow (ok : Bool) (heap : KHeap) (buffer size : UInt64) : Prop :=
  size ≤ currentPayload heap buffer ∨ (ok = true ∧ HasRoom heap size)

theorem bufSize_toNat {w h : UInt32} (hsize : 4 * (w.toNat * h.toNat) < 2 ^ 32) :
  (bufSize w h).toNat = 4 * (w.toNat * h.toNat)
  := by
  have hfour : (4 : UInt32).toNat = 4 := rfl
  rw [bufSize, UInt32.toNat_mul, UInt32.toNat_mul, hfour, Nat.mod_mul_mod, Nat.mul_comm,
    Nat.mod_eq_of_lt hsize]

/-- A reallocation that does not overrun keeps the buffer or its content, unless its size is
zero. -/
theorem bufRealloc_backed (ok : Bool) {size : UInt64}
    (hb : (⟨heap, ps⟩ : KHeap.Session).Backed ((buffer.toNat, n) :: N)) (hsize : size ≠ 0)
    (hno : CanGrow ok heap buffer size → size.toNat ≤ 2 ^ 64 - 16) :
  (¬ CanGrow ok heap buffer size ∧ bufRealloc ok heap buffer size = some (heap, 0))
    ∨ ∃ heap' buffer', bufRealloc ok heap buffer size = some (heap', buffer') ∧ buffer' ≠ 0
        ∧ CanGrow ok heap buffer size
        ∧ (⟨heap', ps⟩ : KHeap.Session).Backed ((buffer'.toNat, max n size.toNat) :: N)
  := by
  have hptr := hb.ne_zero
  have hno' : ok = true → KHeap.NoOverrun heap buffer size := by
    intro hok hwrap r hr
    have hzero := (KHeap.alignUp_eq_zero_iff size).mpr (Or.inr hwrap)
    have hroom : HasRoom heap size := by
      rw [HasRoom, UInt64.toNat_inj.mp (hzero.trans UInt64.toNat_zero.symm)]
      rw [KHeap.emptyRequestPayload, Option.map_eq_some_iff] at hr
      obtain ⟨block, hblock, -⟩ := hr
      rw [hblock]
      rfl
    have hle := hno (Or.inr ⟨hok, hroom⟩)
    omega
  by_cases hfits : size ≤ currentPayload heap buffer
  · right
    use heap, buffer
    constructor
    · rw [bufRealloc, if_pos (Or.inr ⟨hptr, Or.inr hfits⟩), KHeap.kheapRealloc, if_neg hptr,
        if_neg hsize, if_pos hfits]
    · use hptr, Or.inl hfits
      apply hb.mono
      exact max_le hb.payload (UInt64.le_iff_toNat_le.mp hfits)
  · cases ok with
    | false =>
        left
        constructor
        · rintro (hcon | ⟨hcon, -⟩)
          · exact hfits hcon
          · cases hcon
        · rw [bufRealloc, if_neg]
          rintro (hcon | ⟨-, hcon | hcon⟩)
          · cases hcon
          · exact hsize hcon
          · exact hfits hcon
    | true =>
        rw [bufRealloc, if_pos (Or.inl rfl)]
        rcases hb.realloc hsize (hno' rfl) with
          ⟨hcon, -⟩ | ⟨-, hnone, hrealloc⟩ | ⟨-, hroom, heap', buffer', hrealloc, hne, hb'⟩
        · exact absurd hcon hfits
        · left
          constructor
          · rintro (hcon | ⟨-, hcon⟩)
            · exact hfits hcon
            · exact hnone hcon
          · exact hrealloc
        · right
          use heap', buffer', hrealloc, hne, Or.inr ⟨rfl, hroom⟩
          apply hb'.mono
          apply le_trans _ hb'.payload
          exact max_le_max_left n (KHeap.le_alignUp (hno (Or.inr ⟨rfl, hroom⟩)))

/-- Enlarging a buffer for a maximized window, or keeping it for one that returns to its
size. -/
theorem growBuffer_backed {ok : Bool} (oldSize : UInt32) {newSize : UInt32}
    (hb : (⟨heap, ps⟩ : KHeap.Session).Backed ((buffer.toNat, n) :: N)) (hsize : newSize ≠ 0)
    (hgrow : CanGrow ok heap buffer newSize.toUInt64) :
  ∃ heap' buffer', growBuffer ok heap buffer oldSize newSize = some (heap', buffer')
    ∧ (⟨heap', ps⟩ : KHeap.Session).Backed ((buffer'.toNat, max n newSize.toNat) :: N)
  := by
  have hlt := newSize.toNat_lt
  have hsize' : newSize.toUInt64 ≠ 0 := by
    rw [ne_eq, ← UInt64.toNat_inj, UInt32.toNat_toUInt64]
    rw [ne_eq, ← UInt32.toNat_inj] at hsize
    exact hsize
  rcases bufRealloc_backed ok hb hsize' (fun _ => by rw [UInt32.toNat_toUInt64]; omega) with
    ⟨hcon, -⟩ | ⟨heap', buffer', hrealloc, hne, -, hb'⟩
  · exact absurd hgrow hcon
  · rw [UInt32.toNat_toUInt64] at hb'
    rw [growBuffer, hrealloc]
    simp only [Option.bind_eq_bind, Option.bind_some, if_neg hne]
    split
    case isFalse => exact ⟨heap', buffer', rfl, hb'⟩
    case isTrue hold =>
      have hold' := UInt32.lt_iff_toNat_lt.mp hold
      have hstop := hb'.bounds
      have hmax := le_max_right n newSize.toNat
      have hstop' : KHeap.stop < 2 ^ 32 := by decide
      have haddr : (buffer' + oldSize.toUInt64).toNat = buffer'.toNat + oldSize.toNat := by
        rw [UInt64.toNat_add, UInt32.toNat_toUInt64]
        omega
      refine ⟨_, buffer', rfl, ?_⟩
      apply hb'.write
      intro x hx
      apply Memory.fill_apply_outside
      rw [haddr, UInt32.toNat_sub_of_le _ _ (UInt32.le_iff_toNat_le.mpr hold'.le)]
      omega

end

/-! ### The calls -/

/-- Every window has an allocation of its own that the callers with the pointers `ps` do not
hold. -/
def Backed (m : WinMgr) (ps : List UInt64) : Prop :=
  (⟨m.heap, ps⟩ : KHeap.Session).Backed (m.stack.windows.map Window.entry)

section

variable {m : WinMgr} {ps : List UInt64}

theorem edit_backed {stack : Option WindowStack} (hm : m.Backed ps)
    (hstack : ∀ s, stack = some s
      → (s.windows.map Window.entry).Perm (m.stack.windows.map Window.entry)) :
  (m.edit stack).1.Backed ps
  := by
  cases stack with
  | none => exact hm
  | some s => exact KHeap.Session.Backed.perm hm (hstack s rfl)

theorem woosGraphicsBringToFront_backed (hm : m.Backed ps) (windowId : UInt32) :
  (m.woosGraphicsBringToFront windowId).1.Backed ps
  := by
  apply edit_backed hm
  intro s hs
  apply WindowStack.bringToFront_map (WindowStack.ignoresMarks_of_flags (fun _ _ => rfl)) hs

theorem newBuffer_backed {heap : KHeap} {N : List (Nat × Nat)} (ok : Bool) (w h : UInt32)
    (hb : (⟨heap, ps⟩ : KHeap.Session).Backed N) :
  newBuffer ok heap w h = some (heap, 0)
    ∨ ∃ heap' buf, newBuffer ok heap w h = some (heap', buf) ∧ buf ≠ 0
        ∧ ok = true ∧ bufSize w h ≠ 0 ∧ HasRoom heap (bufSize w h).toUInt64
        ∧ (⟨heap', ps⟩ : KHeap.Session).Backed ((buf.toNat, (bufSize w h).toNat) :: N)
  := by
  have hlt := (bufSize w h).toNat_lt
  cases ok with
  | false =>
      left
      rfl
  | true =>
      rcases hb.alloc (bufSize w h).toUInt64 with ⟨halloc, -⟩ | ⟨heap', buf, halloc, hsize, hroom, hb'⟩
      · left
        rw [newBuffer, bufAlloc, if_pos rfl, halloc]
        rfl
      · right
        have hne := hb'.ne_zero
        let mem := heap'.mem.fill buf.toNat 0 (bufSize w h).toNat
        refine ⟨{ heap' with mem := mem }, buf, ?_, hne, rfl, ?_, hroom, ?_⟩
        · rw [newBuffer, bufAlloc, if_pos rfl, halloc]
          simp only [Option.bind_eq_bind, Option.bind_some, if_neg hne, mem]
        · intro hzero
          apply hsize
          rw [hzero]
          rfl
        · have hsmall : (bufSize w h).toUInt64.toNat ≤ 2 ^ 64 - 16 := by
            rw [UInt32.toNat_toUInt64]
            omega
          have hle := KHeap.le_alignUp hsmall
          rw [UInt32.toNat_toUInt64] at hle
          apply (hb'.mono (le_trans hle hb'.payload)).write
          intro x hx
          apply Memory.fill_apply_outside _ _ hx

/-- A new window has room for its pixels when their number of bytes does not wrap, or when
it is not made. -/
theorem woosGraphicsCreateWindowEx_backed {ok : Bool} {threadId w h flags : UInt32}
    {title : Option CString} (hm : m.Backed ps)
    (hsize : 4 * (w.toNat * h.toNat) < 2 ^ 32 ∨ WindowStack.maxWindows ≤ m.stack.windows.length
      ∨ ok = false ∨ bufSize w h = 0 ∨ ¬ HasRoom m.heap (bufSize w h).toUInt64) :
  ∃ m' r, m.woosGraphicsCreateWindowEx ok threadId w h title flags = some (m', r) ∧ m'.Backed ps
  := by
  rw [woosGraphicsCreateWindowEx]
  rcases newBuffer_backed ok w h hm with hnew | ⟨heap', buf, hnew, hne, hok, hzero, hroom, hb⟩
  · refine ⟨m, -1, ?_, hm⟩
    rw [hnew]
    rfl
  · rw [hnew]
    simp only [Option.bind_eq_bind, Option.bind_some, if_neg hne]
    cases hinsert : m.stack.insert threadId w h flags title buf with
    | none =>
        obtain ⟨heap'', hfree, hb'⟩ := hb.free
        refine ⟨⟨heap'', m.stack⟩, -1, ?_, hb'⟩
        simp only [hfree, Option.bind_some]
    | some stack =>
        refine ⟨⟨heap', stack⟩, _, rfl, ?_⟩
        have hexact : 4 * (w.toNat * h.toNat) < 2 ^ 32 := by
          rcases hsize with hsize | hfull | hcon | hcon | hcon
          · exact hsize
          · rw [WindowStack.insert, if_pos hfull] at hinsert
            cases hinsert
          · rw [hok] at hcon
            cases hcon
          · exact absurd hcon hzero
          · exact absurd hroom hcon
        rw [bufSize_toNat hexact] at hb
        rw [Backed, WindowStack.insert_map (fun _ _ => rfl) hinsert]
        apply hb.perm
        have hentry : (WindowStack.newWindow m.stack.nextWindowId threadId w h flags title buf).entry
            = (buf.toNat, 4 * (w.toNat * h.toNat)) := by
          rw [Window.entry, Window.need]
          exact congrArg _ (max_self _)
        rw [hentry]
        apply List.perm_append_singleton

theorem woosGraphicsDestroyWindow_backed (hm : m.Backed ps) (windowId : UInt32) :
  ∃ m' r, m.woosGraphicsDestroyWindow windowId = some (m', r) ∧ m'.Backed ps
    ∧ ∀ v s, m.stack.remove windowId = some (v, s) → m'.stack = s
  := by
  rw [woosGraphicsDestroyWindow]
  cases hremove : m.stack.remove windowId with
  | none =>
      refine ⟨m, -1, rfl, hm, ?_⟩
      intro v s hcon
      cases hcon
  | some r =>
      obtain ⟨v, s⟩ := r
      have hb : (⟨m.heap, ps⟩ : KHeap.Session).Backed
          ((v.buffer.toNat, v.need) :: s.windows.map Window.entry) :=
        KHeap.Session.Backed.perm hm
          (WindowStack.remove_map (g := Window.entry) (fun _ _ => rfl) hremove).symm
      obtain ⟨heap', hfree, hb'⟩ := hb.free
      refine ⟨⟨heap', s⟩, 0, ?_, hb', ?_⟩
      · simp only [if_pos hb.ne_zero, hfree, Option.bind_eq_bind, Option.bind_some]
      · intro v' s' heq
        cases heq
        rfl

theorem destroyLoop_backed {threadId : UInt32} {n : Nat} {destroyed : Int32} (hm : m.Backed ps)
    (hn : m.stack.windows.length < n) :
  ∃ m' r, destroyLoop threadId n m destroyed = some (m', r) ∧ m'.Backed ps
  := by
  induction n generalizing m destroyed with
  | zero => omega
  | succ n ih =>
      rw [destroyLoop]
      by_cases htarget : m.stack.topOfThread threadId = 0
      · rw [if_pos htarget]
        exact ⟨m, _, rfl, hm⟩
      · obtain ⟨m', r, hdestroy, hm', hstack⟩ :=
          woosGraphicsDestroyWindow_backed hm (m.stack.topOfThread threadId)
        obtain ⟨v, s, hremove⟩ := WindowStack.remove_topOfThread htarget
        have hlength := WindowStack.remove_length hremove
        rw [if_neg htarget, hdestroy]
        apply ih hm'
        rw [hstack v s hremove]
        omega

/-- The geometry of a window that is maximized or returns to its size needs no more bytes than
before, except for the pixels of a window that takes on the size of the screen. -/
theorem maximizeGeometry_need (info : Option ScreenInfo) (v : Window) :
  (WindowStack.maximizeGeometry info v).need
      ≤ max v.need (4 * ((WindowStack.maximizeGeometry info v).w.toNat
          * (WindowStack.maximizeGeometry info v).h.toNat))
    ∧ (4 * ((WindowStack.maximizeGeometry info v).w.toNat
          * (WindowStack.maximizeGeometry info v).h.toNat) ≤ v.need
      ∨ ∃ screen, info = some screen ∧ v.flags &&& WindowStack.flagMaximized = 0
          ∧ 0 < screen.width ∧ 58 < screen.height
          ∧ (WindowStack.maximizeGeometry info v).w = screen.width.toUInt32
          ∧ (WindowStack.maximizeGeometry info v).h = screen.height.toUInt32 - 58)
  := by
  rw [WindowStack.maximizeGeometry]
  split
  case isTrue =>
    simp only [Window.need]
    omega
  case isFalse hflags =>
    cases info with
    | none =>
        simp only [Window.need]
        omega
    | some screen =>
        simp only
        split
        case isTrue hscreen =>
          simp only [Window.need]
          constructor
          · omega
          · right
            exact ⟨screen, rfl, not_not.mp hflags, hscreen.1, hscreen.2, rfl, rfl⟩
        case isFalse =>
          simp only [Window.need]
          omega

/-- A maximized window has room for its pixels when their number of bytes does not wrap and
the buffer can be enlarged. -/
theorem woosGraphicsToggleMaximize_backed {ok : Bool} {info : Option ScreenInfo}
    {windowId : UInt32} (hm : m.Backed ps)
    (hgrow : ∀ i v screen, m.stack.find windowId = some (i, v)
      → v.title ≠ WindowStack.calculatorTitle → v.flags &&& WindowStack.flagMaximized = 0
      → info = some screen → 0 < screen.width → 58 < screen.height
      → 4 * (screen.width.toUInt32.toNat * (screen.height.toUInt32 - 58).toNat) < 2 ^ 32
        ∧ CanGrow ok m.heap v.buffer
            (bufSize screen.width.toUInt32 (screen.height.toUInt32 - 58)).toUInt64) :
  ∃ m' r, m.woosGraphicsToggleMaximize ok info windowId = some (m', r) ∧ m'.Backed ps
  := by
  rw [woosGraphicsToggleMaximize]
  cases hfind : m.stack.find windowId with
  | none => exact ⟨m, -1, rfl, hm⟩
  | some r =>
      obtain ⟨i, v⟩ := r
      simp only
      split
      case isTrue => exact ⟨m, 0, rfl, hm⟩
      case isFalse htitle =>
        have hb : (⟨m.heap, ps⟩ : KHeap.Session).Backed ((v.buffer.toNat, v.need)
            :: (m.stack.windows.eraseIdx i).map Window.entry) :=
          KHeap.Session.Backed.perm hm ((WindowStack.perm_of_find hfind).map Window.entry).symm
        obtain ⟨hneed, hcase⟩ := maximizeGeometry_need info v
        generalize WindowStack.maximizeGeometry info v = v' at hneed hcase ⊢
        -- the window at its new place in the list, with the buffer it ends up with
        have hfinish : ∀ heap buffer, (⟨heap, ps⟩ : KHeap.Session).Backed
              ((buffer.toNat, v'.need) :: (m.stack.windows.eraseIdx i).map Window.entry)
            → (WinMgr.woosGraphicsBringToFront
                ⟨heap, m.stack.modify i (fun _ => { v' with buffer := buffer })⟩
                windowId).1.Backed ps := by
          intro heap buffer hb'
          apply woosGraphicsBringToFront_backed
          apply hb'.perm
          apply (WindowStack.modify_const_perm hfind { v' with buffer := buffer }).map Window.entry
        by_cases hpos : 0 < v'.w ∧ 0 < v'.h
        · have hroom : 4 * (v'.w.toNat * v'.h.toNat) < 2 ^ 32
              ∧ CanGrow ok m.heap v.buffer (bufSize v'.w v'.h).toUInt64 := by
            rcases hcase with hle | ⟨screen, hinfo, hflags, hw, hh, hw', hh'⟩
            · have hbounds := hb.bounds
              have hpayload := hb.payload
              have hstop : KHeap.stop < 2 ^ 32 := by decide
              have hexact : 4 * (v'.w.toNat * v'.h.toNat) < 2 ^ 32 := by omega
              use hexact
              left
              rw [UInt64.le_iff_toNat_le, UInt32.toNat_toUInt64, bufSize_toNat hexact]
              exact le_trans hle hpayload
            · rw [hw', hh']
              apply hgrow i v screen hfind htitle hflags hinfo hw hh
          obtain ⟨hexact, hcan⟩ := hroom
          have hsize : bufSize v'.w v'.h ≠ 0 := by
            have hw := UInt32.lt_iff_toNat_lt.mp hpos.1
            have hh := UInt32.lt_iff_toNat_lt.mp hpos.2
            rw [ne_eq, ← UInt32.toNat_inj, bufSize_toNat hexact]
            have hmul := Nat.mul_pos hw hh
            simp only [UInt32.toNat_zero]
            omega
          obtain ⟨heap', buffer', hgrown, hb'⟩ :=
            growBuffer_backed (bufSize v.w v.h) hb hsize hcan
          rw [if_pos hpos, hgrown]
          refine ⟨_, 0, rfl, ?_⟩
          apply hfinish
          apply hb'.mono
          apply le_trans hneed
          rw [bufSize_toNat hexact] at hb'
          exact hb'.payload
        · have hzero : 4 * (v'.w.toNat * v'.h.toNat) = 0 := by
            rw [UInt32.lt_iff_toNat_lt, UInt32.lt_iff_toNat_lt, UInt32.toNat_zero] at hpos
            rcases Nat.eq_zero_or_pos v'.w.toNat with hw | hw
            · rw [hw, Nat.zero_mul]
            · rw [Nat.eq_zero_of_not_pos (fun hh => hpos ⟨hw, hh⟩), Nat.mul_zero]
          rw [if_neg hpos]
          refine ⟨_, 0, rfl, ?_⟩
          apply hfinish
          apply hb.mono
          have hpayload := hb.payload
          omega

/-- A window that is resized by a blit has room for its pixels when their number of bytes is
neither zero nor wraps, or when the reallocation fails. -/
theorem fitBuffer_backed {ok : Bool} {heap : KHeap} {v : Window} {w h : UInt32}
    {N : List (Nat × Nat)} (hb : (⟨heap, ps⟩ : KHeap.Session).Backed (v.entry :: N))
    (hsize : v.flags &&& WindowStack.flagMaximized = 0 → ¬ (w = v.w ∧ h = v.h)
      → w.toUInt64 * h.toUInt64 * 4 ≠ 0 ∧ (4 * (w.toNat * h.toNat) ≤ 2 ^ 64 - 16
          ∨ ¬ CanGrow ok heap v.buffer (w.toUInt64 * h.toUInt64 * 4))) :
  ∃ heap' v', fitBuffer ok heap v w h = some (heap', v')
    ∧ (⟨heap', ps⟩ : KHeap.Session).Backed (v'.entry :: N)
  := by
  rw [fitBuffer]
  split
  case isTrue => exact ⟨heap, v, rfl, hb⟩
  case isFalse hcase =>
    rw [not_or, not_not] at hcase
    obtain ⟨hne, hroom⟩ := hsize hcase.1 hcase.2
    have hexact : 4 * (w.toNat * h.toNat) < 2 ^ 64
        → (w.toUInt64 * h.toUInt64 * 4).toNat = 4 * (w.toNat * h.toNat) := by
      intro hlt
      have hfour : (4 : UInt64).toNat = 4 := rfl
      rw [UInt64.toNat_mul, UInt64.toNat_mul, UInt32.toNat_toUInt64, UInt32.toNat_toUInt64, hfour,
        Nat.mod_mul_mod, Nat.mul_comm, Nat.mod_eq_of_lt hlt]
    have hno : CanGrow ok heap v.buffer (w.toUInt64 * h.toUInt64 * 4)
        → 4 * (w.toNat * h.toNat) ≤ 2 ^ 64 - 16 := by
      intro hcan
      rcases hroom with hle | hcon
      · exact hle
      · exact absurd hcan hcon
    have hno' : CanGrow ok heap v.buffer (w.toUInt64 * h.toUInt64 * 4)
        → (w.toUInt64 * h.toUInt64 * 4).toNat ≤ 2 ^ 64 - 16 := by
      intro hcan
      have hle := hno hcan
      rw [hexact (by omega)]
      exact hle
    rcases bufRealloc_backed ok hb hne hno' with
      ⟨-, hrealloc⟩ | ⟨heap', buffer', hrealloc, hne', hcan, hb'⟩
    · refine ⟨heap, v, ?_, hb⟩
      rw [hrealloc]
      rfl
    · refine ⟨heap', { v with buffer := buffer', w := w, h := h }, ?_, ?_⟩
      · rw [hrealloc]
        simp only [Option.bind_eq_bind, Option.bind_some, if_neg hne']
      · have hle := hno hcan
        rw [hexact (by omega)] at hb'
        have hpayload := hb'.payload
        apply hb'.mono
        simp only [Window.need] at hpayload ⊢
        omega

theorem woosGraphicsBlitWindowInternal_backed {ok : Bool} {windowId w h : UInt32}
    {wasmBuf : UInt64} (hm : m.Backed ps)
    (hsize : ∀ i v, m.stack.find windowId = some (i, v)
      → v.flags &&& WindowStack.flagMaximized = 0 → ¬ (w = v.w ∧ h = v.h)
      → w.toUInt64 * h.toUInt64 * 4 ≠ 0 ∧ (4 * (w.toNat * h.toNat) ≤ 2 ^ 64 - 16
          ∨ ¬ CanGrow ok m.heap v.buffer (w.toUInt64 * h.toUInt64 * 4))) :
  ∃ m' r, m.woosGraphicsBlitWindowInternal ok windowId wasmBuf w h = some (m', r) ∧ m'.Backed ps
  := by
  rw [woosGraphicsBlitWindowInternal]
  cases hfind : m.stack.find windowId with
  | none => exact ⟨m, -1, rfl, hm⟩
  | some r =>
      obtain ⟨i, v⟩ := r
      have hb : (⟨m.heap, ps⟩ : KHeap.Session).Backed
          (v.entry :: (m.stack.windows.eraseIdx i).map Window.entry) :=
        KHeap.Session.Backed.perm hm ((WindowStack.perm_of_find hfind).map Window.entry).symm
      obtain ⟨heap', v', hfit, hb'⟩ := fitBuffer_backed hb (hsize i v hfind)
      simp only [hfit, Option.bind_eq_bind, Option.bind_some]
      refine ⟨_, 0, rfl, ?_⟩
      apply KHeap.Session.Backed.perm _
        ((WindowStack.modify_const_perm hfind v').map Window.entry)
      apply KHeap.Session.Backed.write hb'
      intro x hx
      have hbounds := KHeap.Session.Backed.bounds hb'
      have hstop : KHeap.stop < 2 ^ 32 := by decide
      have hneed : 4 * (v'.w.toNat * v'.h.toNat) ≤ v'.need := le_max_left _ _
      apply blitPixels_outside
      · omega
      · omega

end

end WinMgr

/-! ### Runs -/

/-- The state of the window calls, and the pointers that the other callers of the kernel heap
hold. -/
structure Desktop where
  mgr : WinMgr
  others : List UInt64

namespace Desktop

/-- A window call, or a call or write of the other callers of the kernel heap. -/
inductive Call where
  | createWindow (ok : Bool) (threadId w h : UInt32) (title : Option CString) (flags : UInt32)
  | destroyWindow (windowId : UInt32)
  | destroyThreadWindows (threadId : UInt32)
  | blitWindow (ok : Bool) (windowId : UInt32) (wasmBuf : UInt64) (w h : UInt32)
  | toggleMaximize (ok : Bool) (info : Option ScreenInfo) (windowId : UInt32)
  | toggleMinimize (windowId : UInt32)
  | bringToFront (windowId : UInt32)
  | setWindowPos (windowId : UInt32) (x y : Int32)
  | setWindowTitle (windowId : UInt32) (title : Option CString)
  | setWindowFlags (windowId flags : UInt32)
  | other (c : KHeap.Call)

/-- The state at boot. -/
def init (m : Memory) : Desktop := ⟨⟨KHeap.kheapInit m, WindowStack.init⟩, []⟩

/-- The heap as its other callers see it. -/
def clients (d : Desktop) : KHeap.Session := ⟨d.mgr.heap, d.others⟩

/-- The state after a window call. -/
def setMgr (d : Desktop) (r : WinMgr × Int32) : Desktop := { d with mgr := r.1 }

/-- Execute a call. -/
def call (d : Desktop) : Call → Option Desktop
  | .createWindow ok threadId w h title flags =>
      (d.mgr.woosGraphicsCreateWindowEx ok threadId w h title flags).map d.setMgr
  | .destroyWindow windowId => (d.mgr.woosGraphicsDestroyWindow windowId).map d.setMgr
  | .destroyThreadWindows threadId =>
      (d.mgr.woosGraphicsDestroyThreadWindows threadId).map d.setMgr
  | .blitWindow ok windowId wasmBuf w h =>
      (d.mgr.woosGraphicsBlitWindowInternal ok windowId wasmBuf w h).map d.setMgr
  | .toggleMaximize ok info windowId =>
      (d.mgr.woosGraphicsToggleMaximize ok info windowId).map d.setMgr
  | .toggleMinimize windowId => some (d.setMgr (d.mgr.woosGraphicsToggleMinimize windowId))
  | .bringToFront windowId => some (d.setMgr (d.mgr.woosGraphicsBringToFront windowId))
  | .setWindowPos windowId x y => some (d.setMgr (d.mgr.woosGraphicsSetWindowPos windowId x y))
  | .setWindowTitle windowId title =>
      some (d.setMgr (d.mgr.woosGraphicsSetWindowTitle windowId title))
  | .setWindowFlags windowId flags =>
      some (d.setMgr (d.mgr.woosGraphicsSetWindowFlags windowId flags))
  | .other c => (d.clients.call c).map (fun s => ⟨⟨s.heap, d.mgr.stack⟩, s.live⟩)

/-- The other callers reallocate and write only what they hold, do not free the buffers of
windows, and do not overrun. -/
def Permitted (d : Desktop) : Call → Prop
  | .other c => d.clients.Permitted c ∧ d.clients.DoesNotOverrun c
      ∧ KHeap.Session.Avoids (d.mgr.stack.windows.map Window.entry) c
  | _ => True

/-- The call gives no window a size that its buffer has no room for: a new window's number of
bytes does not wrap, or the window is not made; a blit of another size has neither no pixels
nor so many that their number of bytes wraps, or its reallocation fails; and a window that is
maximized to the size of the screen can be given a buffer of that size. -/
def KeepsRoom (d : Desktop) : Call → Prop
  | .createWindow ok _ w h _ _ =>
      4 * (w.toNat * h.toNat) < 2 ^ 32 ∨ WindowStack.maxWindows ≤ d.mgr.stack.windows.length
        ∨ ok = false ∨ WinMgr.bufSize w h = 0
        ∨ ¬ HasRoom d.mgr.heap (WinMgr.bufSize w h).toUInt64
  | .blitWindow ok windowId _ w h => ∀ i v, d.mgr.stack.find windowId = some (i, v)
      → v.flags &&& WindowStack.flagMaximized = 0 → ¬ (w = v.w ∧ h = v.h)
      → w.toUInt64 * h.toUInt64 * 4 ≠ 0 ∧ (4 * (w.toNat * h.toNat) ≤ 2 ^ 64 - 16
          ∨ ¬ WinMgr.CanGrow ok d.mgr.heap v.buffer (w.toUInt64 * h.toUInt64 * 4))
  | .toggleMaximize ok info windowId => ∀ i v screen, d.mgr.stack.find windowId = some (i, v)
      → v.title ≠ WindowStack.calculatorTitle → v.flags &&& WindowStack.flagMaximized = 0
      → info = some screen → 0 < screen.width → 58 < screen.height
      → 4 * (screen.width.toUInt32.toNat * (screen.height.toUInt32 - 58).toNat) < 2 ^ 32
        ∧ WinMgr.CanGrow ok d.mgr.heap v.buffer
            (WinMgr.bufSize screen.width.toUInt32 (screen.height.toUInt32 - 58)).toUInt64
  | _ => True

/-- Every window has a buffer that is a live allocation with room for the pixels of the window,
and no two windows, nor a window and another caller of the heap, have the same. -/
def BuffersOwned (d : Desktop) : Prop :=
  (∃ L, KHeap.Live d.mgr.heap L ∧ ∀ v ∈ d.mgr.stack.windows,
    ∃ q, (v.buffer.toNat, q) ∈ L ∧ 4 * (v.w.toNat * v.h.toNat) ≤ q)
  ∧ (d.others ++ d.mgr.stack.windows.map Window.buffer).Nodup

theorem setMgr_backed {d : Desktop} {r : Option (WinMgr × Int32)}
    (h : ∃ m n, r = some (m, n) ∧ m.Backed d.others) :
  ∃ d', r.map d.setMgr = some d' ∧ d'.mgr.Backed d'.others
  := by
  obtain ⟨m, n, rfl, hm⟩ := h
  exact ⟨_, rfl, hm⟩

theorem call_backed {d : Desktop} {c : Call} (hd : d.mgr.Backed d.others)
    (hpermitted : d.Permitted c) (hroom : d.KeepsRoom c) :
  ∃ d', d.call c = some d' ∧ d'.mgr.Backed d'.others
  := by
  cases c with
  | createWindow ok threadId w h title flags =>
      apply setMgr_backed
      apply WinMgr.woosGraphicsCreateWindowEx_backed hd hroom
  | destroyWindow windowId =>
      apply setMgr_backed
      obtain ⟨m, r, hdestroy, hm, -⟩ := WinMgr.woosGraphicsDestroyWindow_backed hd windowId
      exact ⟨m, r, hdestroy, hm⟩
  | destroyThreadWindows threadId =>
      apply setMgr_backed
      apply WinMgr.destroyLoop_backed hd (Nat.lt_succ_self _)
  | blitWindow ok windowId wasmBuf w h =>
      apply setMgr_backed
      apply WinMgr.woosGraphicsBlitWindowInternal_backed hd hroom
  | toggleMaximize ok info windowId =>
      apply setMgr_backed
      apply WinMgr.woosGraphicsToggleMaximize_backed hd hroom
  | toggleMinimize windowId =>
      refine ⟨_, rfl, WinMgr.edit_backed hd ?_⟩
      intro s hs
      apply WindowStack.toggleMinimize_map (WindowStack.ignoresMarks_of_flags (fun _ _ => rfl)) hs
  | bringToFront windowId =>
      exact ⟨_, rfl, WinMgr.woosGraphicsBringToFront_backed hd windowId⟩
  | setWindowPos windowId x y =>
      refine ⟨_, rfl, WinMgr.edit_backed hd ?_⟩
      intro s hs
      rw [WindowStack.setWindowPos_map (fun _ _ _ => rfl) hs]
  | setWindowTitle windowId title =>
      refine ⟨_, rfl, WinMgr.edit_backed hd ?_⟩
      intro s hs
      rw [WindowStack.setWindowTitle_map (fun _ _ => rfl) hs]
  | setWindowFlags windowId flags =>
      refine ⟨_, rfl, WinMgr.edit_backed hd ?_⟩
      intro s hs
      rw [WindowStack.setWindowFlags_map (fun _ _ => rfl) hs]
  | other c =>
      obtain ⟨hc, hno, havoids⟩ := hpermitted
      obtain ⟨s, hs, hb⟩ := KHeap.Session.Backed.call hd hc hno havoids
      refine ⟨⟨⟨s.heap, d.mgr.stack⟩, s.live⟩, ?_, hb⟩
      rw [call, clients, hs]
      rfl

theorem buffersOwned_of_backed {d : Desktop} (hd : d.mgr.Backed d.others) :
  d.BuffersOwned
  := by
  constructor
  · obtain ⟨L, hl, -, hlive⟩ := KHeap.Session.Backed.exists_live hd
    use L, hl
    intro v hv
    obtain ⟨q, hq, hle⟩ := hlive v.entry (List.mem_map_of_mem hv)
    use q, hq
    exact le_trans (le_max_left _ _) hle
  · have hnodup := KHeap.Session.Backed.nodup hd
    rw [List.map_map] at hnodup
    apply List.Nodup.of_map UInt64.toNat
    rw [List.map_append, List.map_map]
    exact hnodup

/-- After every run in which no call gives a window a size that its buffer has no room for, the
buffers are owned. -/
theorem buffers_owned
    (m : Memory) (calls : List Call)
    (h : Run.Guarded call (fun d c => d.Permitted c ∧ d.KeepsRoom c) (init m) calls) :
  ∃ d, Run.exec call (init m) calls = some d ∧ d.BuffersOwned
  := by
  have hinit : (init m).mgr.Backed (init m).others :=
    ⟨[], KHeap.Session.init_holds m, List.Forall₂.nil⟩
  have hstep : ∀ d c, d.mgr.Backed d.others → d.Permitted c ∧ d.KeepsRoom c
      → ∃ d', call d c = some d' ∧ d'.mgr.Backed d'.others := by
    intro d c hd hc
    apply call_backed hd hc.1 hc.2
  obtain ⟨d, hrun, hd⟩ := Run.exec_invariant hstep hinit h
  use d, hrun
  apply buffersOwned_of_backed hd

/-- The case of a window of one pixel that a blit enlarges. -/
theorem buffers_owned_create_blit :
  ∃ d, Run.exec call (init (fun _ => 0))
      [.createWindow true 1 1 1 none 0, .blitWindow true 1 0x1000000 2 2] = some d
    ∧ d.BuffersOwned
  := by
  apply buffers_owned
  constructor
  · use trivial
    left
    decide
  · intro d _
    constructor
    · use trivial
      intro i v _ _ _
      constructor
      · decide
      · left
        decide
    · intros
      trivial

/-- A window whose number of bytes wraps to 4. -/
def wrapped : List Call := [.createWindow true 1 0x40000001 1 none 0]

/-- The window of `wrapped` has a payload of 16 bytes for 2^30 + 1 pixels. -/
theorem not_owned_after_wrapped :
  Run.Guarded call Permitted (init (fun _ => 0)) wrapped
    ∧ ∃ d, Run.exec call (init (fun _ => 0)) wrapped = some d ∧ ¬ d.BuffersOwned
  := by
  have hrun : (Run.exec call (init (fun _ => 0)) wrapped).map (fun d =>
      d.mgr.stack.windows.map (fun v => (v.buffer, v.w, v.h))) = some [(0x2000020, 0x40000001, 1)] := by
    decide +kernel
  constructor
  · use trivial
    intros
    trivial
  · obtain ⟨d, hd, hreads⟩ := Option.map_eq_some_iff.mp hrun
    use d, hd
    rintro ⟨⟨L, hl, howned⟩, -⟩
    cases hwindows : d.mgr.stack.windows with
    | nil =>
        rw [hwindows] at hreads
        cases hreads
    | cons v vs =>
        rw [hwindows, List.map_cons] at hreads
        obtain ⟨hv, -⟩ := List.cons_eq_cons.mp hreads
        simp only [Prod.mk.injEq] at hv
        obtain ⟨q, hq, hle⟩ := howned v (by rw [hwindows]; apply List.mem_cons_self)
        have hstop := (hl.bounds hq).2
        rw [hv.2.1, hv.2.2] at hle
        have hbytes : 4 * ((0x40000001 : UInt32).toNat * (1 : UInt32).toNat) = 4294967300 := by decide
        have hstop' : KHeap.stop = 167772160 := rfl
        omega

end Desktop
