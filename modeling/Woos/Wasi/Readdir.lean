import Woos.Wasi.Dirents

/-!
# Pages of a directory

What one call of `wasi_fd_readdir` leaves in the buffer: the page of the entries from the cookie on,
counted from where the directory object stands.
-/

namespace Wasi

variable {V Fil Dir : Type} {B : Backend V Fil Dir} {vol : V → Prop}
  {rest : Dir → List FilInfo → Prop} {s : Wasi V Fil Dir} {i : Fin maxHandles}

/-- The page for a buffer with this room, of the entries that follow the entry with number `k`. -/
def dirPage (room : Nat) (cookie : UInt64) (k : Nat) (es : List FilInfo) : List UInt8 :=
  Records.page direntBytes 24 room ((es.zipIdx k).drop (cookie.toNat - k))

/-- The number of entries that are read for it. -/
def dirTaken (room : Nat) (cookie : UInt64) (k : Nat) (es : List FilInfo) : Nat :=
  cookie.toNat - k
    + Records.taken direntBytes 24 room ((es.zipIdx k).drop (cookie.toNat - k))

/-- The header and the part of the name for which there is room are the entry, cut. -/
theorem take_direntBytes {e : FilInfo × Nat} {room : Nat} (hroom : 24 ≤ room) :
  (direntBytes e).take room
    = direntHeader (UInt64.ofNat (e.2 + 1)) (UInt32.ofNat e.1.fname.bytes.length) e.1.filetype
      ++ e.1.fname.bytes.take (room - 24)
  := by
  rw [direntBytes, List.take_append, length_direntHeader, List.take_of_length_le]
  rw [length_direntHeader]
  apply hroom

/-! ### One round of the loop -/

/-- Writing one string behind another. -/
theorem write_write (a : Nat) (bs cs : List UInt8) :
  (s.write a bs).write (a + bs.length) cs = s.write a (bs ++ cs)
  := by
  rw [write, write, write, Memory.write_append]

theorem ofNat_lt_iff {k : Nat} (hk : k < maxDirEntries) (cookie : UInt64) :
  UInt64.ofNat k < cookie ↔ k < cookie.toNat
  := by
  have hmax : maxDirEntries = 65536 := rfl
  rw [UInt64.lt_iff_toNat_lt, UInt64.toNat_ofNat_of_lt']
  rw [UInt64.size]
  omega

/-- An entry before the cookie. -/
theorem readdirLoop_skip {h : Int32} {ent : VfsDirent} {vfs : Vfs V Fil Dir} {k : Nat} (n : Nat)
    (buf bufLen used : UInt32) {cookie : UInt64} (hk : k < maxDirEntries)
    (hread : s.vfs.vfsReaddir B h = (1, some ent, vfs)) (hskip : k < cookie.toNat) :
  readdirLoop B h buf bufLen cookie (n + 1) (UInt64.ofNat k) used s
    = readdirLoop B h buf bufLen cookie n (UInt64.ofNat (k + 1)) used { s with vfs := vfs }
  := by
  rw [readdirLoop, hread]
  dsimp only
  rw [if_neg (by decide), if_pos ((ofNat_lt_iff hk cookie).mpr hskip), UInt64.ofNat_add]
  rfl

/-- An entry for whose header there is no room. -/
theorem readdirLoop_full {h : Int32} {ent : VfsDirent} {vfs : Vfs V Fil Dir} {k : Nat} (n : Nat)
    (buf : UInt32) {bufLen used : UInt32} {cookie : UInt64} (hk : k < maxDirEntries)
    (hread : s.vfs.vfsReaddir B h = (1, some ent, vfs)) (hcookie : cookie.toNat ≤ k)
    (hfull : bufLen.toNat < used.toNat + 24) :
  readdirLoop B h buf bufLen cookie (n + 1) (UInt64.ofNat k) used s
    = (some used, { s with vfs := vfs })
  := by
  rw [readdirLoop, hread]
  dsimp only
  rw [if_neg (by decide), if_neg, if_pos hfull]
  rw [ofNat_lt_iff hk]
  omega

/-- An entry that is written, cut where the buffer ends. -/
theorem readdirLoop_entry {h : Int32} {e : FilInfo} {vfs : Vfs V Fil Dir} {k : Nat} (n : Nat)
    (buf : UInt32) {bufLen used : UInt32} {cookie : UInt64} (hk : k < maxDirEntries)
    (hread : s.vfs.vfsReaddir B h = (1, some ⟨e.fname, e.fattrib &&& amDir ≠ 0, e.fsize⟩, vfs))
    (hname : e.fname.bytes.length ≤ 12) (hcookie : cookie.toNat ≤ k) (hused : used.toNat ≤ 36 * k)
    (hroom : used.toNat + 24 ≤ bufLen.toNat) :
  let size := (direntBytes (e, k)).length
  let room := bufLen.toNat - used.toNat
  let used' := used + UInt32.ofNat (min size room)
  let s' := write { s with vfs := vfs } (buf.toNat + used.toNat) ((direntBytes (e, k)).take room)
  readdirLoop B h buf bufLen cookie (n + 1) (UInt64.ofNat k) used s
    = if size < room then
        readdirLoop B h buf bufLen cookie n (UInt64.ofNat (k + 1)) used' s'
      else
        (some used', s')
  := by
  intro size room used' s'
  have hmax : maxDirEntries = 65536 := rfl
  have hsize : size = 24 + e.fname.bytes.length := length_direntBytes (e, k)
  have hlt := bufLen.toNat_lt
  have hnext : UInt64.ofNat k + 1 = UInt64.ofNat (k + 1) := by
    rw [UInt64.ofNat_add]
    rfl
  have hnamelen : (UInt32.ofNat e.fname.bytes.length).toNat = e.fname.bytes.length := by
    apply UInt32.toNat_ofNat_of_lt
    rw [UInt32.size]
    omega
  have hused24 : (used + 24).toNat = used.toNat + 24 := by
    have htwentyfour : (24 : UInt32).toNat = 24 := rfl
    rw [UInt32.toNat_add, htwentyfour]
    omega
  -- how much of the name is copied
  set copyName := if bufLen < used + 24 + UInt32.ofNat e.fname.bytes.length
    then bufLen - (used + 24) else UInt32.ofNat e.fname.bytes.length with hcopyName
  have hend : (used + 24 + UInt32.ofNat e.fname.bytes.length).toNat
      = used.toNat + 24 + e.fname.bytes.length := by
    rw [UInt32.toNat_add, hused24, hnamelen]
    omega
  have hcopy : copyName.toNat = min e.fname.bytes.length (room - 24) := by
    rw [hcopyName]
    split
    · next hcut =>
        rw [UInt32.lt_iff_toNat_lt, hend] at hcut
        rw [UInt32.toNat_sub_of_le, hused24]
        · omega
        · rw [UInt32.le_iff_toNat_le, hused24]
          omega
    · next hfits =>
        rw [UInt32.lt_iff_toNat_lt, hend] at hfits
        rw [hnamelen]
        omega
  have htake : e.fname.bytes.take copyName.toNat = e.fname.bytes.take (room - 24) := by
    rw [hcopy, List.take_eq_take_iff]
    omega
  have hdone : used + 24 + copyName = used' := by
    rw [← UInt32.toNat_inj, UInt32.toNat_add, hused24, hcopy, UInt32.toNat_add,
      UInt32.toNat_ofNat_of_lt']
    · congr 1
      omega
    · rw [UInt32.size]
      omega
  have hused' : used'.toNat = used.toNat + min size room := by
    rw [← hdone, UInt32.toNat_add, hused24, hcopy]
    omega
  rw [readdirLoop, hread]
  dsimp only
  rw [if_neg (by decide), if_neg, if_neg (by omega), hnext]
  · have hwrite : ∀ t : Wasi V Fil Dir, (t.write (buf.toNat + used.toNat)
        (direntHeader (UInt64.ofNat (k + 1)) (UInt32.ofNat e.fname.bytes.length)
          e.filetype)).write (buf.toNat + (used + 24).toNat) (e.fname.bytes.take (room - 24))
        = t.write (buf.toNat + used.toNat) ((direntBytes (e, k)).take room) := by
      intro t
      rw [take_direntBytes (by omega), ← write_write, length_direntHeader, hused24, Nat.add_assoc]
    rw [← hcopyName, htake, hdone]
    simp only [decide_eq_true_eq]
    rw [← FilInfo.filetype, hwrite]
    rcases Nat.lt_or_ge size room with hlt | hge
    · rw [if_neg, if_pos hlt]
      rw [UInt32.le_iff_toNat_le, hused']
      omega
    · rw [if_pos, if_neg (Nat.not_lt.mpr hge)]
      rw [UInt32.le_iff_toNat_le, hused']
      omega
  · rw [ofNat_lt_iff hk]
    omega

/-- The loop of `wasi_fd_readdir` writes the page. -/
theorem readdirLoop_page (hreads : Reads B vol rest) {es : List FilInfo} {k n : Nat}
    (buf bufLen : UInt32) (cookie : UInt64) {used : UInt32}
    (hlist : s.vfs.Listing vol rest i es) (hn : es.length < n) (hk : k + es.length ≤ maxDirEntries)
    (hused : used.toNat ≤ 36 * k) (hroom : used ≤ bufLen)
    (hskip : k < cookie.toNat → used = 0) :
  ∃ s', readdirLoop B (Vfs.number i) buf bufLen cookie n (UInt64.ofNat k) used s
      = (some (used + UInt32.ofNat (dirPage (bufLen.toNat - used.toNat) cookie k es).length), s')
    ∧ s'.memory = s.memory.write (buf.toNat + used.toNat)
      (dirPage (bufLen.toNat - used.toNat) cookie k es)
    ∧ s'.memorySize = s.memorySize
    ∧ s'.vfs.Listing vol rest i (es.drop (dirTaken (bufLen.toNat - used.toNat) cookie k es))
  := by
  induction es generalizing k n used s with
  | nil =>
      obtain ⟨n, rfl⟩ : ∃ m, n = m + 1 := ⟨n - 1, by simp at hn; omega⟩
      obtain ⟨vfs, hread, hlist'⟩ := Vfs.vfsReaddir_nil hreads hlist
      refine ⟨{ s with vfs := vfs }, ?_, ?_, rfl, ?_⟩
      · rw [readdirLoop, hread]
        simp [dirPage, Records.page]
      · simp [dirPage, Records.page, Memory.write]
      · rw [List.drop_nil]
        apply hlist'
  | cons e es ih =>
      obtain ⟨n, rfl⟩ : ∃ m, n = m + 1 := ⟨n - 1, by simp at hn; omega⟩
      obtain ⟨vfs, hread, hlist'⟩ := Vfs.vfsReaddir_cons hreads hlist
      obtain ⟨-, hname⟩ := hreads.name _ _ hlist.rest e List.mem_cons_self
      rw [List.length_cons] at hn hk
      rcases Nat.lt_or_ge k cookie.toNat with hlt | hge
      · -- the entry is skipped
        have hpage : ∀ room, dirPage room cookie k (e :: es) = dirPage room cookie (k + 1) es := by
          intro room
          rw [dirPage, dirPage, List.zipIdx_cons, show cookie.toNat - k = cookie.toNat - (k + 1) + 1
            by omega, List.drop_succ_cons]
        have htaken : ∀ room, (e :: es).drop (dirTaken room cookie k (e :: es))
            = es.drop (dirTaken room cookie (k + 1) es) := by
          intro room
          rw [dirTaken, dirTaken, List.zipIdx_cons, show cookie.toNat - k
            = cookie.toNat - (k + 1) + 1 by omega, List.drop_succ_cons, Nat.add_right_comm,
            List.drop_succ_cons]
        rw [readdirLoop_skip n buf bufLen used (by omega) hread hlt, hpage, htaken]
        apply ih hlist'
        · omega
        · omega
        · omega
        · apply hroom
        · intro _
          apply hskip hlt
      · have hpage : ∀ room, dirPage room cookie k (e :: es)
            = Records.page direntBytes 24 room ((e, k) :: es.zipIdx (k + 1)) := by
          intro room
          rw [dirPage, List.zipIdx_cons, Nat.sub_eq_zero_of_le hge, List.drop_zero]
        have htaken : ∀ room, dirTaken room cookie k (e :: es)
            = Records.taken direntBytes 24 room ((e, k) :: es.zipIdx (k + 1)) := by
          intro room
          rw [dirTaken, List.zipIdx_cons, Nat.sub_eq_zero_of_le hge, List.drop_zero, Nat.zero_add]
        rw [hpage, htaken]
        rcases Nat.lt_or_ge bufLen.toNat (used.toNat + 24) with hfull | hfits
        · -- there is no room for the header
          refine ⟨{ s with vfs := vfs }, ?_, ?_, rfl, ?_⟩
          · rw [readdirLoop_full n buf (by omega) hread hge hfull, Records.page, if_pos (by omega)]
            simp
          · rw [Records.page, if_pos (by omega)]
            rfl
          · rw [Records.taken, if_pos (by omega)]
            apply hlist'
        · have hheader : ¬ bufLen.toNat - used.toNat < 24 := by omega
          have hsize : (direntBytes (e, k)).length = 24 + e.fname.bytes.length :=
            length_direntBytes (e, k)
          have hlt32 := bufLen.toNat_lt
          rw [readdirLoop_entry n buf (by omega) hread hname hge hused hfits]
          simp only [Records.page, Records.taken, if_neg hheader]
          split
          · next hlt =>
              -- the entry fits and the loop goes on
              have hused' : (used + UInt32.ofNat (direntBytes (e, k)).length).toNat
                  = used.toNat + (direntBytes (e, k)).length := by
                rw [UInt32.toNat_add, UInt32.toNat_ofNat_of_lt']
                · omega
                · rw [UInt32.size]
                  omega
              have hnone : cookie.toNat - (k + 1) = 0 := by omega
              obtain ⟨s', hloop, hmemory, hmemorySize, hlist''⟩ := @ih
                (write { s with vfs := vfs } (buf.toNat + used.toNat)
                  ((direntBytes (e, k)).take (bufLen.toNat - used.toNat))) (k + 1) n
                (used + UInt32.ofNat (direntBytes (e, k)).length) hlist' (by omega) (by omega)
                (by omega) (by rw [UInt32.le_iff_toNat_le]; omega) (by omega)
              rw [dirPage, hnone, List.drop_zero, hused', ← Nat.sub_sub] at hloop hmemory
              rw [dirTaken, hnone, List.drop_zero, hused', ← Nat.sub_sub, Nat.zero_add] at hlist''
              refine ⟨s', ?_, ?_, hmemorySize, ?_⟩
              · rw [Nat.min_eq_left hlt.le, hloop, List.length_append, UInt32.ofNat_add,
                  UInt32.add_assoc]
              · rw [hmemory, Memory.write_append, Nat.add_assoc]
                simp only [write, List.take_of_length_le hlt.le]
              · rw [List.drop_succ_cons]
                apply hlist''
          · next hcut =>
              refine ⟨write { s with vfs := vfs } (buf.toNat + used.toNat)
                ((direntBytes (e, k)).take (bufLen.toNat - used.toNat)), ?_, rfl, rfl, hlist'⟩
              rw [List.length_take, Nat.min_comm]

/-! ### One call -/

/-- The places for the results of `wasi_fd_readdir` are in memory and do not overlap. -/
structure Buffers (s : Wasi V Fil Dir) (buf bufLen bufused : UInt32) : Prop where
  buffer : buf.toNat + bufLen.toNat ≤ s.memorySize
  result : bufused.toNat + 4 ≤ s.memorySize
  disjoint : buf.toNat + bufLen.toNat ≤ bufused.toNat ∨ bufused.toNat + 4 ≤ buf.toNat

/-- The number of bytes that the call reports. -/
def reported (s : Wasi V Fil Dir) (bufused : UInt32) : Nat :=
  LittleEndian.decode (s.memory.read bufused.toNat 4)

theorem length_dirPage_le (room : Nat) (cookie : UInt64) (k : Nat) (es : List FilInfo) :
  (dirPage room cookie k es).length ≤ room
  := by
  apply Records.length_page_le

/-- What is read back after the page and its length have been written. -/
theorem read_page {m : Memory} {page : List UInt8} {buf bufLen bufused : UInt32}
    (hbuffers : s.Buffers buf bufLen bufused) (hpage : page.length ≤ bufLen.toNat) :
  let m' := (m.write buf.toNat page).write bufused.toNat
    (LittleEndian.encode 4 (UInt32.ofNat page.length).toNat)
  LittleEndian.decode (m'.read bufused.toNat 4) = page.length ∧ m'.read buf.toNat page.length = page
  := by
  intro m'
  have hlt := bufLen.toNat_lt
  have hlength : (UInt32.ofNat page.length).toNat = page.length := by
    apply UInt32.toNat_ofNat_of_lt'
    rw [UInt32.size]
    omega
  have hdisjoint := hbuffers.disjoint
  constructor
  · have hread := Memory.read_write (m.write buf.toNat page) bufused.toNat
      (LittleEndian.encode 4 (UInt32.ofNat page.length).toNat)
    rw [LittleEndian.length_encode] at hread
    rw [hread, hlength, LittleEndian.decode_encode]
    omega
  · rw [Memory.read_write_disjoint, Memory.read_write]
    rw [LittleEndian.length_encode]
    omega

theorem handleOf_number :
  ∀ i : Fin maxHandles, handleOf (UInt32.ofNat (i.val + 4)) = Vfs.number i
  := by
  decide

theorem number_nonneg :
  ∀ i : Fin maxHandles, ¬ Vfs.number i < 0
  := by
  decide

theorem checkMem_of_le {addr : UInt32} {len : Nat} (h : addr.toNat + len ≤ s.memorySize) :
  s.checkMem addr len = true
  := by
  rw [checkMem, decide_eq_true h]

/-- The loop on a directory, from its start. -/
theorem readdirLoop_start (hreads : Reads B vol rest) {es : List FilInfo} (buf bufLen : UInt32)
    (cookie : UInt64) (hlist : s.vfs.Listing vol rest i es) :
  ∃ s', readdirLoop B (Vfs.number i) buf bufLen cookie (maxDirEntries + 1) 0 0 s
      = (some (UInt32.ofNat (dirPage bufLen.toNat cookie 0 es).length), s')
    ∧ s'.memory = s.memory.write buf.toNat (dirPage bufLen.toNat cookie 0 es)
    ∧ s'.memorySize = s.memorySize
    ∧ s'.vfs.Listing vol rest i (es.drop (dirTaken bufLen.toNat cookie 0 es))
  := by
  have hcount := hreads.count _ _ hlist.rest
  have hzero : (0 : UInt32) ≤ bufLen := by
    rw [UInt32.le_iff_toNat_le]
    apply Nat.zero_le
  have hloop := @readdirLoop_page V Fil Dir B vol rest s i hreads es 0 (maxDirEntries + 1) buf bufLen
    cookie 0 hlist (by omega) (by omega) (Nat.le_refl 0) hzero (fun _ => rfl)
  rw [UInt32.toNat_zero, Nat.sub_zero, Nat.add_zero, UInt32.zero_add] at hloop
  apply hloop

/-- What a call of `wasi_fd_readdir` on an opened directory leaves. -/
theorem fdReaddir_opened (hreads : Reads B vol rest) {es : List FilInfo} {buf bufLen bufused : UInt32}
    (cookie : UInt64) (hbuffers : s.Buffers buf bufLen bufused) (hlist : s.vfs.Listing vol rest i es) :
  ∃ s', s.fdReaddir B (UInt32.ofNat (i.val + 4)) buf bufLen cookie bufused = (.ret wasiEsuccess, s')
    ∧ s'.reported bufused = (dirPage bufLen.toNat cookie 0 es).length
    ∧ s'.memory.read buf.toNat (s'.reported bufused) = dirPage bufLen.toNat cookie 0 es
    ∧ s'.memorySize = s.memorySize
    ∧ s'.vfs.Listing vol rest i (es.drop (dirTaken bufLen.toNat cookie 0 es))
  := by
  obtain ⟨s', hloop, hmemory, hsize, hlist'⟩ := readdirLoop_start hreads buf bufLen cookie hlist
  obtain ⟨hlength, hpage⟩ := @read_page V Fil Dir s s.memory _ buf bufLen bufused hbuffers
    (length_dirPage_le bufLen.toNat cookie 0 es)
  have hnot3 : ∀ i : Fin maxHandles, ¬ UInt32.ofNat (i.val + 4) < 3 := by decide
  have hne3 : ∀ i : Fin maxHandles, UInt32.ofNat (i.val + 4) ≠ 3 := by decide
  rw [fdReaddir, checkMem_of_le hbuffers.buffer, checkMem_of_le hbuffers.result, if_neg nofun,
    if_neg (hnot3 i)]
  simp only [if_neg (hne3 i), handleOf_number, if_neg (number_nonneg i), hloop, readdirFinish]
  rw [decide_eq_false (hne3 i), if_neg nofun]
  have hreported : (s'.write32 bufused (UInt32.ofNat
      (dirPage bufLen.toNat cookie 0 es).length)).reported bufused
      = (dirPage bufLen.toNat cookie 0 es).length := by
    rw [reported, write32, write, hmemory, hlength]
  refine ⟨_, rfl, hreported, ?_, hsize, hlist'⟩
  rw [hreported, write32, write, hmemory, hpage]

/-- What a call of `wasi_fd_readdir` on the root directory leaves, when there is a handle. -/
theorem fdReaddir_root (hreads : Reads B vol rest) {es : List FilInfo} {buf bufLen bufused : UInt32}
    (cookie : UInt64) (hbuffers : s.Buffers buf bufLen bufused) (hready : s.vfs.ready)
    (hfree : ∃ i, (s.vfs.handles i).inUse = false) (hvol : vol s.vfs.volume)
    (hopens : Vfs.RootOpens B vol rest es) :
  ∃ s', s.fdReaddir B 3 buf bufLen cookie bufused = (.ret wasiEsuccess, s')
    ∧ s'.reported bufused = (dirPage bufLen.toNat cookie 0 es).length
    ∧ s'.memory.read buf.toNat (s'.reported bufused) = dirPage bufLen.toNat cookie 0 es
    ∧ s'.memorySize = s.memorySize
    ∧ s'.vfs.ready ∧ (∃ i, (s'.vfs.handles i).inUse = false) ∧ vol s'.vfs.volume
  := by
  obtain ⟨i, vfs, hopen, hlist⟩ := Vfs.vfsOpen_root hready hvol hfree hopens
  obtain ⟨s', hloop, hmemory, hsize, hlist'⟩ :=
    @readdirLoop_start V Fil Dir B vol rest { s with vfs := vfs } i hreads es buf bufLen cookie hlist
  obtain ⟨hlength, hpage⟩ := @read_page V Fil Dir s s.memory _ buf bufLen bufused hbuffers
    (length_dirPage_le bufLen.toNat cookie 0 es)
  obtain ⟨hready', hfree', hvol'⟩ := Vfs.vfsClose_listing hreads hlist'
  rw [fdReaddir, checkMem_of_le hbuffers.buffer, checkMem_of_le hbuffers.result, if_neg nofun,
    if_neg (by decide)]
  simp only [if_true, hopen, if_neg (number_nonneg i), hloop, readdirFinish, decide_true]
  have hreported : (write32 { s' with vfs := s'.vfs.vfsClose B (Vfs.number i) } bufused
      (UInt32.ofNat (dirPage bufLen.toNat cookie 0 es).length)).reported bufused
      = (dirPage bufLen.toNat cookie 0 es).length := by
    rw [reported, write32, write, hmemory, hlength]
  refine ⟨_, rfl, hreported, ?_, hsize, hready', ⟨i, hfree'⟩, hvol'⟩
  rw [hreported, write32, write, hmemory, hpage]

/-- A call on the root directory fails when there is no volume or no handle. -/
theorem fdReaddir_root_none {buf bufLen bufused : UInt32} (cookie : UInt64)
    (hbuffers : s.Buffers buf bufLen bufused)
    (h : ¬ (s.vfs.ready = true ∧ ∃ i, (s.vfs.handles i).inUse = false)) :
  s.fdReaddir B 3 buf bufLen cookie bufused = (.ret wasiEbadf, s)
  := by
  rw [fdReaddir, checkMem_of_le hbuffers.buffer, checkMem_of_le hbuffers.result, if_neg nofun,
    if_neg (by decide)]
  simp only [if_true, Vfs.vfsOpen_none _ _ h]
  rw [if_pos (by decide)]

end Wasi
