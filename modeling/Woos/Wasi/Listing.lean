import Woos.Wasi.Readdir
import Woos.Wasi.Validity

/-!
# Reading a directory page by page

A reader calls `wasi_fd_readdir` with the number of the last entry that it has received whole, until
fewer bytes than the size of its buffer are used.  On the root directory, which is opened anew for
each call, it receives every entry exactly when no page but the last leaves less room than a header
unused.  On a directory handle the entries before the cookie are skipped from where the directory
object stands, so that it receives every entry exactly when they all fit into one page.
-/

namespace Wasi

variable {V Fil Dir : Type} (B : Backend V Fil Dir)

/-- What a reader keeps of an entry: its name and type. -/
def Shown : Type := List UInt8 × UInt8
  deriving DecidableEq, Repr

/-- The name and type of an entry of the directory. -/
def shown (e : FilInfo) : Shown := (e.fname.bytes, e.filetype)

/-- The same of a received entry. -/
def received (d : Dirent) : Shown := (d.name, d.type)

/-- The cookie for the next call: the number of the last entry received, or the old cookie. -/
def nextCookie (cookie : UInt64) (found : List Dirent) : UInt64 :=
  (found.getLast?.map Dirent.next).getD cookie

/-- The reader, for so many calls; there is no result when a call fails or the calls run out. -/
def reader (fd buf bufLen bufused : UInt32) :
    Nat → UInt64 → List Shown → Wasi V Fil Dir → Option (List Shown)
  | 0, _, _, _ => none
  | n + 1, cookie, shown, s =>
      match s.fdReaddir B fd buf bufLen cookie bufused with
      | (.ret errno, s) =>
          if errno ≠ wasiEsuccess then
            none
          else
            let used := s.reported bufused
            let found := parseDirents used (s.memory.read buf.toNat used)
            let shown := shown ++ found.map received
            if used < bufLen.toNat then
              some shown
            else
              reader fd buf bufLen bufused n (nextCookie cookie found) shown s
      | _ => none

/-- The descriptor of the root directory, or of a directory that has just been opened and yields the
entries. -/
inductive ReadsFrom (vol : V → Prop) (rest : Dir → List FilInfo → Prop) (s : Wasi V Fil Dir)
    (es : List FilInfo) : UInt32 → Prop
  | root (hopens : Vfs.RootOpens B vol rest es) : ReadsFrom vol rest s es 3
  | opened (i : Fin maxHandles) (hlist : s.vfs.Listing vol rest i es) :
      ReadsFrom vol rest s es (UInt32.ofNat (i.val + 4))

/-- The root directory can be opened and its entries fill pages that leave no room but for a header;
the entries of another directory fit into one page. -/
def Pageable (s : Wasi V Fil Dir) (fd bufLen : UInt32) (es : List FilInfo) : Prop :=
  if fd = 3 then
    (s.vfs.ready ∧ ∃ i, (s.vfs.handles i).inUse = false)
      ∧ Records.Streams direntBytes 24 bufLen.toNat bufLen.toNat es.zipIdx
  else
    (es.zipIdx.flatMap direntBytes).length ≤ bufLen.toNat

variable {B} {vol : V → Prop} {rest : Dir → List FilInfo → Prop} {s : Wasi V Fil Dir}
  {es : List FilInfo}

/-! ### One page -/

/-- The entries that fit, of those from the cookie on. -/
def dirWhole (room : Nat) (cookie : UInt64) (es : List FilInfo) : List (FilInfo × Nat) :=
  Records.whole direntBytes room (es.zipIdx.drop cookie.toNat)

theorem header_le (e : FilInfo × Nat) :
  24 ≤ (direntBytes e).length
  := by
  rw [length_direntBytes]
  apply Nat.le_add_right

/-- The reader finds in a page the entries that fit. -/
theorem parse_dirPage (hname : ∀ e ∈ es, e.fname.bytes.length ≤ 12) (room : Nat) (cookie : UInt64) :
  parseDirents (dirPage room cookie 0 es).length (dirPage room cookie 0 es)
    = (dirWhole room cookie es).map toDirent
  := by
  have hmem : ∀ e ∈ es.zipIdx.drop cookie.toNat, e.1.fname.bytes.length < 2 ^ 32 := by
    intro e he
    have hlength := hname e.1 (List.fst_mem_of_mem_zipIdx (List.mem_of_mem_drop he))
    omega
  have hwhole : ∀ e ∈ dirWhole room cookie es, e.1.fname.bytes.length < 2 ^ 32 := by
    intro e he
    apply hmem e ((Records.whole_prefix _ _).subset he)
  have hlength : ∀ l : List (FilInfo × Nat), l.length ≤ (l.flatMap direntBytes).length := by
    intro l
    induction l with
    | nil => apply Nat.le_refl
    | cons e l ih =>
        have he := header_le e
        rw [List.flatMap_cons, List.length_append, List.length_cons]
        omega
  have hnil : ∀ n, parseDirents n [] = [] := by
    intro n
    apply parseDirents_short
    decide
  rw [dirPage, Nat.sub_zero]
  rcases Records.page_cases header_le (by decide) room (es.zipIdx.drop cookie.toNat) with
    ⟨hall, hpage⟩ | ⟨a, more, hsplit, hleft, hpage⟩ | ⟨a, more, hsplit, hleft, hcut, hpage, _⟩
  · rw [hpage, dirWhole, hall]
    have hfound := parseDirents_flatMap hmem hnil (hlength _)
    rwa [List.append_nil] at hfound
  · rw [hpage]
    have hfound := parseDirents_flatMap hwhole hnil (hlength _)
    rwa [List.append_nil] at hfound
  · rw [hpage]
    apply parseDirents_flatMap hwhole
    · intro n
      apply parseDirents_cut _ hleft hcut
      apply hmem
      rw [hsplit]
      apply List.mem_append_right
      apply List.mem_cons_self
    · rw [List.length_append]
      apply Nat.le_trans (hlength _) (Nat.le_add_right _ _)

theorem prefix_dirWhole (room : Nat) (cookie : UInt64) (es : List FilInfo) :
  dirWhole room cookie es <+: es.zipIdx.drop cookie.toNat
  := by
  apply Records.whole_prefix

/-- The number of an entry that fits. -/
theorem dirWhole_getElem (room : Nat) (cookie : UInt64) (es : List FilInfo) {j : Nat}
    (hj : j < (dirWhole room cookie es).length) :
  (dirWhole room cookie es)[j].2 = cookie.toNat + j
  := by
  rw [(prefix_dirWhole room cookie es).getElem hj, List.getElem_drop, List.getElem_zipIdx]
  apply Nat.zero_add

/-- The cookie after a page. -/
theorem nextCookie_dirWhole {c : Nat} (hc : c < 2 ^ 64) (room : Nat) (es : List FilInfo) :
  nextCookie (UInt64.ofNat c) ((dirWhole room (UInt64.ofNat c) es).map toDirent)
    = UInt64.ofNat (c + (dirWhole room (UInt64.ofNat c) es).length)
  := by
  rw [nextCookie, List.getLast?_map, List.getLast?_eq_getElem?]
  rcases Nat.eq_zero_or_pos (dirWhole room (UInt64.ofNat c) es).length with hzero | hpos
  · rw [List.length_eq_zero_iff.mp hzero]
    rfl
  · have hlast : (dirWhole room (UInt64.ofNat c) es).length - 1
        < (dirWhole room (UInt64.ofNat c) es).length := by omega
    rw [List.getElem?_eq_getElem hlast]
    simp only [Option.map_some, Option.getD_some, toDirent]
    rw [dirWhole_getElem, UInt64.toNat_ofNat_of_lt' (by rw [UInt64.size]; omega)]
    congr 1
    omega

/-- The entries that fit as a segment of the directory. -/
theorem dirWhole_shown (room : Nat) (cookie : UInt64) (es : List FilInfo) :
  (es.take cookie.toNat).map shown ++ (dirWhole room cookie es).map (fun e => shown e.1)
    = (es.take (cookie.toNat + (dirWhole room cookie es).length)).map shown
  := by
  have hsegment : (dirWhole room cookie es).map Prod.fst
      = (es.drop cookie.toNat).take (dirWhole room cookie es).length := by
    rw [List.prefix_iff_eq_take.mp (prefix_dirWhole room cookie es), List.map_take, List.map_drop,
      List.zipIdx_map_fst, List.length_take, List.length_drop, List.length_zipIdx,
      List.take_eq_take_iff, List.length_drop]
    omega
  rw [List.take_add, List.map_append, ← hsegment, List.map_map]
  rfl

/-- What a reader receives when a call has left a page. -/
theorem reader_succ {s' : Wasi V Fil Dir} {fd buf bufLen bufused : UInt32} {cookie : UInt64}
    (hname : ∀ e ∈ es, e.fname.bytes.length ≤ 12) (n : Nat) (acc : List Shown)
    (hcall : s.fdReaddir B fd buf bufLen cookie bufused = (.ret wasiEsuccess, s'))
    (hreported : s'.reported bufused = (dirPage bufLen.toNat cookie 0 es).length)
    (hread : s'.memory.read buf.toNat (s'.reported bufused) = dirPage bufLen.toNat cookie 0 es) :
  reader B fd buf bufLen bufused (n + 1) cookie acc s
    = if (dirPage bufLen.toNat cookie 0 es).length < bufLen.toNat then
        some (acc ++ (dirWhole bufLen.toNat cookie es).map (fun e => shown e.1))
      else
        reader B fd buf bufLen bufused n
          (nextCookie cookie ((dirWhole bufLen.toNat cookie es).map toDirent))
          (acc ++ (dirWhole bufLen.toNat cookie es).map (fun e => shown e.1)) s'
  := by
  rw [hreported] at hread
  rw [reader, hcall]
  simp only [ne_eq, not_true_eq_false, if_false, hreported]
  rw [hread, parse_dirPage hname, List.map_map]
  rfl

/-- A reader that has a result has made a call. -/
theorem reader_exists_iff {fd buf bufLen bufused : UInt32} {cookie : UInt64} {acc l : List Shown} :
  (∃ n, reader B fd buf bufLen bufused n cookie acc s = some l)
    ↔ ∃ n, reader B fd buf bufLen bufused (n + 1) cookie acc s = some l
  := by
  constructor
  · rintro ⟨n, hn⟩
    cases n with
    | zero => cases hn
    | succ n => use n, hn
  · rintro ⟨n, hn⟩
    use n + 1, hn

/-- The first entries are all entries only if there are no others. -/
theorem take_shown_eq_iff {k : Nat} :
  (es.take k).map shown = es.map shown ↔ es.length ≤ k
  := by
  constructor
  · intro h
    have hlength := congrArg List.length h
    rw [List.length_map, List.length_map, List.length_take] at hlength
    omega
  · intro h
    rw [List.take_of_length_le h]

/-! ### The root directory -/

/-- What the calls on the root directory keep. -/
structure RootReady (vol : V → Prop) (buf bufLen bufused : UInt32) (s : Wasi V Fil Dir) : Prop where
  ready : s.vfs.ready
  free : ∃ i, (s.vfs.handles i).inUse = false
  vol : vol s.vfs.volume
  buffers : s.Buffers buf bufLen bufused

theorem Buffers.of_memorySize {s s' : Wasi V Fil Dir} {buf bufLen bufused : UInt32}
    (h : s.Buffers buf bufLen bufused) (hsize : s'.memorySize = s.memorySize) :
  s'.Buffers buf bufLen bufused
  := by
  constructor
  · rw [hsize]
    apply h.buffer
  · rw [hsize]
    apply h.result
  · apply h.disjoint

/-- A call of the reader on the root directory. -/
theorem reader_root_succ (hreads : Reads B vol rest) (hopens : Vfs.RootOpens B vol rest es)
    {buf bufLen bufused : UInt32} (hs : s.RootReady vol buf bufLen bufused) {c : Nat}
    (hc : c < 2 ^ 64) :
  ∃ s' : Wasi V Fil Dir, s'.RootReady vol buf bufLen bufused
    ∧ ∀ n, reader B 3 buf bufLen bufused (n + 1) (UInt64.ofNat c) ((es.take c).map shown) s
      = if (dirPage bufLen.toNat (UInt64.ofNat c) 0 es).length < bufLen.toNat then
          some ((es.take (c + (dirWhole bufLen.toNat (UInt64.ofNat c) es).length)).map shown)
        else
          reader B 3 buf bufLen bufused n
            (UInt64.ofNat (c + (dirWhole bufLen.toNat (UInt64.ofNat c) es).length))
            ((es.take (c + (dirWhole bufLen.toNat (UInt64.ofNat c) es).length)).map shown) s'
  := by
  obtain ⟨s', hcall, hreported, hread, hsize, hready, hfree, hvol⟩ := fdReaddir_root hreads
    (UInt64.ofNat c) hs.buffers hs.ready hs.free hs.vol hopens
  have hname : ∀ e ∈ es, e.fname.bytes.length ≤ 12 := by
    intro e he
    apply (hreads.name _ _ (hopens _ hs.vol).2.2 e he).2
  have hcookie : (UInt64.ofNat c).toNat = c := UInt64.toNat_ofNat_of_lt' hc
  have hshown := dirWhole_shown bufLen.toNat (UInt64.ofNat c) es
  rw [hcookie] at hshown
  use s', ⟨hready, hfree, hvol, hs.buffers.of_memorySize hsize⟩
  intro n
  rw [reader_succ hname n _ hcall hreported hread, hshown, nextCookie_dirWhole hc]

/-- The entries before the cookie have been received. -/
theorem reader_root_iff (hreads : Reads B vol rest) (hopens : Vfs.RootOpens B vol rest es)
    {buf bufLen bufused : UInt32} (hroom : 24 ≤ bufLen.toNat)
    (hsize : ∀ e ∈ es, 24 + e.fname.bytes.length ≤ bufLen.toNat)
    (hs : s.RootReady vol buf bufLen bufused) {c : Nat} (hc : c ≤ es.length) :
  (∃ n, reader B 3 buf bufLen bufused n (UInt64.ofNat c) ((es.take c).map shown) s
      = some (es.map shown))
    ↔ Records.Streams direntBytes 24 bufLen.toNat bufLen.toNat (es.zipIdx.drop c)
  := by
  have hcount : es.length ≤ maxDirEntries := hreads.count _ _ (hopens _ hs.vol).2.2
  have hmax : maxDirEntries = 65536 := rfl
  induction hk : es.length - c using Nat.strong_induction_on generalizing c s with
  | _ k ih =>
      have hlt : c < 2 ^ 64 := by omega
      have hcookie : (UInt64.ofNat c).toNat = c := UInt64.toNat_ofNat_of_lt' hlt
      obtain ⟨s', hs', hstep⟩ := reader_root_succ hreads hopens hs hlt
      have hfits : ∀ e ∈ es.zipIdx.drop c, (direntBytes e).length ≤ bufLen.toNat := by
        intro e he
        rw [length_direntBytes]
        apply hsize
        apply List.fst_mem_of_mem_zipIdx (List.mem_of_mem_drop he)
      have hwhole : dirWhole bufLen.toNat (UInt64.ofNat c) es
          = Records.whole direntBytes bufLen.toNat (es.zipIdx.drop c) := by
        rw [dirWhole, hcookie]
      have hpage : dirPage bufLen.toNat (UInt64.ofNat c) 0 es
          = Records.page direntBytes 24 bufLen.toNat (es.zipIdx.drop c) := by
        rw [dirPage, Nat.sub_zero, hcookie]
      have hlength : (es.zipIdx.drop c).length = es.length - c := by
        rw [List.length_drop, List.length_zipIdx]
      have hprefix : dirWhole bufLen.toNat (UInt64.ofNat c) es <+: es.zipIdx.drop c := by
        rw [hwhole]
        apply Records.whole_prefix
      have hall : dirWhole bufLen.toNat (UInt64.ofNat c) es = es.zipIdx.drop c
          ↔ es.length ≤ c + (dirWhole bufLen.toNat (UInt64.ofNat c) es).length := by
        constructor
        · intro h
          rw [h, hlength]
          omega
        · intro h
          apply hprefix.eq_of_length_le
          omega
      rw [Records.streams_iff hfits, reader_exists_iff, ← hwhole]
      simp only [hstep]
      rcases Nat.lt_or_ge (dirPage bufLen.toNat (UInt64.ofNat c) 0 es).length bufLen.toNat
        with hstop | hgo
      · -- the reader stops: it has all entries, or there is a gap at the end of the page
        have hgap := hstop
        rw [hpage] at hgap
        have hcases := Records.of_length_page_lt header_le (by decide) hgap
        rw [← hwhole] at hcases
        simp only [if_pos hstop, exists_const, Option.some_inj, take_shown_eq_iff, ← hall]
        constructor
        · intro h
          left
          apply h
        · rintro (h | ⟨hleft, _⟩)
          · apply h
          · rcases hcases with h | h
            · apply h
            · omega
      · have hfull := hgo
        rw [hpage] at hfull
        have hcases := Records.of_le_length_page header_le (by decide) hfull
        rw [← hwhole] at hcases
        simp only [if_neg (Nat.not_lt.mpr hgo)]
        have hlast := hprefix.length_le
        rw [hlength] at hlast
        have hne : es.zipIdx.drop c ≠ [] := by
          intro hnil
          rw [hnil] at hfull
          rw [Records.page, List.length_nil] at hfull
          omega
        have hpos : 0 < (dirWhole bufLen.toNat (UInt64.ofNat c) es).length := by
          rw [hwhole]
          apply Records.length_whole_pos hne hfits
        have hlast := hprefix.length_le
        rw [hlength] at hlast
        have hrest := ih (es.length - (c + (dirWhole bufLen.toNat (UInt64.ofNat c) es).length))
          (by omega) hs' (by omega) rfl
        apply hrest.trans
        rw [List.drop_drop]
        constructor
        · intro h
          rcases hcases with hc | hc
          · left
            apply hc
          · right
            use hc, h
        · rintro (h | ⟨_, h⟩)
          · rw [List.drop_eq_nil_of_le]
            · trivial
            · rw [List.length_zipIdx]
              apply hall.mp h
          · apply h

/-! ### Directory handles -/

variable {i : Fin maxHandles}

/-- A call of the reader on an opened directory. -/
theorem reader_opened_succ (hreads : Reads B vol rest) {buf bufLen bufused : UInt32}
    (hbuffers : s.Buffers buf bufLen bufused) (hlist : s.vfs.Listing vol rest i es)
    (cookie : UInt64) (acc : List Shown) :
  ∃ s' : Wasi V Fil Dir, s'.Buffers buf bufLen bufused
    ∧ s'.vfs.Listing vol rest i (es.drop (dirTaken bufLen.toNat cookie 0 es))
    ∧ ∀ n, reader B (UInt32.ofNat (i.val + 4)) buf bufLen bufused (n + 1) cookie acc s
      = if (dirPage bufLen.toNat cookie 0 es).length < bufLen.toNat then
          some (acc ++ (dirWhole bufLen.toNat cookie es).map (fun e => shown e.1))
        else
          reader B (UInt32.ofNat (i.val + 4)) buf bufLen bufused n
            (nextCookie cookie ((dirWhole bufLen.toNat cookie es).map toDirent))
            (acc ++ (dirWhole bufLen.toNat cookie es).map (fun e => shown e.1)) s'
  := by
  obtain ⟨s', hcall, hreported, hread, hsize, hlist'⟩ :=
    fdReaddir_opened hreads cookie hbuffers hlist
  have hname : ∀ e ∈ es, e.fname.bytes.length ≤ 12 := by
    intro e he
    apply (hreads.name _ _ hlist.rest e he).2
  use s', hbuffers.of_memorySize hsize, hlist'
  intro n
  apply reader_succ hname n acc hcall hreported hread

/-- The entries that fit have been read, with those before the cookie. -/
theorem dirTaken_bounds (room : Nat) (cookie : UInt64) (es : List FilInfo) :
  cookie.toNat + (dirWhole room cookie es).length ≤ dirTaken room cookie 0 es
    ∧ dirTaken room cookie 0 es ≤ cookie.toNat + (es.length - cookie.toNat)
  := by
  have hwhole := Records.length_whole_le_taken header_le (by decide) room
    (es.zipIdx.drop cookie.toNat)
  have htaken : Records.taken direntBytes 24 room (es.zipIdx.drop cookie.toNat)
      ≤ (es.zipIdx.drop cookie.toNat).length := by
    apply Records.taken_le
  rw [List.length_drop, List.length_zipIdx] at htaken
  rw [dirTaken, Nat.sub_zero, dirWhole]
  omega

/-- The reader receives no more entries than are left behind those that are skipped. -/
theorem length_reader_opened (hreads : Reads B vol rest) {buf bufLen bufused : UInt32}
    (hbuffers : s.Buffers buf bufLen bufused) (hlist : s.vfs.Listing vol rest i es)
    {cookie : UInt64} {acc l : List Shown} {n : Nat}
    (h : reader B (UInt32.ofNat (i.val + 4)) buf bufLen bufused n cookie acc s = some l) :
  l.length ≤ acc.length + (es.length - cookie.toNat)
  := by
  induction n generalizing s cookie acc es with
  | zero => cases h
  | succ n ih =>
      obtain ⟨s', hbuffers', hlist', hstep⟩ := reader_opened_succ hreads hbuffers hlist cookie acc
      have hwhole := (prefix_dirWhole bufLen.toNat cookie es).length_le
      rw [List.length_drop, List.length_zipIdx] at hwhole
      rw [hstep] at h
      split at h
      · rw [← Option.some_inj.mp h, List.length_append, List.length_map]
        omega
      · obtain ⟨hlow, hhigh⟩ := dirTaken_bounds bufLen.toNat cookie es
        have hrest := ih hbuffers' hlist' h
        rw [List.length_append, List.length_map, List.length_drop] at hrest
        omega

/-- The reader receives all entries of an opened directory when they fit into one page. -/
theorem reader_opened_iff (hreads : Reads B vol rest) {buf bufLen bufused : UInt32}
    (hroom : 24 ≤ bufLen.toNat) (hsize : ∀ e ∈ es, 24 + e.fname.bytes.length ≤ bufLen.toNat)
    (hbuffers : s.Buffers buf bufLen bufused) (hlist : s.vfs.Listing vol rest i es) :
  (∃ n, reader B (UInt32.ofNat (i.val + 4)) buf bufLen bufused n 0 [] s = some (es.map shown))
    ↔ (es.zipIdx.flatMap direntBytes).length ≤ bufLen.toNat
  := by
  have hcount : es.length ≤ maxDirEntries := hreads.count _ _ hlist.rest
  have hmax : maxDirEntries = 65536 := rfl
  have hfits : ∀ e ∈ es.zipIdx, (direntBytes e).length ≤ bufLen.toNat := by
    intro e he
    rw [length_direntBytes]
    apply hsize
    apply List.fst_mem_of_mem_zipIdx he
  obtain ⟨s', hbuffers', hlist', hstep⟩ := reader_opened_succ hreads hbuffers hlist 0 []
  obtain ⟨hlow, hhigh⟩ := dirTaken_bounds bufLen.toNat 0 es
  have hshown := dirWhole_shown bufLen.toNat 0 es
  have hnext : nextCookie 0 ((dirWhole bufLen.toNat 0 es).map toDirent)
      = UInt64.ofNat (dirWhole bufLen.toNat 0 es).length := by
    have hcookie := nextCookie_dirWhole (Nat.two_pow_pos 64) bufLen.toNat es
    rwa [Nat.zero_add] at hcookie
  have hwhole : dirWhole bufLen.toNat 0 es = Records.whole direntBytes bufLen.toNat es.zipIdx := rfl
  have hprefix := prefix_dirWhole bufLen.toNat 0 es
  have hall : (es.zipIdx.flatMap direntBytes).length ≤ bufLen.toNat
      ↔ es.length ≤ (dirWhole bufLen.toNat 0 es).length := by
    rw [← Records.whole_eq_self_iff, ← hwhole]
    constructor
    · intro h
      rw [h, List.length_zipIdx]
    · intro h
      apply hprefix.eq_of_length_le
      rwa [UInt64.toNat_zero, List.drop_zero, List.length_zipIdx]
  rw [UInt64.toNat_zero, Nat.zero_add, List.take_zero, List.map_nil] at hshown
  rw [UInt64.toNat_zero, Nat.zero_add] at hlow hhigh
  rw [reader_exists_iff, hall]
  simp only [hstep, hshown]
  rcases Nat.lt_or_ge (dirPage bufLen.toNat 0 0 es).length bufLen.toNat with hstop | hgo
  · simp only [if_pos hstop, exists_const, Option.some_inj, take_shown_eq_iff]
  · simp only [if_neg (Nat.not_lt.mpr hgo)]
    rw [hnext]
    constructor
    · -- another call skips an entry, or there was none left
      rintro ⟨n, hn⟩
      by_contra hmore
      have hlength := length_reader_opened hreads hbuffers' hlist' hn
      have hpos : 0 < (dirWhole bufLen.toNat 0 es).length := by
        rw [hwhole]
        apply Records.length_whole_pos _ hfits
        intro hnil
        rw [← List.length_eq_zero_iff, List.length_zipIdx] at hnil
        omega
      rw [List.length_map, List.length_map, List.length_take, List.length_drop,
        UInt64.toNat_ofNat_of_lt' (by rw [UInt64.size]; omega)] at hlength
      omega
    · intro h
      have hdone : es.drop (dirTaken bufLen.toNat 0 0 es) = [] := by
        apply List.drop_eq_nil_of_le
        omega
      rw [hdone] at hlist'
      obtain ⟨s'', -, -, hlast⟩ := reader_opened_succ hreads hbuffers' hlist'
        (UInt64.ofNat (dirWhole bufLen.toNat 0 es).length)
        ((es.take (dirWhole bufLen.toNat 0 es).length).map shown)
      have hpage : ∀ cookie, dirPage bufLen.toNat cookie 0 [] = [] := by
        intro cookie
        rw [dirPage, List.zipIdx_nil, List.drop_nil]
        rfl
      have hnone : ∀ cookie, dirWhole bufLen.toNat cookie [] = [] := by
        intro cookie
        rw [dirWhole, List.zipIdx_nil, List.drop_nil]
        rfl
      use 1
      rw [hlast, hpage, hnone, if_pos (by rw [List.length_nil]; omega), List.map_nil,
        List.append_nil, Option.some_inj, take_shown_eq_iff]
      apply h

/-! ### All descriptors -/

/-- A reader on the root directory or on a directory that has just been opened receives every entry,
once and in the order of the directory, exactly when the directory is pageable. -/
theorem reader_iff (hreads : Reads B vol rest) (hvol : vol s.vfs.volume) {fd : UInt32}
    (hfd : ReadsFrom B vol rest s es fd) {buf bufLen bufused : UInt32}
    (hbuffers : s.Buffers buf bufLen bufused) (hroom : 24 ≤ bufLen.toNat)
    (hsize : ∀ e ∈ es, 24 + e.fname.bytes.length ≤ bufLen.toNat) :
  (∃ n, reader B fd buf bufLen bufused n 0 [] s = some (es.map shown)) ↔ s.Pageable fd bufLen es
  := by
  have hne3 : ∀ i : Fin maxHandles, UInt32.ofNat (i.val + 4) ≠ 3 := by decide
  cases hfd with
  | opened i hlist =>
      rw [Pageable, if_neg (hne3 i)]
      apply reader_opened_iff hreads hroom hsize hbuffers hlist
  | root hopens =>
      rw [Pageable, if_pos rfl]
      by_cases hcan : s.vfs.ready = true ∧ ∃ i, (s.vfs.handles i).inUse = false
      · have hroot := reader_root_iff hreads hopens hroom hsize
          (RootReady.mk hcan.1 hcan.2 hvol hbuffers) (Nat.zero_le es.length)
        rw [List.drop_zero] at hroot
        apply hroot.trans
        constructor
        · intro h
          use hcan
        · intro h
          apply h.2
      · apply iff_of_false
        · rintro ⟨n, hn⟩
          cases n with
          | zero => cases hn
          | succ n =>
              rw [reader, fdReaddir_root_none 0 hbuffers hcan] at hn
              cases hn
        · intro h
          apply hcan h.1

/-! ### Two directories -/

/-- The directory objects of `Backend.rootOnly` are the entries that are left. -/
def LeftEntries (d es : List FilInfo) : Prop :=
  d = es ∧ (∀ e ∈ es, e.fname.bytes ≠ [] ∧ e.fname.bytes.length ≤ 12) ∧ es.length ≤ maxDirEntries

theorem rootOnly_reads (entries : List FilInfo) :
  Reads (Backend.rootOnly entries) (fun _ => True) LeftEntries
  := by
  constructor
  · rintro v d e es - ⟨rfl, hname, hcount⟩
    refine ⟨rfl, rfl, trivial, rfl, ?_, ?_⟩
    · intro b hb
      apply hname b (List.mem_cons_of_mem e hb)
    · rw [List.length_cons] at hcount
      apply Nat.le_of_succ_le hcount
  · rintro v d - ⟨rfl, hname, hcount⟩
    exact ⟨rfl, trivial, rfl, hname, hcount⟩
  · intro v d hv
    apply hv
  · rintro d es ⟨rfl, hname, _⟩
    apply hname
  · rintro d es ⟨rfl, _, hcount⟩
    apply hcount

/-- A file whose name is so many times the same letter. -/
def fileNamed (letter : UInt8) (n : Nat) (h : letter ≠ 0) : FilInfo :=
  ⟨⟨List.replicate n letter, fun _ hb => (List.eq_of_mem_replicate hb).symm ▸ h⟩, 0, 0⟩

/-- Three files whose entries have 32 bytes each. -/
def longNames : List FilInfo :=
  [fileNamed 65 8 (by decide), fileNamed 66 8 (by decide), fileNamed 67 8 (by decide)]

/-- Three files whose entries have 25 bytes each. -/
def shortNames : List FilInfo :=
  [fileNamed 65 1 (by decide), fileNamed 66 1 (by decide), fileNamed 67 1 (by decide)]

theorem rootOpens_rootOnly {entries : List FilInfo}
    (hname : ∀ e ∈ entries, e.fname.bytes ≠ [] ∧ e.fname.bytes.length ≤ 12)
    (hcount : entries.length ≤ maxDirEntries) :
  Vfs.RootOpens (Backend.rootOnly entries) (fun _ => True) LeftEntries entries
  := by
  intro v _
  exact ⟨rfl, trivial, rfl, hname, hcount⟩

/-- Two pages of 64 bytes are read from the root directory. -/
theorem reader_iff_longNames :
  ∃ n, reader (Backend.rootOnly longNames) 3 0 64 64 n 0 [] boot = some (longNames.map shown)
  := by
  apply (reader_iff (rootOnly_reads longNames) trivial
    (ReadsFrom.root (rootOpens_rootOnly (by decide) (by decide)))
    ⟨by decide, by decide, by decide⟩ (by decide) (by decide)).mpr
  refine ⟨⟨rfl, ⟨0, by decide⟩, rfl⟩, ?_⟩
  decide

/-- The root directory of these files in handle 0. -/
def openedRoot : Wasi Unit Unit (List FilInfo) :=
  { boot with vfs := (boot.vfs.vfsOpen (Backend.rootOnly longNames) rootPath Vfs.modeRead).2 }

/-- A page of 60 bytes leaves 10 bytes behind the second of three entries of 25 bytes, and the reader
stops there.  Of three entries of 32 bytes in an opened directory a reader with pages of 64 bytes
does not receive all, since the second call skips the last. -/
theorem not_reader_complete :
  (¬ ∃ n, reader (Backend.rootOnly shortNames) 3 0 60 64 n 0 [] boot = some (shortNames.map shown))
  ∧ ¬ ∃ n, reader (Backend.rootOnly longNames) 4 0 64 64 n 0 [] openedRoot
      = some (longNames.map shown)
  := by
  constructor
  · have hroot := @reader_root_iff _ _ _ (Backend.rootOnly shortNames) (fun _ => True) LeftEntries boot
      shortNames (rootOnly_reads shortNames) (rootOpens_rootOnly (by decide) (by decide)) 0 60 64
      (by decide) (by decide) ⟨rfl, ⟨⟨0, by decide⟩, rfl⟩, trivial, by decide, by decide, by decide⟩ 0
      (by decide)
    intro h
    apply absurd (hroot.mp h)
    decide
  · have hopened := @reader_opened_iff _ _ _ (Backend.rootOnly longNames) (fun _ => True) LeftEntries
      openedRoot longNames ⟨0, by decide⟩ (rootOnly_reads longNames) 0 64 64 (by decide) (by decide)
      ⟨by decide, by decide, by decide⟩ ⟨rfl, rfl, rfl, trivial, rfl, by decide, by decide⟩
    intro h
    apply absurd (hopened.mp h)
    decide

end Wasi
