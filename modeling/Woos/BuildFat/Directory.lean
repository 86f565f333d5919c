import Woos.BuildFat.Volume

/-!
# Directories of the image

A directory holds entries of 32 bytes one behind the other, and zeros behind them (`Lists`).  The loop
over files gives each file an extent of the volume and an entry of the directory (`writeFiles_spec`).
-/

namespace BuildFat

/-! ### Entries -/

theorem length_ljust (n : Nat) (s : List UInt8) :
  (ljust n s).length = n
  := by
  rw [ljust, List.length_take, List.length_append, List.length_replicate]
  omega

/-- The bytes of an entry from the number of its first cluster on. -/
theorem drop_makeEntry (name ext : List UInt8) (attr : UInt8) (start size : Nat) :
  (makeEntry name ext attr start size).drop 20
    = Bytearray.pack [(2, start >>> 16 &&& 0xFFFF), (2, 0), (2, 0x5CE0), (2, start &&& 0xFFFF), (4, size)]
  := by
  have hprefix : (ljust 8 name ++ ljust 3 ext ++ attr :: List.replicate 8 (0 : UInt8)).length = 20 := by
    rw [List.length_append, List.length_append, length_ljust, length_ljust]
    rfl
  rw [makeEntry, ← List.cons_append, ← List.append_assoc]
  exact List.drop_left' hprefix

theorem length_makeEntry (name ext : List UInt8) (attr : UInt8) (start size : Nat) :
  (makeEntry name ext attr start size).length = 32
  := by
  rw [makeEntry, List.length_append, List.length_append, length_ljust, length_ljust]
  rfl

/-- The first cluster of an entry. -/
theorem entryStart_makeEntry (name ext : List UInt8) (attr : UInt8) {start : Nat} (size : Nat)
    (h : start < 2 ^ 32) :
  entryStart (makeEntry name ext attr start size) = start
  := by
  have hlow : start &&& 0xFFFF = start % 2 ^ 16 := Nat.and_two_pow_sub_one_eq_mod start 16
  have hhigh : start >>> 16 &&& 0xFFFF = start / 2 ^ 16 % 2 ^ 16 := by
    rw [← Nat.shiftRight_eq_div_pow]
    exact Nat.and_two_pow_sub_one_eq_mod _ 16
  have hsplit : (makeEntry name ext attr start size).drop 26
      = ((makeEntry name ext attr start size).drop 20).drop 6 := by
    rw [List.drop_drop]
  have hlo : ((makeEntry name ext attr start size).drop 26).take 2
      = LittleEndian.encode 2 (start &&& 0xFFFF) := by
    rw [hsplit, drop_makeEntry]
    rfl
  have hhi : ((makeEntry name ext attr start size).drop 20).take 2
      = LittleEndian.encode 2 (start >>> 16 &&& 0xFFFF) := by
    rw [drop_makeEntry]
    rfl
  rw [entryStart, hlo, hhi, hlow, hhigh, LittleEndian.decode_encode (by omega),
    LittleEndian.decode_encode (by omega)]
  omega

/-- The size in an entry. -/
theorem entrySize_makeEntry (name ext : List UInt8) (attr : UInt8) (start : Nat) {size : Nat}
    (h : size < 2 ^ 32) :
  entrySize (makeEntry name ext attr start size) = size
  := by
  have hsplit : (makeEntry name ext attr start size).drop 28
      = ((makeEntry name ext attr start size).drop 20).drop 8 := by
    rw [List.drop_drop]
  have hsize : ((makeEntry name ext attr start size).drop 28).take 4 = LittleEndian.encode 4 size := by
    rw [hsplit, drop_makeEntry]
    rfl
  rw [entrySize, hsize, LittleEndian.decode_encode h]

/-! ### Data of a directory -/

/-- The data of a directory of `size` bytes with these entries. -/
def dirBytes (size : Nat) (es : List (List UInt8)) : List UInt8 :=
  es.flatten ++ List.replicate (size - es.flatten.length) 0

/-- The directory lists these entries. -/
structure Directory.Lists (d : Directory) (size : Nat) (es : List (List UInt8)) : Prop where
  count_eq : d.count = es.length
  size_eq : d.data.size = size
  fits : es.length * 32 ≤ size
  length_eq : ∀ e ∈ es, e.length = 32
  bytes_eq : d.data.bytes = Memory.write (fun _ => 0) 0 es.flatten

theorem length_flatten {es : List (List UInt8)} (h : ∀ e ∈ es, e.length = 32) :
  es.flatten.length = es.length * 32
  := by
  have hmap : es.map List.length = es.map (fun _ => 32) := List.map_congr_left h
  rw [List.length_flatten, hmap, List.map_const', List.sum_replicate_nat]

/-- An entry is found where it was put. -/
theorem slot_flatten {es : List (List UInt8)} (h : ∀ e ∈ es, e.length = 32) (rest : List UInt8) {i : Nat}
    {ent : List UInt8} (hent : es[i]? = some ent) :
  slot (es.flatten ++ rest) i = ent
  := by
  induction es generalizing i with
  | nil => cases hent
  | cons e es ih =>
      have hlen := h e List.mem_cons_self
      rw [slot, List.flatten_cons, List.append_assoc]
      cases i with
      | zero =>
          rw [List.getElem?_cons_zero, Option.some.injEq] at hent
          rw [Nat.zero_mul, List.drop_zero, List.take_left' hlen, hent]
      | succ i =>
          rw [List.getElem?_cons_succ] at hent
          rw [Nat.succ_mul, Nat.add_comm, ← List.drop_drop, List.drop_left' hlen]
          exact ih (fun e he => h e (List.mem_cons_of_mem _ he)) hent

namespace Directory.Lists

variable {d : Directory} {size : Nat} {es : List (List UInt8)} {ent : List UInt8}

/-- The next entry is put behind the others. -/
theorem put (h : d.Lists size es) (hlen : ent.length = 32) (hfits : (es.length + 1) * 32 ≤ size) :
  (d.put ent).Lists size (es ++ [ent])
  := by
  have hstart : d.count * 32 = es.flatten.length := by
    rw [length_flatten h.length_eq, h.count_eq]
  have hroom : d.count * 32 + 32 ≤ d.data.size := by
    rw [h.count_eq, h.size_eq]
    omega
  rw [Directory.put, Bytearray.assign_eq (by rw [hlen]) hroom]
  refine ⟨?_, h.size_eq, ?_, ?_, ?_⟩
  · rw [List.length_append, ← h.count_eq]
    rfl
  · rwa [List.length_append]
  · intro e he
    rcases List.mem_append.mp he with he | he
    · exact h.length_eq e he
    · rwa [List.mem_singleton.mp he]
  · rw [List.flatten_append, Memory.write_append, ← h.bytes_eq, Nat.zero_add, ← hstart,
      List.flatten_singleton]

/-- The data of the directory, whole. -/
theorem slice_eq (h : d.Lists size es) :
  d.data.slice 0 size = dirBytes size es
  := by
  have hflat := length_flatten h.length_eq
  have hle : es.flatten.length ≤ size := hflat ▸ h.fits
  have hsplit := Memory.read_append d.data.bytes 0 es.flatten.length (size - es.flatten.length)
  rw [Bytearray.slice_eq h.size_eq.ge, Nat.sub_zero, dirBytes, ← Nat.add_sub_cancel' hle, ← hsplit,
    h.bytes_eq, Memory.read_write, Memory.read_write_disjoint _ (by omega), Nat.add_sub_cancel' hle,
    Memory.read_zeros (fun i _ => rfl)]

theorem length_dirBytes (h : d.Lists size es) :
  (dirBytes size es).length = size
  := by
  rw [← h.slice_eq, Bytearray.slice_eq h.size_eq.ge, Memory.length_read, Nat.sub_zero]

end Directory.Lists

/-! ### New directories -/

/-- The volume label. -/
def labelEntry : List UInt8 := ascii "WOOS FAT32 " ++ 0x08 :: List.replicate 20 0

theorem rootDir_lists :
  rootDir.Lists (4 * clusterBytes) [labelEntry]
  := by
  have hname : (Bytearray.zeros 2048).assign 0 11 (ascii "WOOS FAT32 ")
      = ⟨2048, Memory.write (fun _ => 0) 0 (ascii "WOOS FAT32 ")⟩ :=
    Bytearray.assign_eq rfl (by decide)
  have hattr : Bytearray.assign ⟨2048, Memory.write (fun _ => 0) 0 (ascii "WOOS FAT32 ")⟩ 11 12 [0x08]
      = ⟨2048, (Memory.write (fun _ => 0) 0 (ascii "WOOS FAT32 ")).write 11 [0x08]⟩ :=
    Bytearray.assign_eq rfl (by decide)
  have hroot : rootDir
      = ⟨⟨2048, (Memory.write (fun _ => 0) 0 (ascii "WOOS FAT32 ")).write 11 [0x08]⟩, 1⟩ :=
    congrArg (Directory.mk · 1) ((congrArg (Bytearray.assign · 11 12 [0x08]) hname).trans hattr)
  -- the label is written to the first twelve bytes of its entry; the others are zeros already
  have hlabel : Memory.write (fun _ => 0) 0 labelEntry
      = (Memory.write (fun _ => 0) 0 (ascii "WOOS FAT32 ")).write 11 [0x08] := by
    have hsplit : labelEntry = (ascii "WOOS FAT32 " ++ [0x08]) ++ List.replicate 20 0 := rfl
    have hzeros : ∀ (m : Memory), m.read 12 20 = List.replicate 20 0 →
        m.write 12 (List.replicate 20 0) = m := fun m h => (m.write_eq_self_iff _ _).mpr h
    rw [hsplit, Memory.write_append, Memory.write_append]
    apply hzeros
    rw [Memory.read_write_disjoint _ (by decide), Memory.read_write_disjoint _ (by decide)]
    exact Memory.read_zeros (fun i _ => rfl)
  rw [hroot, clusterBytes_eq]
  refine ⟨rfl, rfl, by decide, ?_, ?_⟩
  · intro e he
    rw [List.mem_singleton.mp he]
    rfl
  · rw [List.flatten_singleton, hlabel]

/-- The entries `.` and `..`. -/
def dots (start : Nat) : List (List UInt8) :=
  [makeEntry (ascii ".") [] 0x10 start 0, makeEntry (ascii "..") [] 0x10 0 0]

theorem newDir_lists {clusters : Nat} (h : 0 < clusters) (start : Nat) :
  (newDir clusters start).Lists (clusters * clusterBytes) (dots start)
  := by
  have hempty : Directory.Lists ⟨Bytearray.zeros (clusters * clusterBytes), 0⟩ (clusters * clusterBytes) [] :=
    ⟨rfl, rfl, Nat.zero_le _, nofun, rfl⟩
  have hdot := hempty.put (length_makeEntry (ascii ".") [] 0x10 start 0) (by
    rw [List.length_nil, clusterBytes_eq]
    omega)
  have hdots := hdot.put (length_makeEntry (ascii "..") [] 0x10 0 0) (by
    rw [List.length_append, List.length_nil, List.length_singleton, clusterBytes_eq]
    omega)
  have hnew : newDir clusters start = (Directory.put ⟨Bytearray.zeros (clusters * clusterBytes), 0⟩
      (makeEntry (ascii ".") [] 0x10 start 0)).put (makeEntry (ascii "..") [] 0x10 0 0) := by
    have hbytes : clusters * sectorSize * sectorsPerCluster = clusters * clusterBytes :=
      Nat.mul_assoc clusters sectorSize sectorsPerCluster
    rw [newDir, hbytes]
    rfl
  rw [hnew]
  exact hdots

/-- The data of a directory is written to its clusters, from the cluster `i` on. -/
theorem writeDir_eq {data img : Bytearray} {start i rest : Nat} (hstart : 2 ≤ start)
    (hsize : (i + rest) * clusterBytes ≤ data.size) (himg : dataOffset (start + i + rest) ≤ img.size) :
  writeDir data start i rest img = { img with
    bytes := img.bytes.write (dataOffset (start + i))
      (data.bytes.read (i * clusterBytes) (rest * clusterBytes)) }
  := by
  induction rest generalizing i img with
  | zero =>
      rw [Nat.zero_mul]
      rfl
  | succ rest ih =>
      have htwo : 2 ≤ start + i := Nat.le_add_right_of_le hstart
      have hend := dataOffset_add htwo (rest + 1)
      rw [Nat.succ_mul] at hend
      have hnext : dataOffset (start + (i + 1)) = dataOffset (start + i) + clusterBytes := by
        rw [← Nat.add_assoc, dataOffset_add htwo 1, Nat.one_mul]
      have hle : (i + 1) * clusterBytes ≤ data.size :=
        (Nat.mul_le_mul_right clusterBytes (by omega)).trans hsize
      have hslice : data.slice (i * sectorSize * sectorsPerCluster) ((i + 1) * sectorSize * sectorsPerCluster)
          = data.bytes.read (i * clusterBytes) clusterBytes := by
        rw [Nat.mul_assoc, Nat.mul_assoc, ← clusterBytes, Bytearray.slice_eq hle, Nat.succ_mul,
          Nat.add_sub_cancel_left]
      have hroom : dataOffset (start + i) + (data.bytes.read (i * clusterBytes) clusterBytes).length
          ≤ img.size := by
        rw [Memory.length_read]
        omega
      have hsize' : (i + 1 + rest) * clusterBytes ≤ data.size := by
        rw [Nat.add_assoc, Nat.add_comm 1]
        exact hsize
      have himg' : dataOffset (start + (i + 1) + rest) ≤ img.size := by
        have hassoc : start + (i + 1) + rest = start + i + (rest + 1) := by omega
        rw [hassoc]
        exact himg
      have hrest := @ih
        { img with
          bytes := img.bytes.write (dataOffset (start + i))
            (data.bytes.read (i * clusterBytes) clusterBytes) }
        (i + 1) hsize' himg'
      have hsplit := data.bytes.read_append (i * clusterBytes) clusterBytes (rest * clusterBytes)
      have hwhole : clusterBytes + rest * clusterBytes = (rest + 1) * clusterBytes := by
        rw [Nat.succ_mul, Nat.add_comm]
      rw [hwhole] at hsplit
      rw [writeDir, hslice, writeClusterData_eq hroom, hrest, ← hsplit, Memory.write_append,
        Memory.length_read, ← hnext, Nat.succ_mul i]

/-- A directory is stored in its clusters. -/
theorem Holds.storeDir {v : Volume} {xs ys : List (Extent UInt8)} {start n : Nat} {c : List UInt8}
    (h : Holds v (xs ++ ⟨start, n, c⟩ :: ys)) (hroom : v.currentCluster ≤ totalDataClusters + 2)
    {d : Directory} {es : List (List UInt8)} (hd : d.Lists (n * clusterBytes) es) :
  Holds { v with img := writeDir d.data start 0 n v.img }
    (xs ++ ⟨start, n, dirBytes (n * clusterBytes) es⟩ :: ys)
  := by
  obtain ⟨hstart, -, hend⟩ := h.tiles.mem (List.mem_append_right _ List.mem_cons_self)
  have hwithin : dataOffset (start + 0 + n) ≤ v.img.size :=
    (dataOffset_le (by omega) hend).trans (h.room (n := 0) hroom).2.1
  have hwhole : d.data.bytes.read (0 * clusterBytes) (n * clusterBytes) = dirBytes (n * clusterBytes) es := by
    rw [← hd.slice_eq, Bytearray.slice_eq hd.size_eq.ge, Nat.zero_mul, Nat.sub_zero]
  rw [writeDir_eq hstart (by rw [Nat.zero_add, hd.size_eq]) hwithin, hwhole]
  exact h.fill hd.length_dirBytes

/-! ### The loop over files -/

/-- The clusters of the files. -/
def clusters (files : List File) : Nat := (files.map (fun f => numClusters f.content)).sum

/-- The entries of files whose clusters follow one another from a cluster on. -/
def entries : List File → Nat → List (List UInt8)
  | [], _ => []
  | f :: files, start => f.entry start :: entries files (start + numClusters f.content)

@[simp]
theorem length_entries (files : List File) (start : Nat) :
  (entries files start).length = files.length
  := by
  induction files generalizing start with
  | nil => rfl
  | cons f files ih => rw [entries, List.length_cons, ih, List.length_cons]

/-- The extents of these files. -/
def extents : List File → Nat → List (Extent UInt8)
  | [], _ => []
  | f :: files, start => extent start f.content :: extents files (start + numClusters f.content)

/-- The files of the desktop that have a content. -/
def written (files : List File) : List File := files.filter (fun f => f.content ≠ [])

theorem writeDesktopFiles_eq (files : List File) (d : Directory) (v : Volume) :
  writeDesktopFiles files d v = writeFiles (written files) d v
  := by
  induction files generalizing d v with
  | nil => rfl
  | cons f files ih =>
      rw [writeDesktopFiles, written]
      by_cases h : f.content = []
      · rw [if_pos h, List.filter_cons_of_neg (by simpa using h)]
        exact ih d v
      · rw [if_neg h, List.filter_cons_of_pos (by simpa using h), writeFiles]
        congr 1
        funext ⟨start, v'⟩
        exact ih _ v'

/-- Each file gets its extent, and its entry in the directory. -/
theorem writeFiles_spec {files : List File} {d : Directory} {v : Volume} {size start : Nat}
    {es : List (List UInt8)} {xs : List (Extent UInt8)} (hd : d.Lists size es) (hv : Holds v xs)
    (hstart : v.currentCluster = start) (hfits : (es.length + files.length) * 32 ≤ size)
    (hroom : start + clusters files ≤ totalDataClusters + 2) :
  ∃ d' v', writeFiles files d v = some (d', v') ∧ d'.Lists size (es ++ entries files start)
    ∧ v'.currentCluster = start + clusters files ∧ Holds v' (xs ++ extents files start)
  := by
  induction files generalizing d v es xs start with
  | nil =>
      refine ⟨d, v, rfl, ?_, hstart, ?_⟩
      · rwa [entries, List.append_nil]
      · rwa [extents, List.append_nil]
  | cons f files ih =>
      have hcons : clusters (f :: files) = numClusters f.content + clusters files := List.sum_cons
      rw [hcons] at hroom
      rw [List.length_cons] at hfits
      obtain ⟨v₁, hwrite, hcurrent, hv₁⟩ := writeFile_spec hv f.content (by omega)
      rw [hstart] at hwrite hcurrent hv₁
      have hlen : (f.entry start).length = 32 := length_makeEntry _ _ _ _ _
      have hd₁ := hd.put hlen (by omega)
      obtain ⟨d', v', hrest, hd', hcurrent', hv'⟩ := ih hd₁ hv₁ hcurrent (by
        rw [List.length_append, List.length_singleton]
        omega) (by omega)
      rw [List.append_assoc] at hd' hv'
      refine ⟨d', v', ?_, hd', ?_, hv'⟩
      · rw [writeFiles, hwrite]
        exact hrest
      · rw [hcurrent', hcons, Nat.add_assoc]

end BuildFat
