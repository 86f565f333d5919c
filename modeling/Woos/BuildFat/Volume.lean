import Woos.BuildFat.Basic

/-!
# Clusters of the image

What `write_file` and the links of the directories do to the FAT and to the data: the clusters that
are in use are extents one behind the other, each with its chain and its bytes (`Holds`).
-/

namespace BuildFat

open Extent

/-! ### Offsets -/

theorem clusterBytes_eq : clusterBytes = 512 := rfl

theorem dataOffset_eq {c : Nat} (h : 2 ≤ c) :
  dataOffset c = 512 * c + 1063936
  := by
  have hstart : dataStart = 2080 := rfl
  have hcluster : sectorsPerCluster = 1 := rfl
  have hsector : sectorSize = 512 := rfl
  rw [dataOffset, hstart, hcluster, hsector]
  omega

theorem dataOffset_add {c : Nat} (h : 2 ≤ c) (n : Nat) :
  dataOffset (c + n) = dataOffset c + n * clusterBytes
  := by
  rw [dataOffset_eq h, dataOffset_eq (Nat.le_add_right_of_le h), clusterBytes_eq]
  omega

theorem dataOffset_le {c d : Nat} (h : 2 ≤ c) (hle : c ≤ d) :
  dataOffset c ≤ dataOffset d
  := by
  rw [dataOffset_eq h, dataOffset_eq (h.trans hle)]
  omega

/-! ### The FAT -/

/-- An entry of the table. -/
def next (fat : Bytearray) (c : Nat) : Nat := LittleEndian.decode (fat.bytes.read (c * 4) 4)

theorem setFat_spec {fat : Bytearray} {c value : Nat} (h : (c + 1) * 4 ≤ fat.size) (hvalue : value < 2 ^ 32) :
  ∃ fat', setFat fat c value = some fat' ∧ fat'.size = fat.size
    ∧ next fat' = Function.update (next fat) c value
  := by
  have hpack : Bytearray.pack [(4, value)] = LittleEndian.encode 4 value := List.append_nil _
  have hlen : (LittleEndian.encode 4 value).length = 4 := LittleEndian.length_encode 4 value
  refine ⟨_, Bytearray.packInto_eq (by rw [hpack, hlen]; omega), rfl, ?_⟩
  funext d
  rw [next, hpack]
  dsimp only
  by_cases hd : d = c
  · have hread := fat.bytes.read_write (c * 4) (LittleEndian.encode 4 value)
    rw [hlen] at hread
    rw [hd, Function.update_self, hread, LittleEndian.decode_encode hvalue]
  · rw [Function.update_of_ne hd, Memory.read_write_disjoint _ (by rw [hlen]; omega), next]

/-- The chain of a directory. -/
theorem linkClusters_spec {fat : Bytearray} {start n : Nat} (hpos : 0 < n) (h : (start + n) * 4 ≤ fat.size)
    (hlt : start + n < 2 ^ 28) :
  ∃ fat', linkClusters start n fat = some fat' ∧ fat'.size = fat.size
    ∧ next fat' = link endOfChain (next fat) start (start + n)
  := by
  induction n generalizing start fat with
  | zero => exact absurd hpos (Nat.lt_irrefl 0)
  | succ n ih =>
      cases n with
      | zero =>
          obtain ⟨fat', hfat', hsize, hnext⟩ := @setFat_spec fat start endOfChain h (by decide)
          refine ⟨fat', hfat', hsize, ?_⟩
          have hstep := @link_step endOfChain (next fat) start (start + 1) (Nat.lt_succ_self start)
          rw [if_pos rfl, link_empty] at hstep
          exact hnext.trans hstep
      | succ n =>
          obtain ⟨fat₁, hfat₁, hsize₁, hnext₁⟩ := @setFat_spec fat start (start + 1) (by omega) (by omega)
          obtain ⟨fat', hfat', hsize', hnext'⟩ :=
            @ih fat₁ (start + 1) (Nat.succ_pos n) (by omega) (by omega)
          have hstep := @link_step endOfChain (next fat) start (start + (n + 1 + 1)) (by omega)
          have hend : start + 1 + (n + 1) = start + (n + 1 + 1) := by omega
          rw [if_neg (by omega)] at hstep
          refine ⟨fat', ?_, hsize'.trans hsize₁, ?_⟩
          · rw [linkClusters, hfat₁]
            exact hfat'
          · rw [hnext', hnext₁, hend, hstep]

/-! ### The data -/

theorem writeClusterData_eq {img : Bytearray} {c : Nat} {data : List UInt8}
    (h : dataOffset c + data.length ≤ img.size) :
  writeClusterData img c data = { img with bytes := img.bytes.write (dataOffset c) data }
  := Bytearray.assign_eq rfl h

/-- The slice of a content that is written to its cluster `i`, and what follows it. -/
theorem slice_append (content : List UInt8) (i : Nat) :
  (content.take (min ((i + 1) * clusterBytes) content.length)).drop (i * clusterBytes)
      ++ content.drop ((i + 1) * clusterBytes)
    = content.drop (i * clusterBytes)
  := by
  have hmin : content.take (min ((i + 1) * clusterBytes) content.length)
      = content.take ((i + 1) * clusterBytes) := by
    rw [List.take_eq_take_iff]
    omega
  have hlen : (i + 1) * clusterBytes = i * clusterBytes + clusterBytes := Nat.succ_mul i clusterBytes
  rw [hmin, hlen, List.drop_take, Nat.add_sub_cancel_left, ← List.drop_drop, List.take_append_drop]

theorem length_slice (content : List UInt8) (i : Nat) :
  ((content.take (min ((i + 1) * clusterBytes) content.length)).drop (i * clusterBytes)).length
    = min clusterBytes (content.length - i * clusterBytes)
  := by
  have hlen : (i + 1) * clusterBytes = i * clusterBytes + clusterBytes := Nat.succ_mul i clusterBytes
  rw [List.length_drop, List.length_take, hlen]
  omega

/-- A slice is written, and then what follows it. -/
theorem write_slices (m : Memory) {c : Nat} (hc : 2 ≤ c) (content : List UInt8) (i : Nat) :
  (m.write (dataOffset c)
      ((content.take (min ((i + 1) * clusterBytes) content.length)).drop (i * clusterBytes))).write
      (dataOffset (c + 1)) (content.drop ((i + 1) * clusterBytes))
    = m.write (dataOffset c) (content.drop (i * clusterBytes))
  := by
  have hslice := length_slice content i
  have hlen : (i + 1) * clusterBytes = i * clusterBytes + clusterBytes := Nat.succ_mul i clusterBytes
  rw [← slice_append content i, Memory.write_append]
  by_cases hfull : clusterBytes ≤ content.length - i * clusterBytes
  · have hnext : dataOffset (c + 1) = dataOffset c + clusterBytes := by
      rw [dataOffset_eq hc, dataOffset_eq (Nat.le_succ_of_le hc), clusterBytes_eq]
      omega
    rw [hslice, Nat.min_eq_left hfull, hnext]
  · rw [List.drop_of_length_le (show content.length ≤ (i + 1) * clusterBytes by omega), Memory.write,
      Memory.write]

/-- The loop of `write_file` links the clusters from `i` on and writes what is left of the content. -/
theorem writeClusters_spec {content : List UInt8} {start num i rest : Nat} {v : Volume} (hnum : i + rest = num)
    (hcontent : content.length ≤ num * clusterBytes) (hstart : 2 ≤ start)
    (hfat : (start + num) * 4 ≤ v.fat.size) (himg : dataOffset (start + num) ≤ v.img.size)
    (hlt : start + num < 2 ^ 28) :
  ∃ fat, writeClusters content start num i rest v = some { v with
      img := { v.img with
        bytes := v.img.bytes.write (dataOffset (start + i)) (content.drop (i * clusterBytes)) }
      fat := fat }
    ∧ fat.size = v.fat.size ∧ next fat = link endOfChain (next v.fat) (start + i) (start + num)
  := by
  induction rest generalizing i v with
  | zero =>
      have hnil : content.drop (i * clusterBytes) = [] := by
        apply List.drop_of_length_le
        rwa [← hnum] at hcontent
      refine ⟨v.fat, ?_, rfl, ?_⟩
      · rw [writeClusters, hnil]
        rfl
      · rw [← hnum, Nat.add_zero, link_empty]
  | succ rest ih =>
      have hslice := length_slice content i
      have hoff := @dataOffset_eq (start + i) (by omega)
      have hoff' := @dataOffset_eq (start + num) (by omega)
      have hcluster := clusterBytes_eq
      have hroom : dataOffset (start + i) + ((content.take (min ((i + 1) * clusterBytes)
          content.length)).drop (i * clusterBytes)).length ≤ v.img.size := by
        omega
      obtain ⟨fat₁, hfat₁, hsize₁, hnext₁⟩ := @setFat_spec v.fat (start + i)
        (if i = num - 1 then endOfChain else start + i + 1) (by omega) (by
          split
          · decide
          · omega)
      obtain ⟨fat', hfat', hsize', hnext'⟩ := @ih (i + 1)
        { v with
          img := { v.img with
            bytes := v.img.bytes.write (dataOffset (start + i))
              ((content.take (min ((i + 1) * clusterBytes) content.length)).drop (i * clusterBytes)) }
          fat := fat₁ } (by omega) (hsize₁ ▸ hfat) himg
      refine ⟨fat', ?_, hsize'.trans hsize₁, ?_⟩
      · rw [writeClusters, writeClusterData_eq hroom, hfat₁]
        apply hfat'.trans
        rw [← Nat.add_assoc, write_slices _ (by omega)]
      · have hstep := @link_step endOfChain (next v.fat) (start + i) (start + num) (by omega)
        have hvalue : (if i = num - 1 then endOfChain else start + i + 1)
            = if start + i + 1 = start + num then endOfChain else start + i + 1 := by
          congr 1
          rw [eq_iff_iff]
          omega
        rw [hvalue] at hnext₁
        rw [hnext', hnext₁]
        exact hstep

/-! ### Extents -/

/-- The clusters in use are the extents one behind the other, each with its chain and its bytes; the
other clusters are free and hold zeros. -/
structure Holds (v : Volume) (xs : List (Extent UInt8)) : Prop where
  img_size : v.img.size = totalSectors * sectorSize
  fat_size : v.fat.size = sectorsPerFat * sectorSize
  tiles : Tiles 2 xs v.currentCluster
  linked : ∀ x ∈ xs, x.Linked endOfChain (next v.fat)
  unused : ∀ c, v.currentCluster ≤ c → next v.fat c = 0
  data : ∀ x ∈ xs, v.img.bytes.read (dataOffset x.start) (x.count * clusterBytes) = x.contents
  blank : ∀ a, dataOffset v.currentCluster ≤ a → v.img.bytes a = 0

variable {v : Volume} {xs ys : List (Extent UInt8)} {x : Extent UInt8}

theorem Holds.two_le (h : Holds v xs) :
  2 ≤ v.currentCluster
  := h.tiles.le

/-- New clusters are linked. -/
theorem Holds.allocate (h : Holds v xs) {n : Nat} (hn : 0 < n) {fat : Bytearray}
    (hsize : fat.size = v.fat.size)
    (hnext : next fat = link endOfChain (next v.fat) v.currentCluster (v.currentCluster + n)) :
  Holds { v with fat, currentCluster := v.currentCluster + n }
    (xs ++ [⟨v.currentCluster, n, List.replicate (n * clusterBytes) 0⟩])
  := by
  have htwo := h.two_le
  refine ⟨h.img_size, hsize.trans h.fat_size, h.tiles.concat hn _, ?_, ?_, ?_, ?_⟩
  · intro x hx
    show x.Linked endOfChain (next fat)
    rw [hnext]
    rcases List.mem_append.mp hx with hx | hx
    · exact (h.linked x hx).link (h.tiles.mem hx).2.2 _
    · obtain rfl := List.mem_singleton.mp hx
      exact linked_link (next v.fat) ⟨v.currentCluster, n, List.replicate (n * clusterBytes) 0⟩
  · intro c hc
    have hle : v.currentCluster + n ≤ c := hc
    show next fat c = 0
    rw [hnext, link, if_neg (by omega)]
    exact h.unused c (by omega)
  · intro x hx
    rcases List.mem_append.mp hx with hx | hx
    · exact h.data x hx
    · obtain rfl := List.mem_singleton.mp hx
      apply Memory.read_zeros
      intro i _
      exact h.blank _ (Nat.le_add_right _ i)
  · intro a ha
    exact h.blank a ((dataOffset_le htwo (Nat.le_add_right _ n)).trans ha)

/-- The clusters of a volume. -/
theorem Holds.room (h : Holds v xs) {n : Nat} (hroom : v.currentCluster + n ≤ totalDataClusters + 2) :
  (v.currentCluster + n) * 4 ≤ v.fat.size ∧ dataOffset (v.currentCluster + n) ≤ v.img.size
    ∧ v.currentCluster + n < 2 ^ 28
  := by
  have htwo := h.two_le
  have htotal : totalDataClusters = 128992 := rfl
  have hfat : v.fat.size = 524288 := h.fat_size
  have himg : v.img.size = 67108864 := h.img_size
  rw [dataOffset_eq (by omega), hfat, himg]
  omega

/-- The clusters of a directory are linked. -/
theorem Holds.link (h : Holds v xs) {start n : Nat} (hstart : v.currentCluster = start) (hn : 0 < n)
    (hroom : start + n ≤ totalDataClusters + 2) :
  ∃ fat, linkClusters start n v.fat = some fat
    ∧ Holds { v with fat, currentCluster := start + n }
      (xs ++ [⟨start, n, List.replicate (n * clusterBytes) 0⟩])
  := by
  subst hstart
  obtain ⟨hfat, -, hlt⟩ := h.room hroom
  obtain ⟨fat, hlink, hsize, hnext⟩ := linkClusters_spec hn hfat hlt
  exact ⟨fat, hlink, h.allocate hn hsize hnext⟩

/-- Data is written to the clusters of an extent. -/
theorem Holds.store (h : Holds v (xs ++ x :: ys)) {data : List UInt8}
    (hlen : data.length ≤ x.count * clusterBytes) :
  Holds { v with img := { v.img with bytes := v.img.bytes.write (dataOffset x.start) data } }
    (xs ++ { x with contents := data ++ x.contents.drop data.length } :: ys)
  := by
  have hmem : x ∈ xs ++ x :: ys := List.mem_append_right _ List.mem_cons_self
  obtain ⟨htwo, -, hend⟩ := h.tiles.mem hmem
  have hnext := dataOffset_add htwo x.count
  obtain ⟨-, hpair, hbefore⟩ := List.pairwise_append.mp h.tiles.pairwise
  have hother (y : Extent UInt8) (hy : y ∈ xs ++ x :: ys)
      (hdisjoint : y.start + y.count ≤ x.start ∨ x.start + x.count ≤ y.start) :
      (v.img.bytes.write (dataOffset x.start) data).read (dataOffset y.start) (y.count * clusterBytes)
        = y.contents := by
    rw [← h.data y hy]
    apply Memory.read_write_disjoint
    have hlow := (h.tiles.mem hy).1
    have hy' := dataOffset_add hlow y.count
    rcases hdisjoint with hleft | hright
    · left
      rw [← hy']
      exact dataOffset_le (by omega) hleft
    · right
      have hle := dataOffset_le (c := x.start + x.count) (by omega) hright
      omega
  refine ⟨h.img_size, h.fat_size, h.tiles.replace _, ?_, h.unused, ?_, ?_⟩
  · intro y hy
    rcases List.mem_append.mp hy with hy | hy
    · exact h.linked y (List.mem_append_left _ hy)
    · rcases List.mem_cons.mp hy with rfl | hy
      · exact h.linked x hmem
      · exact h.linked y (List.mem_append_right _ (List.mem_cons_of_mem x hy))
  · intro y hy
    rcases List.mem_append.mp hy with hy | hy
    · exact hother y (List.mem_append_left _ hy) (Or.inl (hbefore y hy x List.mem_cons_self))
    · rcases List.mem_cons.mp hy with rfl | hy
      · have hsplit := Memory.read_append (v.img.bytes.write (dataOffset x.start) data)
          (dataOffset x.start) data.length (x.count * clusterBytes - data.length)
        rw [Nat.add_sub_cancel' hlen, Memory.read_write, Memory.read_write_disjoint _ (by omega),
          ← Memory.read_drop, h.data x hmem] at hsplit
        exact hsplit.symm
      · exact hother y (List.mem_append_right _ (List.mem_cons_of_mem x hy))
          (Or.inr ((List.pairwise_cons.mp hpair).1 y hy))
  · intro a ha
    have hle : dataOffset v.currentCluster ≤ a := ha
    have hcurrent := dataOffset_le (c := x.start + x.count) (by omega) hend
    show v.img.bytes.write (dataOffset x.start) data a = 0
    rw [Memory.write_apply_outside _ (by omega), h.blank a hle]

/-- All clusters of an extent are written. -/
theorem Holds.fill (h : Holds v (xs ++ x :: ys)) {data : List UInt8}
    (hlen : data.length = x.count * clusterBytes) :
  Holds { v with img := { v.img with bytes := v.img.bytes.write (dataOffset x.start) data } }
    (xs ++ { x with contents := data } :: ys)
  := by
  have hread := congrArg List.length (h.data x (List.mem_append_right _ List.mem_cons_self))
  rw [Memory.length_read] at hread
  have hpast : x.contents.drop data.length = [] := List.drop_of_length_le (by omega)
  have hstored := h.store hlen.le
  rwa [hpast, List.append_nil] at hstored

/-! ### Files -/

theorem numClusters_pos (content : List UInt8) :
  0 < numClusters content
  := by
  rw [numClusters]
  split
  · exact Nat.one_pos
  · exact Nat.pos_of_ne_zero ‹_›

theorem length_le_numClusters (content : List UInt8) :
  content.length ≤ numClusters content * clusterBytes
  := by
  rw [numClusters, clusterBytes_eq]
  split
  · omega
  · omega

/-- The content of a file, padded to its clusters. -/
def padded (content : List UInt8) : List UInt8 :=
  content ++ List.replicate (numClusters content * clusterBytes - content.length) 0

/-- The extent of a file. -/
def extent (start : Nat) (content : List UInt8) : Extent UInt8 :=
  ⟨start, numClusters content, padded content⟩

theorem writeFile_spec (h : Holds v xs) (content : List UInt8)
    (hroom : v.currentCluster + numClusters content ≤ totalDataClusters + 2) :
  ∃ v', writeFile content v = some (v.currentCluster, v')
    ∧ v'.currentCluster = v.currentCluster + numClusters content
    ∧ Holds v' (xs ++ [extent v.currentCluster content])
  := by
  have hlen := length_le_numClusters content
  obtain ⟨hfat, himg, hlt⟩ := h.room hroom
  obtain ⟨fat, hfat', hsize, hnext⟩ := @writeClusters_spec content v.currentCluster _ 0 _ v
    (Nat.zero_add (numClusters content)) hlen h.two_le hfat himg hlt
  have hcontents : content ++ (List.replicate (numClusters content * clusterBytes) (0 : UInt8)).drop
      content.length = padded content := by
    rw [List.drop_replicate, padded]
  have hstored := (h.allocate (numClusters_pos content) hsize hnext).store hlen
  rw [hcontents] at hstored
  refine ⟨{ v with
    img := { v.img with bytes := v.img.bytes.write (dataOffset v.currentCluster) content }
    fat := fat
    currentCluster := v.currentCluster + numClusters content }, ?_, rfl, hstored⟩
  rw [Nat.zero_mul] at hfat'
  rw [writeFile, hfat']
  rfl

end BuildFat
