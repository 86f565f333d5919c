import Woos.BuildFat.Image

/-!
# The image that is built

The extents of the built image: the root directory, the files of the root directory, the directory of
the desktop, its files, and the directory of deleted files, one behind the other (`layout`).
-/

namespace BuildFat

open Extent

/-- The contents fit: the directories hold 64 entries, and there are clusters for all. -/
structure Fits (rootFiles desktopFiles : List File) : Prop where
  root : rootFiles.length + 3 ≤ 64
  desktop : (written desktopFiles).length + 2 ≤ 64
  room : rootDirClusters + clusters rootFiles + desktopClusters + clusters (written desktopFiles) + 1
    ≤ totalDataClusters

variable (rootFiles desktopFiles : List File)

/-! ### The layout -/

/-- `desktop_start_cluster` -/
def desktopStart : Nat := 6 + clusters rootFiles

/-- `recycle_cluster` -/
def recycleStart : Nat := desktopStart rootFiles + 4 + clusters (written desktopFiles)

/-- The entries of the root directory. -/
def rootEntries : List (List UInt8) :=
  [labelEntry] ++ entries rootFiles 6 ++ [makeEntry (ascii "DESKTOP") [] 0x10 (desktopStart rootFiles) 0]
    ++ [makeEntry (ascii "RECYCLE") [] 0x10 (recycleStart rootFiles desktopFiles) 0]

/-- The entries of the desktop. -/
def desktopEntries : List (List UInt8) :=
  dots (desktopStart rootFiles) ++ entries (written desktopFiles) (desktopStart rootFiles + 4)

/-- The directories' data. -/
def rootData : List UInt8 := dirBytes (4 * clusterBytes) (rootEntries rootFiles desktopFiles)

def desktopData : List UInt8 := dirBytes (4 * clusterBytes) (desktopEntries rootFiles desktopFiles)

def recycleData : List UInt8 := dirBytes (1 * clusterBytes) (dots (recycleStart rootFiles desktopFiles))

/-- All extents in the order of their clusters. -/
def layout : List (Extent UInt8) :=
  ⟨2, 4, rootData rootFiles desktopFiles⟩ :: (extents rootFiles 6
    ++ ⟨desktopStart rootFiles, 4, desktopData rootFiles desktopFiles⟩ ::
      (extents (written desktopFiles) (desktopStart rootFiles + 4)
        ++ [⟨recycleStart rootFiles desktopFiles, 1, recycleData rootFiles desktopFiles⟩]))

/-! ### The steps -/

/-- The volume before the first file. -/
theorem start_spec :
  ∃ img fat fat', writeBoot (Bytearray.zeros (totalSectors * sectorSize)) = some img
    ∧ (Bytearray.zeros (sectorsPerFat * sectorSize)).packInto 0
      (Bytearray.pack [(4, 0x0FFFFFF8), (4, endOfChain)]) = some fat
    ∧ linkClusters 2 rootDirClusters fat = some fat'
    ∧ Holds ⟨img, fat', 2 + rootDirClusters⟩ [⟨2, 4, List.replicate (4 * clusterBytes) 0⟩]
  := by
  obtain ⟨img, himg, hsize, hzero⟩ := @writeBoot_spec (Bytearray.zeros (totalSectors * sectorSize)) (by decide)
  obtain ⟨fat, hfat, hsame, hbytes⟩ := @Bytearray.packInto_fields (Bytearray.zeros (sectorsPerFat * sectorSize))
    0 (Bytearray.pack [(4, 0x0FFFFFF8), (4, endOfChain)]) (by decide)
  have hempty : Holds ⟨img, fat, 2⟩ [] := by
    refine ⟨hsize, hsame, rfl, nofun, ?_, nofun, ?_⟩
    · intro c hc
      have hle : 2 ≤ c := hc
      have hlen : (Bytearray.pack [(4, 0x0FFFFFF8), (4, endOfChain)]).length = 8 := rfl
      show next fat c = 0
      rw [next, hbytes, Memory.read_write_disjoint _ (by omega), Memory.read_zeros (fun _ _ => rfl)]
      rfl
    · intro a ha
      have hle : dataOffset 2 ≤ a := ha
      rw [dataOffset_eq (Nat.le_refl 2)] at hle
      exact hzero a (by omega)
  have hroom : 2 + 4 ≤ totalDataClusters + 2 := by decide
  obtain ⟨fat', hfat', hv⟩ := hempty.link rfl (Nat.succ_pos 3) hroom
  exact ⟨img, fat, fat', himg, hfat, hfat', hv⟩

variable {rootFiles desktopFiles}

theorem build_spec (h : Fits rootFiles desktopFiles) :
  ∃ img, build rootFiles desktopFiles = some img ∧ img.size = totalSectors * sectorSize
    ∧ Shows img (recycleStart rootFiles desktopFiles + 1) (layout rootFiles desktopFiles)
    ∧ img.bytes.read (fat1Start * sectorSize) (sectorsPerFat * sectorSize)
      = img.bytes.read (fat2Start * sectorSize) (sectorsPerFat * sectorSize)
    ∧ freeCount img = totalDataClusters - (recycleStart rootFiles desktopFiles + 1 - 2)
  := by
  have hroots := h.root
  have hdesktops := h.desktop
  have hroom : 4 + clusters rootFiles + 4 + clusters (written desktopFiles) + 1 ≤ totalDataClusters := h.room
  have hfour : 0 < 4 := by decide
  obtain ⟨img₀, fat₀, fat₁, himg₀, hfat₀, hfat₁, hv₁⟩ := start_spec
  -- the files of the root directory
  obtain ⟨root₂, v₂, hfiles, hroot₂, hcurrent₂, hv₂⟩ := @writeFiles_spec rootFiles _ _ _ 6 _ _ rootDir_lists
    hv₁ rfl (by
      rw [List.length_singleton, clusterBytes_eq]
      omega) (by omega)
  rw [← desktopStart] at hcurrent₂
  -- the directory of the desktop and its files
  obtain ⟨fat₃, hlink, hv₃⟩ := hv₂.link hcurrent₂ hfour (by
    rw [desktopStart]
    omega)
  obtain ⟨desktop₄, v₄, hfiles₄, hdesktop₄, hcurrent₄, hv₄⟩ := @writeFiles_spec (written desktopFiles) _ _ _
    (desktopStart rootFiles + 4) _ _
    (newDir_lists hfour (desktopStart rootFiles)) hv₃ rfl (by
      rw [dots, List.length_cons, List.length_singleton, clusterBytes_eq]
      omega) (by
      rw [desktopStart]
      omega)
  rw [← recycleStart] at hcurrent₄
  have hlast : recycleStart rootFiles desktopFiles + 1 ≤ totalDataClusters + 2 := by
    rw [recycleStart, desktopStart]
    omega
  rw [List.append_assoc, List.singleton_append] at hv₄
  have hv₅ := hv₄.storeDir (by omega) hdesktop₄
  -- the directory of deleted files
  obtain ⟨fat₆, hend, hv₆⟩ := hv₅.link hcurrent₄ Nat.one_pos hlast
  have hrecycle := newDir_lists Nat.one_pos (recycleStart rootFiles desktopFiles)
  have hlen := hrecycle.length_dirBytes
  have hv₇ := hv₆.fill hlen
  -- the entries of both directories in the root directory
  have hroot₃ := hroot₂.put (length_makeEntry (ascii "DESKTOP") [] 0x10 (desktopStart rootFiles) 0) (by
    rw [List.length_append, length_entries, List.length_singleton, clusterBytes_eq]
    omega)
  have hroot₄ := hroot₃.put
    (length_makeEntry (ascii "RECYCLE") [] 0x10 (recycleStart rootFiles desktopFiles) 0) (by
      rw [List.length_append, List.length_append, length_entries, List.length_singleton,
        List.length_singleton, clusterBytes_eq]
      omega)
  rw [← rootEntries] at hroot₄
  simp only [List.append_assoc, List.cons_append] at hv₇
  obtain ⟨img, hfinish, hsize, hshows, hcopies, hfree⟩ := finish_spec hroot₄ hv₇ hlast
  refine ⟨img, ?_, hsize, hshows, hcopies, hfree⟩
  have hskip := (writeDesktopFiles_eq desktopFiles _ _).trans hfiles₄
  have hslice : (newDir 1 (recycleStart rootFiles desktopFiles)).data.slice 0 (sectorSize * sectorsPerCluster)
      = dirBytes (1 * clusterBytes) (dots (recycleStart rootFiles desktopFiles)) := by
    rw [← clusterBytes, ← hrecycle.slice_eq, Nat.one_mul]
  have hwrite : writeClusterData (writeDir desktop₄.data (desktopStart rootFiles) 0 4 v₄.img)
      (recycleStart rootFiles desktopFiles) (dirBytes (1 * clusterBytes) (dots (recycleStart rootFiles desktopFiles)))
      = _ := writeClusterData_eq (by
    have hnext := dataOffset_add (hcurrent₄ ▸ hv₄.two_le) 1
    have hend₆ := (@Holds.room _ _ hv₆ 0 hlast).2.1
    rw [Nat.add_zero] at hend₆
    rw [hlen, ← hnext]
    exact hend₆)
  have hlast₆ : setFat v₄.fat (recycleStart rootFiles desktopFiles) endOfChain = some fat₆ := hend
  rw [build, himg₀, Option.bind_eq_bind, Option.bind_some, hfat₀, Option.bind_some, hfat₁, Option.bind_some,
    hfiles, Option.bind_eq_bind, Option.bind_some]
  dsimp only
  rw [hcurrent₂, desktopClusters, hlink, Option.bind_some, hskip, Option.bind_some, hcurrent₄, hlast₆, Option.bind_some, hslice, hwrite]
  exact hfinish

end BuildFat
