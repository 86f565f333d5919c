import Mathlib.Algebra.GroupWithZero.Nat
import Woos.Lib.Bytearray
import Woos.Lib.Extents

/-!
# The builder of the disk image

`main` of the build script, for lists of the files in the root directory and on the desktop: the boot
sector, the allocation of clusters with their chains, the directories, FSInfo, and the copies of the
FAT.  It has no result when something is packed outside an array or a count is negative.

`entry`, `chain` and `read` are how a FAT driver reads the image: an entry of the first FAT, the chain
of a file from its first cluster on, and the bytes of its clusters.
-/

namespace BuildFat

/-! ### Constants -/

def sectorSize : Nat := 512
def totalSectors : Nat := 131072
def reservedSectors : Nat := 32
def fatCount : Nat := 2
def sectorsPerFat : Nat := 1024
def sectorsPerCluster : Nat := 1
def rootDirClusters : Nat := 4
def fat1Start : Nat := reservedSectors
def fat2Start : Nat := fat1Start + sectorsPerFat
def dataStart : Nat := reservedSectors + fatCount * sectorsPerFat
def totalDataClusters : Nat := (totalSectors - dataStart) / sectorsPerCluster

/-- `cluster_bytes` -/
def clusterBytes : Nat := sectorSize * sectorsPerCluster

/-- `desktop_clusters` -/
def desktopClusters : Nat := 4

/-- The mark of the last cluster of a chain. -/
def endOfChain : Nat := 0x0FFFFFFF

/-- The bytes of an ASCII string. -/
def ascii (s : String) : List UInt8 := s.toList.map (fun c => c.toNat.toUInt8)

/-! ### Entries -/

/-- `s.ljust(n, " ")[:n]` -/
def ljust (n : Nat) (s : List UInt8) : List UInt8 := (s ++ List.replicate (n - s.length) 32).take n

/-- `make_entry` -/
def makeEntry (name ext : List UInt8) (attr : UInt8) (startCluster size : Nat) : List UInt8 :=
  ljust 8 name ++ ljust 3 ext ++ attr :: (List.replicate 8 (0 : UInt8)
    ++ Bytearray.pack [(2, startCluster >>> 16 &&& 0xFFFF), (2, 0), (2, 0x5CE0),
      (2, startCluster &&& 0xFFFF), (4, size)])

/-- A file: its name, in ASCII, and its content. -/
structure File where
  name : List UInt8
  content : List UInt8

/-- `name.split(".")[0]` -/
def File.base (f : File) : List UInt8 := f.name.takeWhile (· != 46)

/-- `name.split(".")[1]`, or nothing when there is no dot. -/
def File.ext (f : File) : List UInt8 := ((f.name.dropWhile (· != 46)).drop 1).takeWhile (· != 46)

/-- The directory entry of a file. -/
def File.entry (f : File) (startCluster : Nat) : List UInt8 :=
  makeEntry f.base f.ext 0x20 startCluster f.content.length

/-- The data of a directory and the number of its entries. -/
structure Directory where
  data : Bytearray
  count : Nat

/-- Write the next entry. -/
def Directory.put (d : Directory) (ent : List UInt8) : Directory :=
  { data := d.data.assign (d.count * 32) (d.count * 32 + 32) ent, count := d.count + 1 }

/-- `root_dir_data` with the volume label. -/
def rootDir : Directory :=
  let data := Bytearray.zeros (rootDirClusters * sectorSize * sectorsPerCluster)
  let data := data.assign 0 11 (ascii "WOOS FAT32 ")
  { data := data.assign 11 12 [0x08], count := 1 }

/-- A directory with the entries `.` and `..`. -/
def newDir (clusters start : Nat) : Directory :=
  let data := Bytearray.zeros (clusters * sectorSize * sectorsPerCluster)
  let data := data.assign 0 32 (makeEntry (ascii ".") [] 0x10 start 0)
  { data := data.assign 32 64 (makeEntry (ascii "..") [] 0x10 0 0), count := 2 }

/-! ### Clusters -/

/-- `img`, `fat_data` and `current_cluster` -/
structure Volume where
  img : Bytearray
  fat : Bytearray
  currentCluster : Nat

/-- The offset of a cluster in the image. -/
def dataOffset (cluster : Nat) : Nat := (dataStart + (cluster - 2) * sectorsPerCluster) * sectorSize

/-- `write_cluster_data` -/
def writeClusterData (img : Bytearray) (cluster : Nat) (data : List UInt8) : Bytearray :=
  img.assign (dataOffset cluster) (dataOffset cluster + data.length) data

/-- `struct.pack_into("<I", fat_data, cluster * 4, value)` -/
def setFat (fat : Bytearray) (cluster value : Nat) : Option Bytearray :=
  fat.packInto (cluster * 4) (Bytearray.pack [(4, value)])

/-- The loop of `write_file`, from the cluster `i` of the file on. -/
def writeClusters (content : List UInt8) (start num : Nat) : (i rest : Nat) → Volume → Option Volume
  | _, 0, v => some v
  | i, rest + 1, v => do
    let clust := start + i
    let sliceStart := i * clusterBytes
    let sliceEnd := min ((i + 1) * clusterBytes) content.length
    let img := writeClusterData v.img clust ((content.take sliceEnd).drop sliceStart)
    let fat ← setFat v.fat clust (if i = num - 1 then endOfChain else clust + 1)
    writeClusters content start num (i + 1) rest { v with img, fat }

/-- `num_clusters` -/
def numClusters (content : List UInt8) : Nat :=
  let n := (content.length + clusterBytes - 1) / clusterBytes
  if n = 0 then 1 else n

/-- `write_file` -/
def writeFile (content : List UInt8) (v : Volume) : Option (Nat × Volume) := do
  let start := v.currentCluster
  let num := numClusters content
  let v ← writeClusters content start num 0 num v
  some (start, { v with currentCluster := v.currentCluster + num })

/-- The loop over the files of the root directory. -/
def writeFiles : List File → Directory → Volume → Option (Directory × Volume)
  | [], d, v => some (d, v)
  | f :: files, d, v => do
    let (start, v) ← writeFile f.content v
    writeFiles files (d.put (f.entry start)) v

/-- The loop over the files of the desktop, which skips those without content. -/
def writeDesktopFiles : List File → Directory → Volume → Option (Directory × Volume)
  | [], d, v => some (d, v)
  | f :: files, d, v =>
    if f.content = [] then writeDesktopFiles files d v
    else do
      let (start, v) ← writeFile f.content v
      writeDesktopFiles files (d.put (f.entry start)) v

/-- The chain of a directory: each cluster but the last is followed by the next. -/
def linkClusters (start : Nat) : (rest : Nat) → (fat : Bytearray) → Option Bytearray
  | 0, fat => some fat
  | 1, fat => setFat fat start endOfChain
  | rest + 2, fat => do
    let fat ← setFat fat start (start + 1)
    linkClusters (start + 1) (rest + 1) fat

/-- The data of a directory is written to its clusters. -/
def writeDir (data : Bytearray) (start : Nat) : (i rest : Nat) → (img : Bytearray) → Bytearray
  | _, 0, img => img
  | i, rest + 1, img =>
    let cSlice := data.slice (i * sectorSize * sectorsPerCluster) ((i + 1) * sectorSize * sectorsPerCluster)
    writeDir data start (i + 1) rest (writeClusterData img (start + i) cSlice)

/-! ### The image -/

/-- The boot sector. -/
def writeBoot (img : Bytearray) : Option Bytearray := do
  let img := img.assign 0 3 [0xEB, 0x58, 0x90]
  let img := img.assign 3 11 (ascii "WOOSFS10")
  let img ← img.packInto 11 (Bytearray.pack [(2, sectorSize), (1, sectorsPerCluster),
    (2, reservedSectors), (1, fatCount), (2, 0), (2, 0), (1, 0xF8), (2, 0), (2, 63), (2, 16), (4, 0),
    (4, totalSectors)])
  let img ← img.packInto 36 (Bytearray.pack [(4, sectorsPerFat), (2, 0), (2, 0), (4, 2), (2, 1), (2, 6)]
    ++ List.replicate 12 0 ++ Bytearray.pack [(1, 0x80), (1, 0), (1, 0x29), (4, 0x12345678)]
    ++ ascii "WOOS FAT32 " ++ ascii "FAT32   ")
  let img := img.assign 510 511 [0x55]
  some (img.assign 511 512 [0xAA])

/-- The bytes of FSInfo. -/
def fsInfo (freeClusters nextFree : Nat) : List UInt8 :=
  Bytearray.pack [(4, 0x41615252)] ++ List.replicate 480 0
    ++ Bytearray.pack [(4, 0x61417272), (4, freeClusters), (4, nextFree)] ++ List.replicate 14 0
    ++ Bytearray.pack [(2, 0xAA55)]

/-- FSInfo, the backups, the copies of the FAT and the root directory. -/
def finish (root : Directory) (v : Volume) : Option Bytearray := do
  let clustersUsed := v.currentCluster - 2
  if totalDataClusters < clustersUsed then none
  else do
    let img ← v.img.packInto 512 (fsInfo (totalDataClusters - clustersUsed) v.currentCluster)
    let img := img.assign (6 * sectorSize) (7 * sectorSize) (img.slice 0 sectorSize)
    let img := img.assign (7 * sectorSize) (8 * sectorSize) (img.slice sectorSize (2 * sectorSize))
    let fatData := v.fat.slice 0 v.fat.size
    let img := img.assign (fat1Start * sectorSize) ((fat1Start + sectorsPerFat) * sectorSize) fatData
    let img := img.assign (fat2Start * sectorSize) ((fat2Start + sectorsPerFat) * sectorSize) fatData
    some (img.assign (dataStart * sectorSize) ((dataStart + rootDirClusters) * sectorSize)
      (root.data.slice 0 root.data.size))

/-- `main`, up to the writing of the file. -/
def build (rootFiles desktopFiles : List File) : Option Bytearray := do
  let img ← writeBoot (Bytearray.zeros (totalSectors * sectorSize))
  let fat ← (Bytearray.zeros (sectorsPerFat * sectorSize)).packInto 0
    (Bytearray.pack [(4, 0x0FFFFFF8), (4, endOfChain)])
  let fat ← linkClusters 2 rootDirClusters fat
  let (root, v) ← writeFiles rootFiles rootDir { img, fat, currentCluster := 2 + rootDirClusters }
  -- the directory of the desktop
  let desktopStart := v.currentCluster
  let fat ← linkClusters desktopStart desktopClusters v.fat
  let root := root.put (makeEntry (ascii "DESKTOP") [] 0x10 desktopStart 0)
  let (desktop, v) ← writeDesktopFiles desktopFiles (newDir desktopClusters desktopStart)
    { v with fat, currentCluster := v.currentCluster + desktopClusters }
  let img := writeDir desktop.data desktopStart 0 desktopClusters v.img
  -- the directory of deleted files
  let recycle := v.currentCluster
  let fat ← setFat v.fat recycle endOfChain
  let root := root.put (makeEntry (ascii "RECYCLE") [] 0x10 recycle 0)
  let img := writeClusterData img recycle ((newDir 1 recycle).data.slice 0 (sectorSize * sectorsPerCluster))
  finish root { img, fat, currentCluster := v.currentCluster + 1 }

/-! ### Reading the image -/

/-- An entry of the first FAT. -/
def entry (img : Bytearray) (c : Nat) : Nat :=
  LittleEndian.decode (img.bytes.read (fat1Start * sectorSize + c * 4) 4)

/-- A mark of the end of a chain. -/
def isEnd (value : Nat) : Bool := 0x0FFFFFF8 ≤ value

/-- The clusters of the chain from `c` on. -/
def chain (img : Bytearray) (c : Nat) : Option (List Nat) :=
  Extent.follow (entry img) isEnd totalDataClusters c

/-- The bytes of the clusters of the chain from `c` on. -/
def read (img : Bytearray) (c : Nat) : Option (List UInt8) :=
  (chain img c).map (·.flatMap (fun c => img.bytes.read (dataOffset c) clusterBytes))

/-- An entry of a directory. -/
def slot (dir : List UInt8) (i : Nat) : List UInt8 := (dir.drop (i * 32)).take 32

/-- The first cluster in a directory entry. -/
def entryStart (ent : List UInt8) : Nat :=
  LittleEndian.decode ((ent.drop 26).take 2) + 65536 * LittleEndian.decode ((ent.drop 20).take 2)

/-- The size in a directory entry. -/
def entrySize (ent : List UInt8) : Nat := LittleEndian.decode ((ent.drop 28).take 4)

/-- The count of free clusters in FSInfo. -/
def freeCount (img : Bytearray) : Nat := LittleEndian.decode (img.bytes.read (sectorSize + 488) 4)

end BuildFat
