import Woos.BuildFat.Build

/-!
# The contents of the built image

When the contents fit, a driver that reads the built image finds each file through its directory
entry, with its content padded to clusters; the chains are disjoint and end in a mark, the copies of the
FAT are equal, and FSInfo counts the free entries (`build_keeps`).
-/

namespace BuildFat

/-- The entries of a directory. -/
def slots (dir : List UInt8) (n : Nat) : List (List UInt8) := (List.range n).map (slot dir)

/-- The entry `i` of a directory is that of the file, and its chain holds the content. -/
structure Stored (img : Bytearray) (dir : List UInt8) (i : Nat) (f : File) : Prop where
  entry_eq : slot dir i = f.entry (entryStart (slot dir i))
  size_eq : entrySize (slot dir i) = f.content.length
  read_eq : read img (entryStart (slot dir i)) = some (padded f.content)

theorem slots_flatten {es : List (List UInt8)} (h : ∀ e ∈ es, e.length = 32) (rest : List UInt8) :
  slots (es.flatten ++ rest) es.length = es
  := by
  apply List.ext_getElem?
  intro i
  rw [slots, List.getElem?_map]
  by_cases hi : i < es.length
  · rw [List.getElem?_range hi, Option.map_some, List.getElem?_eq_getElem hi]
    exact congrArg some (slot_flatten h rest (List.getElem?_eq_getElem hi))
  · rw [List.getElem?_eq_none (by
      rw [List.length_range]
      exact Nat.not_lt.mp hi),
      List.getElem?_eq_none (Nat.not_lt.mp hi)]
    rfl

theorem slots_dirBytes {es : List (List UInt8)} (h : ∀ e ∈ es, e.length = 32) (size : Nat) {n : Nat}
    (hn : es.length = n) :
  slots (dirBytes size es) n = es
  := hn ▸ slots_flatten h _

/-- A file's entry and its extent. -/
theorem getElem?_entries {files : List File} {i : Nat} {f : File} (h : files[i]? = some f) (start : Nat) :
  ∃ c, (entries files start)[i]? = some (f.entry c) ∧ extent c f.content ∈ extents files start
  := by
  induction files generalizing i start with
  | nil => cases h
  | cons g files ih =>
      rw [entries, extents]
      cases i with
      | zero =>
          rw [List.getElem?_cons_zero, Option.some.injEq] at h
          rw [h]
          exact ⟨start, rfl, List.mem_cons_self⟩
      | succ i =>
          obtain ⟨c, hentry, hextent⟩ := ih h (start + numClusters g.content)
          exact ⟨c, hentry, List.mem_cons_of_mem _ hextent⟩

/-- The first clusters of the entries are those of the extents. -/
theorem map_entryStart (files : List File) {start : Nat} (h : start + clusters files < 2 ^ 32) :
  (entries files start).map entryStart = (extents files start).map Extent.start
  := by
  induction files generalizing start with
  | nil => rfl
  | cons f files ih =>
      have hcons : clusters (f :: files) = numClusters f.content + clusters files := List.sum_cons
      rw [entries, extents, List.map_cons, List.map_cons, ih (by omega), File.entry,
        entryStart_makeEntry _ _ _ _ (by omega)]
      rfl

/-- The first clusters of all chains: the root directory, the entries in it, and the files of the
desktop. -/
def firstClusters (root desktop : List UInt8) (rootCount desktopCount : Nat) : List Nat :=
  2 :: (((slots root (rootCount + 3)).drop 1).map entryStart
    ++ ((slots desktop (desktopCount + 2)).drop 2).map entryStart)

/-- The image keeps the files: `root` and `desktop` are the contents of the directories. -/
structure Keeps (img : Bytearray) (root desktop : List UInt8) (rootFiles desktopFiles : List File) :
  Prop where
  size_eq : img.size = totalSectors * sectorSize
  root_eq : read img 2 = some root
  root_stored : ∀ i f, rootFiles[i]? = some f → Stored img root (i + 1) f
  desktop_eq : read img (entryStart (slot root (rootFiles.length + 1))) = some desktop
  desktop_stored : ∀ i f, desktopFiles[i]? = some f → Stored img desktop (i + 2) f
  recycle_eq : read img (entryStart (slot root (rootFiles.length + 2)))
    = some (dirBytes (1 * clusterBytes) (dots (entryStart (slot root (rootFiles.length + 2)))))
  ends : ∀ c ∈ firstClusters root desktop rootFiles.length desktopFiles.length,
    ∃ cs l, chain img c = some cs ∧ cs.getLast? = some l ∧ isEnd (entry img l) = true
  apart : (firstClusters root desktop rootFiles.length desktopFiles.length).Pairwise (Apart img)
  copies_eq : img.bytes.read (fat1Start * sectorSize) (sectorsPerFat * sectorSize)
    = img.bytes.read (fat2Start * sectorSize) (sectorsPerFat * sectorSize)
  free_eq : freeCount img = (List.range' 2 totalDataClusters).countP (fun c => entry img c = 0)

variable {rootFiles desktopFiles : List File}

/-! ### The entries -/

theorem length_of_mem_entries {files : List File} {start : Nat} :
  ∀ e ∈ entries files start, e.length = 32
  := by
  induction files generalizing start with
  | nil => exact nofun
  | cons f files ih =>
      intro e he
      rcases List.mem_cons.mp he with rfl | he
      · exact length_makeEntry _ _ _ _ _
      · exact ih e he

theorem rootEntries_eq (rootFiles desktopFiles : List File) :
  rootEntries rootFiles desktopFiles = labelEntry :: (entries rootFiles 6
    ++ [makeEntry (ascii "DESKTOP") [] 0x10 (desktopStart rootFiles) 0,
      makeEntry (ascii "RECYCLE") [] 0x10 (recycleStart rootFiles desktopFiles) 0])
  := by
  rw [rootEntries, List.append_assoc, List.append_assoc]
  rfl

theorem length_rootEntries (rootFiles desktopFiles : List File) :
  ∀ e ∈ rootEntries rootFiles desktopFiles, e.length = 32
  := by
  intro e he
  rw [rootEntries, List.mem_append, List.mem_append, List.mem_append] at he
  rcases he with ((he | he) | he) | he
  · rw [List.mem_singleton.mp he]
    rfl
  · exact length_of_mem_entries e he
  · rw [List.mem_singleton.mp he, length_makeEntry]
  · rw [List.mem_singleton.mp he, length_makeEntry]

theorem length_desktopEntries (rootFiles desktopFiles : List File) :
  ∀ e ∈ desktopEntries rootFiles desktopFiles, e.length = 32
  := by
  intro e he
  rcases List.mem_append.mp he with he | he
  · rcases List.mem_cons.mp he with rfl | he
    · exact length_makeEntry _ _ _ _ _
    · rw [List.mem_singleton.mp he, length_makeEntry]
  · exact length_of_mem_entries e he

/-- The first clusters are those of the extents. -/
theorem firstClusters_perm (h : Fits rootFiles desktopFiles) :
  (firstClusters (rootData rootFiles desktopFiles) (desktopData rootFiles desktopFiles) rootFiles.length
      (written desktopFiles).length).Perm ((layout rootFiles desktopFiles).map Extent.start)
  := by
  have hroom : 4 + clusters rootFiles + 4 + clusters (written desktopFiles) + 1 ≤ totalDataClusters := h.room
  have htotal : totalDataClusters = 128992 := rfl
  have hd : desktopStart rootFiles = 6 + clusters rootFiles := rfl
  have hr : recycleStart rootFiles desktopFiles = desktopStart rootFiles + 4 + clusters (written desktopFiles) :=
    rfl
  have hroot : ((rootEntries rootFiles desktopFiles).drop 1).map entryStart
      = (extents rootFiles 6).map Extent.start
        ++ [desktopStart rootFiles, recycleStart rootFiles desktopFiles] := by
    rw [rootEntries_eq, List.drop_one, List.tail_cons, List.map_append, map_entryStart rootFiles (by omega), List.map_cons, List.map_singleton,
      entryStart_makeEntry _ _ _ _ (by omega), entryStart_makeEntry _ _ _ _ (by omega)]
  have hdesktop : ((desktopEntries rootFiles desktopFiles).drop 2).map entryStart
      = (extents (written desktopFiles) (desktopStart rootFiles + 4)).map Extent.start :=
    map_entryStart (written desktopFiles) (by omega)
  rw [firstClusters, rootData, desktopData, slots_dirBytes (length_rootEntries _ _) _ (by simp [rootEntries]),
    slots_dirBytes (length_desktopEntries _ _) _ (by simp [desktopEntries, dots]), hroot, hdesktop, layout,
    List.map_cons, List.map_append, List.map_cons, List.map_append, List.append_assoc]
  apply List.Perm.cons
  apply List.Perm.append_left
  apply List.Perm.cons
  exact (List.perm_append_singleton _ _).symm

/-- A file in a directory of the image. -/
theorem Shows.stored {img : Bytearray} {last : Nat} {xs : List (Extent UInt8)} (h : Shows img last xs)
    {es : List (List UInt8)} (hes : ∀ e ∈ es, e.length = 32) (size : Nat) {i c : Nat} {f : File}
    (hent : es[i]? = some (f.entry c)) (hmem : extent c f.content ∈ xs) :
  Stored img (dirBytes size es) i f
  := by
  obtain ⟨hstart, -, hend⟩ := h.tiles.mem hmem
  have hroom := h.room
  have htotal : totalDataClusters = 128992 := rfl
  have hlen := length_le_numClusters f.content
  have hcount : numClusters f.content ≤ 128994 := by
    have hle : c + numClusters f.content ≤ last := hend
    omega
  rw [clusterBytes_eq] at hlen
  have hslot : slot (dirBytes size es) i = f.entry c := slot_flatten hes _ hent
  have hc : entryStart (f.entry c) = c := entryStart_makeEntry _ _ _ _ (by
    have hle : c + numClusters f.content ≤ last := hend
    omega)
  refine ⟨?_, ?_, ?_⟩
  · rw [hslot, hc]
  · rw [hslot]
    exact entrySize_makeEntry _ _ _ _ (by omega)
  · have hread := h.read_eq hmem
    rw [hslot, hc]
    exact hread

/-- The entries of the directories. -/
theorem slot_dir {k : Nat} {ent : List UInt8}
    (h : [makeEntry (ascii "DESKTOP") [] 0x10 (desktopStart rootFiles) 0,
      makeEntry (ascii "RECYCLE") [] 0x10 (recycleStart rootFiles desktopFiles) 0][k]? = some ent) :
  slot (rootData rootFiles desktopFiles) (rootFiles.length + 1 + k) = ent
  := by
  apply slot_flatten (length_rootEntries _ _)
  have hlen := length_entries rootFiles 6
  rw [Nat.add_right_comm, rootEntries_eq, List.getElem?_cons_succ, List.getElem?_append_right (by omega),
    hlen, Nat.add_sub_cancel_left, h]

theorem build_keeps (h : Fits rootFiles desktopFiles) :
  ∃ img root desktop, build rootFiles desktopFiles = some img
    ∧ Keeps img root desktop rootFiles (written desktopFiles)
  := by
  have hroom : 4 + clusters rootFiles + 4 + clusters (written desktopFiles) + 1 ≤ totalDataClusters := h.room
  have htotal : totalDataClusters = 128992 := rfl
  have hd : desktopStart rootFiles = 6 + clusters rootFiles := rfl
  obtain ⟨img, himg, hsize, hshows, hcopies, hfree⟩ := build_spec h
  have hperm := firstClusters_perm h
  have hmem : ⟨desktopStart rootFiles, 4, desktopData rootFiles desktopFiles⟩ ∈ layout rootFiles desktopFiles :=
    List.mem_cons_of_mem _ (List.mem_append_right _ List.mem_cons_self)
  refine ⟨img, rootData rootFiles desktopFiles, desktopData rootFiles desktopFiles, himg, ?_⟩
  refine ⟨hsize, ?_, ?_, ?_, ?_, ?_, ?_, ?_, hcopies, hfree.trans hshows.free_eq.symm⟩
  · have hread := hshows.read_eq List.mem_cons_self
    exact hread
  · intro i f hf
    obtain ⟨c, hent, hextent⟩ := getElem?_entries hf 6
    have hin : (rootEntries rootFiles desktopFiles)[i + 1]? = some (f.entry c) := by
      have hlt := (List.getElem?_eq_some_iff.mp hent).1
      rw [rootEntries_eq, List.getElem?_cons_succ, List.getElem?_append_left hlt, hent]
    exact hshows.stored (length_rootEntries _ _) _ hin
      (List.mem_cons_of_mem _ (List.mem_append_left _ hextent))
  · have hslot := @slot_dir rootFiles desktopFiles 0 _ rfl
    rw [Nat.add_zero] at hslot
    have hread := hshows.read_eq hmem
    rw [hslot, entryStart_makeEntry _ _ _ _ (by omega)]
    exact hread
  · intro i f hf
    obtain ⟨c, hent, hextent⟩ := getElem?_entries hf (desktopStart rootFiles + 4)
    exact hshows.stored (length_desktopEntries _ _) _ hent (List.mem_cons_of_mem _
      (List.mem_append_right _ (List.mem_cons_of_mem _ (List.mem_append_left _ hextent))))
  · have hr : recycleStart rootFiles desktopFiles
        = desktopStart rootFiles + 4 + clusters (written desktopFiles) := rfl
    have hslot := @slot_dir rootFiles desktopFiles 1 _ rfl
    have hlast : ⟨recycleStart rootFiles desktopFiles, 1, recycleData rootFiles desktopFiles⟩
        ∈ layout rootFiles desktopFiles :=
      List.mem_cons_of_mem _ (List.mem_append_right _ (List.mem_cons_of_mem _ List.mem_concat_self))
    have hread := hshows.read_eq hlast
    rw [hslot, entryStart_makeEntry _ _ _ _ (by omega)]
    exact hread
  · intro c hc
    obtain ⟨x, hx, rfl⟩ := List.mem_map.mp (hperm.mem_iff.mp hc)
    exact hshows.chain_ends hx
  · exact (hperm.pairwise_iff (fun h => apart_symm h)).mpr hshows.apart


/-- Files below, on and above the size of a cluster. -/
theorem build_keeps_files :
  ∃ img root desktop,
    build [⟨ascii "A.TXT", []⟩, ⟨ascii "B.TXT", List.replicate 512 1⟩]
      [⟨ascii "C", List.replicate 513 2⟩, ⟨ascii "D", []⟩] = some img
    ∧ Keeps img root desktop [⟨ascii "A.TXT", []⟩, ⟨ascii "B.TXT", List.replicate 512 1⟩]
      (written [⟨ascii "C", List.replicate 513 2⟩, ⟨ascii "D", []⟩])
  := by
  apply build_keeps
  exact ⟨by decide, by decide, by decide +kernel⟩

end BuildFat
