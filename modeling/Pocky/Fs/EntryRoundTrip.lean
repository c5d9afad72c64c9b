import Pocky.Fs.Runs

/-! Reading back a new directory entry: all of it returns but the upper bits of the start cluster. -/

namespace Pocky

/-- A byte of a slot that is in use. -/
theorem freeByte_eq_false {byte : UInt8} (live : freeByte byte = false) :
    byte ≠ 0x00 ∧ byte ≠ 0xE5 := by
  simpa [freeByte] using live

/-- A lookup that fails has compared every slot in front of the first free one. -/
theorem findName_none {data : Buffer} {name : Name} {remaining offset slot : Nat}
    (absent : findName data name remaining offset = none) (inside : slot < remaining)
    (live : ∀ earlier ≤ slot, freeByte (data (offset + slotSize * earlier)) = false) :
    entryAttributes data (offset + slotSize * slot) = 0x0F ∨
      entryName data (offset + slotSize * slot) ≠ name := by
  -- By induction on the slots that are left.
  induction remaining generalizing offset slot with
  | zero => exact absurd inside (Nat.not_lt_zero _)
  | succ remaining ih =>
    have shift : ∀ slot, offset + slotSize * (slot + 1) = offset + slotSize + slotSize * slot := by
      intro slot
      simp only [slotSize]
      omega
    obtain ⟨used, kept⟩ := freeByte_eq_false (live 0 (Nat.zero_le _))
    rw [Nat.mul_zero, Nat.add_zero] at used kept
    rw [findName, if_neg used, if_neg kept] at absent
    cases slot with
    | zero =>
      rw [Nat.mul_zero, Nat.add_zero]
      by_contra both
      obtain ⟨kind, named⟩ := not_or.mp both
      rw [if_neg kind, if_pos (not_not.mp named)] at absent
      cases absent
    | succ slot =>
      have rest : findName data name remaining (offset + slotSize) = none := by
        split at absent
        · exact absent
        · split at absent
          · cases absent
          · exact absent
      rw [shift]
      refine ih rest (Nat.lt_of_succ_lt_succ inside) fun earlier below => ?_
      rw [← shift]
      exact live (earlier + 1) (Nat.succ_le_succ below)

/-- A lookup finds a name behind live slots with other names. -/
theorem findName_first {data : Buffer} {name : Name} {remaining offset slot : Nat}
    (inside : slot < remaining)
    (before : ∀ earlier < slot, freeByte (data (offset + slotSize * earlier)) = false ∧
      (entryAttributes data (offset + slotSize * earlier) = 0x0F ∨
        entryName data (offset + slotSize * earlier) ≠ name))
    (live : freeByte (data (offset + slotSize * slot)) = false)
    (kind : entryAttributes data (offset + slotSize * slot) ≠ 0x0F)
    (named : entryName data (offset + slotSize * slot) = name) :
    findName data name remaining offset = some (offset + slotSize * slot) := by
  -- By induction on the slots that are left.
  induction remaining generalizing offset slot with
  | zero => exact absurd inside (Nat.not_lt_zero _)
  | succ remaining ih =>
    have shift : ∀ slot, offset + slotSize * (slot + 1) = offset + slotSize + slotSize * slot := by
      intro slot
      simp only [slotSize]
      omega
    cases slot with
    | zero =>
      rw [Nat.mul_zero, Nat.add_zero] at live kind named ⊢
      obtain ⟨used, kept⟩ := freeByte_eq_false live
      rw [findName, if_neg used, if_neg kept, if_neg kind, if_pos named, Nat.add_zero]
    | succ slot =>
      obtain ⟨first, other⟩ := before 0 (Nat.succ_pos _)
      rw [Nat.mul_zero, Nat.add_zero] at first other
      obtain ⟨used, kept⟩ := freeByte_eq_false first
      rw [shift] at live kind named ⊢
      have rest := ih (Nat.lt_of_succ_lt_succ inside)
        (fun earlier below => by rw [← shift]; exact before (earlier + 1) (Nat.succ_lt_succ below))
        live kind named
      rw [findName, if_neg used, if_neg kept]
      rcases other with long | different
      · rw [if_pos long, rest]
      · rw [if_neg different, rest, ite_self]

/-- The four bytes of a number. -/
theorem wordAt_byteOf {data : Buffer} {offset value : Nat} (small : value < 2 ^ 32)
    (bytes : ∀ index < 4, data (offset + index) = byteOf value index) :
    wordAt data offset = value := by
  have low : halfAt data offset = value % 65536 := halfAt_byteOf (bytes 0 (by decide)) (bytes 1 (by decide))
  have digit : ∀ index, (byteOf value index).toNat = value / 256 ^ index % 256 := by
    intro index
    rw [byteOf, UInt8.toNat_ofNat']
  rw [wordAt, low, halfAt, Nat.add_assoc offset 2 1, bytes 2 (by decide), bytes 3 (by decide), digit,
    digit]
  omega

/-- The size in a new entry. -/
theorem entrySize_entryBytes {data : Buffer} {slot : Nat} {name : Name} {attributes : UInt8}
    {cluster size : Nat} (small : size < 2 ^ 32)
    (bytes : ∀ byte < slotSize, data (slotSize * slot + byte) =
      FileSystem.entryBytes name attributes cluster size byte) :
    entrySize data (slotSize * slot) = size := by
  refine wordAt_byteOf small fun index little => ?_
  have last : 28 + index < slotSize := by
    simp only [slotSize]
    omega
  rw [Nat.add_assoc, bytes (28 + index) last]
  simp only [FileSystem.entryBytes]
  rw [if_neg (by omega), if_neg (by omega), if_neg (by omega), if_neg (by omega),
    if_pos ⟨Nat.le_add_right _ _, last⟩, Nat.add_sub_cancel_left]

/-- An entry put into the first free slot is the one that a lookup of its name finds. -/
theorem findName_entryBytes {data data' : Buffer} {name : Name} {attributes : UInt8}
    {cluster size slot : Nat} (storable : Storable name) (kind : attributes ≠ 0x0F)
    (absent : findName data name 16 0 = none) (first : findFree data 16 0 = some (slotSize * slot))
    (change : ChangesSlot slot data data')
    (bytes : ∀ byte < slotSize, data' (slotSize * slot + byte) =
      FileSystem.entryBytes name attributes cluster size byte) :
    findName data' name 16 0 = some (slotSize * slot) := by
  obtain ⟨slot', small, place, -, before⟩ := findFree_some first
  obtain rfl : slot = slot' := by
    simp only [slotSize] at place
    omega
  obtain ⟨live, attr, named, -⟩ := entry_of_entryBytes storable bytes
  -- The slots in front are live, and the lookup has passed them before.
  have earlier : ∀ other < slot, freeByte (data' (0 + slotSize * other)) = false ∧
      (entryAttributes data' (0 + slotSize * other) = 0x0F ∨
        entryName data' (0 + slotSize * other) ≠ name) := by
    intro other below
    have same := fun byte (inside : byte < slotSize) =>
      change.bytes (Nat.ne_of_lt below) inside
    have start := same 0 (by decide)
    rw [Nat.add_zero] at start
    have passed := findName_none absent (Nat.lt_trans below small) fun earlier under =>
      before earlier (Nat.lt_of_le_of_lt under below)
    have live' := before other below
    rw [Nat.zero_add] at passed live' ⊢
    rw [start, entryAttributes, same 11 (by decide),
      entryName_congr fun index little => same index (Nat.lt_trans little (by decide))]
    exact ⟨live', passed⟩
  have found := findName_first small earlier (by rw [Nat.zero_add]; exact live)
    (by rw [Nat.zero_add, attr]; exact kind) (by rw [Nat.zero_add]; exact named)
  rwa [Nat.zero_add] at found

namespace FileSystem

section OneSector

variable {fs : FileSystem} (sector512 : fs.bpb.bytesPerSector = 512)
  (one : fs.bpb.sectorsPerCluster = 1)
include sector512 one

/-- A scan of a directory that decides in its first sector. -/
theorem scanChain_one {α : Type} (find : Nat → Buffer → Option α) (failed ended : α)
    (directory : Nat) {answer : α}
    (decides : find (fs.clusterSector directory) (fs.block (fs.clusterSector directory)) =
      some answer) :
    fs.scanChain find failed ended walkSteps directory =
      .ok (if fs.disk.readOk fs.disk.clock (fs.clusterSector directory) then answer
        else failed) := by
  have number : (fs.clusterSector directory + 0) % 2 ^ 32 = fs.clusterSector directory := by
    rw [Nat.add_zero, clusterSector, Nat.mod_mod]
  obtain ⟨steps, shape⟩ : ∃ steps, walkSteps = steps + 1 := ⟨2 ^ 32 - 1, by decide⟩
  rw [shape, scanChain, one, scanSectors, number, readSector_cases sector512]
  by_cases readable : fs.disk.readOk fs.disk.clock (fs.clusterSector directory) = true
  · simp only [if_pos readable, decides]
  · simp only [if_neg readable]

/-- A lookup that finds a name in the first sector of a directory. -/
theorem findFileInDirectory_one {directory sector offset : Nat} {name : Name} {data : Buffer}
    (place : fs.clusterSector directory = sector) (content : fs.block sector = data)
    (found : findName data name 16 0 = some offset) :
    fs.findFileInDirectory directory name =
      .ok (if fs.disk.readOk fs.disk.clock sector then
        some ⟨entryCluster data offset, entrySize data offset, entryAttributes data offset,
          some (sector, offset)⟩ else none) := by
  subst place
  subst content
  rw [findFileInDirectory]
  refine scanChain_one sector512 one _ _ _ directory ?_
  rw [slotsPerSector_eq sector512, found]
  rfl

/-- The same lookup after the sector has been written. -/
theorem findFileInDirectory_store {directory sector offset : Nat} {name : Name} {data : Buffer}
    (place : (fs.store sector data).clusterSector directory = sector)
    (whole : cutBlock data = data) (found : findName data name 16 0 = some offset) :
    (fs.store sector data).findFileInDirectory directory name =
      .ok (if fs.disk.readOk (fs.disk.clock + 1) sector then
        some ⟨entryCluster data offset, entrySize data offset, entryAttributes data offset,
          some (sector, offset)⟩ else none) := by
  have geometry : (fs.store sector data).bpb = fs.bpb := rfl
  have content : (fs.store sector data).block sector = data := by
    rw [store_block, if_pos rfl, whole]
  have answers : (fs.store sector data).disk.readOk = fs.disk.readOk := rfl
  have clock : (fs.store sector data).disk.clock = fs.disk.clock + 1 := rfl
  have lookup := findFileInDirectory_one (by rw [geometry]; exact sector512)
    (by rw [geometry]; exact one) place content found
  rw [answers, clock] at lookup
  exact lookup

/--
A new entry of a one-sector directory is read back exactly when sixteen bits hold its cluster.

The device has to read the sector, take the write, and read the sector again.
-/
theorem writeDirectoryEntry_read_back_iff (directory : Nat) {name : Name}
    (storable : Storable name) {attributes : UInt8} (kind : attributes ≠ 0x0F) (cluster : Nat)
    {size : Nat} (small : size < 2 ^ 32)
    (absent : findName (fs.block (fs.clusterSector directory)) name 16 0 = none)
    (room : findFree (fs.block (fs.clusterSector directory)) 16 0 ≠ none) :
    (∃ after found, fs.writeDirectoryEntry directory name attributes cluster size = .ok (true, after) ∧
      after.findFileInDirectory directory name = .ok (some found) ∧ found.cluster = cluster ∧
      found.size = size ∧ found.attributes = attributes) ↔
    cluster < 65536 ∧ fs.disk.readOk fs.disk.clock (fs.clusterSector directory) = true ∧
      fs.disk.writeOk fs.disk.clock = true ∧
      fs.disk.readOk (fs.disk.clock + 1) (fs.clusterSector directory) = true := by
  obtain ⟨offset, first⟩ := Option.ne_none_iff_exists'.mp room
  obtain ⟨slot, inside, place, -⟩ := findFree_some first
  rw [Nat.zero_add] at place
  subst place
  have slots := slotsPerSector_eq sector512
  have search : fs.findFreeDirectoryEntry directory =
      .ok (if fs.disk.readOk fs.disk.clock (fs.clusterSector directory) then some (slotSize * slot)
        else none) := by
    rw [findFreeDirectoryEntry]
    refine scanChain_one sector512 one _ _ _ directory ?_
    rw [slots, first]
    rfl
  rw [writeDirectoryEntry, search, Run.ok_bind]
  by_cases readable : fs.disk.readOk fs.disk.clock (fs.clusterSector directory) = true
  swap
  · -- Without a first read nothing is written.
    simp [readable]
  rw [if_pos readable]
  dsimp only
  rw [readSector_cases sector512, if_pos readable]
  dsimp only
  rw [writeSector_cases sector512]
  by_cases writable : fs.disk.writeOk fs.disk.clock = true
  swap
  · simp [writable]
  rw [if_pos writable]
  have change := changesSlot_putBytes slot 0 slotSize (fs.block (fs.clusterSector directory))
    (entryBytes name attributes cluster size) (by decide)
  rw [Nat.add_zero] at change
  have bytes := fun byte (little : byte < slotSize) =>
    putBytes_add (fs.block (fs.clusterSector directory)) (entryBytes name attributes cluster size)
      (slotSize * slot) little
  have found := findName_entryBytes storable kind absent first change bytes
  obtain ⟨-, attr, -, start⟩ := entry_of_entryBytes storable bytes
  have length := entrySize_entryBytes small bytes
  have whole : cutBlock (putBytes (fs.block (fs.clusterSector directory)) (slotSize * slot)
      slotSize (entryBytes name attributes cluster size)) =
      putBytes (fs.block (fs.clusterSector directory)) (slotSize * slot) slotSize
        (entryBytes name attributes cluster size) :=
    cutBlock_putBytes (by simp only [slotSize]; omega)
  generalize putBytes (fs.block (fs.clusterSector directory)) (slotSize * slot) slotSize
    (entryBytes name attributes cluster size) = data at found start attr length whole ⊢
  -- The lookup reads the sector that was written.
  have lookup := findFileInDirectory_store sector512 one
    ((fs.store_same (fs.clusterSector directory) data).clusterSector directory) whole found
  rw [start, length, attr] at lookup
  constructor
  · rintro ⟨after, answer, written, looked, same, -, -⟩
    obtain rfl : fs.store (fs.clusterSector directory) data = after :=
      (Prod.mk.inj (Except.ok.inj written)).2
    rw [lookup] at looked
    split at looked
    · rename_i again
      have equal := Option.some.inj (Except.ok.inj looked)
      rw [← equal] at same
      simp only at same
      exact ⟨by omega, readable, writable, again⟩
    · cases looked
  · rintro ⟨little, -, -, again⟩
    refine ⟨_, _, rfl, lookup.trans (by rw [if_pos again]), ?_, rfl, rfl⟩
    exact Nat.mod_eq_of_lt little

end OneSector

/-- An entry with a small cluster number is read back from a new root directory. -/
theorem writeDirectoryEntry_read_back_iff_small :
    ∃ after found, (smallVolume emptyDisk 2).writeDirectoryEntry 2 [0x61] 0x20 5 7 =
        .ok (true, after) ∧
      after.findFileInDirectory 2 [0x61] = .ok (some found) ∧ found.cluster = 5 ∧
      found.size = 7 ∧ found.attributes = 0x20 := by
  have storable : Storable [0x61] := ⟨by decide, by decide, by decide +kernel⟩
  refine (writeDirectoryEntry_read_back_iff rfl rfl 2 storable (by decide) 5 (by decide)
    (by decide +kernel) (by decide +kernel)).mpr ⟨by decide, rfl, rfl, rfl⟩

/-- The boot sector of a volume of 64 mebibytes, and a table with the first clusters in use. -/
def crowdedDisk : Buffer := fun addr =>
  if 512 ≤ addr ∧ addr < 512 + 4 * 65536 then 0xFF
  else if addr = 12 ∨ addr = 34 then 2 else if addr = 13 ∨ addr = 14 ∨ addr = 16 then 1
  else if addr = 37 then 4 else if addr = 66 then 0x29 else 0

/-- That volume with its geometry. -/
def crowdedVolume : FileSystem where
  disk := ⟨crowdedDisk, 0, fun _ _ => true, fun _ => true⟩
  bpb := ⟨512, 1, 1, 1, 0, 0, 0, 131072, 1024, 0, 0x29⟩
  firstDataSector := 1025
  dataSectors := 130047
  totalClusters := 130047
  firstFatSector := 1
  freeCount := 0
  nextFree := 0
  currentPath := [slash]
  currentDirName := [slash]
  currentDirectoryCluster := rootCluster

/-- The volume once it is mounted. -/
def crowdedMounted : FileSystem := crowdedVolume.store 1025 (dotSector 0x20 rootCluster rootCluster)

set_option maxRecDepth 4000 in
/-- Mounting accepts the volume. -/
theorem crowdedVolume_mount : crowdedVolume.mount = (true, crowdedMounted) := by
  rfl

/-- Tables and data area of the volume do not overlap. -/
theorem crowdedVolume_layout : crowdedVolume.Layout :=
  ⟨rfl, Nat.one_pos, Nat.one_pos, by decide, by decide, by decide, by decide⟩

/-- The clusters below 65536 are in use, and the next one is free. -/
theorem crowdedVolume_fatEntry {cluster : Nat} (small : cluster ≤ 65536) :
    crowdedVolume.fatEntry cluster = if cluster < 65536 then 0x0FFFFFFF else 0 := by
  have sector : crowdedVolume.fatSector cluster = 1 + 4 * cluster / 512 := by
    show (1 + cluster * 4 % 2 ^ 32 / 512) % 2 ^ 32 = 1 + 4 * cluster / 512
    omega
  have offset : crowdedVolume.fatOffset cluster = 4 * cluster % 512 := by
    show cluster * 4 % 2 ^ 32 % 512 = 4 * cluster % 512
    omega
  have bytes : ∀ index < 4, crowdedVolume.block (1 + 4 * cluster / 512)
      (4 * cluster % 512 + index) = if cluster < 65536 then 0xFF else 0 := by
    intro index little
    have inside : 4 * cluster % 512 + index < 512 := by omega
    have address : 512 * (1 + 4 * cluster / 512) + (4 * cluster % 512 + index) =
        512 + 4 * cluster + index := by omega
    rw [block, cutBlock, if_pos inside, address]
    show crowdedDisk (512 + 4 * cluster + index) = _
    by_cases low : cluster < 65536
    · rw [if_pos low, crowdedDisk, if_pos (by omega)]
    · rw [if_neg low, crowdedDisk, if_neg (by omega), if_neg (by omega), if_neg (by omega),
        if_neg (by omega), if_neg (by omega)]
  rw [fatEntry, sector, offset, wordAt, halfAt, halfAt, Nat.add_assoc, Nat.add_assoc,
    bytes 1 (by decide), bytes 2 (by decide), bytes (2 + 1) (by decide)]
  have first := bytes 0 (by decide)
  rw [Nat.add_zero] at first
  rw [first]
  split
  · rfl
  · rfl

/-- The next cluster the volume hands out needs seventeen bits. -/
theorem crowdedMounted_allocateCluster :
    ∃ after, crowdedMounted.allocateCluster = (65536, after) := by
  have same : SameVolume crowdedVolume crowdedMounted := store_same _ _ _
  have layout := crowdedVolume_layout.same same
  have reliable : crowdedVolume.Reliable := ⟨fun _ _ => rfl, fun _ => rfl⟩
  have entry : ∀ cluster ≤ 65536, crowdedMounted.readFatEntry cluster =
      if cluster < 65536 then 0x0FFFFFFF else 0 := by
    intro cluster small
    rw [readFatEntry_eq layout.sector (reliable.same same), ← crowdedVolume_fatEntry small]
    exact fatEntry_store crowdedVolume_layout _ (by decide)
      (Nat.lt_of_le_of_lt small (by decide))
  have free : crowdedMounted.readFatEntry 65536 = 0 := by
    rw [entry 65536 (Nat.le_refl _), if_neg (by decide)]
  rcases allocateCluster_cases layout with ⟨-, used⟩ | ⟨taken, after, found, -, zero, -, used⟩
  · exact absurd free (used 65536 ⟨by decide, by decide⟩)
  · have high : ¬ taken < 65536 := by
      intro low
      rw [entry taken (Nat.le_of_lt low), if_pos low] at zero
      cases zero
    have low : ¬ 65536 < taken := fun above => used 65536 (by decide) above free
    obtain rfl : taken = 65536 := by omega
    exact ⟨after, found⟩

/-- The entry of that cluster is not read back. -/
theorem writeDirectoryEntry_loses_high_cluster :
    crowdedVolume.mount = (true, crowdedMounted) ∧
    (∃ after, crowdedMounted.allocateCluster = (65536, after)) ∧ Storable [0x61] ∧
    findName (crowdedMounted.block (crowdedMounted.clusterSector 2)) [0x61] 16 0 = none ∧
    findFree (crowdedMounted.block (crowdedMounted.clusterSector 2)) 16 0 ≠ none ∧
    ¬ ∃ after found, crowdedMounted.writeDirectoryEntry 2 [0x61] 0x20 65536 0 = .ok (true, after) ∧
      after.findFileInDirectory 2 [0x61] = .ok (some found) ∧ found.cluster = 65536 ∧
      found.size = 0 ∧ found.attributes = 0x20 := by
  have storable : Storable [0x61] := ⟨by decide, by decide, by decide +kernel⟩
  have absent : findName (crowdedMounted.block (crowdedMounted.clusterSector 2)) [0x61] 16 0 =
      none := by decide +kernel
  have room : findFree (crowdedMounted.block (crowdedMounted.clusterSector 2)) 16 0 ≠ none := by
    decide +kernel
  refine ⟨crowdedVolume_mount, crowdedMounted_allocateCluster, storable, absent, room, ?_⟩
  -- The lookup reports cluster zero.
  have accepted : Run.accepts (crowdedMounted.writeDirectoryEntry 2 [0x61] 0x20 65536 0)
      (fun after => after.findFileInDirectory 2 [0x61] ==
        .ok (some ⟨0, 0, 0x20, some (1025, 64)⟩)) = true := by decide +kernel
  obtain ⟨after, written, looked⟩ := Run.exists_of_accepts accepted
  rintro ⟨after', found, written', looked', cluster, -, -⟩
  rw [written] at written'
  cases written'
  rw [looked', beq_iff_eq] at looked
  cases looked
  cases cluster

end FileSystem

end Pocky
