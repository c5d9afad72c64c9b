import Pocky.Fs.Fat32

/-! The volume as sectors and table entries: what each transfer and each table update changes. -/

namespace Pocky

/-- The first block of a buffer, with nothing behind it. -/
def cutBlock (data : Buffer) : Buffer := fun offset => if offset < 512 then data offset else 0

/-- Cutting twice is cutting once. -/
theorem cutBlock_cutBlock (data : Buffer) : cutBlock (cutBlock data) = cutBlock data := by
  -- Inside the block both sides read the data, and outside both are zero.
  funext offset
  by_cases inside : offset < 512
  · simp [cutBlock, inside]
  · simp [cutBlock, inside]

/-- Bytes replaced inside a block stay inside it. -/
theorem cutBlock_putBytes {data source : Buffer} {offset count : Nat}
    (inside : offset + count ≤ 512) :
    cutBlock (putBytes (cutBlock data) offset count source) =
      putBytes (cutBlock data) offset count source := by
  -- Behind the block neither the old nor the new bytes reach.
  funext index
  by_cases small : index < 512
  · simp [cutBlock, small]
  · have outside : ¬ (offset ≤ index ∧ index < offset + count) := by omega
    simp [cutBlock, putBytes, small, outside]

/-- A replaced word is read back. -/
theorem wordAt_putWord (data : Buffer) (offset : Nat) {value : Nat} (small : value < 2 ^ 32) :
    wordAt (putWord data offset value) offset = value := by
  -- The four bytes of the number, weighted by their places.
  have digit : ∀ index, (byteOf value index).toNat = value / 256 ^ index % 256 := by
    intro index
    rw [byteOf, UInt8.toNat_ofNat']
  have bytes : ∀ index < 4, (putWord data offset value) (offset + index) = byteOf value index := by
    intro index inside
    simp [putWord, putBytes, inside]
  have zero := bytes 0 (by decide)
  have one := bytes 1 (by decide)
  have two := bytes 2 (by decide)
  have three := bytes 3 (by decide)
  simp only [Nat.add_zero] at zero
  simp only [wordAt, halfAt, Nat.add_assoc, zero, one, two, three, digit, Nat.pow_zero]
  omega

/-- Other words of the buffer are not affected. -/
theorem wordAt_putWord_of_ne (data : Buffer) {offset other : Nat} (value : Nat)
    (apart : offset + 4 ≤ other ∨ other + 4 ≤ offset) :
    wordAt (putWord data offset value) other = wordAt data other := by
  -- None of the four bytes read lies among the four bytes written.
  have bytes : ∀ index < 4, (putWord data offset value) (other + index) = data (other + index) := by
    intro index inside
    have outside : ¬ (offset ≤ other + index ∧ other + index < offset + 4) := by omega
    simp only [putWord, putBytes, if_neg outside]
  have zero := bytes 0 (by decide)
  simp only [Nat.add_zero] at zero
  simp only [wordAt, halfAt, Nat.add_assoc, zero, bytes 1 (by decide), bytes 2 (by decide),
    bytes 3 (by decide)]

namespace FileSystem

/-- The bytes of a sector. -/
def block (fs : FileSystem) (sector : Nat) : Buffer :=
  cutBlock fun offset => fs.disk.bytes (512 * sector + offset)

/-- The state after a sector has been written. -/
def store (fs : FileSystem) (sector : Nat) (data : Buffer) : FileSystem :=
  { fs with disk := { fs.disk with
      bytes := Disk.putBlock fs.disk.bytes sector data, clock := fs.disk.clock + 1 } }

/-- The state after the device has refused a write. -/
def refuse (fs : FileSystem) : FileSystem :=
  { fs with disk := { fs.disk with clock := fs.disk.clock + 1 } }

/-- Every transfer succeeds. -/
structure Reliable (fs : FileSystem) : Prop where
  /-- Every block can be read at any time. -/
  read : ∀ clock lba, fs.disk.readOk clock lba = true
  /-- Every write succeeds. -/
  write : ∀ clock, fs.disk.writeOk clock = true

/-- Two states differ at most in the bytes on the disk. -/
structure SameVolume (fs after : FileSystem) : Prop where
  /-- Everything but the disk is the same. -/
  fields : after = { fs with disk := after.disk }
  /-- The same transfers succeed. -/
  readOk : after.disk.readOk = fs.disk.readOk
  /-- The same writes succeed. -/
  writeOk : after.disk.writeOk = fs.disk.writeOk

/-- Nothing has changed. -/
theorem SameVolume.refl (fs : FileSystem) : SameVolume fs fs := ⟨rfl, rfl, rfl⟩

/-- Two changes of the disk are one. -/
theorem SameVolume.trans {first second third : FileSystem} (left : SameVolume first second)
    (right : SameVolume second third) : SameVolume first third := by
  -- The fields are carried over from state to state.
  refine ⟨?_, right.readOk.trans left.readOk, right.writeOk.trans left.writeOk⟩
  rw [right.fields, left.fields]

/-- A written sector changes only the disk. -/
theorem store_same (fs : FileSystem) (sector : Nat) (data : Buffer) :
    SameVolume fs (fs.store sector data) := ⟨rfl, rfl, rfl⟩

/-- Transfers go on succeeding. -/
theorem Reliable.same {fs after : FileSystem} (reliable : fs.Reliable)
    (same : SameVolume fs after) : after.Reliable := by
  -- The device itself has not changed.
  constructor
  · rw [same.readOk]
    exact reliable.read
  · rw [same.writeOk]
    exact reliable.write

/-- The sectors after one of them has been written. -/
theorem store_block (fs : FileSystem) (sector other : Nat) (data : Buffer) :
    (fs.store sector data).block other = if other = sector then cutBlock data else fs.block other := by
  -- Addresses of different sectors lie in different blocks.
  funext offset
  by_cases inside : offset < 512
  · by_cases same : other = sector
    · subst same
      have here : 512 * other ≤ 512 * other + offset ∧
          512 * other + offset < 512 * other + 512 := by omega
      simp [store, block, cutBlock, Disk.putBlock, blockSize, inside]
    · have there : ¬ (512 * sector ≤ 512 * other + offset ∧
          512 * other + offset < 512 * sector + 512) := by omega
      simp only [store, block, cutBlock, Disk.putBlock, blockSize, if_pos inside, if_neg same]
      exact if_neg there
  · simp only [store, block, cutBlock, if_neg inside, apply_ite (fun f : Buffer => f offset),
      ite_self]

/-- A volume with sectors of one block, its table copies in front of its data area. -/
structure Layout (fs : FileSystem) : Prop where
  /-- A sector is one block. -/
  sector : fs.bpb.bytesPerSector = 512
  /-- A cluster has sectors. -/
  cluster : 0 < fs.bpb.sectorsPerCluster
  /-- There is a table. -/
  copies : 0 < fs.bpb.tableCount
  /-- The tables end before the data area. -/
  apart : fs.firstFatSector + fs.bpb.tableCount * fs.bpb.tableSize32 ≤ fs.firstDataSector
  /-- Sector numbers fit in 32 bits. -/
  bounded : fs.firstDataSector + fs.totalClusters * fs.bpb.sectorsPerCluster ≤ 2 ^ 32
  /-- Every cluster has an entry in the table. -/
  covered : fs.totalClusters ≤ 128 * fs.bpb.tableSize32
  /-- Cluster numbers are not marks. -/
  numbered : fs.totalClusters ≤ badMark

/-- The layout does not depend on the disk's bytes. -/
theorem Layout.same {fs after : FileSystem} (layout : fs.Layout) (same : SameVolume fs after) :
    after.Layout := by
  -- All its fields are among those carried over.
  rw [same.fields]
  exact ⟨layout.sector, layout.cluster, layout.copies, layout.apart, layout.bounded,
    layout.covered, layout.numbered⟩

/-- What reading a sector returns. -/
theorem readSector_cases {fs : FileSystem} (sector512 : fs.bpb.bytesPerSector = 512)
    (sector : Nat) : fs.readSector sector =
      if fs.disk.readOk fs.disk.clock sector then some (fs.block sector) else none := by
  -- A sector is one block.
  have one : blockCount 512 = 1 := by decide
  simp [readSector, diskRead, sector512, one, Disk.readSectors, block, blockSize]
  rfl

/-- Reading a sector yields its bytes. -/
theorem readSector_eq {fs : FileSystem} (sector512 : fs.bpb.bytesPerSector = 512)
    (reliable : fs.Reliable) (sector : Nat) : fs.readSector sector = some (fs.block sector) := by
  -- The block can be read.
  rw [readSector_cases sector512, if_pos (reliable.read _ _)]

/-- A sector that could be read was read. -/
theorem block_of_readSector {fs : FileSystem} (sector512 : fs.bpb.bytesPerSector = 512)
    {sector : Nat} {data : Buffer} (read : fs.readSector sector = some data) :
    data = fs.block sector := by
  -- Whatever the device did, a successful read returns the bytes of the block.
  rw [readSector_cases sector512] at read
  split at read
  · exact (Option.some.inj read).symm
  · cases read

/-- Writing a sector keeps the geometry, whatever the device does. -/
theorem writeSector_bpb (fs : FileSystem) (sector : Nat) (data : Buffer) :
    (fs.writeSector sector data).2.bpb = fs.bpb := by
  rw [writeSector, diskWrite]
  split
  · rfl
  · rfl

/-- What writing a sector does. -/
theorem writeSector_cases {fs : FileSystem} (sector512 : fs.bpb.bytesPerSector = 512)
    (sector : Nat) (data : Buffer) : fs.writeSector sector data =
      if fs.disk.writeOk fs.disk.clock then (true, fs.store sector data) else (false, fs.refuse) := by
  -- A sector is one block, and the device takes it or not.
  have one : blockCount 512 = 1 := by decide
  have size : (512 : Nat) ≠ 0 := by decide
  simp only [writeSector, diskWrite, sector512, one, Disk.writeSectors, if_neg size]
  split
  · rfl
  · rfl

/-- Writing a sector stores its bytes. -/
theorem writeSector_eq {fs : FileSystem} (sector512 : fs.bpb.bytesPerSector = 512)
    (reliable : fs.Reliable) (sector : Nat) (data : Buffer) :
    fs.writeSector sector data = (true, fs.store sector data) := by
  -- The block can be written.
  rw [writeSector_cases sector512, if_pos (reliable.write _)]

/-- A sector write that succeeded stored the bytes. -/
theorem store_of_writeSector {fs after : FileSystem} (sector512 : fs.bpb.bytesPerSector = 512)
    {sector : Nat} {data : Buffer} (written : fs.writeSector sector data = (true, after)) :
    after = fs.store sector data := by
  -- Only an accepted block makes the transfer succeed.
  rw [writeSector_cases sector512] at written
  split at written
  · exact (Prod.mk.inj written).2.symm
  · cases written

/-- A sector of a cluster of the data area. -/
def dataSector (fs : FileSystem) (cluster index : Nat) : Nat :=
  fs.firstDataSector + (cluster - 2) * fs.bpb.sectorsPerCluster + index

/-- A cluster of the data area. -/
def InVolume (fs : FileSystem) (cluster : Nat) : Prop := 2 ≤ cluster ∧ cluster < fs.totalClusters

/-- Sectors of the data area lie behind the tables and within 32 bits. -/
theorem Layout.dataSector_bounds {fs : FileSystem} (layout : fs.Layout) {cluster index : Nat}
    (valid : fs.InVolume cluster) (inside : index < fs.bpb.sectorsPerCluster) :
    fs.firstDataSector ≤ fs.dataSector cluster index ∧ fs.dataSector cluster index < 2 ^ 32 := by
  -- The clusters before this one and itself fit into the volume.
  have fits : (cluster - 2 + 1) * fs.bpb.sectorsPerCluster ≤
      fs.totalClusters * fs.bpb.sectorsPerCluster := by
    apply Nat.mul_le_mul_right
    have := valid.2
    omega
  have bounded := layout.bounded
  rw [Nat.succ_mul] at fits
  unfold dataSector
  omega

/-- The sector numbers the code computes for a cluster. -/
theorem Layout.clusterSector_add {fs : FileSystem} (layout : fs.Layout) {cluster index : Nat}
    (valid : fs.InVolume cluster) (inside : index < fs.bpb.sectorsPerCluster) :
    (fs.clusterSector cluster + index) % 2 ^ 32 = fs.dataSector cluster index := by
  -- None of the 32-bit operations wraps.
  obtain ⟨-, small⟩ := layout.dataSector_bounds valid inside
  have numbered := layout.numbered
  have limit : badMark < 2 ^ 32 := by decide
  have number : (cluster + 2 ^ 32 - 2) % 2 ^ 32 = cluster - 2 := by
    obtain ⟨low, high⟩ := valid
    omega
  unfold dataSector at small ⊢
  have first : fs.clusterSector cluster =
      (cluster - 2) * fs.bpb.sectorsPerCluster + fs.firstDataSector := by
    rw [clusterSector, number]
    exact Nat.mod_eq_of_lt (by omega)
  rw [first, Nat.mod_eq_of_lt (by omega)]
  omega

/-- The first sector of a cluster. -/
theorem Layout.clusterSector_eq {fs : FileSystem} (layout : fs.Layout) {cluster : Nat}
    (valid : fs.InVolume cluster) : fs.clusterSector cluster = fs.dataSector cluster 0 := by
  -- It is the sector at index zero, and sector numbers are reduced already.
  have sum := layout.clusterSector_add valid layout.cluster
  rw [Nat.add_zero] at sum
  rw [← sum, clusterSector, Nat.mod_mod]

/-- Different sectors of the data area have different numbers. -/
theorem Layout.dataSector_inj {fs : FileSystem} (layout : fs.Layout)
    {cluster index other otherIndex : Nat} (valid : fs.InVolume cluster)
    (valid' : fs.InVolume other) (inside : index < fs.bpb.sectorsPerCluster)
    (inside' : otherIndex < fs.bpb.sectorsPerCluster)
    (same : fs.dataSector cluster index = fs.dataSector other otherIndex) :
    cluster = other ∧ index = otherIndex := by
  -- Quotient and remainder by the sectors of a cluster give both numbers back.
  have sums : (cluster - 2) * fs.bpb.sectorsPerCluster + index =
      (other - 2) * fs.bpb.sectorsPerCluster + otherIndex := by
    unfold dataSector at same
    omega
  have quotient : ∀ a i, i < fs.bpb.sectorsPerCluster →
      (a * fs.bpb.sectorsPerCluster + i) / fs.bpb.sectorsPerCluster = a := by
    intro a i small
    rw [Nat.add_comm, Nat.add_mul_div_right _ _ layout.cluster, Nat.div_eq_of_lt small, Nat.zero_add]
  have clusters := congrArg (· / fs.bpb.sectorsPerCluster) sums
  simp only [quotient _ _ inside, quotient _ _ inside'] at clusters
  rw [clusters] at sums
  obtain ⟨low, -⟩ := valid
  obtain ⟨low', -⟩ := valid'
  omega

/-- The sector of the first table a cluster's entry lies in. -/
theorem Layout.fatSector_eq {fs : FileSystem} (layout : fs.Layout) {cluster : Nat}
    (small : cluster < fs.totalClusters) :
    fs.fatSector cluster = fs.firstFatSector + cluster / 128 ∧
      fs.fatOffset cluster = 4 * (cluster % 128) ∧ cluster / 128 < fs.bpb.tableSize32 ∧
      fs.firstFatSector + fs.bpb.tableSize32 ≤ fs.firstDataSector := by
  -- A sector holds 128 entries, and the first table lies before the data area.
  have covered := layout.covered
  have numbered := layout.numbered
  have limit : badMark < 2 ^ 28 := by decide
  have bounded := layout.bounded
  have apart := layout.apart
  have first : fs.bpb.tableSize32 ≤ fs.bpb.tableCount * fs.bpb.tableSize32 :=
    Nat.le_mul_of_pos_left _ layout.copies
  have within : cluster / 128 < fs.bpb.tableSize32 := by omega
  have bytes : cluster * 4 % 2 ^ 32 = cluster * 4 := Nat.mod_eq_of_lt (by omega)
  refine ⟨?_, ?_, within, by omega⟩
  · rw [fatSector, layout.sector, bytes, Nat.mod_eq_of_lt (by omega)]
    omega
  · rw [fatOffset, layout.sector, bytes]
    omega

/-- A cluster's entry, as the bytes of the first table have it. -/
def fatEntry (fs : FileSystem) (cluster : Nat) : Nat :=
  wordAt (fs.block (fs.fatSector cluster)) (fs.fatOffset cluster) % 2 ^ 28

/-- Reading an entry of the table, whether the device lets it be read or not. -/
theorem readFatEntry_cases {fs : FileSystem} (sector512 : fs.bpb.bytesPerSector = 512)
    (cluster : Nat) : fs.readFatEntry cluster =
      if fs.disk.readOk fs.disk.clock (fs.fatSector cluster) then fs.fatEntry cluster
      else badMark := by
  -- A table that cannot be read looks like a bad cluster.
  have positive : fs.bpb.bytesPerSector ≠ 0 := by omega
  rw [readFatEntry, if_neg positive, readSector_cases sector512]
  split
  · rename_i read
    split at read
    · cases read
    · rename_i refused
      rw [if_neg refused]
  · rename_i sectorData read
    split at read
    · rename_i accepted
      cases read
      rw [if_pos accepted, fatEntry]
    · cases read

/-- Reading an entry of the table. -/
theorem readFatEntry_eq {fs : FileSystem} (sector512 : fs.bpb.bytesPerSector = 512)
    (reliable : fs.Reliable) (cluster : Nat) : fs.readFatEntry cluster = fs.fatEntry cluster := by
  -- The sector of the table can be read.
  rw [readFatEntry_cases sector512, if_pos (reliable.read _ _)]

/-- An entry that does not look bad was read. -/
theorem fatEntry_of_readFatEntry {fs : FileSystem} (sector512 : fs.bpb.bytesPerSector = 512)
    {cluster : Nat} (good : fs.readFatEntry cluster ≠ badMark) :
    fs.fatEntry cluster = fs.readFatEntry cluster ∧
      fs.disk.readOk fs.disk.clock (fs.fatSector cluster) = true := by
  -- A refused read would have looked bad.
  rw [readFatEntry_cases sector512] at good ⊢
  split
  · rename_i accepted
    exact ⟨rfl, accepted⟩
  · rename_i refused
    rw [if_neg refused] at good
    exact absurd rfl good

/-- States that differ only on the disk keep their entries at the same place. -/
theorem SameVolume.fatSector {fs after : FileSystem} (same : SameVolume fs after) (cluster : Nat) :
    after.fatSector cluster = fs.fatSector cluster ∧
      after.fatOffset cluster = fs.fatOffset cluster := by
  -- Both are computed from the geometry.
  rw [same.fields]
  exact ⟨rfl, rfl⟩

/-- Entries depend only on the sectors of the table. -/
theorem fatEntry_congr {fs after : FileSystem} (layout : fs.Layout) (same : SameVolume fs after)
    (kept : ∀ sector < fs.firstDataSector, after.block sector = fs.block sector) {cluster : Nat}
    (small : cluster < fs.totalClusters) : after.fatEntry cluster = fs.fatEntry cluster := by
  -- The sector of the entry lies before the data area.
  obtain ⟨sector, -, within, before⟩ := layout.fatSector_eq small
  obtain ⟨sector', offset'⟩ := same.fatSector cluster
  rw [fatEntry, sector', offset', kept _ (by omega), fatEntry]

/-- Writing to the data area leaves the table alone. -/
theorem fatEntry_store {fs : FileSystem} (layout : fs.Layout) {sector : Nat} (data : Buffer)
    (high : fs.firstDataSector ≤ sector) {cluster : Nat} (small : cluster < fs.totalClusters) :
    (fs.store sector data).fatEntry cluster = fs.fatEntry cluster := by
  -- The sector written is none of the table's.
  refine fatEntry_congr layout (fs.store_same sector data) ?_ small
  intro other low
  rw [store_block, if_neg (by omega)]

/-- How many writes are tried until one is refused or all are done. -/
def attempts (writeOk : Nat → Bool) : Nat → Nat → Nat
  | _, 0 => 0
  | clock, remaining + 1 =>
    if writeOk clock then attempts writeOk (clock + 1) remaining + 1 else 1

/-- Writing copies of a sector of the table changes nothing before them and nothing behind them. -/
theorem writeCopies_frame {fs : FileSystem} (layout : fs.Layout) {index copy : Nat} (data : Buffer)
    (inside : index < fs.bpb.tableSize32) (remaining : Nat)
    (few : copy + remaining ≤ fs.bpb.tableCount) :
    ∃ after, (fs.writeCopies (fs.firstFatSector + index) data remaining copy).2 = after ∧
      SameVolume fs after ∧
      after.disk.clock = fs.disk.clock + attempts fs.disk.writeOk fs.disk.clock remaining ∧
      (fs.Reliable → (fs.writeCopies (fs.firstFatSector + index) data remaining copy).1 = true) ∧
      ∀ sector, (sector < fs.firstFatSector + copy * fs.bpb.tableSize32 ∨
        fs.firstDataSector ≤ sector) → after.block sector = fs.block sector := by
  -- By induction on the copies that are left.
  induction remaining generalizing fs copy with
  | zero => exact ⟨fs, rfl, SameVolume.refl fs, rfl, fun _ => rfl, fun _ _ => rfl⟩
  | succ remaining ih =>
    have apart := layout.apart
    have bounded := layout.bounded
    have room : (copy + 1) * fs.bpb.tableSize32 ≤ fs.bpb.tableCount * fs.bpb.tableSize32 :=
      Nat.mul_le_mul_right _ (by omega)
    rw [Nat.succ_mul] at room
    have number : (fs.firstFatSector + index + copy * fs.bpb.tableSize32) % 2 ^ 32 =
        fs.firstFatSector + index + copy * fs.bpb.tableSize32 := Nat.mod_eq_of_lt (by omega)
    simp only [writeCopies, number, writeSector_cases layout.sector, attempts]
    by_cases accepted : fs.disk.writeOk fs.disk.clock = true
    · have same := fs.store_same (fs.firstFatSector + index + copy * fs.bpb.tableSize32) data
      obtain ⟨after, written, same', clock, told, kept⟩ := ih (layout.same same) inside
        (show copy + 1 + remaining ≤ fs.bpb.tableCount by omega)
      rw [if_pos accepted, if_pos accepted]
      refine ⟨after, written, same.trans same', ?_, fun reliable => told (reliable.same same), ?_⟩
      · rw [clock]
        simp only [store]
        omega
      · intro sector outside
        have further : sector < fs.firstFatSector + (copy + 1) * fs.bpb.tableSize32 ∨
            fs.firstDataSector ≤ sector := by
          rw [Nat.succ_mul]
          omega
        rw [kept sector further, store_block, if_neg (by omega)]
    · -- A refused copy ends the loop, with nothing but the clock changed.
      rw [if_neg accepted, if_neg accepted]
      exact ⟨fs.refuse, rfl, ⟨rfl, rfl, rfl⟩, rfl,
        fun reliable => absurd (reliable.write _) accepted, fun _ _ => rfl⟩

/-- What an attempt to update an entry does, whether the device goes along or not. -/
structure Updates (fs : FileSystem) (cluster value : Nat) (after : FileSystem) : Prop where
  /-- Only the disk has changed. -/
  same : SameVolume fs after
  /-- The data area has not. -/
  data : ∀ sector, fs.firstDataSector ≤ sector → after.block sector = fs.block sector
  /-- Other entries have not. -/
  others : ∀ other < fs.totalClusters, other ≠ cluster → after.fatEntry other = fs.fatEntry other
  /-- The entry has its value if its sector was read and the first copy was written. -/
  accepted : fs.disk.readOk fs.disk.clock (fs.fatSector cluster) = true →
    fs.disk.writeOk fs.disk.clock = true → after.fatEntry cluster = value % 2 ^ 28 ∧
      after.disk.clock =
        fs.disk.clock + attempts fs.disk.writeOk fs.disk.clock fs.bpb.tableCount
  /-- Otherwise it has kept its old one. -/
  refused : ¬ (fs.disk.readOk fs.disk.clock (fs.fatSector cluster) = true ∧
    fs.disk.writeOk fs.disk.clock = true) → after.fatEntry cluster = fs.fatEntry cluster

/-- A word inside a block is not cut off. -/
theorem wordAt_cutBlock (data : Buffer) {index : Nat} (few : index < 128) :
    wordAt (cutBlock data) (4 * index) = wordAt data (4 * index) := by
  -- All its four bytes lie inside.
  simp only [wordAt, halfAt, cutBlock, if_pos (show 4 * index < 512 by omega),
    if_pos (show 4 * index + 1 < 512 by omega), if_pos (show 4 * index + 2 < 512 by omega),
    if_pos (show 4 * index + 2 + 1 < 512 by omega)]

/-- The entries after the first copy of a sector has got a new word. -/
theorem fatEntry_putWord {fs after : FileSystem} (layout : fs.Layout) {cluster value : Nat}
    (small : cluster < fs.totalClusters) (same : SameVolume fs after)
    (kept : ∀ index < fs.bpb.tableSize32, after.block (fs.firstFatSector + index) =
      (fs.store (fs.fatSector cluster) (putWord (fs.block (fs.fatSector cluster))
        (fs.fatOffset cluster) (value % 2 ^ 28))).block (fs.firstFatSector + index))
    (other : Nat) (inside : other < fs.totalClusters) :
    after.fatEntry other = if other = cluster then value % 2 ^ 28 else fs.fatEntry other := by
  obtain ⟨sector, offset, -, -⟩ := layout.fatSector_eq small
  obtain ⟨sector', offset', within', -⟩ := layout.fatSector_eq inside
  obtain ⟨place, position⟩ := same.fatSector other
  rw [fatEntry, place, position, sector', offset', kept _ within', store_block, sector, offset,
    fatEntry, sector', offset']
  -- An entry lies in another sector, or elsewhere in this one.
  by_cases equal : other = cluster
  · subst equal
    rw [if_pos rfl, if_pos rfl, wordAt_cutBlock _ (Nat.mod_lt _ (by decide)),
      wordAt_putWord _ _ (by omega)]
    omega
  · rw [if_neg equal]
    split
    · rename_i sectors
      rw [wordAt_cutBlock _ (Nat.mod_lt _ (by decide)), wordAt_putWord_of_ne _ _ (by omega), sectors]
    · rfl

/-- Updating an entry changes at most that entry, and nothing in the data area. -/
theorem updateFatEntry_updates {fs : FileSystem} (layout : fs.Layout) {cluster : Nat}
    (small : cluster < fs.totalClusters) (value : Nat) :
    fs.Updates cluster value (fs.updateFatEntry cluster value).2 := by
  obtain ⟨sector, -, within, before⟩ := layout.fatSector_eq small
  have bounded := layout.bounded
  -- The first copy is the one that is read back; the others come after it.
  obtain ⟨copies, shape⟩ : ∃ copies, fs.bpb.tableCount = copies + 1 :=
    ⟨fs.bpb.tableCount - 1, by have := layout.copies; omega⟩
  have number : (fs.fatSector cluster + 0 * fs.bpb.tableSize32) % 2 ^ 32 =
      fs.fatSector cluster := by
    rw [Nat.zero_mul, Nat.add_zero]
    exact Nat.mod_eq_of_lt (by omega)
  by_cases read : fs.disk.readOk fs.disk.clock (fs.fatSector cluster) = true
  · simp only [updateFatEntry, readSector_cases layout.sector, if_pos read, shape, writeCopies,
      number, writeSector_cases layout.sector]
    by_cases accepted : fs.disk.writeOk fs.disk.clock = true
    · rw [if_pos accepted]
      dsimp only
      have same := fs.store_same (fs.fatSector cluster) (putWord (fs.block (fs.fatSector cluster))
        (fs.fatOffset cluster) (value % 2 ^ 28))
      obtain ⟨after, written, same', clock, -, kept⟩ := writeCopies_frame (layout.same same)
        (putWord (fs.block (fs.fatSector cluster)) (fs.fatOffset cluster) (value % 2 ^ 28))
        within copies (show 0 + 1 + copies ≤ fs.bpb.tableCount by omega)
      have first : (fs.store (fs.fatSector cluster) (putWord (fs.block (fs.fatSector cluster))
        (fs.fatOffset cluster) (value % 2 ^ 28))).firstFatSector + cluster / 128 =
          fs.fatSector cluster := sector.symm
      rw [first] at written
      rw [written]
      have entries := fatEntry_putWord layout small (same.trans same') fun index few =>
        kept _ (Or.inl (by
          show fs.firstFatSector + index < fs.firstFatSector + (0 + 1) * fs.bpb.tableSize32
          omega))
      refine ⟨same.trans same', ?_, ?_, ?_, ?_⟩
      · intro other high
        rw [kept other (Or.inr high), store_block, if_neg (by omega)]
      · intro other inside different
        rw [entries other inside, if_neg different]
      · intro _ _
        refine ⟨by rw [entries cluster small, if_pos rfl], ?_⟩
        rw [clock, shape, attempts, if_pos accepted]
        show fs.disk.clock + 1 + _ = _
        simp only [store]
        omega
      · intro wrong
        exact absurd ⟨read, accepted⟩ wrong
    · rw [if_neg accepted]
      exact ⟨⟨rfl, rfl, rfl⟩, fun _ _ => rfl, fun _ _ _ => rfl,
        fun _ wrong => absurd wrong accepted, fun _ => rfl⟩
  · simp only [updateFatEntry, readSector_cases layout.sector, if_neg read]
    exact ⟨SameVolume.refl fs, fun _ _ => rfl, fun _ _ _ => rfl,
      fun wrong => absurd wrong read, fun _ => rfl⟩

/-- On a device that refuses nothing, an update succeeds and sets the entry. -/
theorem updateFatEntry_eq {fs : FileSystem} (layout : fs.Layout) (reliable : fs.Reliable)
    {cluster : Nat} (small : cluster < fs.totalClusters) (value : Nat) :
    ∃ after, fs.updateFatEntry cluster value = (true, after) ∧ SameVolume fs after ∧
      (∀ other < fs.totalClusters, after.fatEntry other =
        if other = cluster then value % 2 ^ 28 else fs.fatEntry other) ∧
      ∀ sector, fs.firstDataSector ≤ sector → after.block sector = fs.block sector := by
  obtain ⟨same, data, others, accepted, -⟩ := updateFatEntry_updates layout small value
  obtain ⟨sector, -, within, -⟩ := layout.fatSector_eq small
  refine ⟨(fs.updateFatEntry cluster value).2, ?_, same, ?_, data⟩
  · -- Every copy is accepted.
    obtain ⟨-, -, -, -, told, -⟩ := writeCopies_frame layout
      (putWord (fs.block (fs.fatSector cluster)) (fs.fatOffset cluster) (value % 2 ^ 28)) within
      fs.bpb.tableCount (show 0 + fs.bpb.tableCount ≤ fs.bpb.tableCount by omega)
    rw [← sector] at told
    apply Prod.ext
    · simp only [updateFatEntry, readSector_eq layout.sector reliable]
      exact told reliable
    · rfl
  · intro other inside
    by_cases equal : other = cluster
    · subst equal
      rw [if_pos rfl, (accepted (reliable.read _ _) (reliable.write _)).1]
    · rw [if_neg equal, others other inside equal]

end FileSystem

end Pocky
