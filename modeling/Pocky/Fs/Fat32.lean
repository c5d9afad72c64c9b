import Pocky.Fs.Disk

/-! A FAT32 volume: its geometry, the file allocation table, and cluster allocation. -/

namespace Pocky

/-- A file name or path, without the terminating zero byte. -/
abbrev Name := List UInt8

/-- The separator of path components. -/
def slash : UInt8 := 0x2F

/-- The name of a directory inside itself. -/
def dot : Name := [0x2E]

/-- The name of the parent inside a directory. -/
def dotDot : Name := [0x2E, 0x2E]

/-- The longest path buffer. -/
def maxPath : Nat := 256

/-- The cluster every volume's root directory starts at. -/
def rootCluster : Nat := 2

/-- Entries of the table from here on end a chain. -/
def endMark : Nat := 0x0FFFFFF8

/-- The entry of a bad cluster, also the answer when the table cannot be read. -/
def badMark : Nat := 0x0FFFFFF7

/-- The fields of the boot sector that the file system reads. -/
structure Bpb where
  /-- Bytes of a sector. -/
  bytesPerSector : Nat
  /-- Sectors of a cluster. -/
  sectorsPerCluster : Nat
  /-- Sectors before the first table. -/
  reservedSectorCount : Nat
  /-- How many copies of the table there are. -/
  tableCount : Nat
  /-- Entries of a fixed root directory. -/
  rootEntryCount : Nat
  /-- Sectors of the volume, if they fit in sixteen bits. -/
  totalSectors16 : Nat
  /-- Sectors of a table, if they fit in sixteen bits. -/
  tableSize16 : Nat
  /-- Sectors of the volume otherwise. -/
  totalSectors32 : Nat
  /-- Sectors of a table otherwise. -/
  tableSize32 : Nat
  /-- The sector of the information block, zero for none. -/
  fsInfo : Nat
  /-- The extended boot signature. -/
  bootSignature : Nat
  deriving Repr, DecidableEq

/-- Taking the fields out of a boot sector. -/
def Bpb.parse (bootSector : Buffer) : Bpb where
  bytesPerSector := halfAt bootSector 11
  sectorsPerCluster := (bootSector 13).toNat
  reservedSectorCount := halfAt bootSector 14
  tableCount := (bootSector 16).toNat
  rootEntryCount := halfAt bootSector 17
  totalSectors16 := halfAt bootSector 19
  tableSize16 := halfAt bootSector 22
  totalSectors32 := wordAt bootSector 32
  tableSize32 := wordAt bootSector 36
  fsInfo := halfAt bootSector 48
  bootSignature := (bootSector 66).toNat

/-- The mounted file system. -/
structure FileSystem where
  /-- The disk it lies on. -/
  disk : Disk
  /-- The geometry from the boot sector. -/
  bpb : Bpb
  /-- The first sector of the data area. -/
  firstDataSector : Nat
  /-- Sectors of the data area. -/
  dataSectors : Nat
  /-- Clusters of the data area. -/
  totalClusters : Nat
  /-- The first sector of the first table. -/
  firstFatSector : Nat
  /-- Free clusters as the information block counts them. -/
  freeCount : Nat
  /-- Where the information block suggests to look for free clusters. -/
  nextFree : Nat
  /-- The path of the current directory. -/
  currentPath : Name
  /-- The name of the current directory. -/
  currentDirName : Name
  /-- The first cluster of the current directory. -/
  currentDirectoryCluster : Nat

namespace FileSystem

/-- A number is a power of two, as the source tests it. -/
def powerOfTwo (n : Nat) : Bool := n ≠ 0 && n &&& (n - 1) == 0

/-- The geometry checks on a boot sector. -/
def validateBootSector (bpb : Bpb) : Bool :=
  let fatSize := if bpb.tableSize16 ≠ 0 then bpb.tableSize16 else bpb.tableSize32
  powerOfTwo bpb.bytesPerSector && powerOfTwo bpb.sectorsPerCluster &&
    bpb.reservedSectorCount ≠ 0 && bpb.tableCount ≠ 0 && fatSize ≠ 0 &&
    (bpb.bootSignature == 0x28 || bpb.bootSignature == 0x29)

/-- Taking over the geometry of a boot sector, on 32-bit words. -/
def initializeVolume (fs : FileSystem) (bootSector : Buffer) : Bool × FileSystem :=
  let bpb := Bpb.parse bootSector
  let fs := { fs with bpb := bpb }
  if !validateBootSector bpb then (false, fs)
  else
    let fatSize := if bpb.tableSize16 ≠ 0 then bpb.tableSize16 else bpb.tableSize32
    let rootDirSectors := (bpb.rootEntryCount * 32 + (bpb.bytesPerSector - 1)) / bpb.bytesPerSector
    let totalSectors := if bpb.totalSectors16 ≠ 0 then bpb.totalSectors16 else bpb.totalSectors32
    let firstDataSector :=
      (bpb.reservedSectorCount + bpb.tableCount * fatSize + rootDirSectors) % 2 ^ 32
    let dataSectors := (totalSectors + 2 ^ 32 - firstDataSector) % 2 ^ 32
    (true, { fs with
      firstFatSector := bpb.reservedSectorCount
      firstDataSector := firstDataSector
      dataSectors := dataSectors
      totalClusters := dataSectors / bpb.sectorsPerCluster })

/-- How many blocks a transfer of some bytes moves; the count is kept in one byte. -/
def blockCount (size : Nat) : Nat :=
  let sectors := (size + 511) / 512 % 256
  if sectors = 0 then 1 else sectors

/-- Reading from the disk. -/
def diskRead (fs : FileSystem) (sector size : Nat) : Option Buffer :=
  if size = 0 then none else fs.disk.readSectors sector (blockCount size)

/-- Writing to the disk. -/
def diskWrite (fs : FileSystem) (sector : Nat) (data : Buffer) (size : Nat) : Bool × FileSystem :=
  if size = 0 then (false, fs)
  else
    let (written, disk) := fs.disk.writeSectors sector data (blockCount size)
    (written, { fs with disk := disk })

/-- Reading one sector of the volume. -/
def readSector (fs : FileSystem) (sector : Nat) : Option Buffer :=
  if fs.bpb.bytesPerSector = 0 then none else fs.diskRead sector fs.bpb.bytesPerSector

/-- Writing one sector of the volume. -/
def writeSector (fs : FileSystem) (sector : Nat) (data : Buffer) : Bool × FileSystem :=
  fs.diskWrite sector data fs.bpb.bytesPerSector

/-- The first sector of a cluster. -/
def clusterSector (fs : FileSystem) (cluster : Nat) : Nat :=
  ((cluster + 2 ^ 32 - 2) % 2 ^ 32 * fs.bpb.sectorsPerCluster + fs.firstDataSector) % 2 ^ 32

/-- Checking the information block, if there is one. -/
def readFSInfo (fs : FileSystem) : Bool × FileSystem :=
  if fs.bpb.fsInfo = 0 then (true, fs)
  else match fs.readSector fs.bpb.fsInfo with
    | none => (false, fs)
    | some sector =>
      if wordAt sector 0 ≠ 0x41615252 ∨ wordAt sector 484 ≠ 0x61417272 ∨
          wordAt sector 508 ≠ 0xAA550000 then (false, fs)
      else (true, { fs with freeCount := wordAt sector 488, nextFree := wordAt sector 492 })

/-- A directory entry that has only a name, an attribute byte and a start cluster. -/
def dotEntry (name : Name) (padding : UInt8) (cluster : Nat) : Buffer :=
  fun index =>
    if index < 11 then name.getD index padding
    else if index = 11 then 0x10
    else if index = 26 then byteOf cluster 0
    else if index = 27 then byteOf cluster 1
    else 0

/-- A directory sector with nothing but the two dot entries. -/
def dotSector (padding : UInt8) (cluster parent : Nat) : Buffer :=
  fun index =>
    if index < 32 then dotEntry dot padding cluster index
    else if index < 64 then dotEntry dotDot padding parent (index - 32)
    else 0

/-- Mounting: the geometry, the information block, and dot entries for an unused root. -/
def mount (fs : FileSystem) : Bool × FileSystem :=
  match fs.disk.readSectors 0 1 with
  | none => (false, fs)
  | some bootSector =>
    match fs.initializeVolume bootSector with
    | (false, fs) => (false, fs)
    | (true, fs) =>
      match fs.readFSInfo with
      | (false, fs) => (false, fs)
      | (true, fs) =>
        let rootSector := fs.clusterSector rootCluster
        match fs.readSector rootSector with
        | none => (false, fs)
        | some rootBuffer =>
          -- Here the dot names are padded with spaces, and elsewhere with zeros.
          if rootBuffer 0 = 0 then
            fs.writeSector rootSector (dotSector 0x20 rootCluster rootCluster)
          else (true, fs)

/-- The sector of the first table that holds a cluster's entry. -/
def fatSector (fs : FileSystem) (cluster : Nat) : Nat :=
  (fs.firstFatSector + cluster * 4 % 2 ^ 32 / fs.bpb.bytesPerSector) % 2 ^ 32

/-- Where in that sector the entry lies. -/
def fatOffset (fs : FileSystem) (cluster : Nat) : Nat :=
  cluster * 4 % 2 ^ 32 % fs.bpb.bytesPerSector

/-- The 28 bits of a cluster's entry in the first table. -/
def readFatEntry (fs : FileSystem) (cluster : Nat) : Nat :=
  if fs.bpb.bytesPerSector = 0 then badMark
  else match fs.readSector (fs.fatSector cluster) with
    | none => badMark
    | some sectorData => wordAt sectorData (fs.fatOffset cluster) % 2 ^ 28

/-- Writing a sector of the table into every copy, from a given copy on. -/
def writeCopies (fs : FileSystem) (sector : Nat) (data : Buffer) : Nat → Nat → Bool × FileSystem
  | 0, _ => (true, fs)
  | remaining + 1, copy =>
    match fs.writeSector ((sector + copy * fs.bpb.tableSize32) % 2 ^ 32) data with
    | (false, fs) => (false, fs)
    | (true, fs) => fs.writeCopies sector data remaining (copy + 1)

/-- Changing a cluster's entry in every copy of the table. -/
def updateFatEntry (fs : FileSystem) (cluster value : Nat) : Bool × FileSystem :=
  match fs.readSector (fs.fatSector cluster) with
  | none => (false, fs)
  | some sectorData =>
    fs.writeCopies (fs.fatSector cluster)
      (putWord sectorData (fs.fatOffset cluster) (value % 2 ^ 28)) fs.bpb.tableCount 0

/-- The scan for the first free cluster; whether the table could be written is not looked at. -/
def allocateFrom (fs : FileSystem) : Nat → Nat → Nat × FileSystem
  | 0, _ => (0, fs)
  | remaining + 1, cluster =>
    if fs.readFatEntry cluster = 0 then (cluster, (fs.updateFatEntry cluster endMark).2)
    else fs.allocateFrom remaining (cluster + 1)

/-- Taking a cluster: its number, or zero when none is free. -/
def allocateCluster (fs : FileSystem) : Nat × FileSystem :=
  fs.allocateFrom (fs.totalClusters - 2) 2

/-- Giving a cluster back; numbers outside the volume are ignored. -/
def freeCluster (fs : FileSystem) (cluster : Nat) : FileSystem :=
  if cluster < 2 ∨ fs.totalClusters ≤ cluster then fs else (fs.updateFatEntry cluster 0).2

end FileSystem

end Pocky
