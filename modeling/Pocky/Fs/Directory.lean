import Mathlib.Data.List.DropRight
import Pocky.Fs.Fat32
import Pocky.Lib.Run

/-! Directories: the slots of their sectors, lookup by name and by path, and new entries. -/

namespace Pocky

/-- The bytes of one directory slot. -/
def slotSize : Nat := 32

/-- More steps than a chain walk can take without repeating itself for ever. -/
def walkSteps : Nat := 2 ^ 32

/-- A slot that may be filled: never used, or deleted. -/
def freeByte (byte : UInt8) : Bool := byte == 0x00 || byte == 0xE5

/-- The attribute bit of a directory. -/
def isDirectory (attributes : UInt8) : Bool := attributes &&& 0x10 != 0

/-- The name in a slot: eleven bytes without trailing spaces, up to the first zero byte. -/
def entryName (data : Buffer) (offset : Nat) : Name :=
  (((List.range 11).map fun index => data (offset + index)).rdropWhile (· == 0x20)).takeWhile
    (· != 0)

/-- The start cluster in a slot, of which only sixteen bits are stored. -/
def entryCluster (data : Buffer) (offset : Nat) : Nat := halfAt data (offset + 26)

/-- The file size in a slot. -/
def entrySize (data : Buffer) (offset : Nat) : Nat := wordAt data (offset + 28)

/-- The attribute byte in a slot. -/
def entryAttributes (data : Buffer) (offset : Nat) : UInt8 := data (offset + 11)

/--
The first slot of a sector with a given name, from a given slot on.

An unused slot ends the search in this sector; deleted slots and long-name slots are skipped.
-/
def findName (data : Buffer) (name : Name) : Nat → Nat → Option Nat
  | 0, _ => none
  | remaining + 1, offset =>
    if data offset = 0x00 then none
    else if data offset = 0xE5 then findName data name remaining (offset + slotSize)
    else if entryAttributes data offset = 0x0F then
      findName data name remaining (offset + slotSize)
    else if entryName data offset = name then some offset
    else findName data name remaining (offset + slotSize)

/-- The first slot of a sector that may be filled, from a given slot on. -/
def findFree (data : Buffer) : Nat → Nat → Option Nat
  | 0, _ => none
  | remaining + 1, offset =>
    if freeByte (data offset) then some offset else findFree data remaining (offset + slotSize)

/-- Comparing a slot's eleven name bytes with a shorter name and its terminating zero. -/
def slotNamed (data : Buffer) (offset : Nat) (name : Name) : Bool :=
  (name ++ [0]).zipIdx.all fun (byte, index) => data (offset + index) == byte

/--
Whether the slots of a sector decide that a directory is empty, from a given slot on.

An unused slot says yes, and a name other than the two dot names padded with zeros says no.
-/
def emptyVerdict (data : Buffer) : Nat → Nat → Option Bool
  | 0, _ => none
  | remaining + 1, offset =>
    if data offset = 0x00 then some true
    else if data offset = 0xE5 then emptyVerdict data remaining (offset + slotSize)
    else if slotNamed data offset dot || slotNamed data offset dotDot then
      emptyVerdict data remaining (offset + slotSize)
    else some false

/-- What a lookup reports, and the slot it was read from, which the source does not report. -/
structure Found where
  /-- The start cluster. -/
  cluster : Nat
  /-- The file size. -/
  size : Nat
  /-- The attribute byte. -/
  attributes : UInt8
  /-- Sector and offset of the slot, if there is one. -/
  slot : Option (Nat × Nat)
  deriving Repr, DecidableEq

/-- The answer for a path that ends at a directory itself. -/
def Found.directory (cluster : Nat) : Found := ⟨cluster, 0, 0x10, none⟩

namespace FileSystem

/-- How many slots the source visits in one sector. -/
def slotsPerSector (fs : FileSystem) : Nat := (fs.bpb.bytesPerSector + 31) / 32

section Scan

variable {α : Type} (fs : FileSystem) (find : Nat → Buffer → Option α) (failed ended : α)

/-- Visiting the sectors of one cluster until one of them decides. -/
def scanSectors (sector : Nat) : Nat → Nat → Option α
  | 0, _ => none
  | remaining + 1, index =>
    match fs.readSector ((sector + index) % 2 ^ 32) with
    | none => some failed
    | some data =>
      match find ((sector + index) % 2 ^ 32) data with
      | some answer => some answer
      | none => scanSectors sector remaining (index + 1)

/-- Visiting the sectors of a chain of clusters until one of them decides. -/
def scanChain : Nat → Nat → Run α
  | 0, _ => .error .diverges
  | steps + 1, cluster =>
    match scanSectors fs find failed (fs.clusterSector cluster) fs.bpb.sectorsPerCluster 0 with
    | some answer => .ok answer
    | none =>
      let nextCluster := fs.readFatEntry cluster
      if endMark ≤ nextCluster then .ok ended
      else if nextCluster = badMark then .ok failed
      else scanChain steps nextCluster

end Scan

/-- Looking a name up in a directory. -/
def findFileInDirectory (fs : FileSystem) (dirCluster : Nat) (name : Name) :
    Run (Option Found) :=
  fs.scanChain
    (fun sector data => (findName data name fs.slotsPerSector 0).map fun offset =>
      some ⟨entryCluster data offset, entrySize data offset, entryAttributes data offset,
        some (sector, offset)⟩)
    none none walkSteps dirCluster

/-- The offset of the first fillable slot of a directory, whatever sector it lies in. -/
def findFreeDirectoryEntry (fs : FileSystem) (cluster : Nat) : Run (Option Nat) :=
  fs.scanChain (fun _ data => (findFree data fs.slotsPerSector 0).map some) none none walkSteps
    cluster

/-- Whether a directory holds nothing but dot entries. -/
def isDirectoryEmpty (fs : FileSystem) (cluster : Nat) : Run Bool :=
  fs.scanChain (fun _ data => emptyVerdict data fs.slotsPerSector 0) false true walkSteps cluster

end FileSystem

/-- A path cut at its slashes. -/
def components : Name → List Name
  | [] => [[]]
  | byte :: rest =>
    match components rest with
    | [] => [[byte]]
    | first :: others => if byte = slash then [] :: first :: others else (byte :: first) :: others

/-- A path cut at its last slash. -/
def cutLastSlash : Name → Option (Name × Name)
  | [] => none
  | byte :: rest =>
    match cutLastSlash rest with
    | some (directory, file) => some (byte :: directory, file)
    | none => if byte = slash then some ([], rest) else none

/-- Copying a name into a path buffer; one that leaves no room for its zero byte overruns it. -/
def copyPath (name : Name) : Run Name :=
  if name.length < maxPath then .ok name else .error .overrun

namespace FileSystem

/-- Resolving the components of a path from a directory. -/
def findComponents (fs : FileSystem) : Nat → List Name → Run (Option Found)
  | startCluster, [] => .ok (some (.directory startCluster))
  | startCluster, [name] =>
    if name = [] then .ok (some (.directory startCluster))
    else fs.findFileInDirectory startCluster name
  | startCluster, dirname :: rest => do
    let dirname ← copyPath dirname
    match ← fs.findFileInDirectory startCluster dirname with
    | none => return none
    | some found =>
      if !isDirectory found.attributes then return none
      else if rest = [[]] then return some found
      else fs.findComponents found.cluster rest

/-- The directory a path starts from, and the path without its leading slash. -/
def startOf (fs : FileSystem) (name : Name) : Nat × Name :=
  match name with
  | byte :: rest =>
    if byte = slash then (rootCluster, rest) else (fs.currentDirectoryCluster, name)
  | [] => (fs.currentDirectoryCluster, [])

/-- Resolving a path from the root or from the current directory. -/
def findFile (fs : FileSystem) (name : Name) : Run (Option Found) :=
  let (searchCluster, name) := fs.startOf name
  fs.findComponents searchCluster (components name)

/-- Resolving a path from a given directory; a leading slash is not skipped here. -/
def findFileFrom (fs : FileSystem) (name : Name) (startCluster : Nat) : Run (Option Found) :=
  fs.findComponents startCluster (components name)

/--
The directory an operation changes, and the name it looks for there.

The part before the last slash is resolved without its leading slash.
-/
def parentOf (fs : FileSystem) (name : Name) : Run (Option (Nat × Name)) :=
  let (directoryCluster, fileName) := fs.startOf name
  match cutLastSlash fileName with
  | none => .ok (some (directoryCluster, fileName))
  | some (dirPath, fileName) => do
    let dirPath ← copyPath dirPath
    match ← fs.findFile dirPath with
    | none => return none
    | some found =>
      if !isDirectory found.attributes then return none
      else return some (found.cluster, fileName)

/-- The checks on a new name. -/
def validateFileName (name : Name) : Bool :=
  -- The refused bytes are those of <>:"/\|?* in this order.
  name ≠ [] && name.length ≤ 255 &&
    name.all fun byte =>
      byte ∉ ([0x3C, 0x3E, 0x3A, 0x22, 0x2F, 0x5C, 0x7C, 0x3F, 0x2A] : List UInt8)

/-- The eleven bytes a name is cut or padded to, as strncpy leaves them. -/
def shortName (name : Name) : Name := name.take 11

/-- The checksum that ties long-name slots to a short name. -/
def calculateShortNameChecksum (name : Name) : UInt8 :=
  (List.range 11).foldl
    (fun (sum : UInt8) index =>
      (if sum &&& 1 ≠ 0 then (0x80 : UInt8) else 0) + (sum >>> 1) + name.getD index 0) 0

/-- The thirty-two bytes of a new entry. -/
def entryBytes (name : Name) (attributes : UInt8) (fileCluster fileSize : Nat) : Buffer :=
  fun index =>
    if index < 11 then (shortName name).getD index 0
    else if index = 11 then attributes
    else if index = 26 then byteOf fileCluster 0
    else if index = 27 then byteOf fileCluster 1
    else if 28 ≤ index ∧ index < 32 then byteOf fileSize (index - 28)
    else 0

/-- Entering a file: a free slot is looked for everywhere, and its offset used in the first sector. -/
def writeDirectoryEntry (fs : FileSystem) (cluster : Nat) (name : Name) (attributes : UInt8)
    (fileCluster fileSize : Nat) : Run (Bool × FileSystem) := do
  match ← fs.findFreeDirectoryEntry cluster with
  | none => return (false, fs)
  | some entryIndex =>
    let sector := fs.clusterSector cluster
    match fs.readSector sector with
    | none => return (false, fs)
    | some sectorData =>
      return fs.writeSector sector (putBytes sectorData entryIndex slotSize
        (entryBytes name attributes fileCluster fileSize))

/-- The part of a long name in one slot, thirteen characters with a zero byte behind each. -/
def lfnBytes (longName : Name) (checksum : UInt8) (numEntries index : Nat) : Buffer :=
  -- The three runs of characters start at bytes 1, 14 and 28.
  let char := fun position => longName.getD (index * 13 + position) 0
  fun byte =>
    if byte = 0 then UInt8.ofNat (if index = numEntries - 1 then 0x40 ||| (index + 1) else index + 1)
    else if byte = 11 then 0x0F
    else if byte = 13 then checksum
    else if byte < 11 ∧ byte % 2 = 1 then char (byte / 2)
    else if 14 ≤ byte ∧ byte < 26 ∧ byte % 2 = 0 then char (5 + (byte - 14) / 2)
    else if 28 ≤ byte ∧ byte < 32 ∧ byte % 2 = 0 then char (11 + (byte - 28) / 2)
    else 0

/--
The loop over the slots of a long name; it returns the sector it ended at and that sector's bytes.

The offsets are counted backwards from the free slot, on 64-bit words.
One that falls off the front moves on to the next sector and drops the bytes collected so far.
-/
def fillLFN (fs : FileSystem) (longName : Name) (checksum : UInt8) (numEntries entryIndex : Nat) :
    Nat → Nat → Nat → Buffer → Option (Nat × Buffer)
  | 0, _, sector, sectorData => some (sector, sectorData)
  | remaining + 1, index, sector, sectorData =>
    let entryOffset := (entryIndex + 2 ^ 64 - (numEntries - 1 - index) * 32) % 2 ^ 64
    let entry := lfnBytes longName checksum numEntries index
    if fs.bpb.bytesPerSector ≤ entryOffset then
      let sector := (sector + 1) % 2 ^ 32
      match fs.readSector sector with
      | none => none
      | some sectorData =>
        fs.fillLFN longName checksum numEntries entryIndex remaining (index + 1) sector
          (putBytes sectorData 0 slotSize entry)
    else
      fs.fillLFN longName checksum numEntries entryIndex remaining (index + 1) sector
        (putBytes sectorData entryOffset slotSize entry)

/-- Entering the slots of a long name. -/
def writeLFNEntries (fs : FileSystem) (cluster : Nat) (longName : Name) (checksum : UInt8) :
    Run (Bool × FileSystem) :=
  let numEntries := (longName.length + 12) / 13
  if 20 < numEntries then .ok (false, fs)
  else do
    match ← fs.findFreeDirectoryEntry cluster with
    | none => return (false, fs)
    | some entryIndex =>
      let sector := fs.clusterSector cluster
      match fs.readSector sector with
      | none => return (false, fs)
      | some sectorData =>
        match fs.fillLFN longName checksum numEntries entryIndex numEntries 0 sector sectorData with
        | none => return (false, fs)
        | some (sector, sectorData) => return fs.writeSector sector sectorData

end FileSystem

end Pocky
