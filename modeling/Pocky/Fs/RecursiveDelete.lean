import Pocky.Fs.Files

/-! Deleting a directory with what it holds, through paths made by the library's snprintf. -/

namespace Pocky

/-- The library's snprintf: it copies the format as it is and looks at no argument. -/
def snprintf (size : Nat) (format : Name) (_arguments : List Name) : Name := format.take (size - 1)

/-- The format of a path with a slash between its two parts. -/
def slashFormat : Name := [0x25, 0x73, 0x2F, 0x25, 0x73]

/-- The format of a path whose first part ends with a slash. -/
def plainFormat : Name := [0x25, 0x73, 0x25, 0x73]

namespace FileSystem

/-- The path of a directory as the recursion means to hand it on. -/
def fullPath (fs : FileSystem) (name : Name) : Name :=
  if name.head? = some slash then name.take (maxPath - 1)
  else if fs.currentPath.getLast? = some slash then
    snprintf (maxPath - 1) plainFormat [fs.currentPath, name]
  else snprintf (maxPath - 1) slashFormat [fs.currentPath, name]

section Clear

variable (delete : FileSystem → Name → UInt8 → Run FileSystem)

/-- Handing on the entries of a sector, which has been read before any of them is deleted. -/
def clearSlots (data : Buffer) : Nat → Nat → FileSystem → Run FileSystem
  | 0, _, fs => .ok fs
  | remaining + 1, offset, fs =>
    if data offset = 0x00 then .ok fs
    else if data offset = 0xE5 then clearSlots data remaining (offset + slotSize) fs
    else if entryAttributes data offset = 0x0F then
      clearSlots data remaining (offset + slotSize) fs
    else if entryName data offset = dot ∨ entryName data offset = dotDot then
      clearSlots data remaining (offset + slotSize) fs
    else do
      let fs ← delete fs (entryName data offset) (entryAttributes data offset)
      clearSlots data remaining (offset + slotSize) fs

/-- Handing on the entries of the sectors of a cluster. -/
def clearSectors (sector : Nat) : Nat → Nat → FileSystem → Run (Bool × FileSystem)
  | 0, _, fs => .ok (true, fs)
  | remaining + 1, index, fs =>
    match fs.readSector ((sector + index) % 2 ^ 32) with
    | none => .ok (false, fs)
    | some sectorData => do
      let fs ← clearSlots delete sectorData fs.slotsPerSector 0 fs
      clearSectors sector remaining (index + 1) fs

/-- Handing on the entries of a directory. -/
def clearChain : Nat → Nat → FileSystem → Run (Bool × FileSystem)
  | 0, _, _ => .error .diverges
  | steps + 1, cluster, fs => do
    let (cleared, fs) ←
      clearSectors delete (fs.clusterSector cluster) fs.bpb.sectorsPerCluster 0 fs
    if !cleared then return (false, fs)
    let nextCluster := fs.readFatEntry cluster
    if endMark ≤ nextCluster then return (true, fs)
    else if nextCluster = badMark then return (false, fs)
    else clearChain steps nextCluster fs

end Clear

/-- What is done with an entry; what the nested call returns is not looked at. -/
def deleteNested (recurse : FileSystem → Name → Run (Bool × FileSystem)) (fullPath : Name)
    (fs : FileSystem) (entryName : Name) (attributes : UInt8) : Run FileSystem := do
  let entryPath := snprintf (maxPath - 1) slashFormat [fullPath, entryName]
  let (_, fs) ← if isDirectory attributes then recurse fs entryPath else fs.deleteFile entryPath
  return fs

/-- Deleting a directory with what it holds, with a bound on how deep the calls are nested. -/
def deleteRecursive : Nat → FileSystem → Name → Run (Bool × FileSystem)
  | 0, _, _ => .error .diverges
  | depth + 1, fs, name => do
    match ← fs.findFile name with
    | none => return (false, fs)
    | some found =>
      if !isDirectory found.attributes then return (false, fs)
      let fullPath := fs.fullPath name
      let (cleared, fs) ←
        clearChain (deleteNested (deleteRecursive depth) fullPath) walkSteps found.cluster fs
      if !cleared then return (false, fs)
      match ← fs.parentOf name with
      | none => return (false, fs)
      | some (directoryCluster, dirName) =>
        -- Only the first slot of the name is marked here.
        let (marked, fs) ← fs.editEntry directoryCluster dirName fun entryData offset =>
          .ok (Function.update entryData offset 0xE5)
        if !marked then return (false, fs)
        let fs ← fs.freeChain walkSteps found.cluster
        return (true, fs)

/-- Deleting a directory with what it holds; a recursion without end has no result. -/
def deleteDirectoryRecursive (fs : FileSystem) (name : Name) : Run (Bool × FileSystem) :=
  deleteRecursive walkSteps fs name

end FileSystem

end Pocky
