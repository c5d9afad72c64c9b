import Pocky.Fs.Directory

/-! Reading, writing, creating, deleting and renaming files and directories. -/

namespace Pocky

/-- A buffer seen from an offset on. -/
def shifted (data : Buffer) (offset : Nat) : Buffer := fun index => data (offset + index)

namespace FileSystem

/--
Copying sectors of one cluster into a buffer, as far as the buffer reaches.

The answer is how many bytes have been read, or nothing after a failed read, and the buffer.
-/
def readCluster (fs : FileSystem) (sector bufferSize : Nat) :
    Nat → Nat → Nat → Buffer → Option Nat × Buffer
  | 0, _, bytesRead, buffer => (some bytesRead, buffer)
  | remaining + 1, index, bytesRead, buffer =>
    if bytesRead < bufferSize then
      match fs.readSector ((sector + index) % 2 ^ 32) with
      | none => (none, buffer)
      | some sectorData =>
        let bytesToCopy := min (bufferSize - bytesRead) fs.bpb.bytesPerSector
        fs.readCluster sector bufferSize remaining (index + 1) (bytesRead + bytesToCopy)
          (putBytes buffer bytesRead bytesToCopy sectorData)
    else (some bytesRead, buffer)

/-- The loop over the clusters of a file that is read. -/
def readChain (fs : FileSystem) (bufferSize : Nat) : Nat → Nat → Nat → Buffer → Buffer
  | 0, _, _, buffer => buffer
  | steps + 1, cluster, bytesRead, buffer =>
    if bytesRead < bufferSize then
      match fs.readCluster (fs.clusterSector cluster) bufferSize fs.bpb.sectorsPerCluster 0 bytesRead
          buffer with
      | (none, buffer) => buffer
      | (some bytesRead, buffer) =>
        if bufferSize ≤ bytesRead then buffer
        else
          let nextCluster := fs.readFatEntry cluster
          if endMark ≤ nextCluster then buffer
          else if nextCluster = badMark then buffer
          else fs.readChain bufferSize steps nextCluster bytesRead buffer
    else buffer

/-- Reading a file into a buffer; every round copies at least one byte. -/
def readFile (fs : FileSystem) (startCluster : Nat) (buffer : Buffer) (bufferSize : Nat) : Buffer :=
  if fs.bpb.sectorsPerCluster = 0 ∨ fs.bpb.bytesPerSector = 0 then buffer
  else fs.readChain bufferSize (bufferSize + 1) startCluster 0 buffer

/-- Writing sectors of one cluster, as far as the data reaches. -/
def writeCluster (fs : FileSystem) (sector : Nat) (data : Buffer) (dataSize : Nat) :
    Nat → Nat → Nat → Option Nat × FileSystem
  | 0, _, bytesWritten => (some bytesWritten, fs)
  | remaining + 1, index, bytesWritten =>
    if bytesWritten < dataSize then
      match fs.writeSector ((sector + index) % 2 ^ 32) (shifted data bytesWritten) with
      | (false, fs) => (none, fs)
      | (true, fs) =>
        fs.writeCluster sector data dataSize remaining (index + 1)
          (bytesWritten + fs.bpb.bytesPerSector)
    else (some bytesWritten, fs)

/--
The loop over the clusters of a file that is written; it returns the cluster it ended at.

A chain that is too short is extended by one cluster at a time.
-/
def writeChain (fs : FileSystem) (data : Buffer) (dataSize : Nat) :
    Nat → Nat → Nat → Option Nat × FileSystem
  | 0, currentCluster, _ => (some currentCluster, fs)
  | steps + 1, currentCluster, bytesWritten =>
    if bytesWritten < dataSize then
      match fs.writeCluster (fs.clusterSector currentCluster) data dataSize
          fs.bpb.sectorsPerCluster 0 bytesWritten with
      | (none, fs) => (none, fs)
      | (some bytesWritten, fs) =>
        let nextCluster := fs.readFatEntry currentCluster
        if endMark ≤ nextCluster then
          if bytesWritten < dataSize then
            let (newCluster, fs) := fs.allocateCluster
            if newCluster = 0 then (none, fs)
            else
              match fs.updateFatEntry currentCluster newCluster with
              | (false, fs) => (none, fs)
              | (true, fs) => fs.writeChain data dataSize steps newCluster bytesWritten
          else (some currentCluster, fs)
        else if nextCluster = badMark then (none, fs)
        else fs.writeChain data dataSize steps nextCluster bytesWritten
    else (some currentCluster, fs)

/-- Writing a file; the cluster the loop ended at becomes the last one of the chain. -/
def writeFile (fs : FileSystem) (startCluster : Nat) (data : Buffer) (dataSize : Nat) :
    Bool × FileSystem :=
  if fs.bpb.sectorsPerCluster = 0 ∨ fs.bpb.bytesPerSector = 0 then (false, fs)
  else match fs.writeChain data dataSize (dataSize + 1) startCluster 0 with
    | (none, fs) => (false, fs)
    | (some currentCluster, fs) => fs.updateFatEntry currentCluster endMark

/-- Entering a new file or directory in its parent, with a cluster of its own. -/
def createEntry (fs : FileSystem) (name : Name) (attributes : UInt8) :
    Run (Option (Nat × Nat) × FileSystem) :=
  if !validateFileName name then .ok (none, fs)
  else
    let (parentCluster, name) := fs.startOf name
    if name = [] then .ok (none, fs)
    else do
      match ← fs.findFileInDirectory parentCluster name with
      | some _ => return (none, fs)
      | none =>
        let (cluster, fs) := fs.allocateCluster
        if cluster = 0 then return (none, fs)
        let (named, fs) ←
          if 11 < name.length then
            fs.writeLFNEntries parentCluster name (calculateShortNameChecksum (shortName name))
          else pure (true, fs)
        if !named then return (none, fs.freeCluster cluster)
        let (entered, fs) ←
          fs.writeDirectoryEntry parentCluster (shortName name) attributes cluster 0
        if !entered then return (none, fs.freeCluster cluster)
        return (some (parentCluster, cluster), fs)

/-- Creating an empty file of one cluster. -/
def createFile (fs : FileSystem) (name : Name) (attributes : UInt8) : Run (Bool × FileSystem) := do
  let (created, fs) ← fs.createEntry name attributes
  return (created.isSome, fs)

/-- Creating a directory; only the first sector of its cluster is written. -/
def createDirectory (fs : FileSystem) (name : Name) : Run (Bool × FileSystem) := do
  match ← fs.createEntry name 0x10 with
  | (none, fs) => return (false, fs)
  | (some (parentCluster, cluster), fs) =>
    return fs.writeSector (fs.clusterSector cluster) (dotSector 0x00 cluster parentCluster)

/-- Marking the first slot of a name as deleted in each sector of a cluster. -/
def markSectors (fs : FileSystem) (name : Name) (sector : Nat) : Nat → Nat → Bool × FileSystem
  | 0, _ => (true, fs)
  | remaining + 1, index =>
    let sectorNumber := (sector + index) % 2 ^ 32
    match fs.readSector sectorNumber with
    | none => (false, fs)
    | some sectorData =>
      match findName sectorData name fs.slotsPerSector 0 with
      | none => fs.markSectors name sector remaining (index + 1)
      | some offset =>
        match fs.writeSector sectorNumber (Function.update sectorData offset 0xE5) with
        | (false, fs) => (false, fs)
        | (true, fs) => fs.markSectors name sector remaining (index + 1)

/-- Marking a name as deleted in every sector of a directory that has it. -/
def markChain (fs : FileSystem) (name : Name) : Nat → Nat → Run (Bool × FileSystem)
  | 0, _ => .error .diverges
  | steps + 1, cluster =>
    match fs.markSectors name (fs.clusterSector cluster) fs.bpb.sectorsPerCluster 0 with
    | (false, fs) => .ok (false, fs)
    | (true, fs) =>
      let nextCluster := fs.readFatEntry cluster
      if endMark ≤ nextCluster then .ok (true, fs)
      else if nextCluster = badMark then .ok (false, fs)
      else fs.markChain name steps nextCluster

/-- Freeing a chain, one cluster after the other. -/
def freeChain (fs : FileSystem) : Nat → Nat → Run FileSystem
  | 0, _ => .error .diverges
  | steps + 1, cluster =>
    if endMark ≤ cluster then .ok fs
    else
      let nextCluster := fs.readFatEntry cluster
      let fs := fs.freeCluster cluster
      if endMark ≤ nextCluster then .ok fs
      else if nextCluster = badMark then .ok fs
      else fs.freeChain steps nextCluster

/-- Removing the entry of a path and freeing the chain that was found for it. -/
def removeEntry (fs : FileSystem) (name : Name) (cluster : Nat) : Run (Bool × FileSystem) := do
  match ← fs.parentOf name with
  | none => return (false, fs)
  | some (directoryCluster, fileName) =>
    let (marked, fs) ← fs.markChain fileName walkSteps directoryCluster
    if !marked then return (false, fs)
    let fs ← fs.freeChain walkSteps cluster
    return (true, fs)

/-- Deleting a file. -/
def deleteFile (fs : FileSystem) (name : Name) : Run (Bool × FileSystem) := do
  match ← fs.findFile name with
  | none => return (false, fs)
  | some found =>
    if isDirectory found.attributes then return (false, fs)
    else fs.removeEntry name found.cluster

/-- Deleting an empty directory. -/
def deleteDirectory (fs : FileSystem) (name : Name) : Run (Bool × FileSystem) := do
  match ← fs.findFile name with
  | none => return (false, fs)
  | some found =>
    if !isDirectory found.attributes then return (false, fs)
    else if !(← fs.isDirectoryEmpty found.cluster) then return (false, fs)
    else fs.removeEntry name found.cluster

/-- Changing the first slot of a name in a directory. -/
def editEntry (fs : FileSystem) (directoryCluster : Nat) (name : Name)
    (edit : Buffer → Nat → Run Buffer) : Run (Bool × FileSystem) := do
  match ← fs.findFileInDirectory directoryCluster name with
  | some { slot := some (sector, offset), .. } =>
    match fs.readSector sector with
    | none => return (false, fs)
    | some sectorData => do
      let sectorData ← edit sectorData offset
      return fs.writeSector sector sectorData
  | _ => return (false, fs)

/-- Recording a new size for a file. -/
def updateFileSize (fs : FileSystem) (filename : Name) (newSize : Nat) :
    Run (Bool × FileSystem) := do
  match ← fs.parentOf filename with
  | none => return (false, fs)
  | some (directoryCluster, fileName) =>
    fs.editEntry directoryCluster fileName fun sectorData offset =>
      .ok (putWord sectorData (offset + 28) newSize)

/--
The new name of an entry, padded with spaces.

A name of more than eleven bytes runs into the bytes behind it, and perhaps out of the sector.
-/
def renamed (fs : FileSystem) (newName : Name) (sectorData : Buffer) (offset : Nat) : Run Buffer :=
  if fs.bpb.bytesPerSector < offset + newName.length then .error .overrun
  else .ok (putBytes (putBytes sectorData offset 11 fun _ => 0x20) offset newName.length
    fun index => newName.getD index 0)

/-- Where a renamed entry goes: the directory and the name there. -/
def renameTarget (fs : FileSystem) (sourceFileName newName : Name) : Run (Option (Nat × Name)) := do
  match ← fs.findFile newName with
  | some found =>
    if isDirectory found.attributes then return some (found.cluster, sourceFileName)
    else return none
  | none => fs.parentOf newName

/-- Renaming within a directory, or moving to another one. -/
def renameFile (fs : FileSystem) (oldName newName : Name) : Run (Bool × FileSystem) :=
  if !validateFileName newName then .ok (false, fs)
  else do
    match ← fs.findFile oldName with
    | none => return (false, fs)
    | some source =>
      match ← fs.parentOf oldName with
      | none => return (false, fs)
      | some (sourceDirectory, sourceFileName) =>
        match ← fs.renameTarget sourceFileName newName with
        | none => return (false, fs)
        | some (destDirectory, destFileName) =>
          if sourceDirectory = destDirectory ∧ sourceFileName = destFileName then
            return (true, fs)
          else if sourceDirectory = destDirectory then
            fs.editEntry sourceDirectory sourceFileName (fs.renamed destFileName)
          else do
            let (entered, fs) ← fs.writeDirectoryEntry destDirectory destFileName
              source.attributes source.cluster source.size
            if !entered then return (false, fs)
            fs.editEntry sourceDirectory sourceFileName fun sectorData offset =>
              .ok (Function.update sectorData offset 0xE5)

/-- The part of a path behind its last slash, in a buffer of limited length. -/
def getDirName (path : Name) : Name :=
  if path = [] ∨ path = [slash] then [slash]
  else
    let buffer := path.take (maxPath - 1)
    let buffer := if 1 < buffer.length ∧ buffer.getLast? = some slash then buffer.dropLast else buffer
    match cutLastSlash buffer with
    | none => buffer
    | some (_, name) => name

/-- Splitting a path into the directory to work in and the name there. -/
def splitPath (fs : FileSystem) (path : Name) : Run (Name × Name) :=
  match cutLastSlash path with
  | some (dirPath, filename) => do
    let dirPath ← copyPath dirPath
    let filename ← copyPath filename
    return (if dirPath = [] then [slash] else dirPath, filename)
  | none => do
    let filename ← copyPath path
    return (fs.currentPath, filename)

/-- Setting the path of the current directory. -/
def setCurrentPath (fs : FileSystem) (path : Name) : FileSystem :=
  { fs with currentPath := path.take (maxPath - 1) }

/-- Setting the name of the current directory. -/
def setCurrentDirName (fs : FileSystem) (name : Name) : FileSystem :=
  { fs with currentDirName := name.take (maxPath - 1) }

/-- Setting the first cluster of the current directory. -/
def setCurrentDirectoryCluster (fs : FileSystem) (cluster : Nat) : FileSystem :=
  { fs with currentDirectoryCluster := cluster }

/-- Going to the directory of a path; the root is taken to be the current directory already. -/
def enterDirectory (fs : FileSystem) (dirPath : Name) : Run (Option FileSystem) :=
  if dirPath = [slash] then .ok (some fs)
  else do
    match ← fs.findFile dirPath with
    | none => return none
    | some found =>
      if !isDirectory found.attributes then return none
      else return some (((fs.setCurrentDirectoryCluster found.cluster).setCurrentPath
        dirPath).setCurrentDirName (getDirName dirPath))

/-- Going back to the current directory of an earlier state. -/
def restoreDirectory (fs saved : FileSystem) : FileSystem :=
  ((fs.setCurrentDirectoryCluster saved.currentDirectoryCluster).setCurrentPath
    saved.currentPath).setCurrentDirName saved.currentDirName

/-- Working in the directory of a path, and going back afterwards. -/
def inDirectory {α : Type} (fs : FileSystem) (path : Name) (absent : α)
    (work : FileSystem → Name → Run (α × FileSystem)) : Run (α × FileSystem) := do
  let (dirPath, filename) ← fs.splitPath path
  match ← fs.enterDirectory dirPath with
  | none => return (absent, fs.restoreDirectory fs)
  | some entered => do
    let (answer, after) ← work entered filename
    return (answer, after.restoreDirectory fs)

/-- Writing a file and recording its size. -/
def storeFile (fs : FileSystem) (filename : Name) (data : Buffer) (dataSize : Nat) :
    Run (Bool × FileSystem) := do
  match ← fs.findFile filename with
  | none => return (false, fs)
  | some found =>
    match fs.writeFile found.cluster data dataSize with
    | (false, fs) => return (false, fs)
    | (true, fs) => fs.updateFileSize filename (dataSize % 2 ^ 32)

/-- Creating a file with contents. -/
def createFileWithContent (fs : FileSystem) (path : Name) (data : Buffer) (dataSize : Nat)
    (attributes : UInt8) : Run (Bool × FileSystem) :=
  fs.inDirectory path false fun fs filename => do
    match ← fs.createFile filename attributes with
    | (false, fs) => return (false, fs)
    | (true, fs) => fs.storeFile filename data dataSize

/-- Replacing the contents of a file. -/
def writeFileByPath (fs : FileSystem) (path : Name) (data : Buffer) (dataSize : Nat) :
    Run (Bool × FileSystem) :=
  fs.inDirectory path false fun fs filename => fs.storeFile filename data dataSize

/-- Reading a file; the answer is whether it was found, and the buffer. -/
def readFileByPath (fs : FileSystem) (path : Name) (buffer : Buffer) (bufferSize : Nat) :
    Run ((Bool × Buffer) × FileSystem) :=
  fs.inDirectory path (false, buffer) fun fs filename => do
    match ← fs.findFile filename with
    | none => return ((false, buffer), fs)
    | some found => return ((true, fs.readFile found.cluster buffer bufferSize), fs)

end FileSystem

end Pocky
