import Pocky.Fs.MovedOperations

/-! Whether operations on absolute paths depend on the current directory. -/

namespace Pocky

/-- The operations that take a path. -/
inductive PathOperation where
  /-- Creating a file. -/
  | createFile
  /-- Creating a file with contents. -/
  | createFileWithContent
  /-- Replacing the contents of a file. -/
  | writeFileByPath
  /-- Reading a file. -/
  | readFileByPath
  /-- Deleting a file. -/
  | deleteFile
  /-- Deleting a directory. -/
  | deleteDirectory
  /-- Recording a new size. -/
  | updateFileSize
  /-- Renaming what the path leads to. -/
  | renameFile
  deriving DecidableEq

/-- What the operations take besides a path. -/
structure Arguments where
  /-- The bytes to write, or the buffer to read into. -/
  data : Buffer
  /-- Their number, or a new size. -/
  size : Nat
  /-- The attributes of a new file. -/
  attributes : UInt8
  /-- The new name of a renamed file. -/
  newName : Name

namespace PathOperation

/-- Performing an operation; the answer comes with the buffer. -/
def perform (operation : PathOperation) (fs : FileSystem) (path : Name) (given : Arguments) :
    Run ((Bool × Buffer) × FileSystem) :=
  let unread := fun (result : Bool × FileSystem) => ((result.1, given.data), result.2)
  match operation with
  | createFile => (fs.createFile path given.attributes).map unread
  | createFileWithContent =>
    (fs.createFileWithContent path given.data given.size given.attributes).map unread
  | writeFileByPath => (fs.writeFileByPath path given.data given.size).map unread
  | readFileByPath => fs.readFileByPath path given.data given.size
  | deleteFile => (fs.deleteFile path).map unread
  | deleteDirectory => (fs.deleteDirectory path).map unread
  | updateFileSize => (fs.updateFileSize path given.size).map unread
  | renameFile => (fs.renameFile path given.newName).map unread

/-- The answer of an operation, the bytes read, and the bytes on the disk afterwards. -/
def outcome (operation : PathOperation) (fs : FileSystem) (path : Name) (given : Arguments) :
    Run ((Bool × Buffer) × Buffer) :=
  (operation.perform fs path given).map fun result => (result.1, result.2.disk.bytes)

/-- A path, without its leading slash, that names a directory other than the root before its last slash. -/
def NamesDirectory (rest : Name) : Prop :=
  ∃ dirPath file, cutLastSlash rest = some (dirPath, file) ∧ dirPath ≠ []

/-- A path, without its leading slash, whose part before the last slash is missing or begins with one. -/
def ParentFromRoot (rest : Name) : Prop :=
  ∀ dirPath file, cutLastSlash rest = some (dirPath, file) → dirPath.head? = some slash

/--
Whether an operation takes a path, given without its leading slash, from the root.

The by-path operations go to a directory only if another one than the root is named.
The others resolve that part without the leading slash, from the current directory.
-/
def TakesFromRoot (operation : PathOperation) (rest : Name) : Prop :=
  match operation with
  | createFile => True
  | createFileWithContent => NamesDirectory rest
  | writeFileByPath => NamesDirectory rest
  | readFileByPath => NamesDirectory rest
  | deleteFile => ParentFromRoot rest
  | deleteDirectory => ParentFromRoot rest
  | updateFileSize => ParentFromRoot rest
  | renameFile => ParentFromRoot rest

end PathOperation

namespace FileSystem

/-- A directory that an absolute path leads to. -/
def NamedDirectory (fs : FileSystem) (cluster : Nat) : Prop :=
  ∃ rest found, fs.findFile (slash :: rest) = .ok (some found) ∧
    isDirectory found.attributes = true ∧ found.cluster = cluster

section Moved

variable (fs : FileSystem) (here : Nat) (path dirName : Name)

/-- An absolute path leads to the same from any directory. -/
theorem findFile_movedTo (rest : Name) :
    (fs.movedTo here path dirName).findFile (slash :: rest) = fs.findFile (slash :: rest) := by
  rw [findFile, findFile]
  exact fs.findComponents_movedTo here path dirName _ _

/-- So does its parent, if there is none or it begins with a slash of its own. -/
theorem parentOf_movedTo {rest : Name}
    (anchored : PathOperation.ParentFromRoot rest) :
    (fs.movedTo here path dirName).parentOf (slash :: rest) = fs.parentOf (slash :: rest) := by
  have start : ∀ state : FileSystem, state.startOf (slash :: rest) = (rootCluster, rest) := fun _ => rfl
  rw [parentOf, parentOf, start, start]
  dsimp only
  cases cut : cutLastSlash rest with
  | none => rfl
  | some parts =>
    obtain ⟨dirPath, file⟩ := parts
    obtain ⟨deeper, rfl⟩ := List.head?_eq_some_iff.mp (anchored dirPath file cut)
    cases copied : copyPath (slash :: deeper) with
    | error fault => simp only [copied, Run.error_bind]
    | ok copy =>
      -- A copy is the path itself.
      obtain ⟨rfl, -⟩ := copyPath_eq_ok.mp copied
      simp only [copied, Run.ok_bind, findFile_movedTo]

/-- Going to a directory by an absolute path ends in the same state. -/
theorem enterDirectory_movedTo {rest : Name} (nonempty : rest ≠ []) :
    (fs.movedTo here path dirName).enterDirectory (slash :: rest) = fs.enterDirectory (slash :: rest) := by
  have other : slash :: rest ≠ [slash] := by simpa using nonempty
  rw [enterDirectory, enterDirectory, if_neg other, if_neg other, findFile_movedTo]
  rfl

/-- Work in the directory of an absolute path is the same, if a directory other than the root is named. -/
theorem inDirectory_movedTo {α : Type} {rest dirPath file : Name}
    (cut : cutLastSlash rest = some (dirPath, file)) (nonempty : dirPath ≠ []) (absent : α)
    (work : FileSystem → Name → Run (α × FileSystem)) :
    (fs.movedTo here path dirName).inDirectory (slash :: rest) absent work =
      (fs.inDirectory (slash :: rest) absent work).map
        (movedResult here (path.take (maxPath - 1)) (dirName.take (maxPath - 1))) := by
  have whole : cutLastSlash (slash :: rest) = some (slash :: dirPath, file) := by
    rw [cutLastSlash, cut]
  have split : ∀ state : FileSystem, state.splitPath (slash :: rest) = (do
      let dirPath ← copyPath (slash :: dirPath)
      let filename ← copyPath file
      return (if dirPath = [] then [slash] else dirPath, filename)) := by
    intro state
    rw [splitPath, whole]
  rw [inDirectory, inDirectory, split, split]
  cases copied : copyPath (slash :: dirPath) with
  | error fault => simp only [Run.error_bind, Except.map]
  | ok copy =>
    obtain ⟨rfl, -⟩ := copyPath_eq_ok.mp copied
    cases copied' : copyPath file with
    | error fault => simp only [Run.ok_bind, Run.error_bind, Except.map]
    | ok filename =>
      simp only [Run.ok_bind, Run.pure_eq, List.cons_ne_nil, if_false,
        enterDirectory_movedTo fs here path dirName nonempty]
      cases fs.enterDirectory (slash :: dirPath) with
      | error fault => rfl
      | ok entered =>
        cases entered with
        | none => rfl
        | some entered =>
          simp only [Run.ok_bind]
          cases work entered filename with
          | error fault => rfl
          | ok result => rfl

/-- A file is read alike. -/
theorem readFileByPath_movedTo {rest dirPath file : Name}
    (cut : cutLastSlash rest = some (dirPath, file)) (nonempty : dirPath ≠ []) (buffer : Buffer)
    (bufferSize : Nat) :
    (fs.movedTo here path dirName).readFileByPath (slash :: rest) buffer bufferSize =
      (fs.readFileByPath (slash :: rest) buffer bufferSize).map
        (movedResult here (path.take (maxPath - 1)) (dirName.take (maxPath - 1))) :=
  fs.inDirectory_movedTo here path dirName cut nonempty _ _

/-- Removing an entry with a given parent is the same. -/
theorem removeEntry_movedTo {rest : Name} (cluster : Nat)
    (anchored : PathOperation.ParentFromRoot rest) :
    (fs.movedTo here path dirName).removeEntry (slash :: rest) cluster =
      (fs.removeEntry (slash :: rest) cluster).map (movedResult here path dirName) := by
  rw [removeEntry, removeEntry, fs.parentOf_movedTo here path dirName anchored]
  cases fs.parentOf (slash :: rest) with
  | error fault => rfl
  | ok answer =>
    cases answer with
    | none => rfl
    | some place =>
      obtain ⟨directory, name⟩ := place
      simp only [Run.ok_bind, markChain_movedTo]
      cases fs.markChain name walkSteps directory with
      | error fault => rfl
      | ok marked =>
        obtain ⟨told, after⟩ := marked
        cases told with
        | false => rfl
        | true =>
          simp only [Except.map, movedResult, Run.ok_bind, Bool.not_true, Bool.false_eq_true, if_false,
            freeChain_movedTo]
          cases after.freeChain walkSteps cluster with
          | error fault => rfl
          | ok freed => rfl

end Moved

section Outcomes

variable (fs : FileSystem) (here : Nat) (path dirName : Name)

/-- Whether a directory is empty does not depend on the current one. -/
theorem isDirectoryEmpty_movedTo (cluster : Nat) :
    (fs.movedTo here path dirName).isDirectoryEmpty cluster = fs.isDirectoryEmpty cluster := by
  have slots : (fs.movedTo here path dirName).slotsPerSector = fs.slotsPerSector := rfl
  have sectors : (fs.movedTo here path dirName).bpb.sectorsPerCluster = fs.bpb.sectorsPerCluster := rfl
  have first : ∀ other, (fs.movedTo here path dirName).clusterSector other = fs.clusterSector other :=
    fun _ => rfl
  have table : ∀ other, (fs.movedTo here path dirName).readFatEntry other = fs.readFatEntry other :=
    fun _ => rfl
  rw [isDirectoryEmpty, isDirectoryEmpty, slots]
  exact scanChain_congr sectors first table walkSteps fun _ _ _ sector _ =>
    show (fs.movedTo here path dirName).readSector sector = fs.readSector sector from rfl

variable {rest : Name}
  (anchored : PathOperation.ParentFromRoot rest)

include anchored

/-- A file is deleted alike. -/
theorem deleteFile_movedTo : (fs.movedTo here path dirName).deleteFile (slash :: rest) =
    (fs.deleteFile (slash :: rest)).map (movedResult here path dirName) := by
  rw [deleteFile, deleteFile, findFile_movedTo]
  cases fs.findFile (slash :: rest) with
  | error fault => rfl
  | ok answer =>
    cases answer with
    | none => rfl
    | some found =>
      simp only [Run.ok_bind]
      cases isDirectory found.attributes with
      | true => rfl
      | false =>
        simp only [Bool.false_eq_true, if_false]
        exact fs.removeEntry_movedTo here path dirName found.cluster anchored

/-- So is a directory. -/
theorem deleteDirectory_movedTo : (fs.movedTo here path dirName).deleteDirectory (slash :: rest) =
    (fs.deleteDirectory (slash :: rest)).map (movedResult here path dirName) := by
  rw [deleteDirectory, deleteDirectory, findFile_movedTo]
  cases fs.findFile (slash :: rest) with
  | error fault => rfl
  | ok answer =>
    cases answer with
    | none => rfl
    | some found =>
      simp only [Run.ok_bind, isDirectoryEmpty_movedTo]
      cases isDirectory found.attributes with
      | false => rfl
      | true =>
        simp only [Bool.not_true, Bool.false_eq_true, if_false]
        cases fs.isDirectoryEmpty found.cluster with
        | error fault => rfl
        | ok empty =>
          cases empty with
          | false => rfl
          | true => exact fs.removeEntry_movedTo here path dirName found.cluster anchored

/-- A size is recorded alike. -/
theorem updateFileSize_movedTo (newSize : Nat) :
    (fs.movedTo here path dirName).updateFileSize (slash :: rest) newSize =
      (fs.updateFileSize (slash :: rest) newSize).map (movedResult here path dirName) := by
  rw [updateFileSize, updateFileSize, fs.parentOf_movedTo here path dirName anchored]
  cases fs.parentOf (slash :: rest) with
  | error fault => rfl
  | ok answer =>
    cases answer with
    | none => rfl
    | some place => exact fs.editEntry_movedTo here path dirName _ _ _

/-- An entry is renamed alike, if the new name leads to the same target. -/
theorem renameFile_movedTo {newName : Name}
    (target : validateFileName newName = true → ∀ name,
      (fs.movedTo here path dirName).renameTarget name newName = fs.renameTarget name newName) :
    (fs.movedTo here path dirName).renameFile (slash :: rest) newName =
      (fs.renameFile (slash :: rest) newName).map (movedResult here path dirName) := by
  rw [renameFile, renameFile, findFile_movedTo, fs.parentOf_movedTo here path dirName anchored]
  cases accepted : validateFileName newName with
  | false => rfl
  | true =>
    simp only [Bool.not_true, Bool.false_eq_true, if_false, target accepted]
    cases fs.findFile (slash :: rest) with
    | error fault => rfl
    | ok answer =>
      cases answer with
      | none => rfl
      | some source =>
        simp only [Run.ok_bind]
        cases fs.parentOf (slash :: rest) with
        | error fault => rfl
        | ok answer =>
          cases answer with
          | none => rfl
          | some place =>
            obtain ⟨directory, name⟩ := place
            simp only [Run.ok_bind]
            cases fs.renameTarget name newName with
            | error fault => rfl
            | ok answer =>
              cases answer with
              | none => rfl
              | some place =>
                obtain ⟨destination, name'⟩ := place
                simp only [Run.ok_bind, writeDirectoryEntry_movedTo]
                by_cases still : directory = destination ∧ name = name'
                · rw [if_pos still, if_pos still]
                  rfl
                · rw [if_neg still, if_neg still]
                  by_cases inside : directory = destination
                  · rw [if_pos inside, if_pos inside]
                    exact fs.editEntry_movedTo here path dirName _ _ _
                  · rw [if_neg inside, if_neg inside]
                    -- The entry is written first, and then the old one marked.
                    cases fs.writeDirectoryEntry destination name' source.attributes source.cluster
                        source.size with
                    | error fault => rfl
                    | ok written =>
                      obtain ⟨told, after⟩ := written
                      cases told with
                      | false => rfl
                      | true => exact after.editEntry_movedTo here path dirName _ _ _

end Outcomes

end FileSystem

namespace PathOperation

/-- Another current directory leaves the outcome as it is. -/
theorem outcome_of_moved {operation : PathOperation} {fs other : FileSystem} {path : Name}
    {given : Arguments} (here : Nat) (path' dirName : Name)
    (moved : operation.perform other path given =
      (operation.perform fs path given).map (FileSystem.movedResult here path' dirName)) :
    operation.outcome other path given = operation.outcome fs path given := by
  rw [outcome, outcome, moved]
  cases operation.perform fs path given with
  | error fault => rfl
  | ok result => rfl

/-- Changing the answer's form commutes with changing the current directory. -/
theorem map_unread {run run' : Run (Bool × FileSystem)} (here : Nat) (path dirName : Name)
    (data : Buffer) (moved : run' = run.map (FileSystem.movedResult here path dirName)) :
    (run'.map fun result => ((result.1, data), result.2)) =
      (run.map fun result => ((result.1, data), result.2)).map
        (FileSystem.movedResult here path dirName) := by
  rw [moved]
  cases run with
  | error fault => rfl
  | ok result => rfl

end PathOperation

namespace FileSystem

/-- A root directory with a file f and a directory d, in which there is a file x. -/
def branches : Buffer :=
  withLink 2 endMark <| withLink 3 endMark <| withLink 4 endMark <| withLink 5 endMark <|
    withEntry 2 0 [0x64] 0x10 3 <| withEntry 2 1 [0x66] 0x20 4 <| withEntry 3 0 [0x78] 0x20 5
      fun _ => 0

/-- Its directories are the root and d. -/
theorem branches_named : (smallVolume branches 2).NamedDirectory 2 ∧
    (smallVolume branches 2).NamedDirectory 3 :=
  ⟨⟨[], .directory 2, by decide +kernel, by decide, rfl⟩,
    ⟨[0x64], ⟨3, 0, 0x10, some (2, 0)⟩, by decide +kernel, by decide, rfl⟩⟩

end FileSystem

namespace PathOperation

open FileSystem

end PathOperation

end Pocky
