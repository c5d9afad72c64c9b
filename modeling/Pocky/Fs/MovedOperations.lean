import Pocky.Fs.ExposedBytes

/-! Operations given their directory do the same whatever the current directory is. -/

namespace Pocky

namespace FileSystem

section Moved

variable (fs : FileSystem) (here : Nat) (path dirName : Name)

/-- A result with another current directory. -/
def movedResult {α : Type} (result : α × FileSystem) : α × FileSystem :=
  (result.1, result.2.movedTo here path dirName)

/-- A sector is written alike. -/
theorem writeSector_movedTo (sector : Nat) (data : Buffer) :
    (fs.movedTo here path dirName).writeSector sector data =
      movedResult here path dirName (fs.writeSector sector data) := by
  have size : (fs.movedTo here path dirName).bpb = fs.bpb := rfl
  rw [writeSector, writeSector, size, diskWrite, diskWrite]
  by_cases empty : fs.bpb.bytesPerSector = 0
  · rw [if_pos empty, if_pos empty]
    rfl
  · rw [if_neg empty, if_neg empty]
    rfl

/-- So are the copies of a sector of the table. -/
theorem writeCopies_movedTo (sector : Nat) (data : Buffer) (remaining copy : Nat) :
    (fs.movedTo here path dirName).writeCopies sector data remaining copy =
      movedResult here path dirName (fs.writeCopies sector data remaining copy) := by
  -- By induction on the copies that are left.
  induction remaining generalizing fs copy with
  | zero => rfl
  | succ remaining ih =>
    have size : (fs.movedTo here path dirName).bpb = fs.bpb := rfl
    rw [writeCopies, writeCopies, writeSector_movedTo, size]
    cases fs.writeSector ((sector + copy * fs.bpb.tableSize32) % 2 ^ 32) data with
    | mk told after =>
      cases told with
      | false => rfl
      | true => exact ih after (copy + 1)

/-- An entry of the table is changed alike. -/
theorem updateFatEntry_movedTo (cluster value : Nat) :
    (fs.movedTo here path dirName).updateFatEntry cluster value =
      movedResult here path dirName (fs.updateFatEntry cluster value) := by
  have read : (fs.movedTo here path dirName).readSector ((fs.movedTo here path dirName).fatSector cluster) =
      fs.readSector (fs.fatSector cluster) := rfl
  rw [updateFatEntry, updateFatEntry, read]
  cases fs.readSector (fs.fatSector cluster) with
  | none => rfl
  | some data => exact fs.writeCopies_movedTo here path dirName _ _ _ _

/-- A cluster is given back alike. -/
theorem freeCluster_movedTo (cluster : Nat) :
    (fs.movedTo here path dirName).freeCluster cluster =
      (fs.freeCluster cluster).movedTo here path dirName := by
  have total : (fs.movedTo here path dirName).totalClusters = fs.totalClusters := rfl
  rw [freeCluster, freeCluster, total, updateFatEntry_movedTo]
  by_cases outside : cluster < 2 ∨ fs.totalClusters ≤ cluster
  · rw [if_pos outside, if_pos outside]
  · rw [if_neg outside, if_neg outside]
    rfl

/-- A chain is given back alike. -/
theorem freeChain_movedTo (steps cluster : Nat) :
    (fs.movedTo here path dirName).freeChain steps cluster =
      (fs.freeChain steps cluster).map fun after => after.movedTo here path dirName := by
  -- By induction on the steps.
  induction steps generalizing fs cluster with
  | zero => rfl
  | succ steps ih =>
    have read : (fs.movedTo here path dirName).readFatEntry cluster = fs.readFatEntry cluster := rfl
    simp only [freeChain, read, freeCluster_movedTo, ih]
    split
    · rfl
    · split
      · rfl
      · split
        · rfl
        · rfl

/-- A name is marked alike in the sectors of a cluster. -/
theorem markSectors_movedTo (name : Name) (sector remaining index : Nat) :
    (fs.movedTo here path dirName).markSectors name sector remaining index =
      movedResult here path dirName (fs.markSectors name sector remaining index) := by
  -- By induction on the sectors that are left.
  induction remaining generalizing fs index with
  | zero => rfl
  | succ remaining ih =>
    have read : (fs.movedTo here path dirName).readSector ((sector + index) % 2 ^ 32) =
        fs.readSector ((sector + index) % 2 ^ 32) := rfl
    have slots : (fs.movedTo here path dirName).slotsPerSector = fs.slotsPerSector := rfl
    rw [markSectors, markSectors, read, slots]
    cases fs.readSector ((sector + index) % 2 ^ 32) with
    | none => rfl
    | some data =>
      dsimp only
      cases findName data name fs.slotsPerSector 0 with
      | none => exact ih fs (index + 1)
      | some offset =>
        dsimp only
        rw [writeSector_movedTo]
        cases fs.writeSector ((sector + index) % 2 ^ 32) (Function.update data offset 0xE5) with
        | mk told after =>
          cases told with
          | false => rfl
          | true => exact ih after (index + 1)

/-- So it is in those of a chain. -/
theorem markChain_movedTo (name : Name) (steps cluster : Nat) :
    (fs.movedTo here path dirName).markChain name steps cluster =
      (fs.markChain name steps cluster).map (movedResult here path dirName) := by
  -- By induction on the steps.
  induction steps generalizing fs cluster with
  | zero => rfl
  | succ steps ih =>
    have first : (fs.movedTo here path dirName).clusterSector cluster = fs.clusterSector cluster := rfl
    have sectors : (fs.movedTo here path dirName).bpb = fs.bpb := rfl
    rw [markChain, markChain, first, sectors, markSectors_movedTo]
    cases fs.markSectors name (fs.clusterSector cluster) fs.bpb.sectorsPerCluster 0 with
    | mk told after =>
      cases told with
      | false => rfl
      | true =>
        have read : (after.movedTo here path dirName).readFatEntry cluster = after.readFatEntry cluster :=
          rfl
        simp only [movedResult, read]
        split
        · rfl
        · split
          · rfl
          · exact ih after (after.readFatEntry cluster)

/-- A free slot is looked for alike. -/
theorem findFreeDirectoryEntry_movedTo (cluster : Nat) :
    (fs.movedTo here path dirName).findFreeDirectoryEntry cluster = fs.findFreeDirectoryEntry cluster := by
  have slots : (fs.movedTo here path dirName).slotsPerSector = fs.slotsPerSector := rfl
  have sectors : (fs.movedTo here path dirName).bpb.sectorsPerCluster = fs.bpb.sectorsPerCluster := rfl
  have first : ∀ other, (fs.movedTo here path dirName).clusterSector other = fs.clusterSector other :=
    fun _ => rfl
  have table : ∀ other, (fs.movedTo here path dirName).readFatEntry other = fs.readFatEntry other :=
    fun _ => rfl
  rw [findFreeDirectoryEntry, findFreeDirectoryEntry, slots]
  exact scanChain_congr sectors first table walkSteps fun _ _ _ sector _ =>
    show (fs.movedTo here path dirName).readSector sector = fs.readSector sector from rfl

/-- An entry is written alike. -/
theorem writeDirectoryEntry_movedTo (cluster : Nat) (name : Name) (attributes : UInt8)
    (fileCluster fileSize : Nat) :
    (fs.movedTo here path dirName).writeDirectoryEntry cluster name attributes fileCluster fileSize =
      (fs.writeDirectoryEntry cluster name attributes fileCluster fileSize).map
        (movedResult here path dirName) := by
  rw [writeDirectoryEntry, writeDirectoryEntry, findFreeDirectoryEntry_movedTo]
  cases fs.findFreeDirectoryEntry cluster with
  | error fault => rfl
  | ok answer =>
    cases answer with
    | none => rfl
    | some entryIndex =>
      have first : (fs.movedTo here path dirName).clusterSector cluster = fs.clusterSector cluster := rfl
      have read : (fs.movedTo here path dirName).readSector (fs.clusterSector cluster) =
          fs.readSector (fs.clusterSector cluster) := rfl
      simp only [Run.ok_bind, first, read]
      cases fs.readSector (fs.clusterSector cluster) with
      | none => rfl
      | some data => simp only [writeSector_movedTo, Run.pure_eq, Except.map]

/-- An entry is edited alike. -/
theorem editEntry_movedTo (directory : Nat) (name : Name) (edit : Buffer → Nat → Run Buffer) :
    (fs.movedTo here path dirName).editEntry directory name edit =
      (fs.editEntry directory name edit).map (movedResult here path dirName) := by
  rw [editEntry, editEntry, findFileInDirectory_movedTo]
  cases fs.findFileInDirectory directory name with
  | error fault => rfl
  | ok answer =>
    rcases answer with _ | ⟨cluster, size, attributes, slot⟩
    · rfl
    rcases slot with _ | ⟨sector, offset⟩
    · rfl
    have read : (fs.movedTo here path dirName).readSector sector = fs.readSector sector := rfl
    simp only [Run.ok_bind, read]
    cases fs.readSector sector with
    | none => rfl
    | some data =>
      cases edited : edit data offset with
      | error fault => simp only [edited, Run.error_bind, Except.map]
      | ok data' => simp only [edited, writeSector_movedTo, Run.ok_bind, Run.pure_eq, Except.map]

end Moved

end FileSystem

end Pocky
