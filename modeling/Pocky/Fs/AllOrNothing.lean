import Pocky.Fs.CreationLaws
import Pocky.Fs.DeleteFile

/-! Which creations that fail leave the directories and the table as they were. -/

namespace Pocky

namespace FileSystem

/-- The directories have the slots they had, and the table the entries. -/
structure KeepsTree (fs after : FileSystem) (directory : Nat → Prop) : Prop where
  /-- No byte of a directory has changed. -/
  slots : ∀ cluster clusters, directory cluster → fs.Chain cluster clusters →
    ∀ sector ∈ fs.directorySectors clusters, after.block sector = fs.block sector
  /-- No entry of the table has changed. -/
  table : ∀ cluster < fs.totalClusters, after.readFatEntry cluster = fs.readFatEntry cluster

/-- If a call returns false, it has changed neither a directory nor the table. -/
def AllOrNothing (fs : FileSystem) (directory : Nat → Prop) (call : Run (Bool × FileSystem)) : Prop :=
  ∀ after, call = .ok (false, after) → fs.KeepsTree after directory

/-- A name that fits in a slot, or one that is entered without taking the last free slots. -/
def LeavesSlot (fs : FileSystem) (name : Name) (clusters : List Nat) : Prop :=
  validateFileName name = true → 11 < name.length → fs.freeClusters.Nonempty →
    ¬ fs.LongNameFills name clusters

section Entries

variable {fs : FileSystem} {directory : Nat → Prop} {clusters : List Nat} {name : Name}

/-- A state with the same table and the same data area has the same directories. -/
theorem Unchanged.keepsTree {after : FileSystem} (layout : fs.Layout) (reliable : fs.Reliable)
    (kept : fs.Unchanged after) : fs.KeepsTree after directory := by
  have layout' := layout.same kept.same
  refine ⟨?_, ?_⟩
  · intro cluster clusters _ chain sector member
    exact kept.data sector (chain.directorySectors_high layout sector member)
  · intro cluster small
    rw [readFatEntry_eq layout'.sector (reliable.same kept.same),
      readFatEntry_eq layout.sector reliable, kept.table cluster small]

/-- A directory whose free slots were all taken has changed. -/
theorem not_keepsTree_of_full {after : FileSystem}
    (chain : fs.Chain fs.currentDirectoryCluster clusters)
    (current : directory fs.currentDirectoryCluster) (same : SameVolume fs after)
    (room : fs.HasFreeSlot clusters) (full : ¬ after.HasFreeSlot clusters) :
    ¬ fs.KeepsTree after directory := by
  intro keeps
  obtain ⟨sector, member, slot, small, free⟩ := room
  -- The slot that was free would still be.
  refine full ⟨sector, ?_, slot, small, ?_⟩
  · rw [same.directorySectors]
    exact member
  · rw [keeps.slots _ clusters current chain sector member]
    exact free

/-- Without a free slot no long name takes one. -/
theorem LongNameFills.hasFreeSlot (layout : fs.Layout) (reliable : fs.Reliable)
    (links : fs.Links fs.currentDirectoryCluster clusters) (fills : fs.LongNameFills name clusters) :
    fs.HasFreeSlot clusters := by
  obtain ⟨last, found, -⟩ := fills
  rcases links.findFreeDirectoryEntry_cases layout reliable with ⟨none, -⟩ | ⟨-, -, -, room⟩
  · rw [none] at found
    cases found
  · exact room

/-- An entry whose creation failed has left everything as it was just when its name has left a slot. -/
theorem CreationOutcome.keepsTree_iff {attributes : UInt8} {after : FileSystem} (layout : fs.Layout)
    (reliable : fs.Reliable) (tree : fs.WellFormed directory)
    (links : fs.Links fs.currentDirectoryCluster clusters)
    (valid : validateFileName name = true)
    {created : Option (Nat × Nat)}
    (outcome : CreationOutcome fs clusters name attributes created after) :
    (created = none → fs.KeepsTree after directory) ↔ fs.LeavesSlot name clusters := by
  have chain := links.chain layout reliable
  cases outcome with
  | refused _ reason kept =>
    refine ⟨fun _ _ long given fills => ?_, fun _ _ => kept.keepsTree layout reliable⟩
    -- Nothing had stood in the way of a long name that takes the last slots.
    rcases reason with ⟨found, looked⟩ | none | full
    · rw [findFileInDirectory_long layout chain long] at looked
      cases looked
    · rw [none] at given
      exact Finset.not_nonempty_empty given
    · exact full (fills.hasFreeSlot layout reliable links)
  | filled _ long given room fills same full =>
    constructor
    · intro keeps
      exact absurd (keeps rfl) (not_keepsTree_of_full chain tree.current same room full)
    · intro leaves
      exact absurd fills (leaves valid long given)
  | entered _ cluster _ _ _ _ _ spared _ _ _ =>
    refine ⟨fun _ _ long _ => spared long, fun _ wrong => ?_⟩
    cases wrong

/-- A name that is not accepted changes nothing. -/
theorem createEntry_of_invalid (invalid : validateFileName name ≠ true) (attributes : UInt8) :
    fs.createEntry name attributes = .ok (none, fs) := by
  rw [createEntry, if_pos (by simpa using invalid)]

variable (layout : fs.Layout) (reliable : fs.Reliable)
  (room : fs.firstDataSector + fs.totalClusters * fs.bpb.sectorsPerCluster + 20 ≤ 2 ^ 32)
  (tree : fs.WellFormed directory) (links : fs.Links fs.currentDirectoryCluster clusters)
include layout reliable room tree links

/-- A file is created wholly or not at all, unless its long name takes the last free slots. -/
theorem createFile_keepsTree_iff (name : Name) (attributes : UInt8) :
    fs.AllOrNothing directory (fs.createFile name attributes) ↔ fs.LeavesSlot name clusters := by
  by_cases valid : validateFileName name = true
  · obtain ⟨created, after, returned, outcome⟩ :=
      createEntry_cases layout reliable room links valid attributes
    rw [← outcome.keepsTree_iff layout reliable tree links valid, AllOrNothing, createFile, returned]
    simp only [Run.ok_bind, Run.pure_eq]
    constructor
    · rintro keeps rfl
      exact keeps after rfl
    · intro keeps last told
      cases created with
      | some _ => cases told
      | none =>
        cases told
        exact keeps rfl
  · rw [AllOrNothing, createFile, createEntry_of_invalid valid]
    refine ⟨fun _ accepted => absurd accepted valid, fun _ after told => ?_⟩
    cases told
    exact (Unchanged.refl fs).keepsTree layout reliable

/-- A directory is created wholly or not at all, unless its long name takes the last free slots. -/
theorem createDirectory_keepsTree_iff (name : Name) :
    fs.AllOrNothing directory (fs.createDirectory name) ↔ fs.LeavesSlot name clusters := by
  by_cases valid : validateFileName name = true
  · obtain ⟨created, after, returned, outcome⟩ :=
      createEntry_cases layout reliable room links valid 0x10
    rw [← outcome.keepsTree_iff layout reliable tree links valid, AllOrNothing, createDirectory,
      returned]
    simp only [Run.ok_bind, Run.pure_eq]
    cases created with
    | none =>
      constructor
      · rintro keeps -
        exact keeps after rfl
      · intro keeps last told
        cases told
        exact keeps rfl
    | some place =>
      -- The dot entries are written by a device that refuses nothing.
      have same : SameVolume fs after := by
        cases outcome with
        | entered _ _ _ _ _ _ _ _ same _ _ => exact same
      refine ⟨fun _ wrong => (Option.some_ne_none _ wrong).elim, fun _ last told => ?_⟩
      dsimp only at told
      rw [writeSector_eq (layout.same same).sector (reliable.same same)] at told
      cases told
  · rw [AllOrNothing, createDirectory, createEntry_of_invalid valid]
    refine ⟨fun _ accepted => absurd accepted valid, fun _ after told => ?_⟩
    cases told
    exact (Unchanged.refl fs).keepsTree layout reliable

end Entries

/-- The first free cluster. -/
def FirstFree (fs : FileSystem) (cluster : Nat) : Prop :=
  fs.InVolume cluster ∧ fs.fatEntry cluster = 0 ∧
    ∀ other, 2 ≤ other → other < cluster → fs.fatEntry other ≠ 0

/-- A new file with contents will be found again under its name, with room for the contents. -/
structure StoresContent (fs : FileSystem) (name : Name) (dataSize : Nat) (attributes : UInt8) : Prop where
  /-- The name fits in a slot, -/
  short : name.length ≤ 11
  /-- and is read back from it. -/
  named : SlotNames (entryBytes (shortName name) attributes 0 0) name 0
  /-- The slot can hold the number of the cluster. -/
  numbered : ∀ cluster, fs.FirstFree cluster → cluster < 65536
  /-- The contents fit in the free clusters. -/
  room : fs.clustersFor dataSize ≤ fs.freeClusters.card

section Contents

variable {fs after : FileSystem} {clusters : List Nat} {name : Name} {attributes : UInt8}
  {cluster slot : Nat}

/-- Taking a cluster leaves one free cluster less. -/
theorem card_freeClusters_take (valid : fs.InVolume cluster) (free : fs.fatEntry cluster = 0)
    (same : SameVolume fs after) (table : ∀ other < fs.totalClusters,
      after.fatEntry other = Function.update fs.fatEntry cluster endMark other) :
    after.freeClusters.card + 1 = fs.freeClusters.card := by
  have total : after.totalClusters = fs.totalClusters := by rw [same.fields]
  have member : cluster ∈ fs.freeClusters := by
    simp only [freeClusters, Finset.mem_filter, Finset.mem_range]
    exact ⟨valid.2, valid.1, free⟩
  have erased : after.freeClusters = fs.freeClusters.erase cluster := by
    ext other
    simp only [freeClusters, Finset.mem_filter, Finset.mem_range, Finset.mem_erase, total]
    have mark : endMark ≠ 0 := by decide
    by_cases inside : other < fs.totalClusters
    · rw [table other inside]
      by_cases equal : other = cluster
      · rw [equal, Function.update_self]
        omega
      · rw [Function.update_of_ne equal]
        tauto
    · tauto
  rw [erased, Finset.card_erase_add_one member]

/-- Whether an entry is found under its name does not depend on its cluster. -/
theorem slotNames_entryBytes {data : Buffer} {size : Nat}
    (bytes : ∀ byte < slotSize, data (slotSize * slot + byte) =
      entryBytes (shortName name) attributes cluster size byte) :
    SlotNames data name (slotSize * slot) ↔
      SlotNames (entryBytes (shortName name) attributes 0 0) name 0 := by
  -- The first twelve bytes are the same.
  have early : ∀ byte < 12, data (slotSize * slot + byte) =
      entryBytes (shortName name) attributes 0 0 (0 + byte) := by
    intro byte small
    rw [bytes byte (by simp only [slotSize]; omega), Nat.zero_add]
    simp only [entryBytes]
    by_cases inName : byte < 11
    · rw [if_pos inName, if_pos inName]
    · rw [if_neg inName, if_neg inName, if_pos (by omega), if_pos (by omega)]
  have first := early 0 (by decide)
  have kind := early 11 (by decide)
  have named : entryName data (slotSize * slot) =
      entryName (entryBytes (shortName name) attributes 0 0) 0 := by
    have eleven : (List.range 11).map (fun index => data (slotSize * slot + index)) =
        (List.range 11).map fun index => entryBytes (shortName name) attributes 0 0 (0 + index) :=
      List.map_congr_left fun index member =>
        early index (Nat.lt_trans (List.mem_range.mp member) (by decide))
    rw [entryName, eleven, entryName]
  rw [Nat.add_zero] at first
  rw [SlotNames, SlotNames, first, entryAttributes, kind, named]
  rfl

/-- A state in which the entry of a new file has been put into a slot of the current directory. -/
structure Entered (fs after : FileSystem) (clusters : List Nat) (name : Name) (attributes : UInt8)
    (cluster slot : Nat) : Prop where
  /-- Only the disk has changed. -/
  same : SameVolume fs after
  /-- The cluster of the file was free, -/
  free : fs.FirstFree cluster
  /-- and its entry is now the only one that has changed. -/
  table : ∀ other < fs.totalClusters,
    after.fatEntry other = Function.update fs.fatEntry cluster endMark other
  /-- The slots in front of the one filled are in use. -/
  live : ∀ earlier < slot, freeByte (fs.block (fs.clusterSector fs.currentDirectoryCluster)
    (slotSize * earlier)) = false
  /-- It is a slot. -/
  small : slot < 16
  /-- No other byte of the data area has changed. -/
  blocks : ∀ sector, fs.firstDataSector ≤ sector → after.block sector =
    if sector = fs.clusterSector fs.currentDirectoryCluster then
      putBytes (fs.block sector) (slotSize * slot) slotSize
        (entryBytes (shortName name) attributes cluster 0)
    else fs.block sector
  /-- The name was not there before. -/
  absent : ∀ sector ∈ fs.directorySectors clusters, findName (fs.block sector) name 16 0 = none

/-- The directory is the chain it was. -/
theorem Entered.links (entered : fs.Entered after clusters name attributes cluster slot)
    (links : fs.Links fs.currentDirectoryCluster clusters) :
    after.Links fs.currentDirectoryCluster clusters := by
  refine entered.same.links links fun other member => ?_
  rw [entered.table other (links.valid other member).2, Function.update_of_ne]
  rintro rfl
  exact fatEntry_ne_zero links.linked links.valid member entered.free.2.1

/-- The new file is a chain of one cluster. -/
theorem Entered.file (entered : fs.Entered after clusters name attributes cluster slot) :
    after.Links cluster [cluster] := by
  have valid := entered.free.1
  have last : after.fatEntry cluster = endMark := by
    rw [entered.table cluster valid.2, Function.update_self]
  refine ⟨Nat.le_of_eq last.symm, rfl, List.nodup_singleton _, ?_⟩
  intro other member
  rw [List.mem_singleton.mp member]
  exact entered.same.inVolume.mpr valid

/-- The slot holds the bytes of the entry. -/
theorem Entered.bytes (layout : fs.Layout)
    (entered : fs.Entered after clusters name attributes cluster slot)
    (links : fs.Links fs.currentDirectoryCluster clusters) :
    (∀ byte < slotSize, after.block (fs.clusterSector fs.currentDirectoryCluster)
      (slotSize * slot + byte) = entryBytes (shortName name) attributes cluster 0 byte) ∧
    ChangesSlot slot (fs.block (fs.clusterSector fs.currentDirectoryCluster))
      (after.block (fs.clusterSector fs.currentDirectoryCluster)) := by
  rw [entered.blocks _ (links.high layout (links.first_mem layout)), if_pos rfl]
  refine ⟨fun byte inside => putBytes_add _ _ _ inside, ?_⟩
  have change := changesSlot_putBytes slot 0 slotSize
    (fs.block (fs.clusterSector fs.currentDirectoryCluster))
    (entryBytes (shortName name) attributes cluster 0) (by simp)
  rwa [Nat.add_zero] at change

/-- A new entry that is read back under its name is found. -/
theorem Entered.found (layout : fs.Layout) (reliable : fs.Reliable)
    (entered : fs.Entered after clusters name attributes cluster slot)
    (links : fs.Links fs.currentDirectoryCluster clusters) (few : cluster < 65536)
    (named : SlotNames (entryBytes (shortName name) attributes 0 0) name 0) :
    ∃ found, after.findFileInDirectory fs.currentDirectoryCluster name = .ok (some found) ∧
      found.cluster = cluster ∧
      found.slot = some (fs.clusterSector fs.currentDirectoryCluster, slotSize * slot) := by
  obtain ⟨bytes, change⟩ := entered.bytes layout links
  have place := entered.same.clusterSector fs.currentDirectoryCluster
  have hit := findName_replaced entered.small change entered.live
    (entered.absent _ (links.first_mem layout)) ((slotNames_entryBytes bytes).mpr named)
  rw [← place] at hit bytes
  refine ⟨_, findFileInDirectory_first (layout.same entered.same) (reliable.same entered.same) hit,
    ?_, by rw [place]⟩
  show entryCluster _ _ = cluster
  rw [entryCluster, halfAt_byteOf (bytes 26 (by decide)) (bytes 27 (by decide)),
    Nat.mod_eq_of_lt few]

/-- A new entry that is not read back under its name is lost. -/
theorem Entered.lost (layout : fs.Layout) (reliable : fs.Reliable)
    (entered : fs.Entered after clusters name attributes cluster slot)
    (links : fs.Links fs.currentDirectoryCluster clusters)
    (covered : fs.block (fs.clusterSector fs.currentDirectoryCluster) (slotSize * slot) = 0x00 →
      ∀ later < 16, slot < later → freeByte (fs.block (fs.clusterSector fs.currentDirectoryCluster)
        (slotSize * later)) = true)
    (other : ¬ SlotNames (entryBytes (shortName name) attributes 0 0) name 0) :
    after.findFileInDirectory fs.currentDirectoryCluster name = .ok none := by
  obtain ⟨bytes, change⟩ := entered.bytes layout links
  rcases (entered.links links).findFileInDirectory_cases (layout.same entered.same)
    (reliable.same entered.same) name with ⟨none, -⟩ | ⟨sector, member, offset, hit, -⟩
  · exact none
  · -- No sector has the name, neither the one written nor another.
    rw [entered.same.directorySectors] at member
    have nowhere : findName (after.block sector) name 16 0 = none := by
      by_cases here : sector = fs.clusterSector fs.currentDirectoryCluster
      · rw [here]
        exact findName_not_replaced change covered (entered.absent _ (links.first_mem layout))
          (mt (slotNames_entryBytes bytes).mp other)
      · rw [entered.blocks sector (links.high layout member), if_neg here]
        exact entered.absent sector member
    rw [nowhere] at hit
    cases hit

/-- Writing a file that shares no cluster with a directory leaves the directory alone. -/
theorem RewritesFile.directory {start : Nat} {file file' : List Nat} {directory : Nat}
    (layout : fs.Layout) (rewrites : fs.RewritesFile file after start file')
    (links : fs.Links directory clusters) (apart : ∀ cluster ∈ clusters, cluster ∉ file) :
    after.Links directory clusters ∧
      ∀ sector ∈ fs.directorySectors clusters, after.block sector = fs.block sector := by
  have used : ∀ cluster ∈ clusters, fs.fatEntry cluster ≠ 0 := fun cluster member =>
    fatEntry_ne_zero links.linked links.valid member
  constructor
  · exact rewrites.same.links links fun cluster member =>
      rewrites.fat cluster (links.valid cluster member) (apart cluster member) (used cluster member)
  · intro sector member
    obtain ⟨cluster, inside, here⟩ := mem_directorySectors.mp member
    obtain ⟨index, small, rfl⟩ := (layout.mem_clusterSectors (links.valid cluster inside)).mp here
    have kept := rewrites.data cluster (links.valid cluster inside) (apart cluster inside)
      (used cluster inside) index small
    rw [sectorData, rewrites.same.dataSector] at kept
    exact kept

/-- Data that was stored had room. -/
theorem Writes.room {data : Buffer} {dataSize start : Nat} {told : Bool} {file : List Nat}
    (writes : fs.Writes data dataSize [start] start told after file) :
    told = true ↔ fs.clustersFor dataSize ≤ 1 + fs.freeClusters.card := by
  cases told with
  | false =>
    have little := writes.failed rfl
    rw [List.length_singleton] at little
    simp only [Bool.false_eq_true, false_iff]
    omega
  | true =>
    refine ⟨fun _ => ?_, fun _ => rfl⟩
    obtain ⟨length, -⟩ := writes.exact' rfl (by rw [List.length_singleton]; omega)
    -- The new chain consists of the old cluster and of clusters that were free.
    have fresh : file.toFinset ⊆ insert start fs.freeClusters := by
      intro cluster member
      have inside := List.mem_toFinset.mp member
      rw [Finset.mem_insert]
      rcases writes.rewrites.fresh cluster inside with old | free
      · exact Or.inl (List.mem_singleton.mp old)
      · right
        have valid := writes.rewrites.same.inVolume.mp (writes.rewrites.links.valid cluster inside)
        simp only [freeClusters, Finset.mem_filter, Finset.mem_range]
        exact ⟨valid.2, valid.1, free⟩
    have count := (Finset.card_le_card fresh).trans (Finset.card_insert_le _ _)
    rw [List.toFinset_card_of_nodup writes.rewrites.links.nodup, length] at count
    omega

/-- Storing the contents of a new file succeeds just when the name is read back and there is room. -/
theorem Entered.storeFile (layout : fs.Layout) (reliable : fs.Reliable)
    (entered : fs.Entered after clusters name attributes cluster slot)
    (links : fs.Links fs.currentDirectoryCluster clusters)
    (valid : validateFileName name = true) (few : cluster < 65536)
    (covered : fs.block (fs.clusterSector fs.currentDirectoryCluster) (slotSize * slot) = 0x00 →
      ∀ later < 16, slot < later → freeByte (fs.block (fs.clusterSector fs.currentDirectoryCluster)
        (slotSize * later)) = true)
    (data : Buffer) (dataSize : Nat) :
    ∃ told last, after.storeFile name data dataSize = .ok (told, last) ∧ SameVolume fs last ∧
      last.fatEntry cluster ≠ 0 ∧
      (told = true ↔ SlotNames (entryBytes (shortName name) attributes 0 0) name 0 ∧
        fs.clustersFor dataSize ≤ fs.freeClusters.card) := by
  have same := entered.same
  have layout' := layout.same same
  have reliable' := reliable.same same
  have current : after.currentDirectoryCluster = fs.currentDirectoryCluster := by rw [same.fields]
  have links' := entered.links links
  have file := entered.file
  have inside := entered.free.1
  rw [FileSystem.storeFile, findFile_of_valid valid, current]
  by_cases named : SlotNames (entryBytes (shortName name) attributes 0 0) name 0
  · obtain ⟨found, looked, start, place⟩ := entered.found layout reliable links few named
    obtain ⟨told, stored, file', returned, writes⟩ :=
      layout'.writeFile_writes reliable' file data dataSize
    have rewrites := writes.rewrites
    have layout'' := layout'.same rewrites.same
    have reliable'' := reliable'.same rewrites.same
    have taken := card_freeClusters_take inside entered.free.2.1 same entered.table
    have enough := writes.room
    rw [same.clustersFor] at enough
    have start_mem : stored.fatEntry cluster ≠ 0 :=
      rewrites.links.used rewrites.links.start_mem
    rw [looked]
    simp only [Run.ok_bind, start, returned]
    cases told with
    | false =>
      refine ⟨false, stored, rfl, same.trans rewrites.same, start_mem, ?_⟩
      simp only [Bool.false_eq_true, false_iff] at enough ⊢
      omega
    | true =>
      -- The directory has not changed, so the name is found again for its size.
      have apart : ∀ other ∈ clusters, other ∉ [cluster] := by
        intro other member equal
        rw [List.mem_singleton.mp equal] at member
        exact fatEntry_ne_zero links.linked links.valid member entered.free.2.1
      obtain ⟨links'', blocks⟩ := rewrites.directory layout' links' apart
      have again := links'.findFileInDirectory_congr layout' reliable' rewrites.same links'' blocks name
      have current' : stored.currentDirectoryCluster = fs.currentDirectoryCluster := by
        rw [rewrites.same.fields]
        exact current
      have slotIs : found = ⟨found.cluster, found.size, found.attributes,
          some (fs.clusterSector fs.currentDirectoryCluster, slotSize * slot)⟩ := by
        rw [← place]
      dsimp only
      rw [updateFileSize, parentOf_of_valid valid, current', Run.ok_bind]
      dsimp only
      rw [editEntry, again, looked, Run.ok_bind, slotIs]
      simp only [readSector_eq layout''.sector reliable'', Run.ok_bind,
        writeSector_eq layout''.sector reliable'', Run.pure_eq]
      have far : stored.firstDataSector ≤ fs.clusterSector fs.currentDirectoryCluster := by
        rw [rewrites.same.fields]
        show after.firstDataSector ≤ _
        rw [same.fields]
        exact links.high layout (links.first_mem layout)
      have inside' : cluster < stored.totalClusters := by
        rw [rewrites.same.fields]
        show cluster < after.totalClusters
        rw [same.fields]
        exact inside.2
      refine ⟨true, _, rfl, (same.trans rewrites.same).trans (stored.store_same _ _), ?_, ?_⟩
      · rw [fatEntry_store layout'' _ far inside']
        exact start_mem
      · simp only [true_iff] at enough ⊢
        exact ⟨named, by omega⟩
  · rw [entered.lost layout reliable links covered named]
    refine ⟨false, after, rfl, same, file.used List.mem_cons_self, ?_⟩
    simp [named]

end Contents

/-- In no sector of a directory a slot in use comes behind an unused one. -/
def Compact (fs : FileSystem) (directory : Nat → Prop) : Prop :=
  ∀ cluster clusters, directory cluster → fs.Chain cluster clusters →
    ∀ sector ∈ fs.directorySectors clusters, ∀ slot later, slot < later → later < 16 →
      fs.block sector (slotSize * slot) = 0x00 →
      freeByte (fs.block sector (slotSize * later)) = true

/-- Creating a file in the current directory and storing its contents. -/
def createContent (fs : FileSystem) (filename : Name) (data : Buffer) (dataSize : Nat)
    (attributes : UInt8) : Run (Bool × FileSystem) := do
  match ← fs.createFile filename attributes with
  | (false, fs) => return (false, fs)
  | (true, fs) => fs.storeFile filename data dataSize

/-- Contents are created in the directory of the path. -/
theorem createFileWithContent_eq (fs : FileSystem) (path : Name) (data : Buffer) (dataSize : Nat)
    (attributes : UInt8) : fs.createFileWithContent path data dataSize attributes =
      fs.inDirectory path false fun fs filename =>
        fs.createContent filename data dataSize attributes := rfl

/-- Either nothing can be created under the name in the current directory, or contents can be stored. -/
def ContentFitsHere (fs : FileSystem) (clusters : List Nat) (name : Name) (dataSize : Nat)
    (attributes : UInt8) : Prop :=
  validateFileName name = true →
    fs.findFileInDirectory fs.currentDirectoryCluster name = .ok none →
    fs.freeClusters.Nonempty → fs.HasFreeSlot clusters → fs.StoresContent name dataSize attributes

section Whole

variable {fs : FileSystem} {directory : Nat → Prop} {clusters : List Nat} {name : Name}

/-- A table in which an entry is no longer zero has changed. -/
theorem not_keepsTree_of_taken {after : FileSystem} {cluster : Nat} (layout : fs.Layout)
    (reliable : fs.Reliable) (same : SameVolume fs after) (free : fs.FirstFree cluster)
    (taken : after.fatEntry cluster ≠ 0) : ¬ fs.KeepsTree after directory := by
  intro keeps
  have kept := keeps.table cluster free.1.2
  rw [readFatEntry_eq layout.sector reliable, free.2.1,
    readFatEntry_eq (layout.same same).sector (reliable.same same)] at kept
  exact taken kept

/-- Storing contents under a name that fits in no slot finds no file. -/
theorem storeFile_long {after : FileSystem} (layout : fs.Layout) (reliable : fs.Reliable)
    (same : SameVolume fs after) (links : after.Links fs.currentDirectoryCluster clusters)
    (valid : validateFileName name = true) (long : 11 < name.length) (data : Buffer)
    (dataSize : Nat) : after.storeFile name data dataSize = .ok (false, after) := by
  have current : after.currentDirectoryCluster = fs.currentDirectoryCluster := by rw [same.fields]
  have chain := links.chain (layout.same same) (reliable.same same)
  rw [FileSystem.storeFile, findFile_of_valid valid, current,
    findFileInDirectory_long (layout.same same) chain long]
  rfl

/-- A file with contents is created wholly or not at all if its contents can be stored. -/
theorem createContent_keepsTree (layout : fs.Layout) (reliable : fs.Reliable)
    (room : fs.firstDataSector + fs.totalClusters * fs.bpb.sectorsPerCluster + 20 ≤ 2 ^ 32)
    (tree : fs.WellFormed directory) (compact : fs.Compact directory)
    (links : fs.Links fs.currentDirectoryCluster clusters) (name : Name) (data : Buffer)
    (dataSize : Nat) (attributes : UInt8) :
    (fs.ContentFitsHere clusters name dataSize attributes →
      fs.AllOrNothing directory (fs.createContent name data dataSize attributes)) ∧
    ((∀ cluster, fs.FirstFree cluster → cluster < 65536) →
      fs.AllOrNothing directory (fs.createContent name data dataSize attributes) →
      fs.ContentFitsHere clusters name dataSize attributes) := by
  by_cases valid : validateFileName name = true
  · obtain ⟨created, after, returned, outcome⟩ :=
      createEntry_cases layout reliable room links valid attributes
    rw [AllOrNothing, createContent, createFile, returned]
    simp only [Run.ok_bind, Run.pure_eq]
    cases outcome with
    | refused _ reason kept =>
      refine ⟨fun _ last told => ?_, fun _ _ _ absent given room' => ?_⟩
      · cases told
        exact kept.keepsTree layout reliable
      · -- There was a reason not to create the file.
        rcases reason with ⟨found, looked⟩ | none | full
        · rw [absent] at looked
          cases looked
        · rw [none] at given
          exact absurd given Finset.not_nonempty_empty
        · exact absurd room' full
    | filled _ long given room' fills same full =>
      have absent := findFileInDirectory_long layout (links.chain layout reliable) long
      constructor
      · intro fits
        have short := (fits valid absent given room').short
        omega
      · intro _ keeps
        exact absurd (keeps after rfl)
          (not_keepsTree_of_full (links.chain layout reliable) tree.current same room' full)
    | entered _ cluster absent inside free first room' spared same table slot =>
      have firstFree : fs.FirstFree cluster := ⟨inside, free, first⟩
      have given : fs.freeClusters.Nonempty := by
        refine ⟨cluster, ?_⟩
        simp only [freeClusters, Finset.mem_filter, Finset.mem_range]
        exact ⟨inside.2, inside.1, free⟩
      dsimp only [Option.isSome]
      by_cases long : 11 < name.length
      · -- Under a long name the file is not found again.
        have links' : after.Links fs.currentDirectoryCluster clusters := by
          refine same.links links fun other member => ?_
          rw [table other (links.valid other member).2, Function.update_of_ne]
          rintro rfl
          exact fatEntry_ne_zero links.linked links.valid member free
        have taken : after.fatEntry cluster ≠ 0 := by
          rw [table cluster inside.2, Function.update_self]
          decide
        rw [storeFile_long layout reliable same links' valid long]
        constructor
        · intro fits
          have short := (fits valid absent given room').short
          omega
        · intro _ keeps
          exact absurd (keeps after rfl)
            (not_keepsTree_of_taken layout reliable same firstFree taken)
      · have short := Nat.le_of_not_lt long
        obtain ⟨slot, small, found, blocks⟩ := slot short
        have nowhere : ∀ sector ∈ fs.directorySectors clusters,
            findName (fs.block sector) name 16 0 = none := by
          rcases links.findFileInDirectory_cases layout reliable name with ⟨-, none⟩ | ⟨_, _, _, _, hit⟩
          · exact none
          · rw [absent] at hit
            cases hit
        have entry : fs.Entered after clusters name attributes cluster slot :=
          ⟨same, firstFree, table, findFreeDirectoryEntry_live layout reliable small found, small,
            blocks, nowhere⟩
        have covered : fs.block (fs.clusterSector fs.currentDirectoryCluster) (slotSize * slot) = 0x00 →
            ∀ later < 16, slot < later → freeByte (fs.block
              (fs.clusterSector fs.currentDirectoryCluster) (slotSize * later)) = true :=
          fun unused later below behind => compact _ clusters tree.current
            (links.chain layout reliable) _ (links.first_mem layout) slot later behind below unused
        constructor
        · intro fits last told
          have stores := fits valid absent given room'
          obtain ⟨answer, last', stored, -, -, success⟩ := entry.storeFile layout reliable links valid
            (stores.numbered cluster firstFree) covered data dataSize
          rw [stored, success.mpr ⟨stores.named, stores.room⟩] at told
          cases told
        · intro few keeps _ _ _ _
          obtain ⟨answer, last', stored, volume, taken, success⟩ := entry.storeFile layout reliable links
            valid (few cluster firstFree) covered data dataSize
          cases answer with
          | false =>
            exact absurd (keeps last' stored)
              (not_keepsTree_of_taken layout reliable volume firstFree taken)
          | true =>
            obtain ⟨named, enough⟩ := success.mp rfl
            exact ⟨short, named, few, enough⟩
  · refine ⟨fun _ after told => ?_, fun _ _ accepted => absurd accepted valid⟩
    rw [createContent, createFile, createEntry_of_invalid valid] at told
    cases told
    exact (Unchanged.refl fs).keepsTree layout reliable

/-- The same volume with another current directory. -/
def movedTo (fs : FileSystem) (cluster : Nat) (path dirName : Name) : FileSystem :=
  { fs with currentDirectoryCluster := cluster, currentPath := path, currentDirName := dirName }

/-- The layout does not depend on the current directory. -/
theorem Layout.movedTo (layout : fs.Layout) (cluster : Nat) (path dirName : Name) :
    (fs.movedTo cluster path dirName).Layout :=
  ⟨layout.sector, layout.cluster, layout.copies, layout.apart, layout.bounded, layout.covered,
    layout.numbered⟩

/-- Any directory of the tree may be the current one. -/
theorem WellFormed.movedTo (tree : fs.WellFormed directory) {cluster : Nat}
    (inside : directory cluster) (path dirName : Name) :
    (fs.movedTo cluster path dirName).WellFormed directory :=
  ⟨tree.root, inside, tree.chained, tree.disjoint, tree.entries⟩

/-- Entering a directory changes nothing but the current directory, to one of the tree. -/
theorem enterDirectory_entered {entered : FileSystem} {dirPath : Name} (layout : fs.Layout)
    (tree : fs.WellFormed directory) (returned : fs.enterDirectory dirPath = .ok (some entered)) :
    ∃ cluster path dirName, directory cluster ∧ entered = fs.movedTo cluster path dirName := by
  rw [enterDirectory] at returned
  split at returned
  · cases returned
    exact ⟨_, _, _, tree.current, rfl⟩
  · obtain ⟨answer, resolved, further⟩ := Run.bind_eq_ok.mp returned
    cases answer with
    | none => cases further
    | some found =>
      dsimp only at further
      cases kind : isDirectory found.attributes with
      | false =>
        rw [kind] at further
        cases further
      | true =>
        simp only [kind, Bool.not_true, Bool.false_eq_true, if_false, Run.pure_eq] at further
        cases further
        exact ⟨_, _, _, tree.findComponents layout (tree.startOf dirPath) resolved kind, rfl⟩

/-- Whether a call has kept the tree does not depend on the current directory. -/
theorem allOrNothing_inDirectory (path : Name)
    (work : FileSystem → Name → Run (Bool × FileSystem)) :
    fs.AllOrNothing directory (fs.inDirectory path false work) ↔
      ∀ dirPath filename entered, fs.splitPath path = .ok (dirPath, filename) →
        fs.enterDirectory dirPath = .ok (some entered) →
        fs.AllOrNothing directory (work entered filename) := by
  -- Only the last of the three steps can change the disk.
  constructor
  · intro whole dirPath filename entered split enter after told
    have kept := whole (after.restoreDirectory fs) (by
      rw [inDirectory, split, Run.ok_bind]
      dsimp only
      rw [enter, Run.ok_bind]
      dsimp only
      rw [told]
      rfl)
    exact ⟨kept.slots, kept.table⟩
  · intro parts after told
    obtain ⟨⟨dirPath, filename⟩, split, further⟩ := Run.bind_eq_ok.mp told
    obtain ⟨answer, enter, further⟩ := Run.bind_eq_ok.mp further
    cases answer with
    | none =>
      cases further
      exact ⟨fun _ _ _ _ _ _ => rfl, fun _ _ => rfl⟩
    | some entered =>
      obtain ⟨⟨answer, last⟩, worked, further⟩ := Run.bind_eq_ok.mp further
      cases further
      have kept := parts dirPath filename entered split enter last worked
      exact ⟨kept.slots, kept.table⟩

/-- Either nothing can be created under a path, or the contents can be stored. -/
def ContentFits (fs : FileSystem) (path : Name) (dataSize : Nat) (attributes : UInt8) : Prop :=
  ∀ dirPath filename entered clusters, fs.splitPath path = .ok (dirPath, filename) →
    fs.enterDirectory dirPath = .ok (some entered) →
    entered.Chain entered.currentDirectoryCluster clusters →
    entered.ContentFitsHere clusters filename dataSize attributes

/--
Which creations are all or nothing.

Files and directories are, unless their long name takes the last free slots.
Files with contents are, if the contents can be stored, and only then if the first free cluster
has a number that an entry can hold.
-/
theorem creation_allOrNothing (layout : fs.Layout) (reliable : fs.Reliable)
    (room : fs.firstDataSector + fs.totalClusters * fs.bpb.sectorsPerCluster + 20 ≤ 2 ^ 32)
    (tree : fs.WellFormed directory) (compact : fs.Compact directory)
    (chain : fs.Chain fs.currentDirectoryCluster clusters) :
    (∀ name attributes, fs.AllOrNothing directory (fs.createFile name attributes) ↔
      fs.LeavesSlot name clusters) ∧
    (∀ name, fs.AllOrNothing directory (fs.createDirectory name) ↔ fs.LeavesSlot name clusters) ∧
    ∀ path data dataSize attributes,
      (fs.ContentFits path dataSize attributes →
        fs.AllOrNothing directory (fs.createFileWithContent path data dataSize attributes)) ∧
      ((∀ cluster, fs.FirstFree cluster → cluster < 65536) →
        fs.AllOrNothing directory (fs.createFileWithContent path data dataSize attributes) →
        fs.ContentFits path dataSize attributes) := by
  have links : fs.Links fs.currentDirectoryCluster clusters := chain.links layout
  refine ⟨createFile_keepsTree_iff layout reliable room tree links,
    createDirectory_keepsTree_iff layout reliable room tree links, ?_⟩
  intro path data dataSize attributes
  rw [createFileWithContent_eq, allOrNothing_inDirectory]
  -- The work is done in a directory of the tree, on the same disk.
  have here : ∀ {dirPath entered}, fs.enterDirectory dirPath = .ok (some entered) → ∀ {others},
      entered.Chain entered.currentDirectoryCluster others → ∀ filename,
      (entered.ContentFitsHere others filename dataSize attributes →
        fs.AllOrNothing directory (entered.createContent filename data dataSize attributes)) ∧
      ((∀ cluster, fs.FirstFree cluster → cluster < 65536) →
        fs.AllOrNothing directory (entered.createContent filename data dataSize attributes) →
        entered.ContentFitsHere others filename dataSize attributes) := by
    intro dirPath entered enter others chain' filename
    obtain ⟨cluster, path', dirName, inside, rfl⟩ := enterDirectory_entered layout tree enter
    have whole := createContent_keepsTree (layout.movedTo cluster path' dirName)
      ⟨reliable.read, reliable.write⟩ room (tree.movedTo inside path' dirName) compact
      (chain'.links (layout.movedTo cluster path' dirName)) filename data dataSize attributes
    exact ⟨fun fits after told => ⟨(whole.1 fits after told).slots, (whole.1 fits after told).table⟩,
      fun few keeps => whole.2 few fun after told => ⟨(keeps after told).slots, (keeps after told).table⟩⟩
  constructor
  · intro fits dirPath filename entered split enter
    obtain ⟨cluster, path', dirName, inside, shape⟩ := enterDirectory_entered layout tree enter
    obtain ⟨others, chain'⟩ := tree.chained cluster inside
    have chain'' : entered.Chain entered.currentDirectoryCluster others := by
      rw [shape]
      exact chain'
    exact (here enter chain'' filename).1 (fits dirPath filename entered others split enter chain'')
  · intro few keeps dirPath filename entered others split enter chain'
    exact (here enter chain' filename).2 few (keeps dirPath filename entered split enter)

end Whole

/-- The only directory of a mounted volume is its root. -/
theorem mountedRoot_wellFormed : (smallVolume mountedRoot 2).WellFormed (· = 2) ∧
    (smallVolume mountedRoot 2).Compact (· = 2) := by
  have only : ∀ {clusters}, (smallVolume mountedRoot 2).Chain 2 clusters → clusters = [2] :=
    fun chain => chain.eq (smallVolume_layout _ _) mountedRoot_chain
  have sectors : (smallVolume mountedRoot 2).directorySectors [2] = [2] := by decide
  have slots : ∀ slot < 16,
      (freeByte ((smallVolume mountedRoot 2).block 2 (slotSize * slot)) = false →
        isDirectory (entryAttributes ((smallVolume mountedRoot 2).block 2) (slotSize * slot)) = true ∧
          entryCluster ((smallVolume mountedRoot 2).block 2) (slotSize * slot) = 2) ∧
      ∀ later < 16, slot < later →
        (smallVolume mountedRoot 2).block 2 (slotSize * slot) = 0x00 →
        freeByte ((smallVolume mountedRoot 2).block 2 (slotSize * later)) = true := by
    decide +kernel
  refine ⟨⟨rfl, rfl, ?_, ?_, ?_⟩, ?_⟩
  · rintro cluster rfl
    exact ⟨_, mountedRoot_chain⟩
  · rintro cluster other clusters others rfl rfl - - -
    rfl
  · rintro cluster clusters rfl chain sector member slot small live -
    rw [only chain, sectors] at member
    rw [List.mem_singleton.mp member] at live ⊢
    obtain ⟨kind, leads⟩ := (slots slot small).1 live
    rw [if_pos kind]
    exact leads
  · rintro cluster clusters rfl chain sector member slot later behind small unused
    rw [only chain, sectors] at member
    rw [List.mem_singleton.mp member] at unused ⊢
    exact (slots slot (Nat.lt_trans behind small)).2 later small behind unused

/-- In a fresh root directory a file with a short name is created wholly or not at all. -/
theorem creation_allOrNothing_short :
    (smallVolume mountedRoot 2).AllOrNothing (· = 2)
      ((smallVolume mountedRoot 2).createFile [0x61] 0x20) :=
  ((creation_allOrNothing (smallVolume_layout _ _) (smallVolume_reliable _ _)
    (by show 2 + 20 * 1 + 20 ≤ 2 ^ 32; decide) mountedRoot_wellFormed.1 mountedRoot_wellFormed.2
    mountedRoot_chain).1 [0x61] 0x20).mpr fun _ long => absurd long (by decide)

/-- A file with contents whose name has thirteen characters is not created, but takes a cluster. -/
theorem createFileWithContent_keeps_cluster :
    (smallVolume mountedRoot 2).Layout ∧ (smallVolume mountedRoot 2).Reliable ∧
    (smallVolume mountedRoot 2).WellFormed (· = 2) ∧
    (smallVolume mountedRoot 2).Compact (· = 2) ∧
    validateFileName (List.replicate 13 0x61) = true ∧
    ¬ (smallVolume mountedRoot 2).AllOrNothing (· = 2)
      ((smallVolume mountedRoot 2).createFileWithContent (List.replicate 13 0x61) (fun _ => 0x62) 1
        0x20) := by
  refine ⟨smallVolume_layout _ _, smallVolume_reliable _ _, mountedRoot_wellFormed.1,
    mountedRoot_wellFormed.2, by decide, fun whole => ?_⟩
  have told : ((smallVolume mountedRoot 2).createFileWithContent (List.replicate 13 0x61)
      (fun _ => 0x62) 1 0x20).toOption.map (fun result => (result.1, result.2.readFatEntry 3)) =
        some (false, endMark) := by decide +kernel
  obtain ⟨⟨answer, after⟩, returned, same⟩ := Option.map_eq_some_iff.mp told
  obtain ⟨rfl, taken⟩ := Prod.mk.inj same
  -- Cluster 3 was free before.
  have free : (smallVolume mountedRoot 2).readFatEntry 3 = 0 := by decide +kernel
  have kept := (whole after (Run.toOption_eq_some.mp returned)).table 3 (by show 3 < 20; decide)
  rw [free, taken] at kept
  exact absurd kept (by decide)

end FileSystem

end Pocky
