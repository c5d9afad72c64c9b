import Pocky.Fs.Entries

/-! Volumes with clusters of one sector on a device that refuses nothing: what each call does. -/

namespace Pocky

namespace FileSystem

/-- A volume with clusters of one sector, few enough for the entries, on a device that refuses nothing. -/
structure Sound (fs : FileSystem) : Prop where
  /-- Tables and data area are laid out without overlap. -/
  layout : fs.Layout
  /-- Every transfer succeeds. -/
  reliable : fs.Reliable
  /-- A cluster is a sector. -/
  one : fs.bpb.sectorsPerCluster = 1
  /-- Sixteen bits hold every cluster number. -/
  few : fs.totalClusters ≤ 65536

/-- The bytes of a cluster. -/
def content (fs : FileSystem) (cluster : Nat) : Buffer := fs.block (fs.dataSector cluster 0)

/-- A chain of the table's bytes. -/
def Links (fs : FileSystem) (start : Nat) (clusters : List Nat) : Prop :=
  ChainFrom fs.fatEntry (endMark ≤ ·) fs.InVolume start clusters

/-- On a device that refuses nothing, a chain of the table's bytes can be read. -/
theorem Links.chain {fs : FileSystem} {start : Nat} {clusters : List Nat}
    (links : fs.Links start clusters) (layout : fs.Layout) (reliable : fs.Reliable) :
    fs.Chain start clusters :=
  ChainFrom.congr links fun cluster _ => readFatEntry_eq layout.sector reliable cluster

/-- A state with a given table and given bytes of the clusters. -/
structure Becomes (fs after : FileSystem) (fat : Nat → Nat) (content : Nat → Buffer) : Prop where
  /-- Only the disk has changed. -/
  same : SameVolume fs after
  /-- The table is the given one. -/
  fat : ∀ cluster < fs.totalClusters, after.fatEntry cluster = fat cluster
  /-- The clusters hold the given bytes. -/
  content : ∀ cluster, fs.InVolume cluster → after.content cluster = content cluster

/-- Soundness does not depend on the disk's bytes. -/
theorem Sound.same {fs after : FileSystem} (sound : fs.Sound) (same : SameVolume fs after) :
    after.Sound := by
  refine ⟨sound.layout.same same, sound.reliable.same same, ?_, ?_⟩
  · rw [same.fields]
    exact sound.one
  · rw [same.fields]
    exact sound.few

/-- Nothing has changed. -/
theorem Becomes.refl (fs : FileSystem) : fs.Becomes fs fs.fatEntry fs.content :=
  ⟨SameVolume.refl fs, fun _ _ => rfl, fun _ _ => rfl⟩

/-- Two changes, one after the other. -/
theorem Becomes.trans {fs middle after : FileSystem} {fat fat' : Nat → Nat}
    {content content' : Nat → Buffer} (first : fs.Becomes middle fat content)
    (second : middle.Becomes after fat' content') : fs.Becomes after fat' content' := by
  refine ⟨first.same.trans second.same, ?_, ?_⟩
  · intro cluster small
    apply second.fat
    rw [first.same.fields]
    exact small
  · intro cluster valid
    exact second.content cluster (first.same.inVolume.mpr valid)

/-- The same table and the same bytes, written differently. -/
theorem Becomes.congr {fs after : FileSystem} {fat fat' : Nat → Nat}
    {content content' : Nat → Buffer} (becomes : fs.Becomes after fat content)
    (fats : ∀ cluster < fs.totalClusters, fat' cluster = fat cluster)
    (contents : ∀ cluster, fs.InVolume cluster → content' cluster = content cluster) :
    fs.Becomes after fat' content' :=
  ⟨becomes.same, fun cluster small => (becomes.fat cluster small).trans (fats cluster small).symm,
    fun cluster valid => (becomes.content cluster valid).trans (contents cluster valid).symm⟩

section Transfers

variable {fs : FileSystem}

/-- The first and only sector of a cluster. -/
theorem Sound.clusterSector (sound : fs.Sound) {cluster : Nat} (valid : fs.InVolume cluster) :
    fs.clusterSector cluster = fs.dataSector cluster 0 :=
  sound.layout.clusterSector_eq valid

/-- Writing a cluster. -/
theorem Sound.store (sound : fs.Sound) {cluster : Nat} (valid : fs.InVolume cluster)
    (data : Buffer) : fs.Becomes (fs.store (fs.dataSector cluster 0) data) fs.fatEntry
      (Function.update fs.content cluster (cutBlock data)) := by
  have inside : 0 < fs.bpb.sectorsPerCluster := sound.layout.cluster
  refine ⟨fs.store_same _ _, ?_, ?_⟩
  · intro other small
    exact fatEntry_store sound.layout data (sound.layout.dataSector_bounds valid inside).1 small
  · intro other valid'
    have place : (fs.store (fs.dataSector cluster 0) data).dataSector other 0 =
        fs.dataSector other 0 := rfl
    rw [content, place, store_block]
    by_cases equal : other = cluster
    · subst equal
      rw [if_pos rfl, Function.update_self]
    · rw [Function.update_of_ne equal, if_neg]
      · rfl
      · intro sectors
        exact equal (sound.layout.dataSector_inj valid' valid inside inside sectors).1

/-- Updating an entry of the table. -/
theorem Sound.updateFatEntry (sound : fs.Sound) {cluster : Nat} (valid : fs.InVolume cluster)
    (value : Nat) : ∃ after, fs.updateFatEntry cluster value = (true, after) ∧
      fs.Becomes after (Function.update fs.fatEntry cluster (value % 2 ^ 28)) fs.content := by
  obtain ⟨after, returned, same, entries, data⟩ :=
    updateFatEntry_eq sound.layout sound.reliable valid.2 value
  refine ⟨after, returned, same, ?_, ?_⟩
  · intro other small
    rw [entries other small, Function.update_apply]
  · intro other valid'
    have place : after.dataSector other 0 = fs.dataSector other 0 := by
      rw [same.fields]
      rfl
    rw [content, place, data _ (sound.layout.dataSector_bounds valid' sound.layout.cluster).1, content]

/-- An attempt to update an entry has updated it. -/
theorem Updates.becomes (sound : fs.Sound) {cluster value : Nat} {after : FileSystem}
    (updates : fs.Updates cluster value after) :
    fs.Becomes after (Function.update fs.fatEntry cluster (value % 2 ^ 28)) fs.content := by
  refine ⟨updates.same, ?_, ?_⟩
  · intro other small
    by_cases equal : other = cluster
    · subst equal
      rw [Function.update_self, (updates.accepted (sound.reliable.read _ _) (sound.reliable.write _)).1]
    · rw [Function.update_of_ne equal, updates.others other small equal]
  · intro other valid
    have place : after.dataSector other 0 = fs.dataSector other 0 := by
      rw [updates.same.fields]
      rfl
    rw [content, place,
      updates.data _ (sound.layout.dataSector_bounds valid sound.layout.cluster).1, content]

/-- Taking a cluster. -/
theorem Sound.allocateCluster (sound : fs.Sound) :
    (fs.allocateCluster = (0, fs) ∧ ∀ other, fs.InVolume other → fs.fatEntry other ≠ 0) ∨
    ∃ taken after, fs.allocateCluster = (taken, after) ∧ fs.InVolume taken ∧
      fs.fatEntry taken = 0 ∧
      fs.Becomes after (Function.update fs.fatEntry taken endMark) fs.content := by
  have read : ∀ other, fs.readFatEntry other = fs.fatEntry other :=
    readFatEntry_eq sound.layout.sector sound.reliable
  rcases allocateCluster_cases sound.layout with
    ⟨none, used⟩ | ⟨taken, after, some, valid, zero, updates, -⟩
  · exact Or.inl ⟨none, fun other valid => read other ▸ used other valid⟩
  · exact Or.inr ⟨taken, after, some, valid, read taken ▸ zero, updates.becomes sound⟩

/-- Giving a cluster back. -/
theorem Sound.freeCluster (sound : fs.Sound) {cluster : Nat} (valid : fs.InVolume cluster) :
    fs.Becomes (fs.freeCluster cluster) (Function.update fs.fatEntry cluster 0) fs.content :=
  (freeCluster_updates sound.layout valid).becomes sound

/-- Freeing a chain. -/
theorem Sound.freeChain (sound : fs.Sound) {start : Nat} {clusters : List Nat}
    (links : fs.Links start clusters) :
    ∃ after, fs.freeChain walkSteps start = .ok after ∧
      fs.Becomes after (fun cluster => if cluster ∈ clusters then 0 else fs.fatEntry cluster)
        fs.content := by
  have short : clusters.length ≤ fs.totalClusters :=
    ChainFrom.length_le links fun _ valid => valid.2
  have numbered := sound.layout.numbered
  have limit : badMark ≤ walkSteps := by decide
  obtain ⟨after, returned, freed⟩ := freeChain_freed sound.layout links.linked links.head links.nodup
    links.valid (show clusters.length ≤ walkSteps by omega)
  refine ⟨after, returned, freed.same, ?_, ?_⟩
  · intro cluster small
    split
    · rename_i member
      exact freed.zero.mpr (sound.reliable.frees _ _) cluster member
    · rename_i outside
      exact freed.others cluster small outside
  · intro cluster valid
    have place : after.dataSector cluster 0 = fs.dataSector cluster 0 := by
      rw [freed.same.fields]
      rfl
    rw [content, place,
      freed.data _ (sound.layout.dataSector_bounds valid sound.layout.cluster).1, content]

end Transfers

/-- A directory of one cluster. -/
structure Single (fs : FileSystem) (directory : Nat) : Prop where
  /-- It lies in the volume. -/
  valid : fs.InVolume directory
  /-- It ends its chain. -/
  last : endMark ≤ fs.fatEntry directory

/-- What a lookup reports for a slot of a directory of one cluster. -/
def foundIn (fs : FileSystem) (directory offset : Nat) : Found :=
  ⟨entryCluster (fs.content directory) offset, entrySize (fs.content directory) offset,
    entryAttributes (fs.content directory) offset, some (fs.dataSector directory 0, offset)⟩

section Directories

variable {fs : FileSystem} {directory : Nat}

/-- A cluster that ends a chain is in use. -/
theorem Single.ne_free {free : Nat} (single : fs.Single directory) (unused : fs.fatEntry free = 0) :
    directory ≠ free := by
  rintro rfl
  have last := single.last
  rw [unused] at last
  exact absurd last (by decide)

/-- Such a directory is a chain of the table's bytes. -/
theorem Single.links (single : fs.Single directory) : fs.Links directory [directory] := by
  refine ⟨single.last, rfl, List.nodup_singleton _, ?_⟩
  intro cell member
  obtain rfl := List.mem_singleton.mp member
  exact single.valid

/-- It is a chain that can be read. -/
theorem Single.chain (single : fs.Single directory) (sound : fs.Sound) :
    fs.Chain directory [directory] :=
  ChainFrom.congr single.links fun cell _ =>
    readFatEntry_eq sound.layout.sector sound.reliable cell

/-- Its only sector. -/
theorem Single.sectors (single : fs.Single directory) (sound : fs.Sound) :
    fs.directorySectors [directory] = [fs.dataSector directory 0] := by
  rw [directorySectors_cons, clusterSectors, sound.one]
  simp only [List.range'_one, List.map_cons, List.map_nil, directorySectors, List.flatMap_nil,
    List.append_nil, sound.layout.clusterSector_add single.valid sound.layout.cluster]

/-- A scan asks that sector. -/
theorem Single.scan {α : Type} (single : fs.Single directory) (sound : fs.Sound)
    (find : Nat → Buffer → Option α) (failed ended : α) :
    fs.scanChain find failed ended walkSteps directory =
      .ok ((find (fs.dataSector directory 0) (fs.content directory)).getD ended) := by
  rw [(single.chain sound).scan_eq sound.layout sound.reliable, single.sectors sound, firstAnswer]
  simp only [List.findSome?_cons, List.findSome?_nil, content]
  cases find (fs.dataSector directory 0) (fs.block (fs.dataSector directory 0)) with
  | none => rfl
  | some answer => rfl

/-- Looking a name up. -/
theorem Single.findFileInDirectory (single : fs.Single directory) (sound : fs.Sound) (name : Name) :
    fs.findFileInDirectory directory name =
      .ok ((findName (fs.content directory) name 16 0).map (fs.foundIn directory)) := by
  rw [FileSystem.findFileInDirectory, single.scan sound, slotsPerSector_eq sound.layout.sector]
  cases findName (fs.content directory) name 16 0 with
  | none => rfl
  | some offset => rfl

/-- Looking for a free slot. -/
theorem Single.findFreeDirectoryEntry (single : fs.Single directory) (sound : fs.Sound) :
    fs.findFreeDirectoryEntry directory = .ok (findFree (fs.content directory) 16 0) := by
  rw [FileSystem.findFreeDirectoryEntry, single.scan sound, slotsPerSector_eq sound.layout.sector]
  cases findFree (fs.content directory) 16 0 with
  | none => rfl
  | some offset => rfl

/-- Asking whether it is empty. -/
theorem Single.isDirectoryEmpty (single : fs.Single directory) (sound : fs.Sound) :
    fs.isDirectoryEmpty directory = .ok ((emptyVerdict (fs.content directory) 16 0).getD true) := by
  rw [FileSystem.isDirectoryEmpty, single.scan sound, slotsPerSector_eq sound.layout.sector]

/-- Reading its sector. -/
theorem Sound.readSector (sound : fs.Sound) (cluster : Nat) :
    fs.readSector (fs.dataSector cluster 0) = some (fs.content cluster) :=
  readSector_eq sound.layout.sector sound.reliable _

/-- A new sector of a cluster whose bytes lie inside the block. -/
theorem Sound.writeContent (sound : fs.Sound) {cluster : Nat} (valid : fs.InVolume cluster)
    (data : Buffer) : ∃ after, fs.writeSector (fs.dataSector cluster 0) data = (true, after) ∧
      fs.Becomes after fs.fatEntry (Function.update fs.content cluster (cutBlock data)) :=
  ⟨_, writeSector_eq sound.layout.sector sound.reliable _ data, sound.store valid data⟩

/-- The bytes of a cluster end with its sector. -/
theorem cutBlock_content (fs : FileSystem) (cluster : Nat) :
    cutBlock (fs.content cluster) = fs.content cluster := cutBlock_cutBlock _

/-- A change inside one slot stays inside the block. -/
theorem ChangesSlot.cutBlock {slot : Nat} {cluster : Nat} {data : Buffer} (small : slot < 16)
    (change : ChangesSlot slot (fs.content cluster) data) : cutBlock data = data := by
  funext index
  by_cases inside : index < 512
  · simp only [Pocky.cutBlock, if_pos inside]
  · have away : index / slotSize ≠ slot := by
      simp only [slotSize]
      omega
    rw [Pocky.cutBlock, if_neg inside, change index away, ← cutBlock_content, Pocky.cutBlock,
      if_neg inside]

/-- Entering a file fills the first free slot, if there is one. -/
theorem Single.writeDirectoryEntry (single : fs.Single directory) (sound : fs.Sound) (name : Name)
    (attributes : UInt8) (fileCluster fileSize : Nat) :
    (findFree (fs.content directory) 16 0 = none ∧
      fs.writeDirectoryEntry directory name attributes fileCluster fileSize = .ok (false, fs)) ∨
    ∃ slot < 16, ∃ after, findFree (fs.content directory) 16 0 = some (slotSize * slot) ∧
      fs.writeDirectoryEntry directory name attributes fileCluster fileSize = .ok (true, after) ∧
      fs.Becomes after fs.fatEntry (Function.update fs.content directory
        (putBytes (fs.content directory) (slotSize * slot) slotSize
          (entryBytes name attributes fileCluster fileSize))) := by
  rw [FileSystem.writeDirectoryEntry, single.findFreeDirectoryEntry sound, Run.ok_bind]
  cases found : findFree (fs.content directory) 16 0 with
  | none => exact Or.inl ⟨rfl, rfl⟩
  | some entryIndex =>
    obtain ⟨slot, small, place, -⟩ := findFree_some found
    rw [Nat.zero_add] at place
    subst place
    have change := changesSlot_putBytes slot 0 slotSize (fs.content directory)
      (entryBytes name attributes fileCluster fileSize) (by decide)
    rw [Nat.add_zero] at change
    obtain ⟨after, written, becomes⟩ := sound.writeContent single.valid
      (putBytes (fs.content directory) (slotSize * slot) slotSize
        (entryBytes name attributes fileCluster fileSize))
    rw [ChangesSlot.cutBlock small change] at becomes
    refine Or.inr ⟨slot, small, after, rfl, ?_, becomes⟩
    dsimp only
    rw [sound.clusterSector single.valid, sound.readSector]
    exact congrArg Except.ok written

/-- Marking a name. -/
theorem Single.markChain (single : fs.Single directory) (sound : fs.Sound) (name : Name) :
    ∃ after, fs.markChain name walkSteps directory = .ok (true, after) ∧
      fs.Becomes after fs.fatEntry
        (Function.update fs.content directory (marked name (fs.content directory))) := by
  obtain ⟨steps, shape⟩ : ∃ steps, walkSteps = steps + 1 := ⟨2 ^ 32 - 1, by decide⟩
  have number : (fs.clusterSector directory + 0) % 2 ^ 32 = fs.dataSector directory 0 :=
    sound.layout.clusterSector_add single.valid sound.layout.cluster
  have finish : ∀ after, fs.Becomes after fs.fatEntry
      (Function.update fs.content directory (marked name (fs.content directory))) →
      endMark ≤ after.readFatEntry directory := by
    intro after becomes
    have sound' := sound.same becomes.same
    rw [readFatEntry_eq sound'.layout.sector sound'.reliable, becomes.fat _ single.valid.2]
    exact single.last
  rw [shape, FileSystem.markChain, sound.one]
  simp only [markSectors, number, sound.readSector, slotsPerSector_eq sound.layout.sector]
  cases found : findName (fs.content directory) name 16 0 with
  | none =>
    have same : marked name (fs.content directory) = fs.content directory := by
      simp only [marked, found]
    have becomes : fs.Becomes fs fs.fatEntry
        (Function.update fs.content directory (marked name (fs.content directory))) := by
      rw [same, Function.update_eq_self]
      exact Becomes.refl fs
    dsimp only
    rw [if_pos (finish fs becomes)]
    exact ⟨fs, rfl, becomes⟩
  | some offset =>
    obtain ⟨slot, small, place, -⟩ := findName_some found
    rw [Nat.zero_add] at place
    subst place
    have same : marked name (fs.content directory) =
        Function.update (fs.content directory) (slotSize * slot) 0xE5 := by
      simp only [marked, found]
    have change := changesSlot_update slot (fs.content directory) 0xE5
    obtain ⟨after, written, becomes⟩ := sound.writeContent single.valid
      (Function.update (fs.content directory) (slotSize * slot) 0xE5)
    rw [ChangesSlot.cutBlock small change, ← same] at becomes
    simp only [written]
    rw [if_pos (finish after becomes)]
    exact ⟨after, rfl, becomes⟩

/-- Changing the slot of a name, inside that slot. -/
theorem Single.editEntry (single : fs.Single directory) (sound : fs.Sound) {name : Name}
    {edit : Buffer → Nat → Run Buffer} {slot : Nat} {data : Buffer} (small : slot < 16)
    (found : findName (fs.content directory) name 16 0 = some (slotSize * slot))
    (edited : edit (fs.content directory) (slotSize * slot) = .ok data)
    (change : ChangesSlot slot (fs.content directory) data) :
    ∃ after, fs.editEntry directory name edit = .ok (true, after) ∧
      fs.Becomes after fs.fatEntry (Function.update fs.content directory data) := by
  obtain ⟨after, written, becomes⟩ := sound.writeContent single.valid data
  rw [ChangesSlot.cutBlock small change] at becomes
  refine ⟨after, ?_, becomes⟩
  rw [FileSystem.editEntry, single.findFileInDirectory sound, found, Run.ok_bind]
  simp only [Option.map_some, foundIn, sound.readSector, edited, Run.ok_bind, written]
  rfl

/-- A name that is not there is not changed. -/
theorem Single.editEntry_absent (single : fs.Single directory) (sound : fs.Sound) {name : Name}
    (edit : Buffer → Nat → Run Buffer)
    (absent : findName (fs.content directory) name 16 0 = none) :
    fs.editEntry directory name edit = .ok (false, fs) := by
  rw [FileSystem.editEntry, single.findFileInDirectory sound, absent, Run.ok_bind]
  rfl

end Directories

end FileSystem

end Pocky
