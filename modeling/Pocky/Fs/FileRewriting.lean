import Pocky.Fs.FileData

/-! Rewriting a file: what is read back, what is left alone, and which clusters are lost. -/

namespace Pocky

namespace FileSystem

section Rewriting

variable {fs : FileSystem} {start : Nat} {clusters : List Nat}

/-- With room for the data, writing it succeeds, and reading brings it back. -/
theorem readFile_writeFile (layout : fs.Layout) (reliable : fs.Reliable)
    (chain : fs.Chain start clusters) (data : Buffer) (dataSize : Nat)
    (room : fs.clustersFor dataSize ≤ clusters.length + fs.freeClusters.card) (buffer : Buffer) :
    ∃ after, fs.writeFile start data dataSize = (true, after) ∧
      after.readFile start buffer dataSize = putBytes buffer 0 dataSize data := by
  obtain ⟨told, after, clusters', returned, writes⟩ :=
    layout.writeFile_writes reliable (chain.links layout) data dataSize
  cases told with
  | false =>
    -- There was room, so the write cannot have failed.
    have little := writes.failed rfl
    omega
  | true =>
    have same := writes.rewrites.same
    exact ⟨after, returned, (layout.same same).readFile_eq (reliable.same same)
      writes.rewrites.links (writes.holds rfl) buffer⟩

/-- Whether there is room or not, a write touches no cluster in use outside its chain. -/
theorem writeFile_touches_own_chain (layout : fs.Layout) (reliable : fs.Reliable)
    (chain : fs.Chain start clusters) (data : Buffer) (dataSize : Nat) :
    ∃ told after clusters', fs.writeFile start data dataSize = (told, after) ∧
      (∀ cluster, fs.InVolume cluster → cluster ∉ clusters → fs.readFatEntry cluster ≠ 0 →
        after.readFatEntry cluster = fs.readFatEntry cluster ∧
        ∀ index < fs.bpb.sectorsPerCluster,
          after.block (fs.dataSector cluster index) = fs.block (fs.dataSector cluster index)) ∧
      after.Chain start clusters' ∧
      ∀ cluster ∈ clusters', cluster ∈ clusters ∨ fs.readFatEntry cluster = 0 := by
  obtain ⟨told, after, clusters', returned, writes⟩ :=
    layout.writeFile_writes reliable (chain.links layout) data dataSize
  have rewrites := writes.rewrites
  have same := rewrites.same
  have read : ∀ cluster, fs.readFatEntry cluster = fs.fatEntry cluster :=
    readFatEntry_eq layout.sector reliable
  have read' : ∀ cluster, after.readFatEntry cluster = after.fatEntry cluster :=
    readFatEntry_eq (layout.same same).sector (reliable.same same)
  refine ⟨told, after, clusters', returned, ?_,
    rewrites.links.chain (layout.same same) (reliable.same same), ?_⟩
  · intro cluster valid absent used
    rw [read] at used
    constructor
    · rw [read', read, rewrites.fat cluster valid absent used]
    · intro index inside
      have kept := rewrites.data cluster valid absent used index inside
      rw [sectorData, same.dataSector] at kept
      exact kept
  · intro cluster member
    rw [read]
    exact rewrites.fresh cluster member

/--
A write leaves a chain of the right length and loses no cluster just when the old chain was not too long.

A chain that is too long is cut off behind its first cluster that is not needed, and what is cut off
is not given back.
-/
theorem writeFile_leaks_nothing_iff (layout : fs.Layout) (reliable : fs.Reliable)
    (chain : fs.Chain start clusters) (data : Buffer) (dataSize : Nat)
    (room : fs.clustersFor dataSize ≤ clusters.length + fs.freeClusters.card) :
    ∃ after clusters', fs.writeFile start data dataSize = (true, after) ∧
      after.Chain start clusters' ∧
      (clusters'.length = max 1 (fs.clustersFor dataSize) ∧
        (∀ cluster ∈ clusters, cluster ∉ clusters' → after.readFatEntry cluster = 0) ↔
      clusters.length ≤ max 1 (fs.clustersFor dataSize)) := by
  have links : fs.Links start clusters := chain.links layout
  obtain ⟨told, after, clusters', returned, writes⟩ :=
    layout.writeFile_writes reliable links data dataSize
  have same := writes.rewrites.same
  have read' : ∀ cluster, after.readFatEntry cluster = after.fatEntry cluster :=
    readFatEntry_eq (layout.same same).sector (reliable.same same)
  cases told with
  | false =>
    have little := writes.failed rfl
    omega
  | true =>
    refine ⟨after, clusters', returned,
      writes.rewrites.links.chain (layout.same same) (reliable.same same), ?_, ?_⟩
    · rintro ⟨length, freed⟩
      by_contra tooLong
      obtain ⟨cut, kept⟩ := writes.long rfl (by omega)
      rw [cut, List.length_take] at length
      -- The length is right only if nothing was written, and then the second cluster is lost.
      have lost : clusters[fs.clustersFor dataSize + 1]? ≠ none := by
        rw [ne_eq, List.getElem?_eq_none_iff]
        omega
      obtain ⟨cluster, place⟩ := Option.ne_none_iff_exists'.mp lost
      have member := List.mem_of_getElem? place
      have absent : cluster ∉ clusters' := by
        rw [cut]
        intro early
        have late : cluster ∈ clusters.drop (fs.clustersFor dataSize + 1) := by
          apply List.mem_of_getElem?
          rw [List.getElem?_drop, Nat.add_zero]
          exact place
        exact List.disjoint_take_drop links.nodup (Nat.le_refl _) early late
      have zero := freed cluster member absent
      rw [read', kept cluster member absent] at zero
      exact links.used member zero
    · intro enough
      obtain ⟨length, extends'⟩ := writes.exact' rfl enough
      refine ⟨length, fun cluster member absent => ?_⟩
      exact absurd (extends'.subset member) absent

end Rewriting

/-- A volume with a file in the clusters 3, 4 and 5. -/
def threeClusters : Buffer := withLink 3 4 <| withLink 4 5 <| withLink 5 endMark fun _ => 0

/-- The file's chain. -/
theorem threeClusters_chain : (smallVolume threeClusters 2).Chain 3 [3, 4, 5] := by
  have last : endMark ≤ (smallVolume threeClusters 2).readFatEntry 5 := by decide
  refine ⟨⟨by decide, by decide, last⟩, rfl, by decide, ?_⟩
  intro cluster member
  have bounds : ∀ cluster ∈ [3, 4, 5], 2 ≤ cluster ∧ cluster < 20 := by decide
  exact bounds cluster member

/-- A byte is written over the file and read back. -/
theorem readFile_writeFile_one_byte :
    ∃ after, (smallVolume threeClusters 2).writeFile 3 (fun _ => 0x61) 1 = (true, after) ∧
      after.readFile 3 (fun _ => 0) 1 = putBytes (fun _ => 0) 0 1 fun _ => 0x61 :=
  readFile_writeFile (smallVolume_layout _ _) (smallVolume_reliable _ _) threeClusters_chain _ 1
    (Nat.le_add_right_of_le (by decide)) fun _ => 0

/-- Writing a byte over the file touches no other cluster in use. -/
theorem writeFile_touches_own_chain_one_byte :
    ∃ told after clusters', (smallVolume threeClusters 2).writeFile 3 (fun _ => 0x61) 1 =
        (told, after) ∧
      (∀ cluster, (smallVolume threeClusters 2).InVolume cluster → cluster ∉ [3, 4, 5] →
        (smallVolume threeClusters 2).readFatEntry cluster ≠ 0 →
        after.readFatEntry cluster = (smallVolume threeClusters 2).readFatEntry cluster ∧
        ∀ index < (smallVolume threeClusters 2).bpb.sectorsPerCluster,
          after.block ((smallVolume threeClusters 2).dataSector cluster index) =
            (smallVolume threeClusters 2).block
              ((smallVolume threeClusters 2).dataSector cluster index)) ∧
      after.Chain 3 clusters' ∧
      ∀ cluster ∈ clusters', cluster ∈ [3, 4, 5] ∨
        (smallVolume threeClusters 2).readFatEntry cluster = 0 :=
  writeFile_touches_own_chain (smallVolume_layout _ _) (smallVolume_reliable _ _)
    threeClusters_chain _ 1

/-- Writing a byte over the file leaves two clusters in its chain, and the third one is lost. -/
theorem writeFile_leaks_nothing_iff_one_byte :
    ∃ after clusters', (smallVolume threeClusters 2).writeFile 3 (fun _ => 0x61) 1 = (true, after) ∧
      after.Chain 3 clusters' ∧
      (clusters'.length = max 1 ((smallVolume threeClusters 2).clustersFor 1) ∧
        (∀ cluster ∈ [3, 4, 5], cluster ∉ clusters' → after.readFatEntry cluster = 0) ↔
      [3, 4, 5].length ≤ max 1 ((smallVolume threeClusters 2).clustersFor 1)) :=
  writeFile_leaks_nothing_iff (smallVolume_layout _ _) (smallVolume_reliable _ _)
    threeClusters_chain _ 1 (Nat.le_add_right_of_le (by decide))

/-- The data takes up one cluster, the file keeps two, and the entry of the third one is in use. -/
theorem writeFile_leaks_third_cluster :
    (smallVolume threeClusters 2).Layout ∧ (smallVolume threeClusters 2).Reliable ∧
    (smallVolume threeClusters 2).Chain 3 [3, 4, 5] ∧
    ∃ after, (smallVolume threeClusters 2).writeFile 3 (fun _ => 0x61) 1 = (true, after) ∧
      max 1 ((smallVolume threeClusters 2).clustersFor 1) = 1 ∧
      after.readFatEntry 3 = 4 ∧ endMark ≤ after.readFatEntry 4 ∧ after.readFatEntry 5 ≠ 0 := by
  have done : (((smallVolume threeClusters 2).writeFile 3 (fun _ => 0x61) 1).1 = true ∧
      ((smallVolume threeClusters 2).writeFile 3 (fun _ => 0x61) 1).2.readFatEntry 3 = 4) ∧
      endMark ≤ ((smallVolume threeClusters 2).writeFile 3 (fun _ => 0x61) 1).2.readFatEntry 4 ∧
      ((smallVolume threeClusters 2).writeFile 3 (fun _ => 0x61) 1).2.readFatEntry 5 ≠ 0 := by
    decide +kernel
  obtain ⟨⟨told, first⟩, second, third⟩ := done
  exact ⟨smallVolume_layout _ _, smallVolume_reliable _ _, threeClusters_chain, _,
    Prod.ext told rfl, by decide, first, second, third⟩

/--
What is asked of the geometry of a volume, without a bound on the number of its clusters.

With the bound that no cluster number is a mark it is a layout.
-/
structure Geometry (fs : FileSystem) : Prop where
  /-- A sector is one block. -/
  sector : fs.bpb.bytesPerSector = 512
  /-- The sectors of a cluster are a power of two. -/
  cluster : powerOfTwo fs.bpb.sectorsPerCluster = true
  /-- The size of a table is the one of 32 bits. -/
  size16 : fs.bpb.tableSize16 = 0
  /-- There is a table. -/
  copies : 0 < fs.bpb.tableCount
  /-- The tables end before the data area. -/
  apart : fs.firstFatSector + fs.bpb.tableCount * fs.bpb.tableSize32 ≤ fs.firstDataSector
  /-- Sector numbers fit in 32 bits. -/
  bounded : fs.firstDataSector + fs.totalClusters * fs.bpb.sectorsPerCluster ≤ 2 ^ 32
  /-- Every cluster has an entry in the table. -/
  covered : fs.totalClusters ≤ 128 * fs.bpb.tableSize32

/-- A volume of so many clusters that their numbers do not fit in the entries of the table. -/
def hugeVolume (bytes : Buffer) : FileSystem where
  disk := ⟨bytes, 0, fun _ _ => true, fun _ => true⟩
  bpb := ⟨512, 1, 1, 1, 0, 0, 0, 2 ^ 31, 2 ^ 23 + 1, 0, 0x29⟩
  firstDataSector := 2 ^ 23 + 2
  dataSectors := 2 ^ 30 + 100
  totalClusters := 2 ^ 30 + 100
  firstFatSector := 1
  freeCount := 0
  nextFree := 0
  currentPath := [slash]
  currentDirName := [slash]
  currentDirectoryCluster := 2

/-- Its tables and its data area do not overlap, and every cluster has an entry. -/
theorem hugeVolume_geometry (bytes : Buffer) : (hugeVolume bytes).Geometry where
  sector := rfl
  cluster := by show powerOfTwo 1 = true; decide
  size16 := rfl
  copies := Nat.one_pos
  apart := by show 1 + 1 * (2 ^ 23 + 1) ≤ 2 ^ 23 + 2; decide
  bounded := by show 2 ^ 23 + 2 + (2 ^ 30 + 100) * 1 ≤ 2 ^ 32; decide
  covered := by show 2 ^ 30 + 100 ≤ 128 * (2 ^ 23 + 1); decide

/-- Its device refuses nothing. -/
theorem hugeVolume_reliable (bytes : Buffer) : (hugeVolume bytes).Reliable :=
  ⟨fun _ _ => rfl, fun _ => rfl⟩

/-- A chain whose second cluster has the number that marks bad clusters. -/
def badSecond : Buffer := withLink 2 badMark <| withLink badMark endMark fun _ => 0

/-- Writing two sectors to that chain fails, though it has two clusters. -/
theorem writeFile_fails_at_bad_number :
    (hugeVolume badSecond).Geometry ∧ (hugeVolume badSecond).Reliable ∧
    (hugeVolume badSecond).Chain 2 [2, badMark] ∧
    (hugeVolume badSecond).clustersFor 1024 ≤
      [2, badMark].length + (hugeVolume badSecond).freeClusters.card ∧
    ¬ ∃ after, (hugeVolume badSecond).writeFile 2 (fun _ => 0x61) 1024 = (true, after) := by
  have next : (hugeVolume badSecond).readFatEntry 2 = badMark := by decide +kernel
  have last : endMark ≤ (hugeVolume badSecond).readFatEntry badMark := by decide +kernel
  have told : ((hugeVolume badSecond).writeFile 2 (fun _ => 0x61) 1024).1 = false := by
    decide +kernel
  refine ⟨hugeVolume_geometry _, hugeVolume_reliable _, ⟨⟨next, last⟩, rfl, by decide, ?_⟩,
    Nat.le_add_right_of_le (by decide), ?_⟩
  · intro cluster member
    have bounds : ∀ cluster ∈ [2, badMark], 2 ≤ cluster ∧ cluster < 2 ^ 30 + 100 := by decide
    exact bounds cluster member
  · rintro ⟨after, returned⟩
    rw [returned] at told
    cases told

/-- The entries of the clusters 3 and 2 ^ 30 + 3 are the same four bytes for the code. -/
def sameEntry : Buffer := withLink 3 5 <| withLink 5 endMark fun _ => 0

/-- Writing nothing to the chain of cluster 2 ^ 30 + 3 changes the entry of cluster 3. -/
theorem writeFile_touches_other_number :
    (hugeVolume sameEntry).Geometry ∧ (hugeVolume sameEntry).Reliable ∧
    (hugeVolume sameEntry).Chain (2 ^ 30 + 3) [2 ^ 30 + 3, 5] ∧
    (hugeVolume sameEntry).InVolume 3 ∧ 3 ∉ [2 ^ 30 + 3, 5] ∧
    (hugeVolume sameEntry).readFatEntry 3 ≠ 0 ∧
    ((hugeVolume sameEntry).writeFile (2 ^ 30 + 3) (fun _ => 0x61) 0).2.readFatEntry 3 ≠
      (hugeVolume sameEntry).readFatEntry 3 := by
  have next : (hugeVolume sameEntry).readFatEntry (2 ^ 30 + 3) = 5 := by decide +kernel
  have last : endMark ≤ (hugeVolume sameEntry).readFatEntry 5 := by decide +kernel
  refine ⟨hugeVolume_geometry _, hugeVolume_reliable _, ⟨⟨next, last⟩, rfl, by decide, ?_⟩,
    ⟨by decide, by show 3 < 2 ^ 30 + 100; decide⟩, by decide, by decide +kernel, by decide +kernel⟩
  intro cluster member
  have bounds : ∀ cluster ∈ [2 ^ 30 + 3, 5], 2 ≤ cluster ∧ cluster < 2 ^ 30 + 100 := by decide
  exact bounds cluster member

end FileSystem

end Pocky
