import Pocky.Fs.DirectoryLaws
import Pocky.Fs.Files

/-! Walks along a chain of clusters: lookups, removals, and freeing. -/

namespace Pocky

namespace FileSystem

/-- The sectors of a directory, cluster by cluster. -/
def directorySectors (fs : FileSystem) (clusters : List Nat) : List Nat :=
  clusters.flatMap fun cluster =>
    (List.range fs.bpb.sectorsPerCluster).map fun index => (fs.clusterSector cluster + index) % 2 ^ 32

/-- The sectors of a cluster, in the order the loops visit them. -/
def clusterSectors (fs : FileSystem) (cluster : Nat) : List Nat :=
  (List.range' 0 fs.bpb.sectorsPerCluster).map fun index => (fs.clusterSector cluster + index) % 2 ^ 32

/-- The sectors of a directory are those of its first cluster and then those of the others. -/
theorem directorySectors_cons (fs : FileSystem) (cluster : Nat) (rest : List Nat) :
    fs.directorySectors (cluster :: rest) = fs.clusterSectors cluster ++ fs.directorySectors rest := by
  simp only [directorySectors, List.flatMap_cons, clusterSectors, List.range_eq_range']

/-- A chain of the volume. -/
def Chain (fs : FileSystem) (start : Nat) (clusters : List Nat) : Prop :=
  ChainFrom fs.readFatEntry (endMark ≤ ·) fs.InVolume start clusters

/-- No number of the data area is a mark. -/
theorem Layout.not_mark {fs : FileSystem} (layout : fs.Layout) {cluster : Nat}
    (valid : fs.InVolume cluster) : cluster < badMark ∧ ¬ endMark ≤ cluster := by
  -- Numbers stay below both marks.
  have numbered := layout.numbered
  have order : badMark < endMark := by decide
  obtain ⟨-, high⟩ := valid
  omega

/-- A chain that can be read is one of the table's bytes. -/
theorem Chain.entries {fs : FileSystem} (layout : fs.Layout) {start : Nat} {clusters : List Nat}
    (chain : fs.Chain start clusters) {cluster : Nat} (member : cluster ∈ clusters) :
    fs.fatEntry cluster = fs.readFatEntry cluster ∧
      fs.disk.readOk fs.disk.clock (fs.fatSector cluster) = true ∧
      fs.fatEntry cluster ≠ badMark ∧ fs.fatEntry cluster ≠ 0 := by
  -- Its entries are other clusters or end marks, so none of them looks bad.
  have order : badMark < endMark ∧ 0 < endMark := by decide
  have good : fs.readFatEntry cluster ≠ badMark ∧ fs.readFatEntry cluster ≠ 0 := by
    rcases chain.linked.next_cases member with last | inside
    · omega
    · have valid := chain.valid _ inside
      have small := (layout.not_mark valid).1
      have large := valid.1
      omega
  obtain ⟨same, read⟩ := fatEntry_of_readFatEntry layout.sector good.1
  rw [same]
  exact ⟨rfl, read, good⟩

/-- A chain that can be read is a chain of the table's bytes. -/
theorem Chain.links {fs : FileSystem} (layout : fs.Layout) {start : Nat} {clusters : List Nat}
    (chain : fs.Chain start clusters) :
    ChainFrom fs.fatEntry (endMark ≤ ·) fs.InVolume start clusters :=
  chain.congr fun _ member => (chain.entries layout member).1

/-- No walk along a chain needs more steps than there are. -/
theorem Chain.length_le {fs : FileSystem} (layout : fs.Layout) {start : Nat} {clusters : List Nat}
    (chain : fs.Chain start clusters) : clusters.length ≤ walkSteps := by
  -- There are fewer clusters than numbers of 32 bits.
  have short : clusters.length ≤ fs.totalClusters :=
    ChainFrom.length_le chain fun _ valid => valid.2
  have numbered := layout.numbered
  have limit : badMark ≤ walkSteps := by decide
  omega

/-- The sectors of a cluster of the data area. -/
theorem Layout.mem_clusterSectors {fs : FileSystem} (layout : fs.Layout) {cluster sector : Nat}
    (valid : fs.InVolume cluster) : sector ∈ fs.clusterSectors cluster ↔
      ∃ index < fs.bpb.sectorsPerCluster, sector = fs.dataSector cluster index := by
  -- The numbers the loops compute do not wrap.
  simp only [clusterSectors, List.mem_map, List.mem_range'_1, Nat.zero_le, true_and, Nat.zero_add]
  constructor
  · rintro ⟨index, inside, rfl⟩
    exact ⟨index, inside, layout.clusterSector_add valid inside⟩
  · rintro ⟨index, inside, rfl⟩
    exact ⟨index, inside, layout.clusterSector_add valid inside⟩

/-- The sectors of a cluster lie in the data area. -/
theorem Layout.clusterSectors_high {fs : FileSystem} (layout : fs.Layout) {cluster sector : Nat}
    (valid : fs.InVolume cluster) (member : sector ∈ fs.clusterSectors cluster) :
    fs.firstDataSector ≤ sector := by
  obtain ⟨index, inside, rfl⟩ := (layout.mem_clusterSectors valid).mp member
  exact (layout.dataSector_bounds valid inside).1

/-- The sectors of a cluster are different. -/
theorem Layout.clusterSectors_nodup {fs : FileSystem} (layout : fs.Layout) {cluster : Nat}
    (valid : fs.InVolume cluster) : (fs.clusterSectors cluster).Nodup := by
  -- Their numbers count up.
  refine List.Nodup.map_on ?_ List.nodup_range'
  intro index member other member' equal
  have inside := (List.mem_range'_1.mp member).2
  have inside' := (List.mem_range'_1.mp member').2
  rw [Nat.zero_add] at inside inside'
  rw [layout.clusterSector_add valid inside, layout.clusterSector_add valid inside'] at equal
  exact (layout.dataSector_inj valid valid inside inside' equal).2

/-- The sectors of a directory are those of its clusters. -/
theorem mem_directorySectors {fs : FileSystem} {clusters : List Nat} {sector : Nat} :
    sector ∈ fs.directorySectors clusters ↔
      ∃ cluster ∈ clusters, sector ∈ fs.clusterSectors cluster := by
  simp only [directorySectors, clusterSectors, List.range_eq_range', List.mem_flatMap]

/-- A sector belongs to one cluster only. -/
theorem Layout.cluster_unique {fs : FileSystem} (layout : fs.Layout) {cluster other sector : Nat}
    (valid : fs.InVolume cluster) (valid' : fs.InVolume other)
    (member : sector ∈ fs.clusterSectors cluster) (member' : sector ∈ fs.clusterSectors other) :
    cluster = other := by
  obtain ⟨index, inside, rfl⟩ := (layout.mem_clusterSectors valid).mp member
  obtain ⟨index', inside', same⟩ := (layout.mem_clusterSectors valid').mp member'
  exact (layout.dataSector_inj valid valid' inside inside' same).1

/-- A cluster shares no sector with clusters it is not among. -/
theorem Layout.directorySectors_disjoint {fs : FileSystem} (layout : fs.Layout) {cluster : Nat}
    {clusters : List Nat} (valid : fs.InVolume cluster)
    (others : ∀ other ∈ clusters, fs.InVolume other) (absent : cluster ∉ clusters) :
    ∀ sector ∈ fs.directorySectors clusters, sector ∉ fs.clusterSectors cluster := by
  intro sector member here
  obtain ⟨other, inside, there⟩ := mem_directorySectors.mp member
  have equal := layout.cluster_unique valid (others other inside) here there
  exact absent (equal ▸ inside)

/-- The geometry is not on the disk. -/
theorem SameVolume.bytesPerSector {fs after : FileSystem} (same : SameVolume fs after) :
    after.bpb.bytesPerSector = fs.bpb.bytesPerSector := by
  rw [same.fields]

/-- The clusters are the same. -/
theorem SameVolume.inVolume {fs after : FileSystem} (same : SameVolume fs after) {cluster : Nat} :
    after.InVolume cluster ↔ fs.InVolume cluster := by
  rw [same.fields]
  exact Iff.rfl

/-- The sectors of a directory are the same. -/
theorem SameVolume.directorySectors {fs after : FileSystem} (same : SameVolume fs after)
    (clusters : List Nat) : after.directorySectors clusters = fs.directorySectors clusters := by
  rw [same.fields]
  rfl

/-- The first sector of a cluster is the same. -/
theorem SameVolume.clusterSector {fs after : FileSystem} (same : SameVolume fs after)
    (cluster : Nat) : after.clusterSector cluster = fs.clusterSector cluster := by
  rw [same.fields]
  rfl

/-- A chain is the same if its entries are. -/
theorem SameVolume.links {fs after : FileSystem} (same : SameVolume fs after) {start : Nat}
    {clusters : List Nat} (links : ChainFrom fs.fatEntry (endMark ≤ ·) fs.InVolume start clusters)
    (kept : ∀ cluster ∈ clusters, after.fatEntry cluster = fs.fatEntry cluster) :
    ChainFrom after.fatEntry (endMark ≤ ·) after.InVolume start clusters :=
  ⟨links.linked.congr kept, links.head, links.nodup,
    fun cluster member => same.inVolume.mpr (links.valid cluster member)⟩

section Scan

variable {α : Type} {fs : FileSystem} {find : Nat → Buffer → Option α} {failed ended : α}

/-- What the first sector with an answer says. -/
def firstAnswer (fs : FileSystem) (find : Nat → Buffer → Option α) (sectors : List Nat) : Option α :=
  sectors.findSome? fun sector => find sector (fs.block sector)

/-- The sectors of a cluster are asked in order, unless one cannot be read. -/
theorem scanSectors_cases (sector512 : fs.bpb.bytesPerSector = 512) (sector remaining index : Nat) :
    (fs.scanSectors find failed sector remaining index = some failed ∧
      ∃ lba, fs.readSector lba = none) ∨
    fs.scanSectors find failed sector remaining index =
      fs.firstAnswer find ((List.range' index remaining).map fun i => (sector + i) % 2 ^ 32) := by
  -- By induction on the sectors that are left.
  induction remaining generalizing index with
  | zero => exact Or.inr rfl
  | succ remaining ih =>
    rw [scanSectors, List.range'_succ, List.map_cons, firstAnswer, List.findSome?_cons]
    cases read : fs.readSector ((sector + index) % 2 ^ 32) with
    | none => exact Or.inl ⟨rfl, _, read⟩
    | some data =>
      obtain rfl := block_of_readSector sector512 read
      dsimp only
      cases found : find ((sector + index) % 2 ^ 32)
          (fs.block ((sector + index) % 2 ^ 32)) with
      | some answer => exact Or.inr rfl
      | none => exact ih (index + 1)

/-- The sectors of a chain are asked in order, unless one cannot be read. -/
theorem scanChain_cases (find : Nat → Buffer → Option α) (failed ended : α) (layout : fs.Layout)
    {clusters : List Nat} {start steps : Nat} (linked : Linked fs.fatEntry (endMark ≤ ·) clusters)
    (head : clusters.head? = some start) (valid : ∀ cluster ∈ clusters, fs.InVolume cluster)
    (enough : clusters.length ≤ steps) :
    ∃ answer, fs.scanChain find failed ended steps start = .ok answer ∧
      ((answer = failed ∧ ∃ lba, fs.readSector lba = none) ∨
        answer = (fs.firstAnswer find (fs.directorySectors clusters)).getD ended) := by
  -- By induction along the chain.
  induction clusters generalizing start steps with
  | nil => exact linked.elim
  | cons cluster rest ih =>
    obtain rfl : cluster = start := Option.some.inj head
    obtain ⟨steps, rfl⟩ : ∃ fewer, steps = fewer + 1 :=
      Nat.exists_eq_succ_of_ne_zero (by simp only [List.length_cons] at enough; omega)
    have join : fs.firstAnswer find (fs.directorySectors (cluster :: rest)) =
        (fs.firstAnswer find (fs.clusterSectors cluster)).or
          (fs.firstAnswer find (fs.directorySectors rest)) := by
      rw [directorySectors_cons, firstAnswer, List.findSome?_append]
      rfl
    have few : rest.length ≤ steps := Nat.le_of_succ_le_succ enough
    rw [scanChain]
    rcases scanSectors_cases layout.sector (fs.clusterSector cluster) fs.bpb.sectorsPerCluster 0 with
      ⟨scan, unread⟩ | scan
    · rw [scan]
      exact ⟨failed, rfl, Or.inl ⟨rfl, unread⟩⟩
    · rw [scan, join, ← clusterSectors]
      cases fs.firstAnswer find (fs.clusterSectors cluster) with
      | some answer => exact ⟨answer, rfl, Or.inr rfl⟩
      | none =>
        dsimp only
        rw [readFatEntry_cases layout.sector]
        by_cases read : fs.disk.readOk fs.disk.clock (fs.fatSector cluster) = true
        · rw [if_pos read]
          cases rest with
          | nil =>
            -- The last cluster leads to an end mark.
            have last : endMark ≤ fs.fatEntry cluster := linked
            exact ⟨ended, by rw [if_pos last], Or.inr rfl⟩
          | cons second rest =>
            have next : fs.fatEntry cluster = second := linked.1
            have inside : fs.InVolume second := valid second (by simp)
            obtain ⟨small, inner⟩ := layout.not_mark inside
            obtain ⟨answer, scanned, told⟩ := ih linked.2 rfl
              (fun other member => valid other (List.mem_cons_of_mem _ member)) few
            refine ⟨answer, ?_, told⟩
            rw [next, if_neg inner, if_neg (by omega)]
            exact scanned
        · -- An entry that cannot be read looks bad.
          have order : ¬ endMark ≤ badMark := by decide
          rw [if_neg read, if_neg order, if_pos rfl]
          refine ⟨failed, rfl, Or.inl ⟨rfl, fs.fatSector cluster, ?_⟩⟩
          rw [readSector_cases layout.sector, if_neg read]

/-- A scan of a chain returns the first answer, unless a sector cannot be read. -/
theorem Chain.scan_cases (layout : fs.Layout) {clusters : List Nat} {start : Nat}
    (chain : fs.Chain start clusters) (find : Nat → Buffer → Option α) (failed ended : α) :
    ∃ answer, fs.scanChain find failed ended walkSteps start = .ok answer ∧
      ((answer = failed ∧ ∃ lba, fs.readSector lba = none) ∨
        answer = (fs.firstAnswer find (fs.directorySectors clusters)).getD ended) :=
  scanChain_cases find failed ended layout (chain.links layout).linked chain.head chain.valid
    (chain.length_le layout)

/-- On a device that refuses nothing, a scan of a chain returns the first answer. -/
theorem Chain.scan_eq (layout : fs.Layout) (reliable : fs.Reliable) {clusters : List Nat}
    {start : Nat} (chain : fs.Chain start clusters) (find : Nat → Buffer → Option α)
    (failed ended : α) : fs.scanChain find failed ended walkSteps start =
      .ok ((fs.firstAnswer find (fs.directorySectors clusters)).getD ended) := by
  -- Every sector can be read.
  obtain ⟨answer, scanned, ⟨-, lba, unread⟩ | rfl⟩ := chain.scan_cases layout find failed ended
  · rw [readSector_eq layout.sector reliable] at unread
    cases unread
  · exact scanned

end Scan

/-- A volume with clusters of one sector, cluster and sector numbers being the same. -/
def smallVolume (bytes : Buffer) (current : Nat) : FileSystem where
  disk := ⟨bytes, 0, fun _ _ => true, fun _ => true⟩
  bpb := ⟨512, 1, 1, 1, 0, 0, 0, 22, 1, 0, 0x29⟩
  firstDataSector := 2
  dataSectors := 20
  totalClusters := 20
  firstFatSector := 1
  freeCount := 0
  nextFree := 0
  currentPath := [slash]
  currentDirName := [slash]
  currentDirectoryCluster := current

/-- The small volume is laid out as the laws demand. -/
theorem smallVolume_layout (bytes : Buffer) (current : Nat) : (smallVolume bytes current).Layout :=
  ⟨rfl, Nat.one_pos, Nat.one_pos, by show 1 + 1 * 1 ≤ 2; decide,
    by show 2 + 20 * 1 ≤ 2 ^ 32; decide, by show 20 ≤ 128 * 1; decide, by show 20 ≤ badMark; decide⟩

/-- Its device refuses nothing. -/
theorem smallVolume_reliable (bytes : Buffer) (current : Nat) :
    (smallVolume bytes current).Reliable := ⟨fun _ _ => rfl, fun _ => rfl⟩

/-- What lies on the disk does not depend on the current directory. -/
theorem smallVolume_current (bytes : Buffer) (current : Nat) :
    (smallVolume bytes current).readFatEntry = (smallVolume bytes 2).readFatEntry ∧
      (smallVolume bytes current).block = (smallVolume bytes 2).block ∧
      (smallVolume bytes current).directorySectors = (smallVolume bytes 2).directorySectors :=
  ⟨rfl, rfl, rfl⟩

/-- A disk with an entry of the table set. -/
def withLink (cluster value : Nat) (bytes : Buffer) : Buffer :=
  putWord bytes (512 + 4 * cluster) value

/-- A disk with a slot of a directory set. -/
def withEntry (directory slot : Nat) (name : Name) (attributes : UInt8) (cluster : Nat)
    (bytes : Buffer) : Buffer :=
  putBytes bytes (512 * directory + slotSize * slot) slotSize (entryBytes name attributes cluster 0)

end FileSystem

end Pocky
