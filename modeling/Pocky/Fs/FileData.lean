import Mathlib.Data.Finset.Card
import Pocky.Fs.SoundVolume

/-! Files on clusters of any size: where writing puts the data, and what reading brings back. -/

namespace Pocky

namespace FileSystem

/-- The bytes of a sector of a cluster. -/
def sectorData (fs : FileSystem) (cluster index : Nat) : Buffer := fs.block (fs.dataSector cluster index)

/-- The bytes of a cluster. -/
def clusterSize (fs : FileSystem) : Nat := 512 * fs.bpb.sectorsPerCluster

/-- How many clusters some data takes up. -/
def clustersFor (fs : FileSystem) (dataSize : Nat) : Nat :=
  (dataSize + (fs.clusterSize - 1)) / fs.clusterSize

/-- A state with a given table and given bytes of the sectors of the clusters. -/
structure Alters (fs after : FileSystem) (fat : Nat → Nat) (data : Nat → Nat → Buffer) : Prop where
  /-- Only the disk has changed. -/
  same : SameVolume fs after
  /-- The table is the given one. -/
  fat : ∀ cluster < fs.totalClusters, after.fatEntry cluster = fat cluster
  /-- The sectors hold the given bytes. -/
  data : ∀ cluster, fs.InVolume cluster → ∀ index < fs.bpb.sectorsPerCluster,
    after.sectorData cluster index = data cluster index

/-- The clusters are of the same size. -/
theorem SameVolume.sectorsPerCluster {fs after : FileSystem} (same : SameVolume fs after) :
    after.bpb.sectorsPerCluster = fs.bpb.sectorsPerCluster := by
  rw [same.fields]

/-- A cluster's sectors have the same numbers. -/
theorem SameVolume.dataSector {fs after : FileSystem} (same : SameVolume fs after)
    (cluster index : Nat) : after.dataSector cluster index = fs.dataSector cluster index := by
  rw [same.fields]
  rfl

/-- Data takes up as many clusters as before. -/
theorem SameVolume.clustersFor {fs after : FileSystem} (same : SameVolume fs after)
    (dataSize : Nat) : after.clustersFor dataSize = fs.clustersFor dataSize := by
  rw [same.fields]
  rfl

/-- Nothing has changed. -/
theorem Alters.refl (fs : FileSystem) : fs.Alters fs fs.fatEntry fs.sectorData :=
  ⟨SameVolume.refl fs, fun _ _ => rfl, fun _ _ _ _ => rfl⟩

/-- Two changes, one after the other. -/
theorem Alters.trans {fs middle after : FileSystem} {fat fat' : Nat → Nat}
    {data data' : Nat → Nat → Buffer} (first : fs.Alters middle fat data)
    (second : middle.Alters after fat' data') : fs.Alters after fat' data' := by
  -- The geometry in the middle is that of the first state.
  refine ⟨first.same.trans second.same, ?_, ?_⟩
  · intro cluster small
    apply second.fat
    rw [first.same.fields]
    exact small
  · intro cluster valid index inside
    apply second.data cluster (first.same.inVolume.mpr valid)
    rw [first.same.sectorsPerCluster]
    exact inside

/-- The same table and the same bytes, written differently. -/
theorem Alters.congr {fs after : FileSystem} {fat fat' : Nat → Nat} {data data' : Nat → Nat → Buffer}
    (alters : fs.Alters after fat data)
    (fats : ∀ cluster < fs.totalClusters, fat' cluster = fat cluster)
    (datas : ∀ cluster, fs.InVolume cluster → ∀ index < fs.bpb.sectorsPerCluster,
      data' cluster index = data cluster index) : fs.Alters after fat' data' := by
  refine ⟨alters.same, ?_, ?_⟩
  · intro cluster small
    exact (alters.fat cluster small).trans (fats cluster small).symm
  · intro cluster valid index inside
    exact (alters.data cluster valid index inside).trans (datas cluster valid index inside).symm

section Transfers

variable {fs : FileSystem}

/-- Writing a sector of a cluster. -/
theorem Layout.store_alters (layout : fs.Layout) {cluster index : Nat} (valid : fs.InVolume cluster)
    (inside : index < fs.bpb.sectorsPerCluster) (bytes : Buffer) :
    fs.Alters (fs.store (fs.dataSector cluster index) bytes) fs.fatEntry fun other index' =>
      if other = cluster ∧ index' = index then cutBlock bytes else fs.sectorData other index' := by
  refine ⟨fs.store_same _ _, ?_, ?_⟩
  · intro other small
    exact fatEntry_store layout bytes (layout.dataSector_bounds valid inside).1 small
  · intro other valid' index' inside'
    have place : (fs.store (fs.dataSector cluster index) bytes).dataSector other index' =
        fs.dataSector other index' := rfl
    rw [sectorData, place, store_block]
    by_cases equal : other = cluster ∧ index' = index
    · rw [if_pos equal, equal.1, equal.2, if_pos rfl]
    · rw [if_neg equal, if_neg]
      · rfl
      · intro sectors
        exact equal (layout.dataSector_inj valid' valid inside' inside sectors)

/-- A change of one entry of the table. -/
theorem Updates.alters (layout : fs.Layout) (reliable : fs.Reliable) {cluster value : Nat}
    {after : FileSystem} (updates : fs.Updates cluster value after) :
    fs.Alters after (Function.update fs.fatEntry cluster (value % 2 ^ 28)) fs.sectorData := by
  refine ⟨updates.same, ?_, ?_⟩
  · intro other small
    by_cases equal : other = cluster
    · rw [equal, Function.update_self, (updates.accepted (reliable.read _ _) (reliable.write _)).1]
    · rw [Function.update_of_ne equal, updates.others other small equal]
  · intro other valid index inside
    rw [sectorData, updates.same.dataSector,
      updates.data _ (layout.dataSector_bounds valid inside).1, sectorData]

/-- Updating an entry of the table succeeds. -/
theorem Layout.updateFatEntry_alters (layout : fs.Layout) (reliable : fs.Reliable) {cluster : Nat}
    (small : cluster < fs.totalClusters) (value : Nat) :
    ∃ after, fs.updateFatEntry cluster value = (true, after) ∧
      fs.Alters after (Function.update fs.fatEntry cluster (value % 2 ^ 28)) fs.sectorData := by
  obtain ⟨after, returned, -⟩ := updateFatEntry_eq layout reliable small value
  have updates := updateFatEntry_updates layout small value
  rw [returned] at updates
  exact ⟨after, returned, updates.alters layout reliable⟩

/-- The free clusters of a volume. -/
def freeClusters (fs : FileSystem) : Finset Nat :=
  (Finset.range fs.totalClusters).filter fun cluster => 2 ≤ cluster ∧ fs.fatEntry cluster = 0

/-- The free clusters depend on the table. -/
theorem Alters.freeClusters {after : FileSystem} {data : Nat → Nat → Buffer}
    (alters : fs.Alters after fs.fatEntry data) : after.freeClusters = fs.freeClusters := by
  have total : after.totalClusters = fs.totalClusters := by rw [alters.same.fields]
  ext cluster
  simp only [FileSystem.freeClusters, Finset.mem_filter, Finset.mem_range, total]
  constructor
  · rintro ⟨small, low, free⟩
    exact ⟨small, low, alters.fat cluster small ▸ free⟩
  · rintro ⟨small, low, free⟩
    exact ⟨small, low, (alters.fat cluster small).trans free⟩

/-- A volume has free clusters unless all are in use. -/
theorem freeClusters_eq_empty (used : ∀ other, fs.InVolume other → fs.fatEntry other ≠ 0) :
    fs.freeClusters = ∅ := by
  rw [freeClusters, Finset.filter_eq_empty_iff]
  intro cluster member free
  exact used cluster ⟨free.1, Finset.mem_range.mp member⟩ free.2

/-- Appending a cluster to a chain takes it from the free ones. -/
theorem card_freeClusters_extend {after : FileSystem} {cluster new : Nat}
    {data : Nat → Nat → Buffer} (valid : fs.InVolume new) (free : fs.fatEntry new = 0)
    (used : fs.fatEntry cluster ≠ 0)
    (alters : fs.Alters after
      (Function.update (Function.update fs.fatEntry new endMark) cluster new) data) :
    after.freeClusters.card + 1 = fs.freeClusters.card := by
  have total : after.totalClusters = fs.totalClusters := by rw [alters.same.fields]
  have member : new ∈ fs.freeClusters := by
    simp only [freeClusters, Finset.mem_filter, Finset.mem_range]
    exact ⟨valid.2, valid.1, free⟩
  -- The new cluster is the only one that was free and is not any more.
  have erased : after.freeClusters = fs.freeClusters.erase new := by
    ext other
    simp only [freeClusters, Finset.mem_filter, Finset.mem_range, Finset.mem_erase, total]
    have mark : endMark ≠ 0 := by decide
    have low := valid.1
    by_cases inside : other < fs.totalClusters
    · rw [alters.fat other inside]
      by_cases isCluster : other = cluster
      · subst isCluster
        rw [Function.update_self]
        omega
      · rw [Function.update_of_ne isCluster]
        by_cases isNew : other = new
        · subst isNew
          rw [Function.update_self]
          omega
        · rw [Function.update_of_ne isNew]
          tauto
    · tauto
  rw [erased, Finset.card_erase_add_one member]

/-- Taking a cluster. -/
theorem Layout.allocateCluster_alters (layout : fs.Layout) (reliable : fs.Reliable) :
    (fs.allocateCluster = (0, fs) ∧ fs.freeClusters = ∅) ∨
    ∃ taken after, fs.allocateCluster = (taken, after) ∧ fs.InVolume taken ∧
      fs.fatEntry taken = 0 ∧
      fs.Alters after (Function.update fs.fatEntry taken endMark) fs.sectorData := by
  have read : ∀ other, fs.readFatEntry other = fs.fatEntry other :=
    readFatEntry_eq layout.sector reliable
  rcases allocateCluster_cases layout with
    ⟨none, used⟩ | ⟨taken, after, some, valid, zero, updates, -⟩
  · left
    refine ⟨none, freeClusters_eq_empty fun other inside => ?_⟩
    rw [← read]
    exact used other inside
  · right
    rw [read] at zero
    exact ⟨taken, after, some, valid, zero, updates.alters layout reliable⟩

/-- The sectors of a cluster after the loop over them, from one of them on. -/
def overwrite (fs : FileSystem) (data : Buffer) (dataSize base cluster first : Nat)
    (other index : Nat) : Buffer :=
  if other = cluster ∧ first ≤ index ∧ base + 512 * index < dataSize then
    cutBlock (shifted data (base + 512 * index))
  else fs.sectorData other index

/-- Writing the sectors of a cluster that the data reaches. -/
theorem Layout.writeCluster_alters (layout : fs.Layout) (reliable : fs.Reliable) {cluster : Nat}
    (valid : fs.InVolume cluster) (data : Buffer) (dataSize base remaining : Nat) {index : Nat}
    (all : index + remaining = fs.bpb.sectorsPerCluster) :
    ∃ written after, fs.writeCluster (fs.clusterSector cluster) data dataSize remaining index
        (base + 512 * index) = (some written, after) ∧
      fs.Alters after fs.fatEntry (fs.overwrite data dataSize base cluster index) ∧
      (written = base + fs.clusterSize ∨
        dataSize ≤ written ∧ base + 512 * index ≤ written ∧ dataSize ≤ base + fs.clusterSize) ∧
      (base + 512 * index < dataSize → 0 < remaining → base + 512 * index < written) := by
  -- By induction on the sectors that are left.
  induction remaining generalizing fs index with
  | zero =>
    have last : index = fs.bpb.sectorsPerCluster := all
    refine ⟨_, fs, rfl, (Alters.refl fs).congr (fun _ _ => rfl) ?_, .inl ?_, fun _ wrong =>
      absurd wrong (Nat.lt_irrefl 0)⟩
    · intro other _ index' inside
      rw [overwrite, if_neg (by omega)]
    · rw [clusterSize, last]
  | succ remaining ih =>
    have inside : index < fs.bpb.sectorsPerCluster := by omega
    have number : (fs.clusterSector cluster + index) % 2 ^ 32 = fs.dataSector cluster index :=
      layout.clusterSector_add valid inside
    rw [writeCluster]
    by_cases more : base + 512 * index < dataSize
    · -- One sector is written, and the rest of them after it.
      have first := layout.store_alters valid inside (shifted data (base + 512 * index))
      rw [if_pos more, number, writeSector_eq layout.sector reliable]
      generalize fs.store (fs.dataSector cluster index) (shifted data (base + 512 * index)) =
        stored at first
      have same := first.same
      obtain ⟨written, after, returned, rest, reach, further⟩ := ih (layout.same same)
        (reliable.same same) (same.inVolume.mpr valid)
        (show index + 1 + remaining = stored.bpb.sectorsPerCluster by
          rw [same.sectorsPerCluster]; omega)
      have position : base + 512 * index + stored.bpb.bytesPerSector = base + 512 * (index + 1) := by
        rw [same.bytesPerSector, layout.sector]
        omega
      have size : stored.clusterSize = fs.clusterSize := by
        rw [clusterSize, same.sectorsPerCluster, clusterSize]
      rw [same.clusterSector] at returned
      rw [size] at reach
      refine ⟨written, after, ?_, ?_, ?_, ?_⟩
      · dsimp only
        rw [position, returned]
      · refine (first.trans rest).congr ?_ ?_
        · intro other small
          exact (first.fat other small).symm
        · intro other valid' index' inside'
          simp only [overwrite]
          by_cases here : other = cluster ∧ index' = index
          · obtain ⟨rfl, rfl⟩ := here
            rw [if_pos ⟨rfl, Nat.le_refl _, more⟩, if_neg (by omega), first.data other valid' index'
              inside', if_pos ⟨rfl, rfl⟩]
          · have place : (other = cluster ∧ index ≤ index' ∧ base + 512 * index' < dataSize) ↔
                (other = cluster ∧ index + 1 ≤ index' ∧ base + 512 * index' < dataSize) := by
              omega
            rw [first.data other valid' index' inside', if_neg here]
            simp only [place]
      · rcases reach with all' | done
        · exact .inl all'
        · exact .inr (by omega)
      · intro _ _
        rcases reach with all' | done
        · rw [all', clusterSize]
          omega
        · omega
    · rw [if_neg more]
      refine ⟨_, fs, rfl, (Alters.refl fs).congr (fun _ _ => rfl) ?_, .inr ?_, fun wrong _ =>
        absurd wrong more⟩
      · intro other _ index' inside'
        rw [overwrite, if_neg (by omega)]
      · rw [clusterSize]
        omega

end Transfers

/--
The chain of a file has become another one.

The new chain uses clusters of the old one and clusters that were free.
-/
structure RewritesFile (fs : FileSystem) (clusters : List Nat) (after : FileSystem) (start : Nat)
    (clusters' : List Nat) : Prop where
  /-- Only the disk has changed. -/
  same : SameVolume fs after
  /-- The new chain starts where the old one did. -/
  links : after.Links start clusters'
  /-- Its clusters are old or were free. -/
  fresh : ∀ cluster ∈ clusters', cluster ∈ clusters ∨ fs.fatEntry cluster = 0
  /-- Clusters in use outside the old chain keep their entries. -/
  fat : ∀ cluster, fs.InVolume cluster → cluster ∉ clusters → fs.fatEntry cluster ≠ 0 →
    after.fatEntry cluster = fs.fatEntry cluster
  /-- They keep the bytes of their sectors. -/
  data : ∀ cluster, fs.InVolume cluster → cluster ∉ clusters → fs.fatEntry cluster ≠ 0 →
    ∀ index < fs.bpb.sectorsPerCluster, after.sectorData cluster index = fs.sectorData cluster index

/-- The clusters of a list hold the data, sector by sector, as far as it goes. -/
def HoldsData (fs : FileSystem) (data : Buffer) (clusters : List Nat) (dataSize : Nat) : Prop :=
  ∀ index, 512 * index < dataSize → ∃ cluster,
    clusters[index / fs.bpb.sectorsPerCluster]? = some cluster ∧
    fs.sectorData cluster (index % fs.bpb.sectorsPerCluster) = cutBlock (shifted data (512 * index))

section Rewriting

variable {fs : FileSystem} {start : Nat}

/-- Clusters of a chain are in use. -/
theorem Links.used {clusters : List Nat} (links : fs.Links start clusters) {cluster : Nat}
    (member : cluster ∈ clusters) : fs.fatEntry cluster ≠ 0 :=
  fatEntry_ne_zero links.linked links.valid member

/-- Nothing has been rewritten. -/
theorem RewritesFile.refl {clusters : List Nat} (links : fs.Links start clusters) :
    fs.RewritesFile clusters fs start clusters where
  same := SameVolume.refl fs
  links := links
  fresh := fun _ => .inl
  fat := fun _ _ _ _ => rfl
  data := fun _ _ _ _ _ _ => rfl

/-- Rewriting twice is rewriting. -/
theorem RewritesFile.trans {middle after : FileSystem} {clusters middles clusters' : List Nat}
    (first : fs.RewritesFile clusters middle start middles)
    (second : middle.RewritesFile middles after start clusters') :
    fs.RewritesFile clusters after start clusters' := by
  -- A cluster in use outside the first chain is in use outside the second one.
  have outside : ∀ cluster, fs.InVolume cluster → cluster ∉ clusters → fs.fatEntry cluster ≠ 0 →
      middle.InVolume cluster ∧ cluster ∉ middles ∧ middle.fatEntry cluster ≠ 0 := by
    intro cluster valid absent used
    refine ⟨first.same.inVolume.mpr valid, ?_, ?_⟩
    · intro member
      exact (first.fresh cluster member).elim absent used
    · rw [first.fat cluster valid absent used]
      exact used
  refine ⟨first.same.trans second.same, second.links, ?_, ?_, ?_⟩
  · intro cluster member
    by_cases old : cluster ∈ clusters
    · exact .inl old
    · right
      by_contra used
      have valid : fs.InVolume cluster :=
        (first.same.trans second.same).inVolume.mp (second.links.valid cluster member)
      obtain ⟨-, absent, used'⟩ := outside cluster valid old used
      exact (second.fresh cluster member).elim absent used'
  · intro cluster valid absent used
    obtain ⟨valid', absent', used'⟩ := outside cluster valid absent used
    rw [second.fat cluster valid' absent' used', first.fat cluster valid absent used]
  · intro cluster valid absent used index inside
    obtain ⟨valid', absent', used'⟩ := outside cluster valid absent used
    rw [second.data cluster valid' absent' used' index
      (by rw [first.same.sectorsPerCluster]; exact inside),
      first.data cluster valid absent used index inside]

/-- Writing sectors of clusters of the chain. -/
theorem RewritesFile.write {after : FileSystem} {clusters : List Nat}
    (links : fs.Links start clusters) {written : Nat → Nat → Buffer}
    (alters : fs.Alters after fs.fatEntry written)
    (others : ∀ cluster, cluster ∉ clusters → written cluster = fs.sectorData cluster) :
    fs.RewritesFile clusters after start clusters := by
  refine ⟨alters.same, alters.same.links links fun other inside =>
    alters.fat other (links.valid other inside).2, fun _ inside => .inl inside, ?_, ?_⟩
  · intro other valid _ _
    exact alters.fat other valid.2
  · intro other valid absent _ index inside
    rw [alters.data other valid index inside, others other absent]

/-- Ending the chain at one of its clusters. -/
theorem RewritesFile.truncate {after : FileSystem} {front rest : List Nat} {cluster : Nat}
    (links : fs.Links start (front ++ cluster :: rest))
    (alters : fs.Alters after (Function.update fs.fatEntry cluster endMark) fs.sectorData) :
    fs.RewritesFile (front ++ cluster :: rest) after start (front ++ [cluster]) := by
  obtain ⟨-, tail, apart⟩ := List.nodup_append.mp links.nodup
  have member : ∀ other ∈ front ++ [cluster], other ∈ front ++ cluster :: rest := by
    intro other inside
    rcases List.mem_append.mp inside with early | late
    · exact List.mem_append_left _ early
    · rw [List.mem_singleton.mp late]
      simp
  have entry : ∀ other ∈ front ++ [cluster],
      after.fatEntry other = Function.update fs.fatEntry cluster endMark other :=
    fun other inside => alters.fat other (links.valid other (member other inside)).2
  refine ⟨alters.same, ⟨?_, ?_, ?_, ?_⟩, fun other inside => .inl (member other inside), ?_, ?_⟩
  · -- The clusters in front keep their entries, and this one ends the chain.
    apply Linked.truncate links.linked
    · intro other early
      rw [entry other (List.mem_append_left _ early), Function.update_of_ne]
      exact apart other early cluster List.mem_cons_self
    · show endMark ≤ after.fatEntry cluster
      rw [entry cluster (by simp), Function.update_self]
  · have head := links.head
    cases front with
    | nil => exact head
    | cons first front => exact head
  · apply List.Nodup.sublist _ links.nodup
    exact List.Sublist.append_left (List.singleton_sublist.mpr List.mem_cons_self) _
  · intro other inside
    exact alters.same.inVolume.mpr (links.valid other (member other inside))
  · intro other valid absent _
    rw [alters.fat other valid.2, Function.update_of_ne]
    rintro rfl
    exact absent (by simp)
  · intro other valid _ _ index inside
    exact alters.data other valid index inside

/-- Appending a free cluster to the chain. -/
theorem RewritesFile.extend {after : FileSystem} {front : List Nat} {cluster new : Nat}
    (links : fs.Links start (front ++ [cluster])) (valid : fs.InVolume new)
    (free : fs.fatEntry new = 0)
    (alters : fs.Alters after
      (Function.update (Function.update fs.fatEntry new endMark) cluster new) fs.sectorData) :
    fs.RewritesFile (front ++ [cluster]) after start (front ++ [cluster] ++ [new]) := by
  have outside : new ∉ front ++ [cluster] := fun member => links.used member free
  obtain ⟨-, -, apart⟩ := List.nodup_append.mp links.nodup
  have different : new ≠ cluster := by
    rintro rfl
    exact outside (by simp)
  have shape : front ++ [cluster] ++ [new] = front ++ cluster :: new :: [] := by simp
  have early : ∀ other ∈ front ++ [cluster], after.fatEntry other =
      Function.update (Function.update fs.fatEntry new endMark) cluster new other :=
    fun other inside => alters.fat other (links.valid other inside).2
  refine ⟨alters.same, ⟨?_, ?_, ?_, ?_⟩, ?_, ?_, ?_⟩
  · -- The old last cluster leads to the new one, which ends the chain.
    rw [shape]
    apply Linked.splice links.linked
    · intro other inside
      rw [early other (List.mem_append_left _ inside), Function.update_of_ne, Function.update_of_ne]
      · rintro rfl
        exact outside (List.mem_append_left _ inside)
      · exact apart other inside cluster (List.mem_singleton.mpr rfl)
    · rw [early cluster (by simp), Function.update_self]
    · show endMark ≤ after.fatEntry new
      rw [alters.fat new valid.2, Function.update_of_ne different, Function.update_self]
  · have head := links.head
    cases front with
    | nil => exact head
    | cons first front => exact head
  · rw [List.nodup_append]
    refine ⟨links.nodup, List.nodup_singleton _, ?_⟩
    rintro other inside last member rfl
    exact outside (List.mem_singleton.mp member ▸ inside)
  · intro other inside
    rcases List.mem_append.mp inside with old | last
    · exact alters.same.inVolume.mpr (links.valid other old)
    · rw [List.mem_singleton.mp last]
      exact alters.same.inVolume.mpr valid
  · intro other inside
    rcases List.mem_append.mp inside with old | last
    · exact .inl old
    · rw [List.mem_singleton.mp last]
      exact .inr free
  · intro other valid' absent used
    rw [alters.fat other valid'.2, Function.update_of_ne, Function.update_of_ne]
    · rintro rfl
      exact used free
    · rintro rfl
      exact absent (by simp)
  · intro other valid' _ _ index inside
    exact alters.data other valid' index inside

/-- Held data stays held when its clusters keep their bytes. -/
theorem HoldsData.congr {after : FileSystem} {data : Buffer} {clusters : List Nat} {dataSize : Nat}
    (layout : fs.Layout) (holds : fs.HoldsData data clusters dataSize) (same : SameVolume fs after)
    (kept : ∀ cluster ∈ clusters, ∀ index < fs.bpb.sectorsPerCluster,
      after.sectorData cluster index = fs.sectorData cluster index) :
    after.HoldsData data clusters dataSize := by
  intro index inside
  obtain ⟨cluster, place, bytes⟩ := holds index inside
  rw [same.sectorsPerCluster]
  refine ⟨cluster, place, ?_⟩
  rw [kept cluster (List.mem_of_getElem? place) _ (Nat.mod_lt _ layout.cluster), bytes]

/-- Less data in more clusters. -/
theorem HoldsData.mono {data : Buffer} {clusters more : List Nat} {dataSize less : Nat}
    (holds : fs.HoldsData data clusters dataSize) (smaller : less ≤ dataSize) :
    fs.HoldsData data (clusters ++ more) less := by
  intro index inside
  obtain ⟨cluster, place, bytes⟩ := holds index (by omega)
  obtain ⟨within, -⟩ := List.getElem?_eq_some_iff.mp place
  exact ⟨cluster, by rw [List.getElem?_append_left within, place], bytes⟩

end Rewriting

section Counting

variable {fs : FileSystem}

/-- A cluster has bytes. -/
theorem Layout.clusterSize_pos (layout : fs.Layout) : 0 < fs.clusterSize :=
  Nat.mul_pos (by decide) layout.cluster

/-- Data that goes beyond some clusters takes up more of them. -/
theorem Layout.lt_clustersFor (layout : fs.Layout) {count dataSize : Nat} :
    count < fs.clustersFor dataSize ↔ fs.clusterSize * count < dataSize := by
  -- Rounding up, in terms of multiples.
  have positive := layout.clusterSize_pos
  rw [clustersFor, Nat.lt_iff_add_one_le, Nat.le_div_iff_mul_le positive, Nat.add_mul, Nat.one_mul,
    Nat.mul_comm count]
  omega

/-- Data that ends in a cluster takes up the clusters up to it. -/
theorem Layout.clustersFor_eq (layout : fs.Layout) {count dataSize : Nat}
    (beyond : fs.clusterSize * count < dataSize) (within : dataSize ≤ fs.clusterSize * (count + 1)) :
    fs.clustersFor dataSize = count + 1 := by
  apply Nat.le_antisymm
  · rw [← Nat.not_lt, layout.lt_clustersFor]
    omega
  · exact layout.lt_clustersFor.mpr beyond

/-- The data fits in the clusters it takes up. -/
theorem Layout.le_clustersFor (layout : fs.Layout) (dataSize : Nat) :
    dataSize ≤ fs.clusterSize * fs.clustersFor dataSize := by
  rw [← Nat.not_lt, ← layout.lt_clustersFor]
  exact Nat.lt_irrefl _

end Counting

/-- What the loop over the clusters of a file comes to. -/
structure WritesData (fs : FileSystem) (data : Buffer) (dataSize : Nat) (clusters : List Nat)
    (start : Nat) (result : Option Nat) (after : FileSystem) : Prop where
  /--
  A cluster returned ends a part of the chain that holds the data.

  Either the chain has just as many clusters as the data takes up, the old ones first, or it is the
  old one and the loop has gone one cluster too far.
  -/
  done : ∀ last, result = some last → ∃ front rest,
    fs.RewritesFile clusters after start (front ++ last :: rest) ∧
    after.HoldsData data (front ++ [last]) dataSize ∧
    (rest = [] ∧ (front ++ [last]).length = fs.clustersFor dataSize ∧ clusters <+: front ++ [last] ∨
      front ++ last :: rest = clusters ∧ front.length = fs.clustersFor dataSize ∧
        ∀ cluster < fs.totalClusters, after.fatEntry cluster = fs.fatEntry cluster)
  /-- Without one there is still a chain, and there was too little room. -/
  failed : result = none → (∃ clusters', fs.RewritesFile clusters after start clusters') ∧
    clusters.length + fs.freeClusters.card < fs.clustersFor dataSize

/-- A round of the loop that has changed no entry of the table. -/
theorem WritesData.after_write {fs middle after : FileSystem} {data : Buffer} {dataSize : Nat}
    {clusters : List Nat} {start : Nat} {result : Option Nat} {written : Nat → Nat → Buffer}
    (first : fs.RewritesFile clusters middle start clusters)
    (alters : fs.Alters middle fs.fatEntry written)
    (rest : middle.WritesData data dataSize clusters start result after) :
    fs.WritesData data dataSize clusters start result after := by
  have total : middle.totalClusters = fs.totalClusters := by rw [alters.same.fields]
  constructor
  · intro last same
    obtain ⟨front, tail, rewrites, holds, shape⟩ := rest.done last same
    refine ⟨front, tail, first.trans rewrites, holds, ?_⟩
    rw [alters.same.clustersFor] at shape
    rcases shape with exact' | ⟨old, count, entries⟩
    · exact .inl exact'
    · refine .inr ⟨old, count, fun cluster small => ?_⟩
      rw [entries cluster (by rw [total]; exact small), alters.fat cluster small]
  · intro none
    obtain ⟨⟨clusters', rewrites⟩, little⟩ := rest.failed none
    rw [alters.freeClusters, alters.same.clustersFor] at little
    exact ⟨⟨clusters', first.trans rewrites⟩, little⟩

/-- A round of the loop that has appended a cluster, with more data to come. -/
theorem WritesData.after_extend {fs middle after : FileSystem} {data : Buffer} {dataSize : Nat}
    {clusters : List Nat} {start new : Nat} {result : Option Nat}
    (first : fs.RewritesFile clusters middle start (clusters ++ [new]))
    (card : middle.freeClusters.card + 1 = fs.freeClusters.card)
    (more : clusters.length < fs.clustersFor dataSize)
    (rest : middle.WritesData data dataSize (clusters ++ [new]) start result after) :
    fs.WritesData data dataSize clusters start result after := by
  constructor
  · intro last same
    obtain ⟨front, tail, rewrites, holds, shape⟩ := rest.done last same
    refine ⟨front, tail, first.trans rewrites, holds, .inl ?_⟩
    rw [first.same.clustersFor] at shape
    rcases shape with ⟨ends, count, extends'⟩ | ⟨old, count, -⟩
    · exact ⟨ends, count, (List.prefix_append clusters [new]).trans extends'⟩
    · -- The loop cannot have gone too far.
      have lengths := congrArg List.length old
      simp only [List.length_append, List.length_cons, List.length_nil] at lengths
      obtain rfl := List.eq_nil_of_length_eq_zero (show tail.length = 0 by omega)
      omega
  · intro none
    obtain ⟨⟨clusters', rewrites⟩, little⟩ := rest.failed none
    rw [first.same.clustersFor, List.length_append, List.length_singleton] at little
    exact ⟨⟨clusters', first.trans rewrites⟩, by omega⟩

section Loop

variable {fs : FileSystem}

/-- Appending a cluster to a chain that is too short, if one is free. -/
theorem Layout.extendChain (layout : fs.Layout) (reliable : fs.Reliable) {start current : Nat}
    {front : List Nat} (links : fs.Links start (front ++ [current])) :
    (fs.allocateCluster = (0, fs) ∧ fs.freeClusters = ∅) ∨
    ∃ new taken after, fs.allocateCluster = (new, taken) ∧ new ≠ 0 ∧
      taken.updateFatEntry current new = (true, after) ∧
      fs.RewritesFile (front ++ [current]) after start (front ++ [current] ++ [new]) ∧
      after.freeClusters.card + 1 = fs.freeClusters.card ∧
      ∀ cluster ∈ front ++ [current], ∀ index < fs.bpb.sectorsPerCluster,
        after.sectorData cluster index = fs.sectorData cluster index := by
  have valid : fs.InVolume current := links.valid current (by simp)
  rcases layout.allocateCluster_alters reliable with
    ⟨none, full⟩ | ⟨new, taken, some, valid', free, alters⟩
  · exact .inl ⟨none, full⟩
  · have same := alters.same
    obtain ⟨after, updated, alters'⟩ := (layout.same same).updateFatEntry_alters
      (reliable.same same) (same.inVolume.mpr valid).2 new
    have small : new % 2 ^ 28 = new := by
      have few := layout.numbered
      have limit : badMark < 2 ^ 28 := by decide
      obtain ⟨-, high⟩ := valid'
      exact Nat.mod_eq_of_lt (by omega)
    -- Both updates together.
    have both : fs.Alters after
        (Function.update (Function.update fs.fatEntry new endMark) current new) fs.sectorData := by
      apply (alters.trans alters').congr
      · intro cluster inside
        rw [small]
        by_cases here : cluster = current
        · rw [here, Function.update_self, Function.update_self]
        · rw [Function.update_of_ne here, Function.update_of_ne here, alters.fat cluster inside]
      · intro cluster inside index within
        exact (alters.data cluster inside index within).symm
    have low := valid'.1
    refine .inr ⟨new, taken, after, some, by omega, updated,
      RewritesFile.extend links valid' free both,
      card_freeClusters_extend valid' free (links.used (by simp)) both, ?_⟩
    intro cluster inside index within
    exact both.data cluster (links.valid cluster inside) index within

/-- One more cluster holds its part of the data. -/
theorem Layout.holdsData_concat (layout : fs.Layout) {middle : FileSystem} {data : Buffer}
    {dataSize : Nat} {front : List Nat} {current : Nat}
    (valid : ∀ cluster ∈ front ++ [current], fs.InVolume cluster) (fresh : current ∉ front)
    (holds : fs.HoldsData data front (min dataSize (fs.clusterSize * front.length)))
    (alters : fs.Alters middle fs.fatEntry
      (fs.overwrite data dataSize (fs.clusterSize * front.length) current 0)) :
    middle.HoldsData data (front ++ [current])
      (min dataSize (fs.clusterSize * (front ++ [current]).length)) := by
  have positive := layout.cluster
  intro index inside
  rw [alters.same.sectorsPerCluster]
  rw [List.length_append, List.length_singleton] at inside
  by_cases early : index / fs.bpb.sectorsPerCluster < front.length
  · -- An earlier sector is where it was.
    have before : 512 * index < fs.clusterSize * front.length := by
      have multiple := (Nat.div_lt_iff_lt_mul positive).mp early
      rw [clusterSize, Nat.mul_assoc, Nat.mul_comm fs.bpb.sectorsPerCluster]
      omega
    obtain ⟨cluster, place, bytes⟩ := holds index (by omega)
    have member := List.mem_of_getElem? place
    refine ⟨cluster, by rw [List.getElem?_append_left early, place], ?_⟩
    rw [alters.data cluster (valid cluster (List.mem_append_left _ member)) _
      (Nat.mod_lt _ positive), overwrite, if_neg, bytes]
    rintro ⟨rfl, -⟩
    exact fresh member
  · -- Another one is in the cluster that has been written.
    have last : index / fs.bpb.sectorsPerCluster = front.length := by
      have within : index < (front.length + 1) * fs.bpb.sectorsPerCluster := by
        rw [clusterSize, Nat.mul_assoc, Nat.mul_comm fs.bpb.sectorsPerCluster] at inside
        omega
      have above := (Nat.div_lt_iff_lt_mul positive).mpr within
      omega
    have split := Nat.div_add_mod index fs.bpb.sectorsPerCluster
    have offset : fs.clusterSize * front.length + 512 * (index % fs.bpb.sectorsPerCluster) =
        512 * index := by
      rw [← last, clusterSize, Nat.mul_assoc]
      omega
    refine ⟨current, ?_, ?_⟩
    · rw [last]
      simp
    · rw [alters.data current (valid current (by simp)) _ (Nat.mod_lt _ positive), overwrite,
        if_pos ⟨rfl, Nat.zero_le _, by omega⟩, offset]

/-- Where all data has been written, the loop ends. -/
theorem Layout.writesData_ended (layout : fs.Layout) {data : Buffer} {dataSize start current : Nat}
    {front rest : List Nat} (links : fs.Links start (front ++ current :: rest))
    (count : front.length = fs.clustersFor dataSize)
    (holds : fs.HoldsData data front (min dataSize (fs.clusterSize * front.length))) :
    fs.WritesData data dataSize (front ++ current :: rest) start (some current) fs := by
  have fits := layout.le_clustersFor dataSize
  refine ⟨?_, fun wrong => by cases wrong⟩
  intro last same
  obtain rfl := Option.some.inj same
  refine ⟨front, rest, RewritesFile.refl links, holds.mono ?_, .inr ⟨rfl, count, fun _ _ => rfl⟩⟩
  rw [count]
  omega

/-- The loop over the clusters of a file. -/
theorem writeChain_writesData {fs : FileSystem} (layout : fs.Layout) (reliable : fs.Reliable)
    (data : Buffer) (dataSize : Nat) {start current bytesWritten steps : Nat}
    {front rest : List Nat} (links : fs.Links start (front ++ current :: rest))
    (position : bytesWritten < dataSize → bytesWritten = fs.clusterSize * front.length)
    (finished : dataSize ≤ bytesWritten → front.length = fs.clustersFor dataSize)
    (holds : fs.HoldsData data front (min dataSize (fs.clusterSize * front.length)))
    (enough : dataSize < bytesWritten + steps) :
    ∃ result after, fs.writeChain data dataSize steps current bytesWritten = (result, after) ∧
      fs.WritesData data dataSize (front ++ current :: rest) start result after := by
  -- By induction on the rounds that are left; the clusters in front hold what has been written.
  induction steps generalizing fs current bytesWritten front rest with
  | zero => exact ⟨some current, fs, rfl, layout.writesData_ended links (finished (by omega)) holds⟩
  | succ steps ih =>
    have valid : fs.InVolume current := links.valid current (by simp)
    rw [writeChain]
    by_cases more : bytesWritten < dataSize
    · rw [if_pos more]
      have base := position more
      obtain ⟨-, -, apart⟩ := List.nodup_append.mp links.nodup
      have fresh : current ∉ front := fun member => apart current member current List.mem_cons_self rfl
      obtain ⟨written, middle, returned, alters, reach, further⟩ := layout.writeCluster_alters
        reliable valid data dataSize bytesWritten fs.bpb.sectorsPerCluster (Nat.zero_add _)
      rw [Nat.mul_zero, Nat.add_zero] at returned reach further
      have advance := further more layout.cluster
      have same := alters.same
      have size : middle.clusterSize = fs.clusterSize := by
        rw [clusterSize, same.sectorsPerCluster, clusterSize]
      have length : (front ++ [current]).length = front.length + 1 := by simp
      -- After this round another cluster holds data.
      have holds' : middle.HoldsData data (front ++ [current])
          (min dataSize (middle.clusterSize * (front ++ [current]).length)) := by
        rw [size]
        rw [base] at alters
        refine layout.holdsData_concat ?_ fresh holds alters
        intro cluster member
        apply links.valid
        rcases List.mem_append.mp member with early | late
        · exact List.mem_append_left _ early
        · rw [List.mem_singleton.mp late]
          simp
      have position' : written < dataSize →
          written = middle.clusterSize * (front ++ [current]).length := by
        intro little
        rw [size, length, Nat.mul_add, Nat.mul_one]
        omega
      have finished' : dataSize ≤ written →
          (front ++ [current]).length = middle.clustersFor dataSize := by
        intro all
        rw [same.clustersFor, length, layout.clustersFor_eq (show fs.clusterSize * front.length <
          dataSize by omega)]
        rw [Nat.mul_add, Nat.mul_one]
        omega
      have first : fs.RewritesFile (front ++ current :: rest) middle start (front ++ current :: rest) := by
        apply RewritesFile.write links alters
        intro cluster outside
        funext index
        rw [overwrite, if_neg]
        rintro ⟨rfl, -⟩
        exact outside (by simp)
      have read : middle.readFatEntry current = fs.fatEntry current := by
        rw [readFatEntry_eq (layout.same same).sector (reliable.same same), alters.fat current valid.2]
      rw [returned]
      dsimp only
      rw [read]
      cases rest with
      | nil =>
        have last : endMark ≤ fs.fatEntry current := links.linked.drop
        rw [if_pos last]
        by_cases little : written < dataSize
        · rw [if_pos little]
          have beyond : (front ++ [current]).length < fs.clustersFor dataSize := by
            rw [layout.lt_clustersFor, ← size, ← position' little]
            exact little
          rcases (layout.same same).extendChain (reliable.same same) first.links with
            ⟨none, full⟩ | ⟨new, taken, linked, some, given, updated, longer, card, kept⟩
          · -- No cluster is left for the rest of the data.
            rw [none]
            refine ⟨Option.none, middle, rfl, (fun _ wrong => by cases wrong), fun _ => ⟨⟨_, first⟩, ?_⟩⟩
            rw [← alters.freeClusters, full, Finset.card_empty]
            exact beyond
          · rw [some]
            dsimp only
            rw [if_neg given, updated]
            have same' := longer.same
            have size' : linked.clusterSize = middle.clusterSize := by
              rw [clusterSize, same'.sectorsPerCluster, clusterSize]
            rw [alters.freeClusters] at card
            obtain ⟨result, after, ran, writes⟩ := ih ((layout.same same).same same')
              ((reliable.same same).same same') longer.links (by rw [size']; exact position')
              (by rw [same'.clustersFor]; exact finished')
              (by rw [size']; exact holds'.congr (layout.same same) same' kept) (by omega)
            exact ⟨result, after, ran,
              WritesData.after_extend (first.trans longer) card beyond writes⟩
        · -- The last cluster is the one the data ends in.
          rw [if_neg little]
          refine ⟨some current, middle, rfl, ?_, fun wrong => by cases wrong⟩
          intro other isLast
          obtain rfl := Option.some.inj isLast
          have count := finished' (by omega)
          refine ⟨front, [], first, ?_, .inl ⟨rfl, ?_, List.prefix_rfl⟩⟩
          · rw [← List.append_nil (front ++ [current])]
            apply holds'.mono
            rw [count]
            have fits := (layout.same same).le_clustersFor dataSize
            omega
          · rw [count, same.clustersFor]
      | cons second rest =>
        have next : fs.fatEntry current = second := links.linked.drop.1
        have inside : fs.InVolume second := links.valid second (by simp)
        obtain ⟨small, inner⟩ := layout.not_mark inside
        rw [next, if_neg inner, if_neg (by omega)]
        have shape : front ++ current :: second :: rest = (front ++ [current]) ++ second :: rest := by
          simp
        rw [shape] at first ⊢
        obtain ⟨result, after, ran, writes⟩ := ih (layout.same same) (reliable.same same) first.links
          position' finished' holds' (by omega)
        exact ⟨result, after, ran, WritesData.after_write first alters writes⟩
    · rw [if_neg more]
      exact ⟨some current, fs, rfl, layout.writesData_ended links (finished (by omega)) holds⟩

end Loop

/-- What writing a file comes to: its new chain, and how it lies to the old one. -/
structure Writes (fs : FileSystem) (data : Buffer) (dataSize : Nat) (clusters : List Nat)
    (start : Nat) (told : Bool) (after : FileSystem) (clusters' : List Nat) : Prop where
  /-- The file has a chain, and no other one has changed. -/
  rewrites : fs.RewritesFile clusters after start clusters'
  /-- After a success the chain holds the data. -/
  holds : told = true → after.HoldsData data clusters' dataSize
  /-- A chain that was not too long has become just long enough. -/
  exact' : told = true → clusters.length ≤ max 1 (fs.clustersFor dataSize) →
    clusters'.length = max 1 (fs.clustersFor dataSize) ∧ clusters <+: clusters'
  /-- Of one that was too long a cluster too much is left, and the others keep their entries. -/
  long : told = true → max 1 (fs.clustersFor dataSize) < clusters.length →
    clusters' = clusters.take (fs.clustersFor dataSize + 1) ∧
    ∀ cluster ∈ clusters, cluster ∉ clusters' → after.fatEntry cluster = fs.fatEntry cluster
  /-- A failure means that there was too little room. -/
  failed : told = false → clusters.length + fs.freeClusters.card < fs.clustersFor dataSize

/-- Writing a file rewrites its chain, and stores the data if there is room. -/
theorem Layout.writeFile_writes {fs : FileSystem} (layout : fs.Layout) (reliable : fs.Reliable)
    {start : Nat} {clusters : List Nat} (links : fs.Links start clusters) (data : Buffer)
    (dataSize : Nat) :
    ∃ told after clusters', fs.writeFile start data dataSize = (told, after) ∧
      fs.Writes data dataSize clusters start told after clusters' := by
  obtain ⟨rest, rfl⟩ := ChainFrom.exists_cons links
  have parameters : ¬ (fs.bpb.sectorsPerCluster = 0 ∨ fs.bpb.bytesPerSector = 0) := by
    have positive := layout.cluster
    have sector := layout.sector
    omega
  obtain ⟨result, middle, returned, writes⟩ := writeChain_writesData layout reliable data dataSize
    (show fs.Links start ([] ++ start :: rest) from links)
    (show 0 < dataSize → 0 = fs.clusterSize * ([] : List Nat).length from fun _ => by simp)
    (fun none => by
      have zero : dataSize = 0 := by omega
      rw [zero, List.length_nil, eq_comm, ← Nat.le_zero, ← Nat.not_lt, layout.lt_clustersFor]
      omega)
    (fun index wrong => by simp at wrong) (show dataSize < 0 + (dataSize + 1) by omega)
  rw [List.nil_append] at writes
  rw [FileSystem.writeFile, if_neg parameters, returned]
  cases result with
  | none =>
    obtain ⟨⟨clusters', rewrites⟩, little⟩ := writes.failed rfl
    exact ⟨false, middle, clusters', rfl, rewrites, (fun wrong => by cases wrong),
      (fun wrong => by cases wrong), (fun wrong => by cases wrong), fun _ => little⟩
  | some last =>
    -- The cluster the loop ended at becomes the last one.
    obtain ⟨front, tail, rewrites, holds, shape⟩ := writes.done last rfl
    have same := rewrites.same
    have valid : middle.InVolume last := rewrites.links.valid last (by simp)
    obtain ⟨after, updated, alters⟩ :=
      (layout.same same).updateFatEntry_alters (reliable.same same) valid.2 endMark
    have small : endMark % 2 ^ 28 = endMark := by decide
    rw [small] at alters
    have length : (front ++ [last]).length = front.length + 1 := by simp
    refine ⟨true, after, front ++ [last], updated,
      rewrites.trans (RewritesFile.truncate rewrites.links alters), ?_, ?_, ?_,
      fun wrong => by cases wrong⟩
    · intro _
      apply holds.congr (layout.same same) alters.same
      intro cluster member
      apply alters.data cluster
      apply rewrites.links.valid
      rcases List.mem_append.mp member with early | late
      · exact List.mem_append_left _ early
      · rw [List.mem_singleton.mp late]
        simp
    · intro _ enough
      rcases shape with ⟨-, count, extends'⟩ | ⟨old, count, -⟩
      · exact ⟨by omega, extends'⟩
      · -- Without data the loop ends at the first cluster.
        have lengths := congrArg List.length old
        simp only [List.length_append, List.length_cons] at lengths enough
        obtain rfl := List.eq_nil_of_length_eq_zero (show tail.length = 0 by omega)
        refine ⟨by omega, ?_⟩
        rw [old]
    · intro _ tooLong
      rcases shape with ⟨-, count, extends'⟩ | ⟨old, count, entries⟩
      · have shorter := extends'.length_le
        omega
      · constructor
        · have split : front ++ last :: tail = (front ++ [last]) ++ tail := by simp
          rw [← old, ← count, split, ← length, List.take_left]
        · intro cluster member absent
          have inside := links.valid cluster member
          have different : cluster ≠ last := by
            rintro rfl
            exact absent (by simp)
          rw [alters.fat cluster (same.inVolume.mpr inside).2, Function.update_of_ne different,
            entries cluster inside.2]

section Reading

variable {fs : FileSystem}

/-- Reading the sectors of a cluster that holds data, as far as the buffer reaches. -/
theorem Layout.readCluster_eq (layout : fs.Layout) (reliable : fs.Reliable) {cluster : Nat}
    (valid : fs.InVolume cluster) {data : Buffer} {size base : Nat} (buffer : Buffer)
    (holds : ∀ index < fs.bpb.sectorsPerCluster, base + 512 * index < size →
      fs.sectorData cluster index = cutBlock (shifted data (base + 512 * index)))
    (remaining : Nat) {index : Nat} (all : index + remaining = fs.bpb.sectorsPerCluster) :
    fs.readCluster (fs.clusterSector cluster) size remaining index (min size (base + 512 * index))
        (putBytes buffer 0 (min size (base + 512 * index)) data) =
      (some (min size (base + fs.clusterSize)),
        putBytes buffer 0 (min size (base + fs.clusterSize)) data) := by
  -- By induction on the sectors that are left.
  induction remaining generalizing index with
  | zero =>
    have last : index = fs.bpb.sectorsPerCluster := all
    rw [readCluster, last, clusterSize]
  | succ remaining ih =>
    have inside : index < fs.bpb.sectorsPerCluster := by omega
    have number : (fs.clusterSector cluster + index) % 2 ^ 32 = fs.dataSector cluster index :=
      layout.clusterSector_add valid inside
    rw [readCluster]
    by_cases more : base + 512 * index < size
    · have before : min size (base + 512 * index) = base + 512 * index := by omega
      have next : base + 512 * index + min (size - (base + 512 * index)) 512 =
          min size (base + 512 * (index + 1)) := by omega
      -- The bytes of the sector are put behind those read before.
      have bytes : putBytes (putBytes buffer 0 (base + 512 * index) data) (base + 512 * index)
          (min (size - (base + 512 * index)) 512) (fs.block (fs.dataSector cluster index)) =
          putBytes buffer 0 (min size (base + 512 * (index + 1))) data := by
        have held := holds index inside more
        funext offset
        simp only [putBytes, Nat.zero_le, true_and, Nat.zero_add, Nat.sub_zero]
        by_cases here : base + 512 * index ≤ offset ∧
            offset < base + 512 * index + min (size - (base + 512 * index)) 512
        · have place : base + 512 * index + (offset - (base + 512 * index)) = offset := by omega
          rw [if_pos here, if_pos (by omega), show fs.block (fs.dataSector cluster index) = _ from held,
            cutBlock, if_pos (by omega), shifted, place]
        · rw [if_neg here]
          by_cases earlier : offset < base + 512 * index
          · rw [if_pos earlier, if_pos (by omega)]
          · rw [if_neg earlier, if_neg (by omega)]
      rw [before, if_pos more, number, readSector_eq layout.sector reliable]
      dsimp only
      rw [layout.sector, next, bytes]
      exact ih (by omega)
    · -- The buffer is full already.
      have full : min size (base + 512 * index) = size := by omega
      have full' : min size (base + fs.clusterSize) = size := by
        rw [clusterSize]
        omega
      rw [full, full', if_neg (Nat.lt_irrefl _)]

/-- Reading along a chain that holds data, as far as the buffer reaches. -/
theorem Layout.readChain_eq (layout : fs.Layout) (reliable : fs.Reliable) {start : Nat}
    {clusters : List Nat} (links : fs.Links start clusters) {data : Buffer} {size : Nat}
    (holds : fs.HoldsData data clusters size) (buffer : Buffer) {steps current : Nat}
    {front rest : List Nat} (shape : clusters = front ++ current :: rest)
    (enough : size < min size (fs.clusterSize * front.length) + steps) :
    fs.readChain size steps current (min size (fs.clusterSize * front.length))
      (putBytes buffer 0 (min size (fs.clusterSize * front.length)) data) =
    putBytes buffer 0 size data := by
  have positive := layout.clusterSize_pos
  -- By induction on the rounds that are left; the clusters in front have been read.
  induction steps generalizing current front rest with
  | zero => omega
  | succ steps ih =>
    rw [readChain]
    by_cases more : fs.clusterSize * front.length < size
    · have before : min size (fs.clusterSize * front.length) = fs.clusterSize * front.length := by
        omega
      have valid : fs.InVolume current := links.valid current (by rw [shape]; simp)
      have here : ∀ index < fs.bpb.sectorsPerCluster,
          fs.clusterSize * front.length + 512 * index < size → fs.sectorData current index =
            cutBlock (shifted data (fs.clusterSize * front.length + 512 * index)) := by
        intro index inside within
        have sector : 512 * (fs.bpb.sectorsPerCluster * front.length + index) =
            fs.clusterSize * front.length + 512 * index := by
          rw [clusterSize, Nat.mul_add, Nat.mul_assoc]
        obtain ⟨cluster, place, bytes⟩ := holds
          (fs.bpb.sectorsPerCluster * front.length + index) (by omega)
        rw [Nat.mul_add_div layout.cluster, Nat.div_eq_of_lt inside, Nat.add_zero, shape] at place
        rw [Nat.mul_add_mod, Nat.mod_eq_of_lt inside, sector] at bytes
        obtain rfl : current = cluster := by simpa using place
        exact bytes
      have read := layout.readCluster_eq reliable valid buffer here fs.bpb.sectorsPerCluster
        (Nat.zero_add _)
      have next : fs.clusterSize * front.length + fs.clusterSize =
          fs.clusterSize * (front ++ [current]).length := by
        rw [List.length_append, List.length_singleton, Nat.mul_add, Nat.mul_one]
      rw [Nat.mul_zero, Nat.add_zero, next] at read
      rw [if_pos (by omega), read]
      dsimp only
      by_cases all : size ≤ min size (fs.clusterSize * (front ++ [current]).length)
      · rw [if_pos all, show min size (fs.clusterSize * (front ++ [current]).length) = size by omega]
      · rw [if_neg all, readFatEntry_eq layout.sector reliable]
        -- There is data left, so there is another cluster.
        obtain ⟨second, rest, rfl⟩ : ∃ second others, rest = second :: others := by
          cases rest with
          | cons second others => exact ⟨second, others, rfl⟩
          | nil =>
            have reach : 512 * (fs.bpb.sectorsPerCluster * clusters.length) =
                fs.clusterSize * clusters.length := by
              rw [clusterSize, Nat.mul_assoc]
            rw [← shape] at all
            have beyond : 512 * (fs.bpb.sectorsPerCluster * clusters.length) < size := by
              rw [reach]
              omega
            obtain ⟨cluster, place, -⟩ := holds _ beyond
            rw [Nat.mul_div_cancel_left _ layout.cluster, List.getElem?_eq_none (Nat.le_refl _)] at place
            cases place
        have linked := links.linked
        rw [shape] at linked
        have follows : fs.fatEntry current = second := linked.drop.1
        have inside : fs.InVolume second := links.valid second (by rw [shape]; simp)
        obtain ⟨small, inner⟩ := layout.not_mark inside
        rw [follows, if_neg inner, if_neg (by omega)]
        have further : clusters = (front ++ [current]) ++ second :: rest := by
          rw [shape]
          simp
        exact ih further (by omega)
    · -- The buffer is full already.
      have full : min size (fs.clusterSize * front.length) = size := by omega
      rw [full, if_neg (Nat.lt_irrefl _)]

/-- Reading a file whose chain holds data brings the data back. -/
theorem Layout.readFile_eq (layout : fs.Layout) (reliable : fs.Reliable) {start : Nat}
    {clusters : List Nat} (links : fs.Links start clusters) {data : Buffer} {size : Nat}
    (holds : fs.HoldsData data clusters size) (buffer : Buffer) :
    fs.readFile start buffer size = putBytes buffer 0 size data := by
  obtain ⟨rest, shape⟩ := ChainFrom.exists_cons links
  have parameters : ¬ (fs.bpb.sectorsPerCluster = 0 ∨ fs.bpb.bytesPerSector = 0) := by
    have positive := layout.cluster
    have sector := layout.sector
    omega
  have read := layout.readChain_eq reliable links holds buffer
    (show clusters = [] ++ start :: rest from shape)
    (show size < min size (fs.clusterSize * ([] : List Nat).length) + (size + 1) by omega)
  have none : putBytes buffer 0 0 data = buffer := by
    funext offset
    simp only [putBytes]
    rw [if_neg (by omega)]
  rw [List.length_nil, Nat.mul_zero, Nat.min_zero, none] at read
  rw [readFile, if_neg parameters, read]

end Reading

end FileSystem

end Pocky
