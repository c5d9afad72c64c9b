import Pocky.Fs.FileData

/-! Which bytes of a buffer a written file stores: two runs whose buffers agree on the data. -/

namespace Pocky

namespace Disk

/-- A transfer depends on the bytes of its blocks only. -/
theorem writeSectors_congr (disk : Disk) (lba count : Nat) {data data' : Buffer}
    (same : ∀ place < 512 * count, data place = data' place) :
    disk.writeSectors lba data count = disk.writeSectors lba data' count := by
  -- By induction on the blocks.
  induction count generalizing disk lba data data' with
  | zero => rfl
  | succ count ih =>
    have block : putBlock disk.bytes lba data = putBlock disk.bytes lba data' := by
      funext addr
      rw [putBlock, putBlock]
      split
      · rename_i inside
        rw [blockSize] at inside
        rw [same _ (by rw [blockSize]; omega)]
      · rfl
    rw [writeSectors, writeSectors, block]
    split
    · exact ih _ _ fun place small => same _ (by rw [blockSize]; omega)
    · rfl

end Disk

namespace FileSystem

/-- Writing a file stores nothing but the caller's bytes: others in the buffer change nothing. -/
def StoresOnly (fs : FileSystem) (startCluster dataSize : Nat) : Prop :=
  ∀ data data' : Buffer, (∀ place < dataSize, data place = data' place) →
    fs.writeFile startCluster data dataSize = fs.writeFile startCluster data' dataSize

/-- Writing a sector depends on the bytes of its blocks only. -/
theorem writeSector_congr (fs : FileSystem) (sector : Nat) {data data' : Buffer}
    (same : ∀ place < 512 * blockCount fs.bpb.bytesPerSector, data place = data' place) :
    fs.writeSector sector data = fs.writeSector sector data' := by
  rw [writeSector, writeSector, diskWrite, diskWrite, fs.disk.writeSectors_congr sector _ same]

/-- Writing the copies of a sector of the table keeps the geometry. -/
theorem writeCopies_bpb (fs : FileSystem) (sector : Nat) (data : Buffer) (remaining copy : Nat) :
    (fs.writeCopies sector data remaining copy).2.bpb = fs.bpb := by
  -- By induction on the copies that are left.
  induction remaining generalizing fs copy with
  | zero => rfl
  | succ remaining ih =>
    have geometry := fs.writeSector_bpb ((sector + copy * fs.bpb.tableSize32) % 2 ^ 32) data
    rw [writeCopies]
    split
    · rename_i refused
      rw [refused] at geometry
      exact geometry
    · rename_i accepted
      rw [accepted] at geometry
      exact (ih _ _).trans geometry

/-- So does updating an entry. -/
theorem updateFatEntry_bpb (fs : FileSystem) (cluster value : Nat) :
    (fs.updateFatEntry cluster value).2.bpb = fs.bpb := by
  rw [updateFatEntry]
  split
  · rfl
  · exact writeCopies_bpb _ _ _ _ _

/-- So does taking a cluster. -/
theorem allocateCluster_bpb (fs : FileSystem) : fs.allocateCluster.2.bpb = fs.bpb := by
  rcases fs.allocateCluster_scan with ⟨none, -⟩ | ⟨taken, some, -⟩
  · rw [none]
  · rw [some]
    exact updateFatEntry_bpb _ _ _

/-- Writing a cluster depends on the bytes of the sectors that are written. -/
theorem writeCluster_congr (fs : FileSystem) {data data' : Buffer}
    (sector dataSize remaining index written : Nat)
    (same : ∀ step < remaining, written + fs.bpb.bytesPerSector * step < dataSize →
      ∀ place < 512 * blockCount fs.bpb.bytesPerSector,
        data (written + fs.bpb.bytesPerSector * step + place) =
          data' (written + fs.bpb.bytesPerSector * step + place)) :
    fs.writeCluster sector data dataSize remaining index written =
      fs.writeCluster sector data' dataSize remaining index written := by
  -- By induction on the sectors that are left.
  induction remaining generalizing fs index written with
  | zero => rfl
  | succ remaining ih =>
    rw [writeCluster, writeCluster]
    split
    · rename_i more
      rw [fs.writeSector_congr ((sector + index) % 2 ^ 32)
        (show ∀ place < _, shifted data written place = shifted data' written place from
          same 0 (Nat.succ_pos _) more)]
      split
      · rfl
      · rename_i accepted
        have geometry := fs.writeSector_bpb ((sector + index) % 2 ^ 32) (shifted data' written)
        rw [accepted] at geometry
        refine ih _ _ _ fun step few less place inside => ?_
        rw [geometry] at less inside ⊢
        have next := same (step + 1) (Nat.succ_lt_succ few)
        rw [Nat.mul_succ, Nat.add_comm _ fs.bpb.bytesPerSector, ← Nat.add_assoc] at next
        exact next less place inside
    · rfl

/-- Writing a cluster keeps the geometry and ends between two sectors. -/
theorem writeCluster_steps (fs : FileSystem) (sector : Nat) (data : Buffer)
    (dataSize remaining index written : Nat) :
    (fs.writeCluster sector data dataSize remaining index written).2.bpb = fs.bpb ∧
      ∀ written', (fs.writeCluster sector data dataSize remaining index written).1 = some written' →
        ∃ steps, written' = written + fs.bpb.bytesPerSector * steps := by
  -- By induction on the sectors that are left.
  induction remaining generalizing fs index written with
  | zero => exact ⟨rfl, fun written' told => ⟨0, (Option.some.inj told).symm⟩⟩
  | succ remaining ih =>
    have geometry := fs.writeSector_bpb ((sector + index) % 2 ^ 32) (shifted data written)
    rw [writeCluster]
    split
    · split
      · rename_i refused
        rw [refused] at geometry
        exact ⟨geometry, fun written' told => by cases told⟩
      · rename_i accepted
        rw [accepted] at geometry
        obtain ⟨geometry', counts⟩ := ih _ (index + 1) (written + _)
        refine ⟨geometry'.trans geometry, fun written' told => ?_⟩
        obtain ⟨steps, count⟩ := counts written' told
        refine ⟨steps + 1, ?_⟩
        rw [count, geometry, Nat.mul_succ]
        omega
    · exact ⟨rfl, fun written' told => ⟨0, (Option.some.inj told).symm⟩⟩

/-- The loop over the clusters depends on the bytes of the sectors that the data reaches. -/
theorem writeChain_congr (fs : FileSystem) {data data' : Buffer}
    (size dataSize steps cluster count : Nat) (sector : fs.bpb.bytesPerSector = size)
    (same : ∀ step, size * step < dataSize → ∀ place < 512 * blockCount size,
      data (size * step + place) = data' (size * step + place)) :
    fs.writeChain data dataSize steps cluster (size * count) =
      fs.writeChain data' dataSize steps cluster (size * count) := by
  -- By induction on the rounds.
  induction steps generalizing fs cluster count with
  | zero => rfl
  | succ steps ih =>
    have covered : ∀ step < fs.bpb.sectorsPerCluster,
        size * count + fs.bpb.bytesPerSector * step < dataSize →
        ∀ place < 512 * blockCount fs.bpb.bytesPerSector,
          data (size * count + fs.bpb.bytesPerSector * step + place) =
            data' (size * count + fs.bpb.bytesPerSector * step + place) := by
      intro step _ less place inside
      rw [sector, ← Nat.mul_add] at less ⊢
      rw [sector] at inside
      exact same (count + step) less place inside
    have equal := fs.writeCluster_congr (fs.clusterSector cluster) dataSize fs.bpb.sectorsPerCluster 0
      (size * count) covered
    obtain ⟨geometry, counts⟩ := fs.writeCluster_steps (fs.clusterSector cluster) data' dataSize
      fs.bpb.sectorsPerCluster 0 (size * count)
    rw [writeChain, writeChain, equal]
    split
    · split
      · rfl
      · rename_i written' middle returned
        rw [returned] at geometry counts
        obtain ⟨more, rfl⟩ := counts written' rfl
        rw [sector, ← Nat.mul_add]
        have sector' : middle.bpb.bytesPerSector = size := (congrArg Bpb.bytesPerSector geometry).trans sector
        dsimp only
        split
        · split
          · split
            · rfl
            · split
              · rfl
              · rename_i updated
                refine ih _ _ _ ?_
                have later := updateFatEntry_bpb middle.allocateCluster.2 cluster middle.allocateCluster.1
                rw [updated, allocateCluster_bpb] at later
                exact (congrArg Bpb.bytesPerSector later).trans sector'
          · rfl
        · split
          · rfl
          · exact ih _ _ _ sector'
    · rfl

/-- Data of whole sectors of whole blocks is stored without a byte from behind it, on any volume. -/
theorem storesOnly_of_whole (fs : FileSystem) (startCluster dataSize : Nat)
    (blocks : 512 * blockCount fs.bpb.bytesPerSector = fs.bpb.bytesPerSector)
    (whole : fs.bpb.bytesPerSector ∣ dataSize) : fs.StoresOnly startCluster dataSize := by
  intro data data' same
  obtain ⟨sectors, rfl⟩ := whole
  rw [writeFile, writeFile]
  split
  · rfl
  · rename_i parameters
    have positive : 0 < fs.bpb.bytesPerSector := by omega
    have covered : ∀ step, fs.bpb.bytesPerSector * step < fs.bpb.bytesPerSector * sectors →
        ∀ place < 512 * blockCount fs.bpb.bytesPerSector,
          data (fs.bpb.bytesPerSector * step + place) =
            data' (fs.bpb.bytesPerSector * step + place) := by
      -- A sector that begins inside the data ends inside it.
      intro step less place inside
      have few := Nat.lt_of_mul_lt_mul_left less
      have fits := Nat.mul_le_mul_left fs.bpb.bytesPerSector few
      rw [Nat.mul_succ] at fits
      exact same _ (by omega)
    have equal := fs.writeChain_congr fs.bpb.bytesPerSector (fs.bpb.bytesPerSector * sectors)
      (fs.bpb.bytesPerSector * sectors + 1) startCluster 0 rfl covered
    rw [Nat.mul_zero] at equal
    rw [equal]

section Room

variable {fs : FileSystem}

/-- Without room for the data, the loop ends before it comes to a byte behind it. -/
theorem Layout.writeChain_congr_of_full (layout : fs.Layout) (reliable : fs.Reliable)
    {data data' : Buffer} {dataSize : Nat} (same : ∀ place < dataSize, data place = data' place)
    (steps : Nat) {start current : Nat} {front rest : List Nat}
    (links : fs.Links start (front ++ current :: rest))
    (little : fs.clusterSize * (front.length + (rest.length + 1) + fs.freeClusters.card) < dataSize) :
    fs.writeChain data dataSize steps current (fs.clusterSize * front.length) =
      fs.writeChain data' dataSize steps current (fs.clusterSize * front.length) := by
  -- By induction on the rounds; each of them writes a whole cluster.
  induction steps generalizing fs current front rest with
  | zero => rfl
  | succ steps ih =>
    have valid : fs.InVolume current := links.valid current (by simp)
    have covered : fs.clusterSize * front.length + fs.clusterSize < dataSize := by
      refine Nat.lt_of_le_of_lt ?_ little
      rw [← Nat.mul_succ]
      exact Nat.mul_le_mul_left _ (by omega)
    have one : 512 * blockCount 512 = 512 := by decide
    have size : fs.clusterSize = 512 * fs.bpb.sectorsPerCluster := rfl
    have inData : ∀ step < fs.bpb.sectorsPerCluster,
        fs.clusterSize * front.length + fs.bpb.bytesPerSector * step < dataSize →
        ∀ place < 512 * blockCount fs.bpb.bytesPerSector,
          data (fs.clusterSize * front.length + fs.bpb.bytesPerSector * step + place) =
            data' (fs.clusterSize * front.length + fs.bpb.bytesPerSector * step + place) := by
      intro step few _ place inside
      rw [layout.sector, one] at inside
      rw [layout.sector]
      exact same _ (by omega)
    have equal := fs.writeCluster_congr (fs.clusterSector current) dataSize fs.bpb.sectorsPerCluster 0
      (fs.clusterSize * front.length) inData
    obtain ⟨written, middle, returned, alters, reach, -⟩ := layout.writeCluster_alters reliable valid
      data' dataSize (fs.clusterSize * front.length) fs.bpb.sectorsPerCluster (Nat.zero_add _)
    rw [Nat.mul_zero, Nat.add_zero] at returned
    have kept := alters.same
    have size' : middle.clusterSize = fs.clusterSize := by
      rw [clusterSize, kept.sectorsPerCluster, clusterSize]
    have length : (front ++ [current]).length = front.length + 1 := by simp
    have position : written = middle.clusterSize * (front ++ [current]).length := by
      rw [size', length, Nat.mul_succ]
      omega
    have first : fs.RewritesFile (front ++ current :: rest) middle start (front ++ current :: rest) := by
      apply RewritesFile.write links alters
      intro cluster outside
      funext index
      rw [overwrite, if_neg]
      rintro ⟨rfl, -⟩
      exact outside (by simp)
    have read : middle.readFatEntry current = fs.fatEntry current := by
      rw [readFatEntry_eq (layout.same kept).sector (reliable.same kept), alters.fat current valid.2]
    have more : fs.clusterSize * front.length < dataSize := by omega
    rw [writeChain, writeChain, equal, if_pos more, if_pos more, returned]
    dsimp only
    rw [read, position]
    cases rest with
    | nil =>
      have last : endMark ≤ fs.fatEntry current := links.linked.drop
      rw [if_pos last]
      split
      · rcases (layout.same kept).extendChain (reliable.same kept) first.links with
          ⟨none, -⟩ | ⟨new, taken, linked, some, given, updated, longer, card, -⟩
        · -- No cluster is left for the rest of the data.
          rw [none]
          rfl
        · rw [some]
          dsimp only
          rw [if_neg given, if_neg given, updated]
          have kept' := longer.same
          have size'' : linked.clusterSize = middle.clusterSize := by
            rw [clusterSize, kept'.sectorsPerCluster, clusterSize]
          rw [alters.freeClusters] at card
          have further := ih ((layout.same kept).same kept') ((reliable.same kept).same kept')
            longer.links (by
              refine Nat.lt_of_le_of_lt ?_ little
              rw [size'', size', length]
              exact Nat.mul_le_mul_left _ (by simp only [List.length_nil]; omega))
          rw [size''] at further
          exact further
      · rfl
    | cons second others =>
      have next : fs.fatEntry current = second := links.linked.drop.1
      have inside : fs.InVolume second := links.valid second (by simp)
      obtain ⟨small, inner⟩ := layout.not_mark inside
      have good : second ≠ badMark := by omega
      rw [next, if_neg inner, if_neg inner, if_neg good, if_neg good]
      have shape : front ++ current :: second :: others = (front ++ [current]) ++ second :: others := by
        simp
      rw [shape] at first
      refine ih (layout.same kept) (reliable.same kept) first.links ?_
      refine Nat.lt_of_le_of_lt ?_ little
      rw [size', length, alters.freeClusters]
      exact Nat.mul_le_mul_left _ (by simp only [List.length_cons]; omega)

/-- With room for the data, a byte behind it is stored unless the data ends with a sector. -/
theorem Layout.whole_of_storesOnly (layout : fs.Layout) (reliable : fs.Reliable) {start : Nat}
    {clusters : List Nat} (links : fs.Links start clusters) {dataSize : Nat}
    (room : fs.clustersFor dataSize ≤ clusters.length + fs.freeClusters.card)
    (only : fs.StoresOnly start dataSize) : dataSize % 512 = 0 := by
  by_contra part
  -- Two buffers that differ in every byte behind the data.
  have equal := only (fun _ => 0) (fun place => if place < dataSize then 0 else 1) fun place inside => by
    rw [if_pos inside]
  obtain ⟨told, after, clusters', returned, writes⟩ :=
    layout.writeFile_writes reliable links (fun _ => 0) dataSize
  obtain ⟨told', after', clusters'', returned', writes'⟩ :=
    layout.writeFile_writes reliable links (fun place => if place < dataSize then 0 else 1) dataSize
  rw [returned, returned'] at equal
  obtain ⟨rfl, rfl⟩ := Prod.mk.inj equal
  have done : told = true := by
    cases told with
    | true => rfl
    | false =>
      have few := writes.failed rfl
      omega
  have same := writes.rewrites.same
  obtain rfl : clusters' = clusters'' := ChainFrom.unique writes.rewrites.links writes'.rewrites.links
    fun _ valid => ((layout.same same).not_mark valid).2
  obtain ⟨cluster, place, bytes⟩ := writes.holds done (dataSize / 512) (by omega)
  obtain ⟨cluster', place', bytes'⟩ := writes'.holds done (dataSize / 512) (by omega)
  obtain rfl := Option.some.inj (place.symm.trans place')
  have differ := congrFun (bytes.symm.trans bytes') (dataSize % 512)
  have beyond : ¬ 512 * (dataSize / 512) + dataSize % 512 < dataSize := by omega
  have inside : dataSize % 512 < 512 := Nat.mod_lt _ (by decide)
  simp only [cutBlock, shifted, if_pos inside, if_neg beyond] at differ
  exact absurd differ (by decide)

end Room

/--
Writing a file stores nothing but the caller's bytes if they fill whole sectors, on any volume.

On a sound one, that is the only case in which data that finds room is stored without others.
-/
theorem writeFile_stores_only_iff (fs : FileSystem) (startCluster dataSize : Nat) :
    (512 * blockCount fs.bpb.bytesPerSector = fs.bpb.bytesPerSector →
      fs.bpb.bytesPerSector ∣ dataSize → fs.StoresOnly startCluster dataSize) ∧
    (fs.Layout → fs.Reliable → ∀ clusters, fs.Links startCluster clusters →
      (fs.StoresOnly startCluster dataSize ↔ dataSize % 512 = 0 ∨
        clusters.length + fs.freeClusters.card < fs.clustersFor dataSize)) := by
  refine ⟨fs.storesOnly_of_whole startCluster dataSize, fun layout reliable clusters links => ?_⟩
  constructor
  · intro only
    rcases Nat.lt_or_ge (clusters.length + fs.freeClusters.card) (fs.clustersFor dataSize) with
      little | room
    · exact Or.inr little
    · exact Or.inl (layout.whole_of_storesOnly reliable links room only)
  · rintro (whole | little)
    · refine fs.storesOnly_of_whole startCluster dataSize ?_ ?_
      · rw [layout.sector]
        decide
      · rw [layout.sector]
        exact Nat.dvd_of_mod_eq_zero whole
    · intro data data' same
      obtain ⟨rest, rfl⟩ := ChainFrom.exists_cons links
      rw [layout.lt_clustersFor, List.length_cons] at little
      have equal := layout.writeChain_congr_of_full reliable same (dataSize + 1)
        (show fs.Links startCluster ([] ++ startCluster :: rest) from links)
        (by rw [List.length_nil, Nat.zero_add]; exact little)
      rw [List.length_nil, Nat.mul_zero] at equal
      rw [writeFile, writeFile, equal]

/-- Two sectors of data are stored in a chain of one cluster and a free one. -/
theorem writeFile_stores_only_iff_whole :
    (smallVolume (withLink 3 endMark fun _ => 0) 2).StoresOnly 3 1024 := by
  have links : (smallVolume (withLink 3 endMark fun _ => 0) 2).Links 3 [3] :=
    ⟨by show endMark ≤ _; decide +kernel, rfl, List.nodup_singleton 3, fun cluster member => by
      obtain rfl := List.mem_singleton.mp member
      exact ⟨by decide, by decide +kernel⟩⟩
  exact ((writeFile_stores_only_iff _ 3 1024).2 (smallVolume_layout _ 2) (smallVolume_reliable _ 2)
    [3] links).mpr (Or.inl (by decide))

/-- One byte of data takes the bytes behind it along to the disk. -/
theorem writeFile_stores_bytes_behind :
    (smallVolume (withLink 3 endMark fun _ => 0) 2).Layout ∧
      (smallVolume (withLink 3 endMark fun _ => 0) 2).Reliable ∧
      (smallVolume (withLink 3 endMark fun _ => 0) 2).Links 3 [3] ∧
      ((smallVolume (withLink 3 endMark fun _ => 0) 2).writeFile 3 (fun _ => 0x41) 1).2.disk.bytes
        1537 = 0x41 ∧
      ((smallVolume (withLink 3 endMark fun _ => 0) 2).writeFile 3
        (fun place => if place < 1 then 0x41 else 0x42) 1).2.disk.bytes 1537 = 0x42 ∧
      ¬ (smallVolume (withLink 3 endMark fun _ => 0) 2).StoresOnly 3 1 := by
  have links : (smallVolume (withLink 3 endMark fun _ => 0) 2).Links 3 [3] :=
    ⟨by show endMark ≤ _; decide +kernel, rfl, List.nodup_singleton 3, fun cluster member => by
      obtain rfl := List.mem_singleton.mp member
      exact ⟨by decide, by decide +kernel⟩⟩
  have first : ((smallVolume (withLink 3 endMark fun _ => 0) 2).writeFile 3 (fun _ => 0x41)
      1).2.disk.bytes 1537 = 0x41 := by decide +kernel
  have second : ((smallVolume (withLink 3 endMark fun _ => 0) 2).writeFile 3
      (fun place => if place < 1 then 0x41 else 0x42) 1).2.disk.bytes 1537 = 0x42 := by decide +kernel
  refine ⟨smallVolume_layout _ 2, smallVolume_reliable _ 2, links, first, second, fun only => ?_⟩
  have equal := only (fun _ => 0x41) (fun place => if place < 1 then 0x41 else 0x42)
    fun place inside => (if_pos inside).symm
  rw [equal, second] at first
  exact absurd first (by decide)

end FileSystem

end Pocky
