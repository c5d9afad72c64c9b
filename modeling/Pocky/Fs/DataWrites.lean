import Pocky.Fs.Endings
import Pocky.Fs.FileData
import Pocky.Fs.PathLaws

/-! Which sectors the data of a file is written to, whatever clusters its chain runs through. -/

namespace Pocky

namespace FileSystem

/-- Writing sectors of one cluster, and the numbers of the sectors that were written. -/
def tracedCluster (fs : FileSystem) (sector : Nat) (data : Buffer) (dataSize : Nat) :
    Nat → Nat → Nat → (Option Nat × FileSystem) × List Nat
  | 0, _, bytesWritten => ((some bytesWritten, fs), [])
  | remaining + 1, index, bytesWritten =>
    if bytesWritten < dataSize then
      match fs.writeSector ((sector + index) % 2 ^ 32) (shifted data bytesWritten) with
      | (false, fs) => ((none, fs), [(sector + index) % 2 ^ 32])
      | (true, fs) =>
        let (result, sectors) := fs.tracedCluster sector data dataSize remaining (index + 1)
          (bytesWritten + fs.bpb.bytesPerSector)
        (result, (sector + index) % 2 ^ 32 :: sectors)
    else ((some bytesWritten, fs), [])

/-- The loop over the clusters of a file that is written, and the sectors that got data. -/
def tracedChain (fs : FileSystem) (data : Buffer) (dataSize : Nat) :
    Nat → Nat → Nat → (Option Nat × FileSystem) × List Nat
  | 0, currentCluster, _ => ((some currentCluster, fs), [])
  | steps + 1, currentCluster, bytesWritten =>
    if bytesWritten < dataSize then
      match fs.tracedCluster (fs.clusterSector currentCluster) data dataSize
          fs.bpb.sectorsPerCluster 0 bytesWritten with
      | ((none, fs), sectors) => ((none, fs), sectors)
      | ((some bytesWritten, fs), sectors) =>
        let nextCluster := fs.readFatEntry currentCluster
        if endMark ≤ nextCluster then
          if bytesWritten < dataSize then
            let (newCluster, fs) := fs.allocateCluster
            if newCluster = 0 then ((none, fs), sectors)
            else
              match fs.updateFatEntry currentCluster newCluster with
              | (false, fs) => ((none, fs), sectors)
              | (true, fs) =>
                let (result, more) := fs.tracedChain data dataSize steps newCluster bytesWritten
                (result, sectors ++ more)
          else ((some currentCluster, fs), sectors)
        else if nextCluster = badMark then ((none, fs), sectors)
        else
          let (result, more) := fs.tracedChain data dataSize steps nextCluster bytesWritten
          (result, sectors ++ more)
    else ((some currentCluster, fs), [])

/-- The sectors that writing a file puts data into. -/
def sectorsWritten (fs : FileSystem) (startCluster : Nat) (data : Buffer) (dataSize : Nat) : List Nat :=
  if fs.bpb.sectorsPerCluster = 0 ∨ fs.bpb.bytesPerSector = 0 then []
  else (fs.tracedChain data dataSize (dataSize + 1) startCluster 0).2

/-- A sector of the data area. -/
def InDataArea (fs : FileSystem) (sector : Nat) : Prop :=
  fs.firstDataSector ≤ sector ∧
    sector < fs.firstDataSector + fs.totalClusters * fs.bpb.sectorsPerCluster

/-- Writing a file puts its data into the data area only. -/
def WritesInside (fs : FileSystem) (startCluster : Nat) (data : Buffer) (dataSize : Nat) : Prop :=
  ∀ sector ∈ fs.sectorsWritten startCluster data dataSize, fs.InDataArea sector

/-- A cluster number whose first sector, reduced to 32 bits, lies in the data area. -/
def Lands (fs : FileSystem) (cluster : Nat) : Prop :=
  (cluster + 2 ^ 32 - 2) % 2 ^ 32 * fs.bpb.sectorsPerCluster % 2 ^ 32 <
    fs.totalClusters * fs.bpb.sectorsPerCluster

/-- A sector that the code takes for one of a cluster. -/
def SectorOf (fs : FileSystem) (cluster sector : Nat) : Prop :=
  ∃ index < fs.bpb.sectorsPerCluster, sector = (fs.clusterSector cluster + index) % 2 ^ 32

/-- The first clusters of a chain lie in the data area. -/
def ChainLands (fs : FileSystem) (start count : Nat) : Prop :=
  ∀ place < count, ∀ cluster, walkFrom fs.link start place = some cluster → fs.Lands cluster

/-- The entries that lead through the first clusters of a chain lie in no sector of those before. -/
def ChainApart (fs : FileSystem) (start count : Nat) : Prop :=
  ∀ place, place + 1 < count → ∀ cluster, walkFrom fs.link start place = some cluster →
    ∀ earlier ≤ place, ∀ cluster', walkFrom fs.link start earlier = some cluster' →
      ¬ fs.SectorOf cluster' (fs.fatSector cluster)

/-- Tracing a cluster writes it as before. -/
theorem tracedCluster_fst (fs : FileSystem) (sector : Nat) (data : Buffer)
    (dataSize remaining index bytesWritten : Nat) :
    (fs.tracedCluster sector data dataSize remaining index bytesWritten).1 =
      fs.writeCluster sector data dataSize remaining index bytesWritten := by
  -- By induction on the sectors that are left.
  induction remaining generalizing fs index bytesWritten with
  | zero => rfl
  | succ remaining ih =>
    rw [tracedCluster, writeCluster]
    split
    · cases fs.writeSector ((sector + index) % 2 ^ 32) (shifted data bytesWritten) with
      | mk told after =>
        cases told with
        | false => rfl
        | true => exact ih _ _ _
    · rfl

/-- Tracing the loop runs it as before. -/
theorem tracedChain_fst (fs : FileSystem) (data : Buffer) (dataSize steps cluster bytesWritten : Nat) :
    (fs.tracedChain data dataSize steps cluster bytesWritten).1 =
      fs.writeChain data dataSize steps cluster bytesWritten := by
  -- By induction on the rounds.
  induction steps generalizing fs cluster bytesWritten with
  | zero => rfl
  | succ steps ih =>
    rw [tracedChain, writeChain]
    split
    · rw [← tracedCluster_fst]
      cases fs.tracedCluster (fs.clusterSector cluster) data dataSize fs.bpb.sectorsPerCluster 0
          bytesWritten with
      | mk result sectors =>
        obtain ⟨written, middle⟩ := result
        cases written with
        | none => rfl
        | some written =>
          dsimp only
          split
          · split
            · split
              · rfl
              · cases middle.allocateCluster.2.updateFatEntry cluster middle.allocateCluster.1 with
                | mk told after =>
                  cases told with
                  | false => rfl
                  | true => exact ih _ _ _
            · rfl
          · split
            · rfl
            · exact ih _ _ _
    · rfl

/-- A laid out volume as a boot sector describes one, with room below 2³² behind any entry. -/
structure Addressed (fs : FileSystem) : Prop where
  /-- The volume is laid out. -/
  layout : fs.Layout
  /-- A cluster has a power of two of sectors. -/
  divides : fs.bpb.sectorsPerCluster ∣ 2 ^ 32
  /-- Clusters are small. -/
  few : fs.bpb.sectorsPerCluster ≤ 128
  /-- No copy of an entry of 28 bits is so far away that its sector number wraps. -/
  near : fs.firstFatSector + fs.bpb.tableCount * fs.bpb.tableSize32 + 2 ^ 21 ≤
    2 ^ 32 + fs.bpb.tableSize32

/-- A power of two of one byte divides the range of sector numbers. -/
theorem dvd_of_powerOfTwo {n : Nat} (small : n < 256) (power : powerOfTwo n = true) :
    n ∣ 2 ^ 32 ∧ n ≤ 128 := by
  -- There are eight of them.
  have all : ∀ n < 256, powerOfTwo n = true → 2 ^ 32 % n = 0 ∧ n ≤ 128 := by decide +kernel
  obtain ⟨remainder, few⟩ := all n small power
  exact ⟨Nat.dvd_of_mod_eq_zero remainder, few⟩

/-- Accepted boot sectors have fields of one or two bytes. -/
theorem Accepted.fields {fs : FileSystem} (accepted : fs.Accepted) :
    fs.bpb.sectorsPerCluster < 256 ∧ fs.bpb.tableCount < 256 ∧ fs.firstFatSector < 2 ^ 16 := by
  obtain ⟨before, bootSector, returned⟩ := accepted
  rw [initializeVolume] at returned
  by_cases valid : validateBootSector (Bpb.parse bootSector) = true
  · simp only [valid, Bool.not_true, Bool.false_eq_true, if_false] at returned
    obtain ⟨-, rfl⟩ := Prod.mk.inj returned
    have low := UInt8.toNat_lt (bootSector 14)
    have high := UInt8.toNat_lt (bootSector (14 + 1))
    refine ⟨UInt8.toNat_lt (bootSector 13), UInt8.toNat_lt (bootSector 16), ?_⟩
    show halfAt bootSector 14 < 2 ^ 16
    rw [halfAt]
    omega
  · simp [valid] at returned

/-- An accepted volume that is laid out keeps its copies below 2³². -/
theorem Accepted.addressed {fs : FileSystem} (accepted : fs.Accepted) (layout : fs.Layout) :
    fs.Addressed := by
  obtain ⟨cluster, copies, first⟩ := accepted.fields
  have valid := accepted.derived.valid
  simp only [validateBootSector, Bool.and_eq_true] at valid
  obtain ⟨divides, few⟩ := dvd_of_powerOfTwo cluster valid.1.1.1.1.2
  refine ⟨layout, divides, few, ?_⟩
  have fits := layout.tables.fits
  rcases Nat.lt_or_ge fs.bpb.tableSize32 (2 ^ 21) with small | large
  · -- There are not many copies of a small table.
    have product : fs.bpb.tableCount * fs.bpb.tableSize32 ≤ 256 * 2 ^ 21 :=
      Nat.mul_le_mul (Nat.le_of_lt copies) (Nat.le_of_lt small)
    omega
  · omega

/-- The numbers do not depend on the disk's bytes. -/
theorem Addressed.same {fs after : FileSystem} (addressed : fs.Addressed) (same : SameVolume fs after) :
    after.Addressed := by
  refine ⟨addressed.layout.same same, ?_, ?_, ?_⟩
  · rw [same.fields]
    exact addressed.divides
  · rw [same.fields]
    exact addressed.few
  · rw [same.fields]
    exact addressed.near

section Sectors

variable {fs after : FileSystem}

/-- The data area does not depend on the disk's bytes. -/
theorem SameVolume.inDataArea (same : SameVolume fs after) {sector : Nat} :
    after.InDataArea sector ↔ fs.InDataArea sector := by
  rw [same.fields]
  exact Iff.rfl

/-- Nor does which cluster numbers lie in it. -/
theorem SameVolume.lands (same : SameVolume fs after) {cluster : Nat} :
    after.Lands cluster ↔ fs.Lands cluster := by
  rw [same.fields]
  exact Iff.rfl

/-- Nor do the sectors of a cluster. -/
theorem SameVolume.sectorOf (same : SameVolume fs after) {cluster sector : Nat} :
    after.SectorOf cluster sector ↔ fs.SectorOf cluster sector := by
  rw [same.fields]
  exact Iff.rfl

/-- All sectors of a cluster lie in the data area if the first does. -/
theorem Addressed.inside_of_lands (addressed : fs.Addressed) {cluster : Nat} (lands : fs.Lands cluster)
    {sector : Nat} (own : fs.SectorOf cluster sector) : fs.InDataArea sector := by
  obtain ⟨index, inside, rfl⟩ := own
  have bounded := addressed.layout.bounded
  rw [Lands] at lands
  -- Both the start of the cluster and the end of the data area are multiples of its sectors.
  obtain ⟨start, equal⟩ : fs.bpb.sectorsPerCluster ∣
      (cluster + 2 ^ 32 - 2) % 2 ^ 32 * fs.bpb.sectorsPerCluster % 2 ^ 32 :=
    (Nat.dvd_mod_iff addressed.divides).mpr (Nat.dvd_mul_left _ _)
  have whole : (start + 1) * fs.bpb.sectorsPerCluster ≤
      fs.totalClusters * fs.bpb.sectorsPerCluster := by
    rw [equal, Nat.mul_comm] at lands
    exact Nat.mul_le_mul_right _ (Nat.lt_of_mul_lt_mul_right lands)
  rw [Nat.succ_mul, Nat.mul_comm, ← equal] at whole
  have number : fs.clusterSector cluster =
      (cluster + 2 ^ 32 - 2) % 2 ^ 32 * fs.bpb.sectorsPerCluster % 2 ^ 32 + fs.firstDataSector := by
    have positive := addressed.layout.cluster
    rw [clusterSector, Nat.add_mod, Nat.mod_eq_of_lt (show fs.firstDataSector < 2 ^ 32 by omega),
      Nat.mod_eq_of_lt (by omega)]
  rw [InDataArea, number]
  rw [Nat.mod_eq_of_lt (by omega)]
  omega

/-- Otherwise its first sector lies elsewhere. -/
theorem Addressed.outside_of_not_lands (addressed : fs.Addressed) {cluster : Nat}
    (astray : ¬ fs.Lands cluster) : ¬ fs.InDataArea (fs.clusterSector cluster % 2 ^ 32) := by
  have bounded := addressed.layout.bounded
  rw [Lands] at astray
  rw [InDataArea, clusterSector]
  -- The start of the cluster lies behind the data area, or has wrapped to the sectors before it.
  generalize (cluster + 2 ^ 32 - 2) % 2 ^ 32 * fs.bpb.sectorsPerCluster = start at astray
  generalize fs.totalClusters * fs.bpb.sectorsPerCluster = length at astray bounded ⊢
  omega

/-- Clusters of the volume lie in the data area. -/
theorem Addressed.lands_of_data (addressed : fs.Addressed) {cluster : Nat} (low : 2 ≤ cluster)
    (high : cluster < fs.totalClusters + 2) : fs.Lands cluster := by
  have bounded := addressed.layout.bounded
  have numbered := addressed.layout.numbered
  have limit : badMark < 2 ^ 28 := by decide
  have number : (cluster + 2 ^ 32 - 2) % 2 ^ 32 = cluster - 2 := by omega
  have before : (cluster - 2) * fs.bpb.sectorsPerCluster <
      fs.totalClusters * fs.bpb.sectorsPerCluster :=
    Nat.mul_lt_mul_of_pos_right (by omega) addressed.layout.cluster
  rw [Lands, number, Nat.mod_eq_of_lt (by omega)]
  exact before

/-- Cluster zero lies before the data area. -/
theorem Addressed.not_lands_zero (addressed : fs.Addressed) : ¬ fs.Lands 0 := by
  have bounded := addressed.layout.bounded
  have covered := addressed.layout.covered
  have few := addressed.few
  have positive := addressed.layout.cluster
  have apart := addressed.layout.apart
  have first : fs.bpb.tableSize32 ≤ fs.bpb.tableCount * fs.bpb.tableSize32 :=
    Nat.le_mul_of_pos_left _ addressed.layout.copies
  have length : fs.totalClusters * fs.bpb.sectorsPerCluster ≤ fs.totalClusters * 128 :=
    Nat.mul_le_mul_left _ few
  have start : (0 + 2 ^ 32 - 2) % 2 ^ 32 * fs.bpb.sectorsPerCluster % 2 ^ 32 =
      2 ^ 32 - 2 * fs.bpb.sectorsPerCluster := by
    omega
  -- A volume that reaches the last sector numbers has a table long enough to hold it off.
  rw [Lands, start]
  omega

/-- The sectors of the table's entries of 28 bits. -/
theorem Addressed.fatSector_eq (addressed : fs.Addressed) {cluster : Nat} (small : cluster < 2 ^ 28) :
    fs.fatSector cluster = fs.firstFatSector + cluster / 128 ∧
      fs.fatOffset cluster = 4 * (cluster % 128) := by
  have near := addressed.near
  have first : fs.bpb.tableSize32 ≤ fs.bpb.tableCount * fs.bpb.tableSize32 :=
    Nat.le_mul_of_pos_left _ addressed.layout.copies
  have bytes : cluster * 4 % 2 ^ 32 = cluster * 4 := Nat.mod_eq_of_lt (by omega)
  constructor
  · rw [fatSector, addressed.layout.sector, bytes, Nat.mod_eq_of_lt (by omega)]
    omega
  · rw [fatOffset, addressed.layout.sector, bytes]
    omega

end Sectors

section Transfers

variable {fs : FileSystem}

/-- On a device that refuses nothing, the sectors that are no copy of a written one are kept. -/
theorem writeCopies_kept (sector512 : fs.bpb.bytesPerSector = 512) (reliable : fs.Reliable)
    (sector : Nat) (data : Buffer) (remaining copy : Nat) :
    ∃ after, fs.writeCopies sector data remaining copy = (true, after) ∧ SameVolume fs after ∧
      ∀ other, (∀ place, copy ≤ place → place < copy + remaining →
        other ≠ (sector + place * fs.bpb.tableSize32) % 2 ^ 32) → after.block other = fs.block other := by
  -- By induction on the copies that are left.
  induction remaining generalizing fs copy with
  | zero => exact ⟨fs, rfl, SameVolume.refl fs, fun _ _ => rfl⟩
  | succ remaining ih =>
    have same := fs.store_same ((sector + copy * fs.bpb.tableSize32) % 2 ^ 32) data
    obtain ⟨after, written, same', kept⟩ := ih (same.bytesPerSector.trans sector512)
      (reliable.same same) (copy + 1)
    rw [writeCopies, writeSector_eq sector512 reliable]
    refine ⟨after, written, same.trans same', fun other away => ?_⟩
    have later : after.block other =
        (fs.store ((sector + copy * fs.bpb.tableSize32) % 2 ^ 32) data).block other :=
      kept other fun place above below => away place (by omega) (by omega)
    rw [later, store_block, if_neg (away copy (Nat.le_refl _) (by omega))]

/-- An update of any entry of 28 bits succeeds, and the entries of the first copy but that one are kept. -/
theorem Addressed.updateFatEntry_kept (addressed : fs.Addressed) (reliable : fs.Reliable)
    {cluster : Nat} (value : Nat) (small : cluster < 2 ^ 28) :
    ∃ after, fs.updateFatEntry cluster value = (true, after) ∧ SameVolume fs after ∧
      ∀ other < fs.totalClusters, other ≠ cluster → after.fatEntry other = fs.fatEntry other := by
  have near := addressed.near
  obtain ⟨copies, shape⟩ : ∃ copies, fs.bpb.tableCount = copies + 1 :=
    ⟨fs.bpb.tableCount - 1, by have := addressed.layout.copies; omega⟩
  obtain ⟨place, offset⟩ := addressed.fatSector_eq small
  have product : fs.bpb.tableCount * fs.bpb.tableSize32 =
      copies * fs.bpb.tableSize32 + fs.bpb.tableSize32 := by rw [shape, Nat.succ_mul]
  have number : (fs.fatSector cluster + 0 * fs.bpb.tableSize32) % 2 ^ 32 = fs.fatSector cluster := by
    rw [Nat.zero_mul, Nat.add_zero]
    exact Nat.mod_eq_of_lt (by omega)
  have same := fs.store_same (fs.fatSector cluster) (putWord (fs.block (fs.fatSector cluster))
    (fs.fatOffset cluster) (value % 2 ^ 28))
  obtain ⟨after, written, same', kept⟩ := writeCopies_kept
    (same.bytesPerSector.trans addressed.layout.sector) (reliable.same same) (fs.fatSector cluster)
    (putWord (fs.block (fs.fatSector cluster)) (fs.fatOffset cluster) (value % 2 ^ 28)) copies 1
  refine ⟨after, ?_, same.trans same', fun other inside different => ?_⟩
  · rw [updateFatEntry, readSector_eq addressed.layout.sector reliable]
    simp only [shape, writeCopies, number, writeSector_eq addressed.layout.sector reliable]
    exact written
  · obtain ⟨sector', offset', within', -⟩ := addressed.layout.fatSector_eq inside
    obtain ⟨place', position'⟩ := (same.trans same').fatSector other
    -- The copies behind the first start behind it.
    have first : after.block (fs.fatSector other) =
        (fs.store (fs.fatSector cluster) (putWord (fs.block (fs.fatSector cluster))
          (fs.fatOffset cluster) (value % 2 ^ 28))).block (fs.fatSector other) := by
      refine kept _ fun copy behind few => ?_
      have size : (fs.store (fs.fatSector cluster) (putWord (fs.block (fs.fatSector cluster))
        (fs.fatOffset cluster) (value % 2 ^ 28))).bpb.tableSize32 = fs.bpb.tableSize32 := rfl
      have low : 1 * fs.bpb.tableSize32 ≤ copy * fs.bpb.tableSize32 := Nat.mul_le_mul_right _ behind
      have high : copy * fs.bpb.tableSize32 ≤ copies * fs.bpb.tableSize32 :=
        Nat.mul_le_mul_right _ (by omega)
      rw [size, sector', place, Nat.mod_eq_of_lt (by omega)]
      omega
    rw [fatEntry, place', position', first, store_block, fatEntry]
    split
    · rename_i together
      rw [sector', place] at together
      rw [offset', wordAt_cutBlock _ (Nat.mod_lt _ (by decide)), offset,
        wordAt_putWord_of_ne _ _ (by omega), sector', place, together]
    · rfl

/-- Appending a cluster to a chain leaves the new cluster at its end. -/
theorem Addressed.extend (addressed : fs.Addressed) (reliable : fs.Reliable) {cluster new : Nat}
    {middle : FileSystem} (small : cluster < 2 ^ 28) (last : endMark ≤ fs.readFatEntry cluster)
    (taken : fs.allocateCluster = (new, middle)) (some : new ≠ 0) :
    ∃ after, middle.updateFatEntry cluster new = (true, after) ∧ SameVolume fs after ∧
      fs.InVolume new ∧ endMark ≤ after.readFatEntry new := by
  have read := readFatEntry_eq addressed.layout.sector reliable
  rcases allocateCluster_cases addressed.layout with
    ⟨none, -⟩ | ⟨taken', middle', found, valid, zero, updates, -⟩
  · rw [none] at taken
    exact absurd (Prod.mk.inj taken).1.symm some
  · rw [found] at taken
    obtain ⟨rfl, rfl⟩ := Prod.mk.inj taken
    have marked := (updates.accepted (reliable.read _ _) (reliable.write _)).1
    obtain ⟨after, updated, same, others⟩ := (addressed.same updates.same).updateFatEntry_kept
      (reliable.same updates.same) taken' small
    have inside : taken' < middle'.totalClusters := by
      rw [updates.same.fields]
      exact valid.2
    -- The old end has an entry that is not free, so the new one is another.
    have different : taken' ≠ cluster := by
      rintro rfl
      rw [zero] at last
      exact absurd last (by decide)
    refine ⟨after, updated, updates.same.trans same, valid, ?_⟩
    have all := updates.same.trans same
    rw [readFatEntry_eq (all.bytesPerSector.trans addressed.layout.sector) (reliable.same all),
      others taken' inside different, marked]
    decide

end Transfers

/-- What writing sectors of a cluster comes to, with the sectors that got data. -/
structure PutsSectors (fs : FileSystem) (sector : Nat) (data : Buffer) (dataSize remaining index before : Nat)
    (written : Nat) (after : FileSystem) (sectors : List Nat) : Prop where
  /-- Only the disk has changed. -/
  same : SameVolume fs after
  /-- All sectors are among those that were left. -/
  among : ∀ other ∈ sectors, ∃ place, index ≤ place ∧ place < index + remaining ∧
    other = (sector + place) % 2 ^ 32
  /-- Other sectors are kept. -/
  kept : ∀ other, other ∉ sectors → after.block other = fs.block other
  /-- Zeros make the sectors zero. -/
  zeros : (∀ place, data place = 0) → ∀ other ∈ sectors, ∀ place, after.block other place = 0
  /-- The first one is written if there is data left. -/
  first : before < dataSize → 0 < remaining → (sector + index) % 2 ^ 32 ∈ sectors
  /-- All are written if the data reaches behind them. -/
  full : before + 512 * remaining < dataSize → written = before + 512 * remaining ∧
    ∀ place, index ≤ place → place < index + remaining → (sector + place) % 2 ^ 32 ∈ sectors
  /-- Otherwise all data is written. -/
  done : dataSize ≤ before + 512 * remaining → dataSize ≤ written

/-- Writing sectors of a cluster, wherever they lie. -/
theorem tracedCluster_puts {fs : FileSystem} (sector512 : fs.bpb.bytesPerSector = 512)
    (reliable : fs.Reliable) (sector : Nat) (data : Buffer) (dataSize remaining index before : Nat) :
    ∃ written after sectors,
      fs.tracedCluster sector data dataSize remaining index before = ((some written, after), sectors) ∧
      fs.PutsSectors sector data dataSize remaining index before written after sectors := by
  -- By induction on the sectors that are left.
  induction remaining generalizing fs index before with
  | zero =>
    refine ⟨before, fs, [], rfl, SameVolume.refl fs, ?_, fun _ _ => rfl, ?_, ?_, ?_, id⟩
    · intro other member
      cases member
    · intro _ other member
      cases member
    · intro _ wrong
      cases wrong
    · exact fun _ => ⟨rfl, fun place low high => absurd high (by omega)⟩
  | succ remaining ih =>
    rw [tracedCluster]
    by_cases more : before < dataSize
    · have same := fs.store_same ((sector + index) % 2 ^ 32) (shifted data before)
      have sector512' := same.bytesPerSector.trans sector512
      obtain ⟨written, after, sectors, traced, puts⟩ := ih sector512' (reliable.same same)
        (index + 1) (before + 512)
      refine ⟨written, after, (sector + index) % 2 ^ 32 :: sectors, ?_, same.trans puts.same, ?_, ?_, ?_,
        ?_, ?_, ?_⟩
      · rw [if_pos more, writeSector_eq sector512 reliable]
        simp only [sector512', traced]
      · intro other member
        rcases List.mem_cons.mp member with rfl | later
        · exact ⟨index, Nat.le_refl _, by omega, rfl⟩
        · obtain ⟨place, low, high, number⟩ := puts.among other later
          exact ⟨place, by omega, by omega, number⟩
      · intro other away
        obtain ⟨different, later⟩ := not_or.mp (mt List.mem_cons.mpr away)
        rw [puts.kept other later, store_block, if_neg different]
      · intro zero other member place
        by_cases later : other ∈ sectors
        · exact puts.zeros zero other later place
        · rcases List.mem_cons.mp member with rfl | wrong
          · rw [puts.kept _ later, store_block, if_pos rfl, cutBlock, shifted, zero, ite_self]
          · exact absurd wrong later
      · exact fun _ _ => List.mem_cons_self
      · intro beyond
        obtain ⟨count, all⟩ := puts.full (by omega)
        refine ⟨by omega, fun place low high => ?_⟩
        rcases Nat.eq_or_lt_of_le low with rfl | above
        · exact List.mem_cons_self
        · exact List.mem_cons_of_mem _ (all place above (by omega))
      · intro reach
        exact puts.done (by omega)
    · -- The data has been written already.
      rw [if_neg more]
      refine ⟨before, fs, [], rfl, SameVolume.refl fs, ?_, fun _ _ => rfl, ?_, ?_, ?_, ?_⟩
      · intro other member
        cases member
      · intro _ other member
        cases member
      · exact fun wrong => absurd wrong more
      · exact fun wrong => absurd wrong (by omega)
      · exact fun _ => Nat.le_of_not_lt more

section Chains

variable {fs : FileSystem}

/-- A kept sector of the table leads on as before. -/
theorem readFatEntry_kept {after : FileSystem} (sector512 : fs.bpb.bytesPerSector = 512)
    (reliable : fs.Reliable) (same : SameVolume fs after) {cluster : Nat}
    (kept : after.block (fs.fatSector cluster) = fs.block (fs.fatSector cluster)) :
    after.readFatEntry cluster = fs.readFatEntry cluster := by
  obtain ⟨place, offset⟩ := same.fatSector cluster
  rw [readFatEntry_eq (same.bytesPerSector.trans sector512) (reliable.same same),
    readFatEntry_eq sector512 reliable, fatEntry, place, offset, kept, fatEntry]

/-- A sector of zeros leads to cluster zero. -/
theorem readFatEntry_zeros {after : FileSystem} (sector512 : fs.bpb.bytesPerSector = 512)
    (reliable : fs.Reliable) (same : SameVolume fs after) {cluster : Nat}
    (zeros : ∀ place, after.block (fs.fatSector cluster) place = 0) : after.readFatEntry cluster = 0 := by
  obtain ⟨place, offset⟩ := same.fatSector cluster
  rw [readFatEntry_eq (same.bytesPerSector.trans sector512) (reliable.same same), fatEntry, place,
    offset]
  simp only [wordAt, halfAt, zeros]
  decide

/-- Entries that are the same lead the same way. -/
theorem link_congr {after : FileSystem} {cluster : Nat}
    (equal : after.readFatEntry cluster = fs.readFatEntry cluster) : after.link cluster = fs.link cluster := by
  rw [link, equal, link]

/-- Data that has been written ends the loop. -/
theorem tracedChain_done (fs : FileSystem) (data : Buffer) {dataSize written : Nat} (steps cluster : Nat)
    (all : dataSize ≤ written) : (fs.tracedChain data dataSize steps cluster written).2 = [] := by
  cases steps with
  | zero => rfl
  | succ steps => rw [tracedChain, if_neg (Nat.not_lt.mpr all)]

/-- Once the chain has been extended, the data goes to clusters of the volume. -/
theorem Addressed.tracedChain_extended (addressed : fs.Addressed) (reliable : fs.Reliable)
    (data : Buffer) (dataSize steps : Nat) {cluster written : Nat} (valid : fs.InVolume cluster)
    (last : endMark ≤ fs.readFatEntry cluster) :
    ∀ sector ∈ (fs.tracedChain data dataSize steps cluster written).2, fs.InDataArea sector := by
  -- By induction on the rounds.
  induction steps generalizing fs cluster written with
  | zero =>
    intro sector member
    cases member
  | succ steps ih =>
    have sector512 := addressed.layout.sector
    obtain ⟨written', middle, sectors, traced, puts⟩ := tracedCluster_puts sector512 reliable
      (fs.clusterSector cluster) data dataSize fs.bpb.sectorsPerCluster 0 written
    have lands : fs.Lands cluster := addressed.lands_of_data valid.1 (Nat.lt_add_right 2 valid.2)
    have here : ∀ sector ∈ sectors, fs.InDataArea sector := by
      intro sector member
      obtain ⟨place, -, inside, number⟩ := puts.among sector member
      exact addressed.inside_of_lands lands ⟨place, by omega, number⟩
    -- The entry lies in the table, and the data does not.
    have still : middle.readFatEntry cluster = fs.readFatEntry cluster := by
      refine readFatEntry_kept sector512 reliable puts.same (puts.kept _ fun member => ?_)
      obtain ⟨place, -, within, before⟩ := addressed.layout.fatSector_eq valid.2
      have low := (here _ member).1
      omega
    have small : cluster < 2 ^ 28 := by
      have numbered := addressed.layout.numbered
      have limit : badMark < 2 ^ 28 := by decide
      have high := valid.2
      omega
    rw [tracedChain]
    by_cases more : written < dataSize
    · rw [if_pos more, traced]
      dsimp only
      rw [still, if_pos last]
      by_cases further : written' < dataSize
      · rw [if_pos further]
        cases taken : middle.allocateCluster with
        | mk new middle' =>
          dsimp only
          by_cases none : new = 0
          · rw [if_pos none]
            exact here
          · obtain ⟨after, updated, same, valid', last'⟩ := (addressed.same puts.same).extend
              (reliable.same puts.same) small (by rw [still]; exact last) taken none
            have all := puts.same.trans same
            rw [if_neg none, updated]
            intro sector member
            rcases List.mem_append.mp member with early | late
            · exact here sector early
            · exact all.inDataArea.mp (ih (addressed.same all) (reliable.same all)
                (same.inVolume.mpr valid') last' sector late)
      · rw [if_neg further]
        exact here
    · rw [if_neg more]
      intro sector member
      cases member

/-- After the first cluster, the chain goes on as before as long as no entry has been overwritten. -/
theorem walkFrom_next {after : FileSystem} {start next count : Nat} (leads : fs.link start = some next)
    (agree : ∀ place, 0 < place → place + 1 < count → ∀ cluster,
      walkFrom fs.link start place = some cluster → after.link cluster = fs.link cluster)
    {place : Nat} (within : place + 1 < count) :
    walkFrom after.link next place = walkFrom fs.link start (1 + place) := by
  have here : ∀ place, walkFrom fs.link next place = walkFrom fs.link start (1 + place) := by
    intro place
    rw [walkFrom_add, walkFrom_one, leads]
    rfl
  rw [← here]
  refine walkFrom_congr (fun earlier before cluster reached => ?_) (Nat.le_refl _)
  rw [here] at reached
  exact agree (1 + earlier) (by omega) (by omega) cluster reached

/-- Behind the first cluster, the chain still lies in the data area. -/
theorem ChainLands.next {after : FileSystem} {start next count : Nat} (lands : fs.ChainLands start count)
    (same : SameVolume fs after) (leads : fs.link start = some next)
    (agree : ∀ place, 0 < place → place + 1 < count → ∀ cluster,
      walkFrom fs.link start place = some cluster → after.link cluster = fs.link cluster) :
    after.ChainLands next (count - 1) := by
  intro place inside cluster reached
  rw [walkFrom_next leads agree (show place + 1 < count by omega)] at reached
  exact same.lands.mpr (lands _ (by omega) cluster reached)

/-- And its entries still lie elsewhere. -/
theorem ChainApart.next {after : FileSystem} {start next count : Nat} (apart : fs.ChainApart start count)
    (same : SameVolume fs after) (leads : fs.link start = some next)
    (agree : ∀ place, 0 < place → place + 1 < count → ∀ cluster,
      walkFrom fs.link start place = some cluster → after.link cluster = fs.link cluster) :
    after.ChainApart next (count - 1) := by
  intro place inside cluster reached earlier before cluster' reached'
  rw [walkFrom_next leads agree (show place + 1 < count by omega)] at reached
  rw [walkFrom_next leads agree (show earlier + 1 < count by omega)] at reached'
  rw [same.sectorOf, (same.fatSector cluster).1]
  exact apart _ (by omega) cluster reached _ (by omega) cluster' reached'

/-- The sectors that get data are the cluster's. -/
theorem PutsSectors.own {data : Buffer} {dataSize cluster before written : Nat}
    {after : FileSystem} {sectors : List Nat}
    (puts : fs.PutsSectors (fs.clusterSector cluster) data dataSize fs.bpb.sectorsPerCluster 0 before
      written after sectors) : ∀ sector ∈ sectors, fs.SectorOf cluster sector := by
  intro sector member
  obtain ⟨place, -, inside, number⟩ := puts.among sector member
  exact ⟨place, by omega, number⟩

/-- If data is left behind a cluster, all of its sectors have got some. -/
theorem PutsSectors.own_iff {data : Buffer} {dataSize cluster before written : Nat}
    {after : FileSystem} {sectors : List Nat}
    (puts : fs.PutsSectors (fs.clusterSector cluster) data dataSize fs.bpb.sectorsPerCluster 0 before
      written after sectors) (further : before + fs.clusterSize < dataSize) (sector : Nat) :
    sector ∈ sectors ↔ fs.SectorOf cluster sector := by
  refine ⟨puts.own sector, ?_⟩
  rintro ⟨place, low, rfl⟩
  exact (puts.full further).2 place (Nat.zero_le _) (by omega)

/-- Behind a cluster that is full one cluster fewer is needed. -/
theorem PutsSectors.fewer {data : Buffer} {dataSize cluster before written count : Nat}
    {after : FileSystem} {sectors : List Nat}
    (puts : fs.PutsSectors (fs.clusterSector cluster) data dataSize fs.bpb.sectorsPerCluster 0 before
      written after sectors) (further : before + fs.clusterSize < dataSize)
    (needs : ∀ place, place < count ↔ before + fs.clusterSize * place < dataSize) (place : Nat) :
    place < count - 1 ↔ written + after.clusterSize * place < dataSize := by
  have reached := (puts.full further).1
  have shift := needs (place + 1)
  have size : fs.clusterSize = 512 * fs.bpb.sectorsPerCluster := rfl
  rw [Nat.mul_succ] at shift
  rw [clusterSize, puts.same.sectorsPerCluster, ← size]
  omega

/-- Data that is written along clusters of the data area, with entries elsewhere, stays there. -/
theorem Addressed.tracedChain_inside (addressed : fs.Addressed) (reliable : fs.Reliable)
    (data : Buffer) (dataSize steps : Nat) {cluster written count : Nat} (small : cluster < 2 ^ 28)
    (needs : ∀ place, place < count ↔ written + fs.clusterSize * place < dataSize)
    (lands : fs.ChainLands cluster count) (apart : fs.ChainApart cluster count) :
    ∀ sector ∈ (fs.tracedChain data dataSize steps cluster written).2, fs.InDataArea sector := by
  -- By induction on the rounds.
  induction steps generalizing fs cluster written count with
  | zero =>
    intro sector member
    cases member
  | succ steps ih =>
    have sector512 := addressed.layout.sector
    obtain ⟨written', middle, sectors, traced, puts⟩ := tracedCluster_puts sector512 reliable
      (fs.clusterSector cluster) data dataSize fs.bpb.sectorsPerCluster 0 written
    have own := puts.own
    rw [tracedChain]
    by_cases more : written < dataSize
    · have first : 0 < count := (needs 0).mpr (by omega)
      have here : ∀ sector ∈ sectors, fs.InDataArea sector := fun sector member =>
        addressed.inside_of_lands (lands 0 first cluster rfl) (own sector member)
      have size : fs.clusterSize = 512 * fs.bpb.sectorsPerCluster := rfl
      rw [if_pos more, traced]
      dsimp only
      by_cases further : 1 < count
      · -- The entry of this cluster has not been overwritten.
        have beyond := (needs 1).mp further
        obtain ⟨reached, -⟩ := puts.full (by omega)
        have still : middle.readFatEntry cluster = fs.readFatEntry cluster :=
          readFatEntry_kept sector512 reliable puts.same (puts.kept _ fun member =>
            apart 0 further cluster rfl 0 (Nat.le_refl _) cluster rfl (own _ member))
        rw [still]
        by_cases last : endMark ≤ fs.readFatEntry cluster
        · rw [if_pos last, if_pos (by omega)]
          cases taken : middle.allocateCluster with
          | mk new middle' =>
            dsimp only
            by_cases none : new = 0
            · rw [if_pos none]
              exact here
            · obtain ⟨after, updated, same, valid', last'⟩ := (addressed.same puts.same).extend
                (reliable.same puts.same) small (by rw [still]; exact last) taken none
              have all := puts.same.trans same
              rw [if_neg none, updated]
              intro sector member
              rcases List.mem_append.mp member with early | late
              · exact here sector early
              · exact all.inDataArea.mp ((addressed.same all).tracedChain_extended (reliable.same all)
                  data dataSize steps (same.inVolume.mpr valid') last' sector late)
        · rw [if_neg last]
          by_cases bad : fs.readFatEntry cluster = badMark
          · rw [if_pos bad]
            exact here
          · rw [if_neg bad]
            have leads : fs.link cluster = some (fs.readFatEntry cluster) :=
              link_eq_some.mpr ⟨last, bad, rfl⟩
            have agree : ∀ place, 0 < place → place + 1 < count → ∀ cluster',
                walkFrom fs.link cluster place = some cluster' →
                  middle.link cluster' = fs.link cluster' :=
              fun place _ inside cluster' reached => link_congr (readFatEntry_kept sector512 reliable
                puts.same (puts.kept _ fun member => apart place inside cluster' reached 0
                  (Nat.zero_le _) cluster rfl (own _ member)))
            have fewer := puts.fewer (by omega) needs
            intro sector member
            rcases List.mem_append.mp member with early | late
            · exact here sector early
            · exact puts.same.inDataArea.mp (ih (addressed.same puts.same) (reliable.same puts.same)
                (link_small leads) fewer (lands.next puts.same leads agree)
                (apart.next puts.same leads agree) sector late)
      · -- The data ends in this cluster.
        have ended := mt (needs 1).mpr further
        have all : dataSize ≤ written' := puts.done (by omega)
        split
        · rw [if_neg (Nat.not_lt.mpr all)]
          exact here
        · split
          · exact here
          · intro sector member
            rw [tracedChain_done _ _ _ _ all, List.append_nil] at member
            exact here sector member
    · rw [if_neg more]
      intro sector member
      cases member

/-- The sectors of the first cluster are among those that get data. -/
theorem tracedChain_sectors {data : Buffer} {dataSize cluster written written' : Nat} (steps : Nat)
    {middle : FileSystem} {sectors : List Nat} (more : written < dataSize)
    (traced : fs.tracedCluster (fs.clusterSector cluster) data dataSize fs.bpb.sectorsPerCluster 0
      written = ((some written', middle), sectors)) :
    sectors ⊆ (fs.tracedChain data dataSize (steps + 1) cluster written).2 := by
  -- Whatever the entry of the cluster says, the sectors come first.
  rw [tracedChain, if_pos more, traced]
  dsimp only
  split
  · split
    · split
      · exact List.Subset.refl _
      · split
        · exact List.Subset.refl _
        · exact List.subset_append_left _ _
    · exact List.Subset.refl _
  · split
    · exact List.Subset.refl _
    · exact List.subset_append_left _ _

/-- If the entry is no mark, so are those of the clusters it leads to. -/
theorem tracedChain_further {data : Buffer} {dataSize cluster written written' next : Nat} (steps : Nat)
    {middle : FileSystem} {sectors : List Nat} (more : written < dataSize)
    (traced : fs.tracedCluster (fs.clusterSector cluster) data dataSize fs.bpb.sectorsPerCluster 0
      written = ((some written', middle), sectors)) (leads : middle.link cluster = some next) :
    (middle.tracedChain data dataSize steps next written').2 ⊆
      (fs.tracedChain data dataSize (steps + 1) cluster written).2 := by
  obtain ⟨inner, good, number⟩ := link_eq_some.mp leads
  rw [number] at inner good
  rw [tracedChain, if_pos more, traced]
  simp only [number, if_neg inner, if_neg good]
  exact List.subset_append_right _ _

/-- No entry of the chain lies in a sector of its first cluster, unless the data leads it astray. -/
theorem Addressed.clear_of_lands (addressed : fs.Addressed) {after : FileSystem} {start next count : Nat}
    (same : SameVolume fs after) (leads : fs.link start = some next)
    (kept : ∀ cluster, ¬ fs.SectorOf start (fs.fatSector cluster) →
      after.link cluster = fs.link cluster)
    (zeros : ∀ cluster, fs.SectorOf start (fs.fatSector cluster) → after.link cluster = some 0)
    (lands : after.ChainLands next (count - 1)) (place : Nat) (positive : 0 < place)
    (within : place + 1 < count) (cluster : Nat)
    (reached : walkFrom fs.link start place = some cluster) :
    ¬ fs.SectorOf start (fs.fatSector cluster) := by
  -- By induction on the place: up to it the chain goes on as before.
  induction place using Nat.strongRecOn generalizing cluster with
  | ind place ih =>
    intro own
    obtain ⟨before, rfl⟩ : ∃ before, place = 1 + before := ⟨place - 1, by omega⟩
    have agree : ∀ earlier, 0 < earlier → earlier + 1 < before + 2 → ∀ cluster',
        walkFrom fs.link start earlier = some cluster' → after.link cluster' = fs.link cluster' :=
      fun earlier low high cluster' reached' => kept cluster'
        (ih earlier (by omega) low (by omega) cluster' reached')
    rw [← walkFrom_next leads agree (show before + 1 < before + 2 by omega)] at reached
    have zero : walkFrom after.link next (before + 1) = some 0 := by
      rw [walkFrom, reached]
      exact zeros cluster own
    exact (addressed.same same).not_lands_zero (lands (before + 1) (by omega) 0 zero)

/-- A chain that ends with its first cluster lies where that does. -/
theorem lands_apart_of_end {start count : Nat} (ends : fs.link start = none) (head : fs.Lands start)
    (clear : ¬ fs.SectorOf start (fs.fatSector start)) :
    fs.ChainLands start count ∧ fs.ChainApart start count := by
  have stopped : ∀ place, walkFrom fs.link start (place + 1) = none := by
    intro place
    rw [Nat.add_comm, walkFrom_add, walkFrom_one, ends]
    rfl
  refine ⟨fun place low other come => ?_, fun place low other come earlier before other' come' => ?_⟩
  · cases place with
    | zero =>
      obtain rfl := Option.some.inj come
      exact head
    | succ place =>
      rw [stopped] at come
      cases come
  · cases place with
    | zero =>
      obtain rfl : earlier = 0 := by omega
      obtain rfl := Option.some.inj come
      obtain rfl := Option.some.inj come'
      exact clear
    | succ place =>
      rw [stopped] at come
      cases come

/-- A chain goes on where another disk has it, as long as no entry of it lies in its first cluster. -/
theorem lands_apart_of_next {after : FileSystem} {start next count : Nat} (same : SameVolume fs after)
    (leads : fs.link start = some next) (head : fs.Lands start)
    (clear : ∀ place, place + 1 < count → ∀ cluster, walkFrom fs.link start place = some cluster →
      ¬ fs.SectorOf start (fs.fatSector cluster))
    (agree : ∀ place, 0 < place → place + 1 < count → ∀ cluster,
      walkFrom fs.link start place = some cluster → after.link cluster = fs.link cluster)
    (lands : after.ChainLands next (count - 1)) (apart : after.ChainApart next (count - 1)) :
    fs.ChainLands start count ∧ fs.ChainApart start count := by
  refine ⟨fun place low other come => ?_, fun place low other come earlier before other' come' => ?_⟩
  · cases place with
    | zero =>
      obtain rfl := Option.some.inj come
      exact head
    | succ place =>
      rw [Nat.add_comm, ← walkFrom_next leads agree low] at come
      exact same.lands.mp (lands place (by omega) other come)
  · cases earlier with
    | zero =>
      obtain rfl := Option.some.inj come'
      exact clear place low other come
    | succ earlier =>
      obtain ⟨place, rfl⟩ : ∃ before, place = 1 + before := ⟨place - 1, by omega⟩
      rw [← walkFrom_next leads agree (show place + 1 < count by omega)] at come
      rw [Nat.add_comm, ← walkFrom_next leads agree (show earlier + 1 < count by omega)] at come'
      have away := apart place (by omega) other come earlier (by omega) other' come'
      rw [same.sectorOf, (same.fatSector other).1] at away
      exact away

/-- If data of zeros, or data along entries that lie elsewhere, stays inside, so does the chain. -/
theorem Addressed.chain_of_inside (addressed : fs.Addressed) (reliable : fs.Reliable) (data : Buffer)
    (dataSize : Nat) {steps cluster written count : Nat} (enough : count ≤ steps)
    (needs : ∀ place, place < count ↔ written + fs.clusterSize * place < dataSize)
    (free : (∀ place, data place = 0) ∨ fs.ChainApart cluster count)
    (inside : ∀ sector ∈ (fs.tracedChain data dataSize steps cluster written).2, fs.InDataArea sector) :
    fs.ChainLands cluster count ∧ fs.ChainApart cluster count := by
  -- By induction on the rounds.
  induction steps generalizing fs cluster written count with
  | zero => exact ⟨fun place low => absurd low (by omega), fun place low => absurd low (by omega)⟩
  | succ steps ih =>
    by_cases first : 0 < count
    · have sector512 := addressed.layout.sector
      have more : written < dataSize := (needs 0).mp first
      obtain ⟨written', middle, sectors, traced, puts⟩ := tracedCluster_puts sector512 reliable
        (fs.clusterSector cluster) data dataSize fs.bpb.sectorsPerCluster 0 written
      have head : fs.Lands cluster := by
        by_contra astray
        have member := puts.first more addressed.layout.cluster
        rw [Nat.add_zero] at member
        exact addressed.outside_of_not_lands astray
          (inside _ (tracedChain_sectors steps more traced member))
      by_cases further : 1 < count
      · have beyond : written + fs.clusterSize < dataSize := by
          simpa using (needs 1).mp further
        have own := puts.own_iff beyond
        have kept : ∀ other, ¬ fs.SectorOf cluster (fs.fatSector other) →
            middle.link other = fs.link other := fun other away => link_congr
          (readFatEntry_kept sector512 reliable puts.same (puts.kept _ (mt (own _).mp away)))
        have rest : ∀ next, middle.link cluster = some next →
            ((∀ place, data place = 0) ∨ middle.ChainApart next (count - 1)) →
            middle.ChainLands next (count - 1) ∧ middle.ChainApart next (count - 1) :=
          fun next leads free' => ih (addressed.same puts.same) (reliable.same puts.same) (by omega)
            (puts.fewer beyond needs) free' fun sector member => puts.same.inDataArea.mpr
              (inside sector (tracedChain_further steps more traced leads member))
        have zeros : (∀ place, data place = 0) → ∀ other, fs.SectorOf cluster (fs.fatSector other) →
            middle.link other = some 0 := by
          intro zero other covered
          have empty := readFatEntry_zeros sector512 reliable puts.same
            (puts.zeros zero _ ((own _).mpr covered))
          exact link_eq_some.mpr ⟨by rw [empty]; decide, by rw [empty]; decide, empty⟩
        -- The entry of the first cluster lies elsewhere, since zeros would lead to cluster zero.
        have clear : ¬ fs.SectorOf cluster (fs.fatSector cluster) := by
          rcases free with zero | apart
          · intro covered
            have lands := (rest 0 (zeros zero cluster covered) (Or.inl zero)).1
            exact (addressed.same puts.same).not_lands_zero (lands 0 (by omega) 0 rfl)
          · exact apart 0 further cluster rfl 0 (Nat.le_refl _) cluster rfl
        have same := kept cluster clear
        cases leads : fs.link cluster with
        | none => exact lands_apart_of_end leads head clear
        | some next =>
          rw [leads] at same
          -- So do the entries of the clusters behind it.
          have clearAll : ∀ place, 0 < place → place + 1 < count → ∀ other,
              walkFrom fs.link cluster place = some other →
                ¬ fs.SectorOf cluster (fs.fatSector other) := by
            rcases free with zero | apart
            · exact addressed.clear_of_lands puts.same leads kept (zeros zero)
                (rest next same (Or.inl zero)).1
            · exact fun place _ low other come =>
                apart place low other come 0 (Nat.zero_le _) cluster rfl
          have agree : ∀ place, 0 < place → place + 1 < count → ∀ other,
              walkFrom fs.link cluster place = some other → middle.link other = fs.link other :=
            fun place positive low other come => kept other (clearAll place positive low other come)
          obtain ⟨lands, apart⟩ := rest next same
            (free.imp_right fun apart => apart.next puts.same leads agree)
          refine lands_apart_of_next puts.same leads head (fun place low other come => ?_) agree
            lands apart
          cases place with
          | zero =>
            obtain rfl := Option.some.inj come
            exact clear
          | succ place => exact clearAll _ (Nat.succ_pos _) low other come
      · -- There is only one cluster to be written.
        refine ⟨fun place low other come => ?_, fun place low => absurd low (by omega)⟩
        obtain rfl : place = 0 := by omega
        obtain rfl := Option.some.inj come
        exact head
    · exact ⟨fun place low => absurd low (by omega), fun place low => absurd low (by omega)⟩

end Chains

/-- Directory entries have room for sixteen bits of a start cluster. -/
theorem findFile_cluster_small {fs : FileSystem} {path : Name} {found : Found}
    (resolved : fs.findFile path = .ok (some found)) (file : isDirectory found.attributes = false) :
    found.cluster < 2 ^ 16 := by
  obtain ⟨directory, name, -, -, looked⟩ := findComponents_last resolved file
  refine scanChain_answer (fun answer => ∀ found, answer = some found → found.cluster < 2 ^ 16)
    (by simp) (by simp) ?_ looked found rfl
  intro sector data answer told found same
  obtain ⟨offset, -, rfl⟩ := Option.map_eq_some_iff.mp told
  obtain rfl := Option.some.inj same
  have low := UInt8.toNat_lt (data (offset + 26))
  have high := UInt8.toNat_lt (data (offset + 26 + 1))
  show halfAt data (offset + 26) < 2 ^ 16
  rw [halfAt]
  omega

/--
Writing a file stays in the data area whatever the data, exactly if the clusters that the data needs
lie there and their entries lie in no sector that data has gone to before.
-/
theorem file_data_stays_inside_iff (fs : FileSystem) (accepted : fs.Accepted) (layout : fs.Layout)
    (reliable : fs.Reliable) (path : Name) (found : Found)
    (resolved : fs.findFile path = .ok (some found)) (file : isDirectory found.attributes = false)
    (dataSize : Nat) :
    ((∀ data, fs.WritesInside found.cluster data dataSize) ↔
      fs.ChainLands found.cluster (fs.clustersFor dataSize) ∧
        fs.ChainApart found.cluster (fs.clustersFor dataSize)) ∧
      (fs.ChainApart found.cluster (fs.clustersFor dataSize) → ∀ data,
        (fs.WritesInside found.cluster data dataSize ↔
          fs.ChainLands found.cluster (fs.clustersFor dataSize))) := by
  have addressed := accepted.addressed layout
  have small : found.cluster < 2 ^ 28 :=
    Nat.lt_trans (findFile_cluster_small resolved file) (by decide)
  have parameters : ¬ (fs.bpb.sectorsPerCluster = 0 ∨ fs.bpb.bytesPerSector = 0) := by
    have positive := layout.cluster
    have sector := layout.sector
    omega
  have needs : ∀ place, place < fs.clustersFor dataSize ↔ 0 + fs.clusterSize * place < dataSize := by
    intro place
    rw [layout.lt_clustersFor, Nat.zero_add]
  -- A cluster takes up at least one byte.
  have enough : fs.clustersFor dataSize ≤ dataSize + 1 := by
    rw [← Nat.not_lt, layout.lt_clustersFor]
    have more := Nat.le_mul_of_pos_left (dataSize + 1) layout.clusterSize_pos
    omega
  have written : ∀ data, fs.sectorsWritten found.cluster data dataSize =
      (fs.tracedChain data dataSize (dataSize + 1) found.cluster 0).2 := fun data => if_neg parameters
  have back : ∀ data, (∀ place, data place = 0) ∨
      fs.ChainApart found.cluster (fs.clustersFor dataSize) →
      fs.WritesInside found.cluster data dataSize →
      fs.ChainLands found.cluster (fs.clustersFor dataSize) ∧
        fs.ChainApart found.cluster (fs.clustersFor dataSize) := by
    intro data free inside
    rw [WritesInside, written] at inside
    exact addressed.chain_of_inside reliable data dataSize enough needs free inside
  have forth : ∀ data, fs.ChainLands found.cluster (fs.clustersFor dataSize) →
      fs.ChainApart found.cluster (fs.clustersFor dataSize) →
      fs.WritesInside found.cluster data dataSize := by
    intro data lands apart
    rw [WritesInside, written]
    exact addressed.tracedChain_inside reliable data dataSize (dataSize + 1) small needs lands apart
  exact ⟨⟨fun inside => back (fun _ => 0) (Or.inl fun _ => rfl) (inside _),
    fun chain data => forth data chain.1 chain.2⟩,
    fun apart data => ⟨fun inside => (back data (Or.inr apart) inside).1,
      fun lands => forth data lands apart⟩⟩

/-- Chains inside the volume meet the condition. -/
theorem Addressed.chain_of_inVolume {fs : FileSystem} (addressed : fs.Addressed) {start count : Nat}
    (valid : ∀ place < count, ∀ cluster, walkFrom fs.link start place = some cluster →
      fs.InVolume cluster) : fs.ChainLands start count ∧ fs.ChainApart start count := by
  have lands : fs.ChainLands start count := fun place low cluster reached =>
    addressed.lands_of_data (valid place low cluster reached).1
      (Nat.lt_add_right 2 (valid place low cluster reached).2)
  refine ⟨lands, fun place low cluster reached earlier before cluster' reached' own => ?_⟩
  -- Entries lie in front of the data area.
  have behind := (addressed.inside_of_lands (lands earlier (by omega) cluster' reached') own).1
  obtain ⟨sector, -, within, ahead⟩ :=
    addressed.layout.fatSector_eq (valid place (by omega) cluster reached).2
  omega

/-- A root directory with an empty file that has no cluster, and one that has cluster three. -/
def emptyFile : Buffer :=
  withLink 2 endMark <| withLink 3 endMark <| withEntry 2 0 [0x41] 0x20 0 <|
    withEntry 2 1 [0x42] 0x20 3 fun _ => 0

/-- Data of two clusters stays inside a file that starts in the data area. -/
theorem file_data_stays_inside_iff_extended :
    (smallVolume emptyFile 2).WritesInside 3 (fun _ => 0x43) 1000 := by
  have resolved : (smallVolume emptyFile 2).findFile [0x42] =
      .ok (some ⟨3, 0, 0x20, some (2, 32)⟩) := by decide +kernel
  have stays := file_data_stays_inside_iff (smallVolume emptyFile 2) (smallVolume_accepted _ 2)
    (smallVolume_layout _ 2) (smallVolume_reliable _ 2) [0x42] _ resolved (by decide) 1000
  have last : (smallVolume emptyFile 2).link 3 = none := by decide +kernel
  refine stays.1.mpr (((smallVolume_accepted _ 2).addressed (smallVolume_layout _ 2)).chain_of_inVolume
    fun place low cluster reached => ?_) _
  cases place with
  | zero =>
    obtain rfl := Option.some.inj reached
    exact ⟨by decide, by decide +kernel⟩
  | succ place =>
    rw [Nat.add_comm, walkFrom_add, walkFrom_one, last] at reached
    cases reached

/-- An empty file without a cluster is written over the boot sector. -/
theorem writeFile_overwrites_boot_sector :
    (smallVolume emptyFile 2).Accepted ∧ (smallVolume emptyFile 2).Layout ∧
      (smallVolume emptyFile 2).Reliable ∧
      (smallVolume emptyFile 2).findFile [0x41] = .ok (some ⟨0, 0, 0x20, some (2, 0)⟩) ∧
      isDirectory 0x20 = false ∧
      (smallVolume emptyFile 2).sectorsWritten 0 (fun _ => 0x43) 1 = [0] ∧
      ¬ (smallVolume emptyFile 2).WritesInside 0 (fun _ => 0x43) 1 ∧
      ((smallVolume emptyFile 2).writeFile 0 (fun _ => 0x43) 1).2.disk.bytes 0 = 0x43 := by
  have written : (smallVolume emptyFile 2).sectorsWritten 0 (fun _ => 0x43) 1 = [0] := by
    decide +kernel
  refine ⟨smallVolume_accepted _ 2, smallVolume_layout _ 2, smallVolume_reliable _ 2, by decide +kernel,
    by decide, written, fun inside => ?_, by decide +kernel⟩
  have low := (inside 0 (by rw [written]; exact List.mem_singleton_self 0)).1
  exact absurd low (by decide)

end FileSystem

end Pocky
