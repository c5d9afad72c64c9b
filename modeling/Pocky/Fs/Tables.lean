import Pocky.Fs.AllocationLaws

/-! The copies of the table: their entries, and what an update leaves in each of them. -/

namespace Pocky

namespace FileSystem

/-- The copies of the table lie side by side, in sectors of one block. -/
structure Tables (fs : FileSystem) : Prop where
  /-- A sector is one block. -/
  sector : fs.bpb.bytesPerSector = 512
  /-- There is a copy. -/
  copies : 0 < fs.bpb.tableCount
  /-- Sector numbers of the copies fit in 32 bits. -/
  fits : fs.firstFatSector + fs.bpb.tableCount * fs.bpb.tableSize32 ≤ 2 ^ 32

/-- A number has an entry in each copy. -/
def Listed (fs : FileSystem) (cluster : Nat) : Prop :=
  cluster < 128 * fs.bpb.tableSize32 ∧ cluster < 2 ^ 28

/-- A cluster's entry in a copy, the first table being copy zero. -/
def copyEntry (fs : FileSystem) (copy cluster : Nat) : Nat :=
  wordAt (fs.block (fs.fatSector cluster + copy * fs.bpb.tableSize32)) (fs.fatOffset cluster) % 2 ^ 28

/-- The entry that is read is that of the first copy. -/
theorem copyEntry_zero (fs : FileSystem) (cluster : Nat) :
    fs.copyEntry 0 cluster = fs.fatEntry cluster := by
  rw [copyEntry, Nat.zero_mul, Nat.add_zero, fatEntry]

/-- A laid out volume has its tables side by side. -/
theorem Layout.tables {fs : FileSystem} (layout : fs.Layout) : fs.Tables := by
  -- They end before the data area does.
  have apart := layout.apart
  have bounded := layout.bounded
  exact ⟨layout.sector, layout.copies, by omega⟩

/-- The clusters of a laid out volume have entries. -/
theorem Layout.listed {fs : FileSystem} (layout : fs.Layout) {cluster : Nat}
    (small : cluster < fs.totalClusters) : fs.Listed cluster := by
  -- Every cluster is covered, and none is a mark.
  have covered := layout.covered
  have numbered := layout.numbered
  have limit : badMark < 2 ^ 28 := by decide
  constructor <;> omega

/-- The tables do not depend on the disk's bytes. -/
theorem Tables.same {fs after : FileSystem} (tables : fs.Tables) (same : SameVolume fs after) :
    after.Tables := by
  -- All its fields are among those carried over.
  rw [same.fields]
  exact ⟨tables.sector, tables.copies, tables.fits⟩

/-- Which numbers have entries does not depend on the disk's bytes. -/
theorem SameVolume.listed {fs after : FileSystem} (same : SameVolume fs after) {cluster : Nat} :
    after.Listed cluster ↔ fs.Listed cluster := by
  rw [same.fields]
  exact Iff.rfl

/-- Where the first copy has the entry of a number. -/
theorem Listed.place {fs : FileSystem} (tables : fs.Tables) {cluster : Nat}
    (listed : fs.Listed cluster) : fs.fatSector cluster = fs.firstFatSector + cluster / 128 ∧
      fs.fatOffset cluster = 4 * (cluster % 128) ∧ cluster / 128 < fs.bpb.tableSize32 := by
  -- A sector holds 128 entries, and none of the 32-bit operations wraps.
  obtain ⟨within, small⟩ := listed
  have fits := tables.fits
  have first : fs.bpb.tableSize32 ≤ fs.bpb.tableCount * fs.bpb.tableSize32 :=
    Nat.le_mul_of_pos_left _ tables.copies
  have bytes : cluster * 4 % 2 ^ 32 = cluster * 4 := Nat.mod_eq_of_lt (by omega)
  refine ⟨?_, ?_, by omega⟩
  · rw [fatSector, tables.sector, bytes, Nat.mod_eq_of_lt (by omega)]
    omega
  · rw [fatOffset, tables.sector, bytes]
    omega

/-- On a device that refuses nothing, a sector is written into every copy. -/
theorem writeCopies_all {fs : FileSystem} (tables : fs.Tables) (reliable : fs.Reliable) {index copy : Nat}
    (data : Buffer) (inside : index < fs.bpb.tableSize32) (remaining : Nat)
    (few : copy + remaining ≤ fs.bpb.tableCount) :
    ∃ after, fs.writeCopies (fs.firstFatSector + index) data remaining copy = (true, after) ∧
      SameVolume fs after ∧
      (∀ other, copy ≤ other → other < copy + remaining →
        after.block (fs.firstFatSector + index + other * fs.bpb.tableSize32) = cutBlock data) ∧
      ∀ sector, (∀ other, copy ≤ other → other < copy + remaining →
        sector ≠ fs.firstFatSector + index + other * fs.bpb.tableSize32) →
          after.block sector = fs.block sector := by
  -- By induction on the copies that are left.
  induction remaining generalizing fs copy with
  | zero => exact ⟨fs, rfl, SameVolume.refl fs, fun _ low high => absurd high (by omega), fun _ _ => rfl⟩
  | succ remaining ih =>
    have fits := tables.fits
    have room : (copy + 1) * fs.bpb.tableSize32 ≤ fs.bpb.tableCount * fs.bpb.tableSize32 :=
      Nat.mul_le_mul_right _ (by omega)
    rw [Nat.succ_mul] at room
    have number : (fs.firstFatSector + index + copy * fs.bpb.tableSize32) % 2 ^ 32 =
        fs.firstFatSector + index + copy * fs.bpb.tableSize32 := Nat.mod_eq_of_lt (by omega)
    have same := fs.store_same (fs.firstFatSector + index + copy * fs.bpb.tableSize32) data
    obtain ⟨after, written, same', copies, kept⟩ := ih (tables.same same) (reliable.same same) inside
      (show copy + 1 + remaining ≤ fs.bpb.tableCount by omega)
    simp only [writeCopies, number, writeSector_eq tables.sector reliable]
    refine ⟨after, written, same.trans same', fun other low high => ?_, fun sector apart => ?_⟩
    · rcases Nat.eq_or_lt_of_le low with rfl | later
      · -- The copies behind this one start at least a whole table further on.
        refine (kept _ fun other above _ => ?_).trans ?_
        · have further : (copy + 1) * fs.bpb.tableSize32 ≤ other * fs.bpb.tableSize32 :=
            Nat.mul_le_mul_right _ above
          rw [Nat.succ_mul] at further
          show fs.firstFatSector + index + copy * fs.bpb.tableSize32 ≠
            fs.firstFatSector + index + other * fs.bpb.tableSize32
          omega
        · rw [store_block, if_pos rfl]
      · exact copies other later (by omega)
    · refine (kept sector fun other above below => apart other (by omega) (by omega)).trans ?_
      rw [store_block, if_neg (apart copy (Nat.le_refl _) (by omega))]

/-- A table entry has been set in every copy of its sector. -/
structure Updated (fs : FileSystem) (cluster value : Nat) (after : FileSystem) : Prop where
  /-- Only the disk has changed. -/
  same : SameVolume fs after
  /-- Sectors that are not part of a copy have not. -/
  outside : ∀ sector, sector < fs.firstFatSector ∨
    fs.firstFatSector + fs.bpb.tableCount * fs.bpb.tableSize32 ≤ sector →
      after.block sector = fs.block sector
  /-- The entry has its value in every copy. -/
  here : ∀ copy < fs.bpb.tableCount, after.copyEntry copy cluster = value % 2 ^ 28
  /-- Other entries are those of the first copy where the sector was written, and have stayed elsewhere. -/
  others : ∀ copy < fs.bpb.tableCount, ∀ other, fs.Listed other → other ≠ cluster →
    after.copyEntry copy other =
      if other / 128 = cluster / 128 then fs.fatEntry other else fs.copyEntry copy other

/-- Sectors of the copies are the same only at the same place in a table. -/
theorem copySector_index {first size index other copy copy' : Nat} (inside : index < size)
    (inside' : other < size) (same : first + index + copy * size = first + other + copy' * size) :
    index = other := by
  -- Remainders by the length of a copy tell them apart.
  have remainders := congrArg (fun n => (n - first) % size) same
  simpa only [show ∀ a b, first + a + b - first = a + b from fun a b => by omega, Nat.add_mul_mod_self_right,
    Nat.mod_eq_of_lt inside, Nat.mod_eq_of_lt inside'] using remainders

/-- On a device that refuses nothing, an update writes the changed sector of the first copy into every copy. -/
theorem updateFatEntry_blocks {fs : FileSystem} (tables : fs.Tables) (reliable : fs.Reliable)
    {cluster : Nat} (listed : fs.Listed cluster) (value : Nat) :
    ∃ after, fs.updateFatEntry cluster value = (true, after) ∧ SameVolume fs after ∧
      (∀ copy < fs.bpb.tableCount,
        after.block (fs.firstFatSector + cluster / 128 + copy * fs.bpb.tableSize32) =
          cutBlock (putWord (fs.block (fs.fatSector cluster)) (fs.fatOffset cluster) (value % 2 ^ 28))) ∧
      ∀ sector, (∀ copy < fs.bpb.tableCount,
        sector ≠ fs.firstFatSector + cluster / 128 + copy * fs.bpb.tableSize32) →
          after.block sector = fs.block sector := by
  obtain ⟨sector, -, within⟩ := listed.place tables
  obtain ⟨after, written, same, copies, kept⟩ := writeCopies_all tables reliable
    (putWord (fs.block (fs.fatSector cluster)) (fs.fatOffset cluster) (value % 2 ^ 28)) within
    fs.bpb.tableCount (show 0 + fs.bpb.tableCount ≤ fs.bpb.tableCount by omega)
  refine ⟨after, ?_, same, fun copy few => copies copy (Nat.zero_le _) (by omega),
    fun other apart => kept other fun copy _ few => apart copy (by omega)⟩
  simp only [updateFatEntry, readSector_eq tables.sector reliable, ← written, sector]

/-- On a device that refuses nothing, an update sets the entry in every copy. -/
theorem updateFatEntry_updated {fs : FileSystem} (tables : fs.Tables) (reliable : fs.Reliable)
    {cluster : Nat} (listed : fs.Listed cluster) (value : Nat) :
    ∃ after, fs.updateFatEntry cluster value = (true, after) ∧ fs.Updated cluster value after := by
  obtain ⟨sector, offset, within⟩ := listed.place tables
  obtain ⟨after, told, same, copies, kept⟩ := updateFatEntry_blocks tables reliable listed value
  have place : ∀ other, after.fatSector other = fs.fatSector other ∧
      after.fatOffset other = fs.fatOffset other := same.fatSector
  have size : after.bpb.tableSize32 = fs.bpb.tableSize32 := by rw [same.fields]
  refine ⟨after, told, same, fun other out => kept other fun copy few => ?_, fun copy few => ?_,
    fun copy few other inside different => ?_⟩
  · -- The sector of the entry lies inside the copy.
    have before : (copy + 1) * fs.bpb.tableSize32 ≤ fs.bpb.tableCount * fs.bpb.tableSize32 :=
      Nat.mul_le_mul_right _ (by omega)
    rw [Nat.succ_mul] at before
    omega
  · rw [copyEntry, (place cluster).1, (place cluster).2, size, sector, offset, copies copy few,
      wordAt_cutBlock _ (Nat.mod_lt _ (by decide)), sector, offset, wordAt_putWord _ _ (by omega)]
    omega
  · obtain ⟨sector', offset', within'⟩ := inside.place tables
    rw [copyEntry, (place other).1, (place other).2, size, sector', offset']
    split
    · rename_i together
      rw [together, copies copy few, wordAt_cutBlock _ (Nat.mod_lt _ (by decide)),
        offset, wordAt_putWord_of_ne _ _ (by omega), fatEntry, sector', offset', sector, together]
    · rename_i separate
      rw [kept, copyEntry, sector', offset']
      intro third _ equal
      exact separate (copySector_index within' within equal)

/-- Entries of the first copy after an update. -/
theorem Updated.fatEntry {fs after : FileSystem} {cluster value : Nat}
    (updated : fs.Updated cluster value after) (tables : fs.Tables) {other : Nat}
    (listed : fs.Listed other) :
    after.fatEntry other = if other = cluster then value % 2 ^ 28 else fs.fatEntry other := by
  -- In the first copy a written sector keeps its other entries.
  rw [← copyEntry_zero]
  split
  · rename_i equal
    rw [equal, updated.here 0 tables.copies]
  · rename_i different
    rw [updated.others 0 tables.copies other listed different, copyEntry_zero, ite_self]

end FileSystem

end Pocky
