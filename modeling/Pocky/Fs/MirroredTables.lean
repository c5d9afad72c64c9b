import Pocky.Fs.ChainLaws
import Pocky.Fs.Tables

/-! The table as a map from clusters to entries, kept in copies that stay alike. -/

namespace Pocky

namespace FileSystem

/-- A copy holds the same sectors as the first one, whatever the copy. -/
def Mirrored (fs : FileSystem) : Prop :=
  ∀ copy < fs.bpb.tableCount, ∀ index < fs.bpb.tableSize32,
    fs.block (fs.firstFatSector + index + copy * fs.bpb.tableSize32) = fs.block (fs.firstFatSector + index)

/-- A boot sector is taken over only if there is a table. -/
theorem copies_of_validateBootSector {bpb : Bpb} (valid : validateBootSector bpb = true) :
    0 < bpb.tableCount := by
  simp only [validateBootSector, Bool.and_eq_true, decide_eq_true_eq] at valid
  exact Nat.pos_of_ne_zero valid.1.1.2

/-- An update leaves copies alike that were alike. -/
theorem updateFatEntry_mirrors {fs after : FileSystem} (tables : fs.Tables) (reliable : fs.Reliable)
    {cluster value : Nat} (listed : fs.Listed cluster)
    (told : fs.updateFatEntry cluster value = (true, after)) (mirrored : fs.Mirrored) : after.Mirrored := by
  obtain ⟨-, -, within⟩ := listed.place tables
  obtain ⟨after', told', same, copies, kept⟩ := updateFatEntry_blocks tables reliable listed value
  obtain rfl : after = after' := congrArg Prod.snd (told.symm.trans told')
  have fields : after.bpb = fs.bpb ∧ after.firstFatSector = fs.firstFatSector := by
    rw [same.fields]
    exact ⟨rfl, rfl⟩
  intro copy few index inside
  rw [fields.1] at few inside
  rw [fields.1, fields.2]
  by_cases here : index = cluster / 128
  · -- The sector has been written into every copy, of which the first one is copy zero.
    have first := copies 0 tables.copies
    rw [Nat.zero_mul, Nat.add_zero] at first
    rw [here, copies copy few, first]
  · -- At other places of a table nothing has been written.
    have apart : ∀ place, ∀ other < fs.bpb.tableCount,
        fs.firstFatSector + index + place * fs.bpb.tableSize32 ≠
          fs.firstFatSector + cluster / 128 + other * fs.bpb.tableSize32 :=
      fun place other _ equal => here (copySector_index inside within equal)
    have first := apart 0
    rw [Nat.zero_mul, Nat.add_zero] at first
    rw [kept _ (apart copy), kept _ first]
    exact mirrored copy few index inside

/-- Reading and updating entries is reading and updating a map, and nothing else on the disk changes. -/
theorem updateFatEntry_map {fs : FileSystem} (tables : fs.Tables) (reliable : fs.Reliable) {cluster : Nat}
    (listed : fs.Listed cluster) (value : Nat) :
    ∃ after, fs.updateFatEntry cluster value = (true, after) ∧
      after.readFatEntry cluster = value % 2 ^ 28 ∧
      (∀ other, fs.Listed other → other ≠ cluster → after.readFatEntry other = fs.readFatEntry other) ∧
      (∀ sector, sector < fs.firstFatSector ∨
        fs.firstFatSector + fs.bpb.tableCount * fs.bpb.tableSize32 ≤ sector →
          after.block sector = fs.block sector) ∧
      (fs.Mirrored → after.Mirrored) := by
  obtain ⟨after, told, updated⟩ := updateFatEntry_updated tables reliable listed value
  have sector' := (tables.same updated.same).sector
  have reliable' := reliable.same updated.same
  refine ⟨after, told, ?_, fun other inside different => ?_, updated.outside,
    updateFatEntry_mirrors tables reliable listed told⟩
  · rw [readFatEntry_eq sector' reliable', updated.fatEntry tables listed, if_pos rfl]
  · rw [readFatEntry_eq sector' reliable', readFatEntry_eq tables.sector reliable,
      updated.fatEntry tables inside, if_neg different]

/-- A volume that holds nothing, with two copies of its table. -/
def twoTables : FileSystem :=
  { smallVolume (fun _ => 0) 2 with
    bpb := { (smallVolume (fun _ => 0) 2).bpb with tableCount := 2, totalSectors32 := 23 }
    firstDataSector := 3 }

/-- On that volume an update keeps the lower bits of a value, in both copies. -/
theorem updateFatEntry_map_two : ∃ after, twoTables.updateFatEntry 5 0xF0000009 = (true, after) ∧
    after.readFatEntry 5 = 9 ∧
    (∀ other, twoTables.Listed other → other ≠ 5 → after.readFatEntry other = twoTables.readFatEntry other) ∧
    after.Mirrored := by
  have tables : twoTables.Tables :=
    ⟨rfl, copies_of_validateBootSector (by decide), by show 1 + 2 * 1 ≤ 2 ^ 32; decide⟩
  have reliable : twoTables.Reliable := ⟨fun _ _ => rfl, fun _ => rfl⟩
  have mirrored : twoTables.Mirrored := by
    -- All blocks hold zeros.
    intro copy _ index _
    funext offset
    simp [twoTables, smallVolume, block]
  obtain ⟨after, told, here, others, -, mirrors⟩ :=
    updateFatEntry_map tables reliable (show twoTables.Listed 5 from by unfold Listed; decide) 0xF0000009
  exact ⟨after, told, here, others, mirrors mirrored⟩

end FileSystem

end Pocky
