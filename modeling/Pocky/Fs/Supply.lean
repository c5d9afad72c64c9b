import Pocky.Fs.Tables
import Pocky.Fs.ChainLaws

/-! Which clusters are ever handed out, and which may be given back. -/

namespace Pocky

namespace FileSystem

/-- A cluster of the data area as volumes are numbered: the first of them is cluster two. -/
def DataCluster (fs : FileSystem) (cluster : Nat) : Prop :=
  2 ≤ cluster ∧ cluster < fs.totalClusters + 2

/-- A laid out volume whose table has an entry for every cluster of the data area. -/
structure Whole (fs : FileSystem) : Prop where
  /-- The volume is laid out. -/
  layout : fs.Layout
  /-- Every cluster of the data area has an entry. -/
  covered : fs.totalClusters + 2 ≤ 128 * fs.bpb.tableSize32
  /-- None of them is numbered like a mark. -/
  numbered : fs.totalClusters + 2 ≤ badMark

/-- Taking a cluster fails only if none is free, and otherwise marks one free cluster and nothing else. -/
def TakesAny (fs : FileSystem) : Prop :=
  let (taken, after) := fs.allocateCluster
  if taken = 0 then ∀ cluster, fs.DataCluster cluster → fs.fatEntry cluster ≠ 0
  else fs.DataCluster taken ∧ fs.fatEntry taken = 0 ∧
    (∀ copy < fs.bpb.tableCount, after.copyEntry copy taken = endMark) ∧
    (∀ other, fs.Listed other → other ≠ taken → after.fatEntry other = fs.fatEntry other) ∧
    ∀ copy < fs.bpb.tableCount, ∀ other, fs.Listed other → other ≠ taken →
      fs.copyEntry copy other = fs.fatEntry other → after.copyEntry copy other = fs.copyEntry copy other

variable {fs : FileSystem}

/-- Clusters of the data area have entries. -/
theorem Whole.listed (whole : fs.Whole) {cluster : Nat} (data : fs.DataCluster cluster) :
    fs.Listed cluster := by
  -- All of them are covered, and none is a mark.
  have covered := whole.covered
  have numbered := whole.numbered
  have limit : badMark < 2 ^ 28 := by decide
  obtain ⟨-, high⟩ := data
  constructor <;> omega

/-- If a cluster that the scan visits is free, one is taken as it should be. -/
theorem Whole.takesAny_of_free (whole : fs.Whole) (reliable : fs.Reliable) {free : Nat}
    (valid : fs.InVolume free) (zero : fs.fatEntry free = 0) : fs.TakesAny := by
  have read := readFatEntry_eq whole.layout.sector reliable
  rcases fs.allocateCluster_scan with ⟨-, used⟩ | ⟨taken, found, inside, unused, -⟩
  · -- The scan does not pass the free cluster.
    rw [← read] at zero
    exact absurd zero (used free valid)
  · have positive : taken ≠ 0 := by
      have low := inside.1
      omega
    obtain ⟨after, told, updated⟩ := updateFatEntry_updated whole.layout.tables reliable
      (whole.layout.listed inside.2) endMark
    have mark : endMark % 2 ^ 28 = endMark := by decide
    rw [told] at found
    simp only [TakesAny, found, if_neg positive]
    refine ⟨⟨inside.1, by have := inside.2; omega⟩, by rw [← read, unused], fun copy few => ?_,
      fun other listed different => ?_, fun copy few other listed different agrees => ?_⟩
    · rw [updated.here copy few, mark]
    · rw [updated.fatEntry whole.layout.tables listed, if_neg different]
    · rw [updated.others copy few other listed different, agrees, ite_self]

/-- If the scan meets no free cluster, none is taken. -/
theorem allocateCluster_full (sector512 : fs.bpb.bytesPerSector = 512) (reliable : fs.Reliable)
    (used : ∀ cluster, fs.InVolume cluster → fs.fatEntry cluster ≠ 0) :
    fs.allocateCluster = (0, fs) := by
  rcases fs.allocateCluster_scan with ⟨none, -⟩ | ⟨taken, -, inside, unused, -⟩
  · exact none
  · rw [readFatEntry_eq sector512 reliable] at unused
    exact absurd unused (used taken inside)

/-- Giving back a cluster that the code takes for one of the volume frees it. -/
theorem Whole.freeCluster_frees (whole : fs.Whole) (reliable : fs.Reliable) {cluster : Nat}
    (valid : fs.InVolume cluster) : (fs.freeCluster cluster).fatEntry cluster = 0 := by
  -- The update of its entry is not refused.
  have updates := freeCluster_updates whole.layout valid
  exact (updates.accepted (reliable.read _ _) (reliable.write _)).1

/--
Clusters are taken and given back as on a volume with `totalClusters` clusters numbered from two,
except that the last two of them are never taken and never given back.
-/
theorem allocateCluster_uses_volume_iff (fs : FileSystem) (whole : fs.Whole) (reliable : fs.Reliable) :
    (fs.TakesAny ↔
      (∃ cluster, fs.DataCluster cluster ∧ cluster < fs.totalClusters ∧ fs.fatEntry cluster = 0) ∨
        ∀ cluster, fs.DataCluster cluster → fs.totalClusters ≤ cluster → fs.fatEntry cluster ≠ 0) ∧
      ∀ cluster, fs.DataCluster cluster → ((fs.freeCluster cluster).fatEntry cluster = 0 ↔
        cluster < fs.totalClusters ∨ fs.fatEntry cluster = 0) := by
  refine ⟨⟨fun takes => ?_, ?_⟩, fun cluster data => ⟨fun freed => ?_, ?_⟩⟩
  · by_cases free : ∃ cluster, fs.DataCluster cluster ∧ cluster < fs.totalClusters ∧
        fs.fatEntry cluster = 0
    · exact Or.inl free
    · -- Nothing is taken, so the clusters that the scan leaves out are in use as well.
      have used : ∀ cluster, fs.InVolume cluster → fs.fatEntry cluster ≠ 0 := fun cluster valid zero =>
        free ⟨cluster, ⟨valid.1, Nat.lt_add_right 2 valid.2⟩, valid.2, zero⟩
      simp only [TakesAny, allocateCluster_full whole.layout.sector reliable used, if_true] at takes
      exact Or.inr fun cluster data _ => takes cluster data
  · rintro (⟨cluster, data, small, zero⟩ | last)
    · exact whole.takesAny_of_free reliable ⟨data.1, small⟩ zero
    · by_cases free : ∃ cluster, fs.InVolume cluster ∧ fs.fatEntry cluster = 0
      · obtain ⟨cluster, valid, zero⟩ := free
        exact whole.takesAny_of_free reliable valid zero
      · have used : ∀ cluster, fs.InVolume cluster → fs.fatEntry cluster ≠ 0 :=
          fun cluster valid zero => free ⟨cluster, valid, zero⟩
        simp only [TakesAny, allocateCluster_full whole.layout.sector reliable used, if_true]
        intro cluster data
        rcases Nat.lt_or_ge cluster fs.totalClusters with small | large
        · exact used cluster ⟨data.1, small⟩
        · exact last cluster data large
  · by_cases small : cluster < fs.totalClusters
    · exact Or.inl small
    · -- A number that is taken to lie outside the volume is ignored.
      rw [freeCluster, if_pos (Or.inr (Nat.le_of_not_lt small))] at freed
      exact Or.inr freed
  · rintro (small | zero)
    · exact whole.freeCluster_frees reliable ⟨data.1, small⟩
    · by_cases small : cluster < fs.totalClusters
      · exact whole.freeCluster_frees reliable ⟨data.1, small⟩
      · rw [freeCluster, if_pos (Or.inr (Nat.le_of_not_lt small)), zero]

/-- A table in which all clusters but the last two are in use. -/
def nearlyFull : Buffer := fun addr => if 512 + 8 ≤ addr ∧ addr < 512 + 80 then 0x01 else 0x00

/-- The small volume has entries for all its clusters. -/
theorem smallVolume_whole (bytes : Buffer) (current : Nat) : (smallVolume bytes current).Whole :=
  ⟨smallVolume_layout bytes current, by show 20 + 2 ≤ 128 * 1; decide,
    by show 20 + 2 ≤ badMark; decide⟩

/-- The equivalences on an empty volume. -/
theorem allocateCluster_uses_volume_iff_empty :
    (smallVolume (fun _ => 0) 2).TakesAny ∧
      ((smallVolume (fun _ => 0) 2).freeCluster 7).fatEntry 7 = 0 := by
  have uses := allocateCluster_uses_volume_iff (smallVolume (fun _ => 0) 2) (smallVolume_whole _ 2)
    (smallVolume_reliable _ 2)
  exact ⟨uses.1.mpr (Or.inl ⟨2, ⟨by decide, by decide +kernel⟩, by decide +kernel, by decide +kernel⟩),
    (uses.2 7 ⟨by decide, by decide +kernel⟩).mpr (Or.inl (by decide +kernel))⟩

/-- On a nearly full volume two clusters are free and none is taken. -/
theorem allocateCluster_leaves_last_two :
    (smallVolume nearlyFull 2).allocateCluster = (0, smallVolume nearlyFull 2) ∧
      (smallVolume nearlyFull 2).DataCluster 20 ∧ (smallVolume nearlyFull 2).DataCluster 21 ∧
      (smallVolume nearlyFull 2).fatEntry 20 = 0 ∧ (smallVolume nearlyFull 2).fatEntry 21 = 0 ∧
      ¬ (smallVolume nearlyFull 2).TakesAny ∧
      (smallVolume nearlyFull 2).freeCluster 20 = smallVolume nearlyFull 2 := by
  have used : ∀ cluster < 20, 2 ≤ cluster → (smallVolume nearlyFull 2).fatEntry cluster ≠ 0 := by
    decide +kernel
  have none : (smallVolume nearlyFull 2).allocateCluster = (0, smallVolume nearlyFull 2) :=
    allocateCluster_full rfl (smallVolume_reliable _ 2) fun cluster valid =>
      used cluster valid.2 valid.1
  have free : (smallVolume nearlyFull 2).fatEntry 20 = 0 := by decide +kernel
  have data : (smallVolume nearlyFull 2).DataCluster 20 := ⟨by decide, by decide +kernel⟩
  refine ⟨none, data, ⟨by decide, by decide +kernel⟩, free, by decide +kernel, fun takes => ?_, ?_⟩
  · simp only [TakesAny, none, if_true] at takes
    exact takes 20 data free
  · exact if_pos (Or.inr (Nat.le_refl 20))

end FileSystem

end Pocky
