import Pocky.Fs.Emptiness
import Pocky.Fs.HandingOut
import Pocky.Fs.TreeOperations
import Pocky.Fs.WriteEntry

/-! What lookups find in a directory that has just been created. -/

namespace Pocky

/-- The names of the two dot entries, and that the other slots are unused. -/
theorem dotSector_slots (cluster parent : Nat) :
    SlotNames (FileSystem.dotSector 0x00 cluster parent) dot 0 ∧
      SlotNames (FileSystem.dotSector 0x00 cluster parent) dotDot slotSize ∧
      ∀ slot, 2 ≤ slot → FileSystem.dotSector 0x00 cluster parent (slotSize * slot) = 0x00 := by
  have first : entryName (FileSystem.dotSector 0x00 cluster parent) 0 = dot := by
    refine entryName_padded (by decide) (by decide +kernel) (Or.inl rfl) fun index inside => ?_
    simp [FileSystem.dotSector, FileSystem.dotEntry, inside, show index < 32 by omega]
  have second : entryName (FileSystem.dotSector 0x00 cluster parent) slotSize = dotDot := by
    refine entryName_padded (by decide) (by decide +kernel) (Or.inl rfl) fun index inside => ?_
    simp [FileSystem.dotSector, FileSystem.dotEntry, slotSize, inside,
      show ¬ 32 + index < 32 by omega, show 32 + index < 64 by omega]
  refine ⟨⟨?_, ?_, first⟩, ⟨?_, ?_, second⟩, fun slot behind => ?_⟩
  · simp [FileSystem.dotSector, FileSystem.dotEntry, dot, freeByte]
  · simp [entryAttributes, FileSystem.dotSector, FileSystem.dotEntry]
  · simp [FileSystem.dotSector, FileSystem.dotEntry, slotSize, dotDot, freeByte]
  · simp [entryAttributes, FileSystem.dotSector, FileSystem.dotEntry, slotSize]
  · have late : ¬ slotSize * slot < 32 ∧ ¬ slotSize * slot < 64 := by
      simp only [slotSize]
      omega
    rw [FileSystem.dotSector, if_neg late.1, if_neg late.2]

/-- A lookup of a dot name finds its entry. -/
theorem findName_dotSector (cluster parent : Nat) :
    findName (FileSystem.dotSector 0x00 cluster parent) dot 16 0 = some 0 ∧
      findName (FileSystem.dotSector 0x00 cluster parent) dotDot 16 0 = some slotSize := by
  obtain ⟨first, second, -⟩ := dotSector_slots cluster parent
  have other : ¬ SlotNames (FileSystem.dotSector 0x00 cluster parent) dotDot 0 := by
    rintro ⟨-, -, named⟩
    exact absurd (first.2.2.symm.trans named) (by decide)
  constructor
  · rw [findName_succ, if_neg first.used, if_pos first]
  · rw [findName_succ, if_neg first.used, if_neg other, Nat.zero_add, findName_succ,
      if_neg second.used, if_pos second]

/-- The clusters that the dot entries record, of which sixteen bits are kept. -/
theorem entryCluster_dotSector (cluster parent : Nat) :
    entryCluster (FileSystem.dotSector 0x00 cluster parent) 0 = cluster % 65536 ∧
      entryCluster (FileSystem.dotSector 0x00 cluster parent) slotSize = parent % 65536 := by
  constructor
  · exact halfAt_byteOf rfl rfl
  · exact halfAt_byteOf rfl rfl

/-- The sector of the dot entries shows no other entry. -/
theorem not_ordinary_dotSector {cluster parent slot : Nat}
    (visited : Visited (FileSystem.dotSector 0x00 cluster parent) slot) :
    ¬ Ordinary (FileSystem.dotSector 0x00 cluster parent) (slotSize * slot) := by
  obtain ⟨first, second, behind⟩ := dotSector_slots cluster parent
  rintro ⟨-, -, other⟩
  match slot with
  | 0 => exact other (first.2.2 ▸ List.mem_cons_self)
  | 1 => exact other (second.2.2 ▸ List.mem_cons_of_mem _ List.mem_cons_self)
  | slot + 2 => exact visited.2 (slot + 2) (Nat.le_refl _) (behind (slot + 2) (by omega))

namespace FileSystem

/-- A directory has its dot entries and nothing else. -/
structure StartsEmpty (fs : FileSystem) (directory parent : Nat) : Prop where
  /-- One dot leads to itself. -/
  self : ∃ found, fs.findFileInDirectory directory dot = .ok (some found) ∧ found.cluster = directory
  /-- Two dots lead to its parent. -/
  up : ∃ found, fs.findFileInDirectory directory dotDot = .ok (some found) ∧ found.cluster = parent
  /-- No other name is found. -/
  others : ∀ name ∉ dotNames, fs.findFileInDirectory directory name = .ok none

/-- What has become of the disk when a directory has been created. -/
structure NewDirectory (fs after : FileSystem) (cluster : Nat) : Prop where
  /-- The geometry is the same. -/
  same : SameVolume fs after
  /-- The cluster belongs to the volume. -/
  valid : fs.InVolume cluster
  /-- It is a chain by itself. -/
  alone : after.fatEntry cluster = endMark
  /-- Its first sector has the dot entries. -/
  first : after.block (fs.clusterSector cluster) = dotSector 0x00 cluster fs.currentDirectoryCluster
  /-- Its other sectors have not changed. -/
  rest : ∀ sector ∈ fs.clusterSectors cluster, sector ≠ fs.clusterSector cluster →
    after.block sector = fs.block sector

variable {fs after : FileSystem} {cluster : Nat} {name : Name}

/-- The first sector of a cluster is one of its sectors, followed by the others. -/
theorem clusterSectors_eq (layout : fs.Layout) (cluster : Nat) :
    fs.clusterSectors cluster = fs.clusterSector cluster :: (fs.clusterSectors cluster).tail := by
  obtain ⟨rest, shape⟩ : ∃ rest, fs.bpb.sectorsPerCluster = rest + 1 :=
    ⟨fs.bpb.sectorsPerCluster - 1, (Nat.sub_add_cancel layout.cluster).symm⟩
  have number : (fs.clusterSector cluster + 0) % 2 ^ 32 = fs.clusterSector cluster := by
    rw [Nat.add_zero, clusterSector, Nat.mod_mod]
  rw [clusterSectors, shape, List.range'_succ, List.map_cons, List.tail_cons, number]

/-- Creating a directory with a short name takes a cluster and sets its first sector up. -/
theorem createDirectory_new (layout : fs.Layout) (reliable : fs.Reliable)
    (here : fs.InVolume fs.currentDirectoryCluster)
    (used : fs.fatEntry fs.currentDirectoryCluster ≠ 0) (short : name.length ≤ 11)
    (allocated : fs.allocateCluster.1 = cluster)
    (returned : fs.createDirectory name = .ok (true, after)) : fs.NewDirectory after cluster := by
  obtain ⟨⟨made, entered⟩, created, rest⟩ := Run.bind_eq_ok.mp returned
  cases made with
  | none => cases rest
  | some places =>
    obtain ⟨parent, number⟩ := places
    obtain ⟨-, rfl, given, -, taken, named, took, wrote, entry⟩ := createEntry_some created
    obtain rfl : number = cluster := by rw [← allocated, took]
    rw [if_neg (Nat.not_lt.mpr short)] at wrote
    obtain ⟨-, rfl⟩ := Prod.mk.inj (Except.ok.inj wrote)
    have read := readFatEntry_eq layout.sector reliable
    rcases allocateCluster_cases layout with ⟨full, -⟩ | ⟨first, state, told, valid, zero, updates, -⟩
    · rw [full] at took
      exact absurd (Prod.mk.inj took).1.symm given
    obtain ⟨rfl, rfl⟩ := Prod.mk.inj (told.symm.trans took)
    rw [read] at zero
    -- The entry and the dot entries are stored in two sectors of the data area.
    have layout' := layout.same updates.same
    obtain ⟨slot, -, -, -, rfl⟩ := writeDirectoryEntry_store layout'.sector entry
    generalize entering : putBytes _ _ _ _ = data at rest
    have same := updates.same.trans (store_same state (state.clusterSector fs.currentDirectoryCluster) data)
    have stored := store_of_writeSector (layout.same same).sector (Except.ok.inj rest)
    rw [same.clusterSector, updates.same.clusterSector] at stored
    rw [updates.same.clusterSector] at same
    subst stored
    have first_mem : ∀ other, fs.clusterSector other ∈ fs.clusterSectors other := fun other => by
      rw [clusterSectors_eq layout]
      exact List.mem_cons_self
    -- The cluster was free, so it is not the current directory's.
    have apart : first ≠ fs.currentDirectoryCluster := by
      rintro rfl
      exact used zero
    have mine : ∀ sector ∈ fs.clusterSectors first, sector ≠ fs.clusterSector fs.currentDirectoryCluster := by
      rintro _ member rfl
      exact apart (layout.cluster_unique valid here member (first_mem _))
    have table : ∀ mid : FileSystem, SameVolume fs mid → ∀ other, fs.InVolume other → ∀ data,
        (mid.store (fs.clusterSector other) data).fatEntry first = mid.fatEntry first := by
      intro mid same' other inside data
      refine fatEntry_store (layout.same same') data ?_ (same'.inVolume.mpr valid).2
      rw [show mid.firstDataSector = fs.firstDataSector by rw [same'.fields]]
      exact layout.clusterSectors_high inside (first_mem other)
    refine ⟨same.trans (store_same _ _ _), valid, ?_, ?_, ?_⟩
    · rw [table _ same _ valid, table _ updates.same _ here,
        (updates.accepted (reliable.read _ _) (reliable.write _)).1]
      decide
    · rw [store_block, if_pos rfl, cutBlock_dotSector]
    · intro sector member other
      rw [store_block, if_neg other, store_block, if_neg (mine sector member),
        updates.data sector (layout.clusterSectors_high valid member)]

/-- The cluster of a new directory is a chain. -/
theorem NewDirectory.links (new : fs.NewDirectory after cluster) : after.Links cluster [cluster] :=
  ⟨by show endMark ≤ after.fatEntry cluster; rw [new.alone], rfl, List.nodup_singleton cluster, fun other member => by
    obtain rfl := List.mem_singleton.mp member
    exact new.same.inVolume.mpr new.valid⟩

/-- Lookups of other names in a new directory fail just when its other sectors show no entry. -/
theorem NewDirectory.others_iff (new : fs.NewDirectory after cluster) (layout : fs.Layout)
    (reliable : fs.Reliable) :
    (∀ name ∉ dotNames, after.findFileInDirectory cluster name = .ok none) ↔
      ¬ fs.Shows Ordinary (fs.clusterSectors cluster).tail := by
  have sectors : after.directorySectors [cluster] =
      fs.clusterSector cluster :: (fs.clusterSectors cluster).tail := by
    rw [new.same.directorySectors, directorySectors_cons, ← clusterSectors_eq layout]
    exact List.append_nil _
  rw [new.links.lookups_fail_iff (layout.same new.same) (reliable.same new.same), sectors, Shows,
    List.exists_mem_cons_iff, new.first]
  -- The first sector shows none, and the others are as before.
  have silent : ¬ ∃ slot, Visited (dotSector 0x00 cluster fs.currentDirectoryCluster) slot ∧
      Ordinary (dotSector 0x00 cluster fs.currentDirectoryCluster) (slotSize * slot) := by
    rintro ⟨slot, visited, ordinary⟩
    exact not_ordinary_dotSector visited ordinary
  have nodup := layout.clusterSectors_nodup new.valid
  rw [clusterSectors_eq layout, List.nodup_cons] at nodup
  have kept : ∀ sector ∈ (fs.clusterSectors cluster).tail, after.block sector = fs.block sector := by
    intro sector member
    refine new.rest sector (List.mem_of_mem_tail member) ?_
    rintro rfl
    exact nodup.1 member
  rw [or_iff_right silent, not_iff_not, Shows]
  constructor
  · rintro ⟨sector, member, shows⟩
    exact ⟨sector, member, kept sector member ▸ shows⟩
  · rintro ⟨sector, member, shows⟩
    exact ⟨sector, member, (kept sector member).symm ▸ shows⟩

/--
A new directory has its dot entries and nothing else exactly if its own number and its parent's fit
in sixteen bits, and the sectors of its cluster behind the first show no entry of earlier use.
-/
theorem createDirectory_startsEmpty_iff (fs after : FileSystem) (layout : fs.Layout)
    (reliable : fs.Reliable) (here : fs.InVolume fs.currentDirectoryCluster)
    (used : fs.fatEntry fs.currentDirectoryCluster ≠ 0) (name : Name) (short : name.length ≤ 11)
    (cluster : Nat) (allocated : fs.allocateCluster.1 = cluster)
    (returned : fs.createDirectory name = .ok (true, after)) :
    after.StartsEmpty cluster fs.currentDirectoryCluster ↔
      cluster < 65536 ∧ fs.currentDirectoryCluster < 65536 ∧
        ¬ fs.Shows Ordinary (fs.clusterSectors cluster).tail := by
  have new := createDirectory_new layout reliable here used short allocated returned
  have layout' := layout.same new.same
  have reliable' := reliable.same new.same
  have first : after.block (after.clusterSector cluster) =
      dotSector 0x00 cluster fs.currentDirectoryCluster := by
    rw [new.same.clusterSector, new.first]
  have whole : ∀ number, number % 65536 = number ↔ number < 65536 := by omega
  -- Both dot entries are in the first sector.
  have hits := findName_dotSector cluster fs.currentDirectoryCluster
  rw [← first] at hits
  have self := findFileInDirectory_first layout' reliable' hits.1
  have up := findFileInDirectory_first layout' reliable' hits.2
  rw [first, (entryCluster_dotSector _ _).1] at self
  rw [first, (entryCluster_dotSector _ _).2] at up
  rw [← new.others_iff layout reliable]
  constructor
  · rintro ⟨⟨found, looked, mine⟩, ⟨found', looked', parent⟩, others⟩
    obtain rfl := Option.some.inj (Except.ok.inj (self.symm.trans looked))
    obtain rfl := Option.some.inj (Except.ok.inj (up.symm.trans looked'))
    exact ⟨(whole cluster).mp mine, (whole _).mp parent, others⟩
  · rintro ⟨mine, parent, others⟩
    exact ⟨⟨_, self, (whole cluster).mpr mine⟩, ⟨_, up, (whole _).mpr parent⟩, others⟩

/-- A volume whose root directory is in use, and nothing else. -/
def freshVolume : FileSystem := twoSectorVolume rootOnly

/-- A directory that is created on it starts empty. -/
theorem createDirectory_startsEmpty_iff_fresh : ∃ after,
    freshVolume.createDirectory [0x64] = .ok (true, after) ∧ after.StartsEmpty 3 2 := by
  have accepted : Run.accepts (freshVolume.createDirectory [0x64]) (fun _ => true) = true := by
    decide +kernel
  obtain ⟨after, returned, -⟩ := Run.exists_of_accepts accepted
  have layout : freshVolume.Layout :=
    ⟨rfl, by decide, by decide, by decide, by decide, by decide, by decide⟩
  have sectors : (freshVolume.clusterSectors 3).tail = [5] := by decide +kernel
  have unused : freshVolume.block 5 (slotSize * 0) = 0x00 := by decide +kernel
  refine ⟨after, returned, (createDirectory_startsEmpty_iff freshVolume after layout
    ⟨fun _ _ => rfl, fun _ => rfl⟩ ⟨by decide, by decide⟩ (by decide +kernel) [0x64] (by decide) 3
    (by decide +kernel) returned).mpr ⟨by decide, by decide, ?_⟩⟩
  rw [sectors]
  rintro ⟨sector, member, slot, visited, -⟩
  obtain rfl := List.mem_singleton.mp member
  exact visited.2 0 (Nat.zero_le _) unused

/-- A free cluster whose second sector holds an entry, as data of a deleted file may. -/
def usedVolume : FileSystem :=
  twoSectorVolume (putBytes rootOnly (512 * 5) slotSize (entryBytes [0x41] 0x20 7 0))

/-- That entry is found in a directory that is created there. -/
theorem createDirectory_shows_earlier_data : ∃ after,
    usedVolume.createDirectory [0x64] = .ok (true, after) ∧ usedVolume.allocateCluster.1 = 3 ∧
      after.findFileInDirectory 3 [0x41] = .ok (some ⟨7, 0, 0x20, some (5, 0)⟩) ∧
      ¬ after.StartsEmpty 3 2 := by
  have accepted : Run.accepts (usedVolume.createDirectory [0x64]) (fun after =>
      (after.findFileInDirectory 3 [0x41]).toOption = some (some ⟨7, 0, 0x20, some (5, 0)⟩)) = true := by
    decide +kernel
  obtain ⟨after, returned, found⟩ := Run.exists_of_accepts accepted
  have looked := Run.toOption_eq_some.mp (of_decide_eq_true found)
  refine ⟨after, returned, by decide +kernel, looked, fun starts => ?_⟩
  cases looked.symm.trans (starts.others [0x41] (by decide))

end FileSystem

end Pocky
