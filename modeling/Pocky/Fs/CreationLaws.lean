import Pocky.Fs.FileData
import Pocky.Fs.LongNames
import Pocky.Fs.Lookups

/-! What the creation of an entry comes to on a device that refuses nothing. -/

namespace Pocky

namespace FileSystem

/-- A part of a long name does not look like a free slot. -/
theorem freeByte_lfnBytes {longName : Name} {checksum : UInt8} {numEntries index : Nat}
    (few : index < 20) : freeByte (lfnBytes longName checksum numEntries index 0) = false := by
  -- Its first byte is a number from 1 to 20, perhaps with the mark of the last part.
  have numbers : ∀ index < 20, freeByte (UInt8.ofNat (0x40 ||| (index + 1))) = false ∧
      freeByte (UInt8.ofNat (index + 1)) = false := by decide
  show freeByte (UInt8.ofNat (if _ then _ else _)) = false
  split
  · exact (numbers index few).1
  · exact (numbers index few).2

/-- A slot a long name is entered in, the last of them being at the position of the first free slot. -/
def LongNameTakes (fs : FileSystem) (directory : Nat) (name : Name) (last sector slot : Nat) : Prop :=
  sector = fs.longNameSector directory name last ∧ last + 1 - numEntries name ≤ slot ∧ slot ≤ last

/-- After a long name has been entered, the free slots left are those it has not taken. -/
theorem withLongName_free {fs : FileSystem} {directory : Nat} {name : Name} {checksum : UInt8}
    {last sector slot : Nat} (short : name.length ≤ 255) (small : slot < 16) :
    freeByte ((fs.withLongName directory name checksum last).block sector (slotSize * slot)) = true ↔
      freeByte (fs.block sector (slotSize * slot)) = true ∧
        ¬ fs.LongNameTakes directory name last sector slot := by
  have byte := withLongName_slot fs directory name checksum last sector small
    (show 0 < slotSize by decide)
  rw [Nat.add_zero] at byte
  rw [byte]
  by_cases takes : fs.LongNameTakes directory name last sector slot
  · -- The slot holds a part of the name.
    obtain ⟨here, low, high⟩ := takes
    have few : slot + numEntries name - 1 - last < 20 := by
      simp only [numEntries] at low ⊢
      omega
    rw [if_pos ⟨here, low, high⟩, freeByte_lfnBytes few]
    simp [LongNameTakes, here, low, high]
  · rw [if_neg (show ¬ (sector = _ ∧ _ ≤ slot ∧ slot ≤ last) from takes)]
    simp [takes]

/-- A long name would take all the free slots of the current directory. -/
def LongNameFills (fs : FileSystem) (name : Name) (clusters : List Nat) : Prop :=
  ∃ last, fs.findFreeDirectoryEntry fs.currentDirectoryCluster = .ok (some (slotSize * last)) ∧
    ∀ sector ∈ fs.directorySectors clusters, ∀ slot < 16,
      freeByte (fs.block sector (slotSize * slot)) = true →
      fs.LongNameTakes fs.currentDirectoryCluster name last sector slot

/-- The table has the entries it had, and the data area the bytes. -/
structure Unchanged (fs after : FileSystem) : Prop where
  /-- Only the disk may have changed. -/
  same : SameVolume fs after
  /-- The entries of the table have not. -/
  table : ∀ cluster < fs.totalClusters, after.fatEntry cluster = fs.fatEntry cluster
  /-- The data area has not. -/
  data : fs.SameData after

/-- Nothing has been done. -/
theorem Unchanged.refl (fs : FileSystem) : fs.Unchanged fs :=
  ⟨SameVolume.refl fs, fun _ _ => rfl, fun _ _ => rfl⟩

/-- Taking a cluster and giving it back changes nothing. -/
theorem unchanged_freeCluster {fs taken : FileSystem} (layout : fs.Layout) (reliable : fs.Reliable)
    {cluster : Nat} (valid : fs.InVolume cluster) (free : fs.fatEntry cluster = 0)
    (updates : fs.Updates cluster endMark taken) : fs.Unchanged (taken.freeCluster cluster) := by
  have same := updates.same
  have freeing := freeCluster_updates (layout.same same) (same.inVolume.mpr valid)
  have reliable' := reliable.same same
  refine ⟨same.trans freeing.same, ?_, SameData.trans updates.data freeing.data same⟩
  intro other small
  have small' : other < taken.totalClusters := by
    rw [same.fields]
    exact small
  by_cases equal : other = cluster
  · -- The entry was zero, and is again.
    rw [equal, (freeing.accepted (reliable'.read _ _) (reliable'.write _)).1, free,
      Nat.zero_mod]
  · rw [freeing.others other small' equal, updates.others other small equal]

/-- What the creation of an entry in the current directory can come to. -/
inductive CreationOutcome (fs : FileSystem) (clusters : List Nat) (name : Name)
    (attributes : UInt8) : Option (Nat × Nat) → FileSystem → Prop
  /-- The name is there, or there is no cluster or no slot, and nothing has changed. -/
  | refused (after : FileSystem)
      (reason : (∃ found, fs.findFileInDirectory fs.currentDirectoryCluster name =
        .ok (some found)) ∨ fs.freeClusters = ∅ ∨ ¬ fs.HasFreeSlot clusters)
      (kept : fs.Unchanged after) : CreationOutcome fs clusters name attributes none after
  /-- The long name was entered, and left no slot for the entry. -/
  | filled (after : FileSystem) (long : 11 < name.length)
      (given : fs.freeClusters.Nonempty) (room : fs.HasFreeSlot clusters)
      (fills : fs.LongNameFills name clusters) (same : SameVolume fs after)
      (full : ¬ after.HasFreeSlot clusters) :
      CreationOutcome fs clusters name attributes none after
  /-- The entry was made. -/
  | entered (after : FileSystem) (cluster : Nat)
      (absent : fs.findFileInDirectory fs.currentDirectoryCluster name = .ok none)
      (valid : fs.InVolume cluster) (free : fs.fatEntry cluster = 0)
      (first : ∀ other, 2 ≤ other → other < cluster → fs.fatEntry other ≠ 0)
      (room : fs.HasFreeSlot clusters)
      (spared : 11 < name.length → ¬ fs.LongNameFills name clusters)
      (same : SameVolume fs after)
      (table : ∀ other < fs.totalClusters,
        after.fatEntry other = Function.update fs.fatEntry cluster endMark other)
      (slot : name.length ≤ 11 → ∃ slot < 16,
        fs.findFreeDirectoryEntry fs.currentDirectoryCluster = .ok (some (slotSize * slot)) ∧
        ∀ sector, fs.firstDataSector ≤ sector → after.block sector =
          if sector = fs.clusterSector fs.currentDirectoryCluster then
            putBytes (fs.block sector) (slotSize * slot) slotSize
              (entryBytes (shortName name) attributes cluster 0)
          else fs.block sector) :
      CreationOutcome fs clusters name attributes (some (fs.currentDirectoryCluster, cluster)) after

section Creation

variable {fs : FileSystem} {clusters : List Nat} {name : Name}

/-- A change of an entry outside a chain leaves the chain alone. -/
theorem Links.updates {start cluster value : Nat} {taken : FileSystem}
    (links : fs.Links start clusters) (free : fs.fatEntry cluster = 0)
    (updates : fs.Updates cluster value taken) : taken.Links start clusters := by
  refine updates.same.links links fun other member => ?_
  refine updates.others other (links.valid other member).2 ?_
  rintro rfl
  exact fatEntry_ne_zero links.linked links.valid member free

/-- Writing to the data area leaves a chain alone. -/
theorem Links.store {start sector : Nat} {data : Buffer} (layout : fs.Layout)
    (links : fs.Links start clusters) (high : fs.firstDataSector ≤ sector) :
    (fs.store sector data).Links start clusters :=
  (fs.store_same sector data).links links fun other member =>
    fatEntry_store layout data high (links.valid other member).2

/-- The table once a cluster has been taken. -/
theorem Updates.taken_table {cluster : Nat} {taken : FileSystem} (reliable : fs.Reliable)
    (updates : fs.Updates cluster endMark taken) {other : Nat} (below : other < fs.totalClusters) :
    taken.fatEntry other = Function.update fs.fatEntry cluster endMark other := by
  by_cases equal : other = cluster
  · rw [equal, Function.update_self]
    exact (updates.accepted (reliable.read _ _) (reliable.write _)).1
  · rw [updates.others other below equal, Function.update_of_ne equal]

/-- The creation of an entry once a cluster has been taken, for a name that fits in a slot. -/
theorem createEntry_short (layout : fs.Layout) (reliable : fs.Reliable)
    (links : fs.Links fs.currentDirectoryCluster clusters)
    (valid : validateFileName name = true) (short : name.length ≤ 11) (attributes : UInt8)
    (absent : fs.findFileInDirectory fs.currentDirectoryCluster name = .ok none)
    {cluster : Nat} {taken : FileSystem} (allocated : fs.allocateCluster = (cluster, taken))
    (inside : fs.InVolume cluster) (free : fs.fatEntry cluster = 0)
    (updates : fs.Updates cluster endMark taken)
    (first : ∀ other, 2 ≤ other → other < cluster → fs.fatEntry other ≠ 0) :
    ∃ created after, fs.createEntry name attributes = .ok (created, after) ∧
      CreationOutcome fs clusters name attributes created after := by
  have nonempty : name ≠ [] := by
    rintro rfl
    cases valid
  have given : cluster ≠ 0 := by
    have := inside.1
    omega
  have same := updates.same
  have layout' := layout.same same
  have links' := links.updates free updates
  have searched := links.findFreeDirectoryEntry_congr layout reliable same links'
    fun sector member => updates.data sector (links.high layout member)
  rw [createEntry]
  simp only [valid, Bool.not_true, Bool.false_eq_true, if_false, startOf_of_valid valid,
    if_neg nonempty, absent, Run.ok_bind, allocated, if_neg given,
    if_neg (Nat.not_lt.mpr short), Run.pure_eq]
  rcases links.findFreeDirectoryEntry_cases layout reliable with ⟨none, full⟩ | ⟨last, small, some, room⟩
  · -- There is no slot, and the cluster is given back.
    simp only [writeDirectoryEntry, searched, none, Run.ok_bind, Run.pure_eq, Bool.not_false, if_true]
    exact ⟨_, _, rfl, .refused _ (Or.inr (Or.inr full))
      (unchanged_freeCluster layout reliable inside free updates)⟩
  · simp only [writeDirectoryEntry, searched, some, Run.ok_bind, Run.pure_eq,
      readSector_eq layout'.sector (reliable.same same),
      writeSector_eq layout'.sector (reliable.same same), Bool.not_true, Bool.false_eq_true, if_false]
    have high := links.high layout (links.first_mem layout)
    have place := same.clusterSector fs.currentDirectoryCluster
    have stored := taken.store_same (taken.clusterSector fs.currentDirectoryCluster)
      (putBytes (taken.block (taken.clusterSector fs.currentDirectoryCluster)) (slotSize * last)
        slotSize (entryBytes (shortName name) attributes cluster 0))
    refine ⟨_, _, rfl, .entered _ cluster absent inside free first room (fun long => by omega)
      (same.trans stored) ?_ fun _ => ⟨last, small, some, ?_⟩⟩
    · intro other below
      have below' : other < taken.totalClusters := by
        rw [same.fields]
        exact below
      have far : taken.firstDataSector ≤ taken.clusterSector fs.currentDirectoryCluster := by
        rw [place, same.fields]
        exact high
      rw [fatEntry_store layout' _ far below', updates.taken_table reliable below]
    · intro sector far
      rw [store_block, place]
      split
      · rename_i here
        rw [here, updates.data _ high]
        exact cutBlock_putBytes (by simp only [slotSize]; omega)
      · exact updates.data sector far

/-- A name that has been accepted leaves room for its zero byte. -/
theorem length_of_valid (valid : validateFileName name = true) : name.length ≤ 255 := by
  simp only [validateFileName, Bool.and_eq_true, decide_eq_true_eq] at valid
  omega

/-- The free slots after a long name has been entered are those it has spared. -/
theorem withLongName_hasFreeSlot {taken : FileSystem} (layout : fs.Layout)
    (links : fs.Links fs.currentDirectoryCluster clusters) (short : name.length ≤ 255)
    (checksum : UInt8) (last : Nat) (same : SameVolume fs taken) (data : fs.SameData taken) :
    (taken.withLongName fs.currentDirectoryCluster name checksum last).HasFreeSlot clusters ↔
      ∃ sector ∈ fs.directorySectors clusters, ∃ slot < 16,
        freeByte (fs.block sector (slotSize * slot)) = true ∧
          ¬ fs.LongNameTakes fs.currentDirectoryCluster name last sector slot := by
  have sectors : (taken.withLongName fs.currentDirectoryCluster name checksum
      last).directorySectors clusters = fs.directorySectors clusters :=
    (same.trans (taken.withLongName_same _ _ _ _)).directorySectors clusters
  have place : taken.longNameSector fs.currentDirectoryCluster name last =
      fs.longNameSector fs.currentDirectoryCluster name last := by
    rw [longNameSector, same.clusterSector, longNameSector]
  rw [HasFreeSlot, sectors]
  -- Taking a cluster has not changed the directory.
  have slots : ∀ sector ∈ fs.directorySectors clusters, ∀ slot < 16,
      (freeByte ((taken.withLongName fs.currentDirectoryCluster name checksum last).block sector
        (slotSize * slot)) = true ↔ freeByte (fs.block sector (slotSize * slot)) = true ∧
          ¬ fs.LongNameTakes fs.currentDirectoryCluster name last sector slot) := by
    intro sector member slot small
    rw [withLongName_free short small, data sector (links.high layout member), LongNameTakes,
      LongNameTakes, place]
  constructor
  · rintro ⟨sector, member, slot, small, free⟩
    exact ⟨sector, member, slot, small, (slots sector member slot small).mp free⟩
  · rintro ⟨sector, member, slot, small, free⟩
    exact ⟨sector, member, slot, small, (slots sector member slot small).mpr free⟩

/-- The creation of an entry once a cluster has been taken, for a name that is too long for a slot. -/
theorem createEntry_long (layout : fs.Layout) (reliable : fs.Reliable)
    (room : fs.firstDataSector + fs.totalClusters * fs.bpb.sectorsPerCluster + 20 ≤ 2 ^ 32)
    (links : fs.Links fs.currentDirectoryCluster clusters)
    (valid : validateFileName name = true) (long : 11 < name.length) (attributes : UInt8)
    (absent : fs.findFileInDirectory fs.currentDirectoryCluster name = .ok none)
    {cluster : Nat} {taken : FileSystem} (allocated : fs.allocateCluster = (cluster, taken))
    (inside : fs.InVolume cluster) (free : fs.fatEntry cluster = 0)
    (updates : fs.Updates cluster endMark taken)
    (first : ∀ other, 2 ≤ other → other < cluster → fs.fatEntry other ≠ 0) :
    ∃ created after, fs.createEntry name attributes = .ok (created, after) ∧
      CreationOutcome fs clusters name attributes created after := by
  have short := length_of_valid valid
  have nonempty : name ≠ [] := by
    rintro rfl
    cases valid
  have given : cluster ≠ 0 := by
    have := inside.1
    omega
  have same := updates.same
  have layout' := layout.same same
  have reliable' := reliable.same same
  have links' := links.updates free updates
  have inside' := same.inVolume.mpr inside
  have place := same.clusterSector fs.currentDirectoryCluster
  obtain ⟨high, bounded⟩ := layout.clusterSector_small (links.valid _ links.start_mem) room
  have searched := links.findFreeDirectoryEntry_congr layout reliable same links'
    fun sector member => updates.data sector (links.high layout member)
  rw [createEntry]
  simp only [valid, Bool.not_true, Bool.false_eq_true, if_false, startOf_of_valid valid,
    if_neg nonempty, absent, Run.ok_bind, allocated, if_neg given, if_pos long]
  rcases links.findFreeDirectoryEntry_cases layout reliable with ⟨none, full⟩ | ⟨last, small, some, free'⟩
  · -- There is no slot, and the cluster is given back.
    have few : ¬ 20 < (name.length + 12) / 13 := by omega
    simp only [writeLFNEntries, if_neg few, searched, none, Run.ok_bind, Run.pure_eq, Bool.not_false,
      if_true]
    exact ⟨_, _, rfl, .refused _ (Or.inr (Or.inr full))
      (unchanged_freeCluster layout reliable inside free updates)⟩
  · rcases writeLFNEntries_cases layout'.sector (calculateShortNameChecksum (shortName name)) short
      (by rw [place]; exact bounded) ⟨_, searched.trans some⟩ with
      ⟨last', -, places, wrote⟩ | ⟨nowhere, -⟩
    · obtain rfl : last' = last := by
        have equal := Option.some.inj (Except.ok.inj (places.found.symm.trans (searched.trans some)))
        simp only [slotSize] at equal
        omega
      have same' := taken.withLongName_same fs.currentDirectoryCluster name
        (calculateShortNameChecksum (shortName name)) last'
      have far : taken.firstDataSector ≤
          taken.longNameSector fs.currentDirectoryCluster name last' := by
        rw [longNameSector, place, same.fields]
        exact Nat.le_trans high (Nat.le_add_right _ _)
      have links'' : (taken.withLongName fs.currentDirectoryCluster name
          (calculateShortNameChecksum (shortName name)) last').Links fs.currentDirectoryCluster
            clusters := links'.store layout' far
      have layout'' := layout'.same same'
      have reliable'' := reliable'.same same'
      have spare := withLongName_hasFreeSlot layout links short
        (calculateShortNameChecksum (shortName name)) last' same updates.data
      simp only [wrote, Run.ok_bind, Bool.not_true, Bool.false_eq_true, if_false]
      rcases links''.findFreeDirectoryEntry_cases layout'' reliable'' with
        ⟨none, full⟩ | ⟨slot, small', some', left⟩
      · -- The long name has taken all slots.
        have freeing := freeCluster_updates layout'' (same'.inVolume.mpr inside')
        simp only [writeDirectoryEntry, none, Run.ok_bind, Run.pure_eq, Bool.not_false, if_true]
        refine ⟨_, _, rfl, .filled _ long ⟨cluster, ?_⟩ free' ⟨last', some, ?_⟩
          ((same.trans same').trans freeing.same) ?_⟩
        · simp only [freeClusters, Finset.mem_filter, Finset.mem_range]
          exact ⟨inside.2, inside.1, free⟩
        · intro sector member slot small' unused
          by_contra spared
          exact full (spare.mpr ⟨sector, member, slot, small', unused, spared⟩)
        · rintro ⟨sector, member, slot, small', unused⟩
          rw [freeing.same.directorySectors] at member
          rw [freeing.data sector (links''.high layout'' member)] at unused
          exact full ⟨sector, member, slot, small', unused⟩
      · simp only [writeDirectoryEntry, some', Run.ok_bind, Run.pure_eq,
          readSector_eq layout''.sector reliable'', writeSector_eq layout''.sector reliable'',
          Bool.not_true, Bool.false_eq_true, if_false]
        refine ⟨_, _, rfl, .entered _ cluster absent inside free first free' ?_
          ((same.trans same').trans (store_same _ _ _)) ?_ fun wrong => by omega⟩
        · rintro - ⟨other, found, takes⟩
          obtain ⟨sector, member, slot, small', unused, spared⟩ := spare.mp left
          obtain rfl : other = last' := by
            have equal := Option.some.inj (Except.ok.inj (found.symm.trans some))
            simp only [slotSize] at equal
            omega
          exact spared (takes sector member slot small' unused)
        · intro other below
          have below' : other < taken.totalClusters := by
            rw [same.fields]
            exact below
          have below'' : other < (taken.withLongName fs.currentDirectoryCluster name
              (calculateShortNameChecksum (shortName name)) last').totalClusters := by
            rw [same'.fields]
            exact below'
          have named : (taken.withLongName fs.currentDirectoryCluster name
              (calculateShortNameChecksum (shortName name)) last').fatEntry other =
                taken.fatEntry other := fatEntry_store layout' _ far below'
          rw [fatEntry_store layout'' _ (links''.high layout'' (links''.first_mem layout'')) below'',
            named, updates.taken_table reliable below]
    · -- A device that refuses nothing lets the name be entered.
      exact absurd ⟨searched.trans some, fun _ _ => reliable'.read _ _, reliable'.write _⟩ (nowhere last)

/-- The creation of an entry returns, with one of these outcomes. -/
theorem createEntry_cases (layout : fs.Layout) (reliable : fs.Reliable)
    (room : fs.firstDataSector + fs.totalClusters * fs.bpb.sectorsPerCluster + 20 ≤ 2 ^ 32)
    (links : fs.Links fs.currentDirectoryCluster clusters)
    (valid : validateFileName name = true) (attributes : UInt8) :
    ∃ created after, fs.createEntry name attributes = .ok (created, after) ∧
      CreationOutcome fs clusters name attributes created after := by
  have nonempty : name ≠ [] := by
    rintro rfl
    cases valid
  have read := readFatEntry_eq layout.sector reliable
  obtain ⟨answer, looked⟩ := links.findFileInDirectory_returns layout reliable name
  cases answer with
  | some found =>
    rw [createEntry]
    simp only [valid, Bool.not_true, Bool.false_eq_true, if_false, startOf_of_valid valid,
      if_neg nonempty, looked, Run.ok_bind, Run.pure_eq]
    exact ⟨_, _, rfl, .refused _ (Or.inl ⟨found, looked⟩) (Unchanged.refl fs)⟩
  | none =>
    rcases allocateCluster_cases layout with
      ⟨none, used⟩ | ⟨cluster, taken, allocated, inside, zero, updates, first⟩
    · rw [createEntry]
      simp only [valid, Bool.not_true, Bool.false_eq_true, if_false, startOf_of_valid valid,
        if_neg nonempty, looked, Run.ok_bind, none, if_true, Run.pure_eq]
      refine ⟨_, _, rfl, .refused _ (Or.inr (Or.inl ?_)) (Unchanged.refl fs)⟩
      exact freeClusters_eq_empty fun other valid' => by rw [← read]; exact used other valid'
    · rw [read] at zero
      have first' : ∀ other, 2 ≤ other → other < cluster → fs.fatEntry other ≠ 0 := by
        intro other low high
        rw [← read]
        exact first other low high
      -- The two kinds of names go different ways from here.
      by_cases long : 11 < name.length
      · exact createEntry_long layout reliable room links valid long attributes looked allocated inside
          zero updates first'
      · exact createEntry_short layout reliable links valid (Nat.le_of_not_lt long) attributes looked
          allocated inside zero updates first'

end Creation

end FileSystem

end Pocky
