import Pocky.Fs.CreationLaws
import Pocky.Fs.EntryRoundTrip
import Pocky.Fs.Tables

/-! Creating a file and deleting it again, in a directory of one sector. -/

namespace Pocky

/-- No live slot follows an unused one. -/
def SlotOrder (data : Buffer) : Prop :=
  ∀ slot < 16, data (slotSize * slot) = 0x00 → ∀ later < 16, slot < later →
    freeByte (data (slotSize * later)) = true

instance (data : Buffer) : Decidable (SlotOrder data) :=
  inferInstanceAs (Decidable (∀ slot < 16, data (slotSize * slot) = 0x00 → ∀ later < 16,
    slot < later → freeByte (data (slotSize * later)) = true))

namespace SlotOrder

variable {data data' : Buffer} {name : Name} {slot : Nat}

/-- In such a sector a lookup returns the first slot with the name, whatever unused slots there are. -/
theorem findName_eq_find (order : SlotOrder data) (name : Name) : findName data name 16 0 =
    ((List.range 16).find? fun slot => SlotNames data name (slotSize * slot)).map (slotSize * ·) := by
  cases first : (List.range 16).find? fun slot => decide (SlotNames data name (slotSize * slot)) with
  | none =>
    refine findName_eq_none_iff.mpr fun slot small _ => ?_
    have passed := List.find?_eq_none.mp first slot (List.mem_range.mpr small)
    rw [Nat.zero_add]
    simpa using passed
  | some slot =>
    obtain ⟨names, member, before⟩ := List.find?_range_eq_some.mp first
    have named := of_decide_eq_true names
    refine findName_eq_some_iff.mpr ⟨slot, List.mem_range.mp member, (Nat.zero_add _).symm, named,
      fun earlier below => ?_⟩
    rw [Nat.zero_add]
    refine ⟨fun unused => ?_, by simpa using before earlier below⟩
    -- A live slot follows no unused one.
    have free := order earlier (Nat.lt_trans below (List.mem_range.mp member)) unused slot
      (List.mem_range.mp member) below
    rw [named.1] at free
    cases free

/-- A slot that has the name neither before nor after a change does not matter to a lookup. -/
theorem findName_changed (order : SlotOrder data) (order' : SlotOrder data')
    (change : ChangesSlot slot data data') (before : ¬ SlotNames data name (slotSize * slot))
    (after : ¬ SlotNames data' name (slotSize * slot)) :
    findName data' name 16 0 = findName data name 16 0 := by
  have same : ∀ other, SlotNames data' name (slotSize * other) ↔
      SlotNames data name (slotSize * other) := by
    intro other
    by_cases equal : other = slot
    · rw [equal]
      exact iff_of_false after before
    · exact slotNames_congr fun byte inside => change.bytes equal inside
  simp only [order.findName_eq_find, order'.findName_eq_find, same]

/-- The order is kept when a slot is freed, or when no slot in front of it was unused. -/
theorem changed (order : SlotOrder data) (change : ChangesSlot slot data data')
    (used : data' (slotSize * slot) ≠ 0x00)
    (kept : freeByte (data' (slotSize * slot)) = true ∨
      ∀ earlier < slot, data (slotSize * earlier) ≠ 0x00) : SlotOrder data' := by
  intro place small unused later small' behind
  have first : ∀ other, other ≠ slot → data' (slotSize * other) = data (slotSize * other) :=
    fun other different => change.bytes different (show 0 < slotSize by decide)
  have here : place ≠ slot := by
    rintro rfl
    exact used unused
  rw [first place here] at unused
  by_cases equal : later = slot
  · rw [equal]
    rcases kept with free | taken
    · exact free
    · exact absurd unused (taken place (equal ▸ behind))
  · rw [first later equal]
    exact order place small unused later small' behind

end SlotOrder

/-- A free slot has no name. -/
theorem not_slotNames_of_free {data : Buffer} {name : Name} {offset : Nat}
    (free : freeByte (data offset) = true) : ¬ SlotNames data name offset := by
  rintro ⟨live, -⟩
  rw [free] at live
  cases live

namespace FileSystem

section CreateDelete

variable {fs : FileSystem}

/-- Writing behind the tables leaves their entries alone. -/
theorem Listed.fatEntry_store (tables : fs.Tables) {sector cluster : Nat} (data : Buffer)
    (behind : fs.firstFatSector + fs.bpb.tableCount * fs.bpb.tableSize32 ≤ sector)
    (listed : fs.Listed cluster) : (fs.store sector data).fatEntry cluster = fs.fatEntry cluster := by
  obtain ⟨place, -, within⟩ := listed.place tables
  have first : fs.bpb.tableSize32 ≤ fs.bpb.tableCount * fs.bpb.tableSize32 :=
    Nat.le_mul_of_pos_left _ tables.copies
  obtain ⟨sector', offset'⟩ := (fs.store_same sector data).fatSector cluster
  -- The sector of the entry belongs to the first copy.
  rw [fatEntry, sector', offset', store_block, if_neg (by omega), fatEntry]

/-- A directory of one cluster and one sector has that sector. -/
theorem directorySectors_single (one : fs.bpb.sectorsPerCluster = 1) (directory : Nat) :
    fs.directorySectors [directory] = [fs.clusterSector directory] := by
  have number : (fs.clusterSector directory + 0) % 2 ^ 32 = fs.clusterSector directory := by
    rw [Nat.add_zero, clusterSector, Nat.mod_mod]
  rw [directorySectors_cons, clusterSectors, one]
  simp only [List.range'_one, List.map_cons, List.map_nil, directorySectors, List.flatMap_nil,
    List.append_nil, number]

/-- A lookup in such a directory is one in its sector. -/
theorem Links.findFileInDirectory_single (layout : fs.Layout) (reliable : fs.Reliable)
    (one : fs.bpb.sectorsPerCluster = 1) {directory : Nat} (single : fs.Links directory [directory])
    (name : Name) : fs.findFileInDirectory directory name =
      .ok ((findName (fs.block (fs.clusterSector directory)) name 16 0).map fun offset =>
        ⟨entryCluster (fs.block (fs.clusterSector directory)) offset,
          entrySize (fs.block (fs.clusterSector directory)) offset,
          entryAttributes (fs.block (fs.clusterSector directory)) offset,
          some (fs.clusterSector directory, offset)⟩) := by
  rw [findFileInDirectory, slotsPerSector_eq layout.sector,
    (single.chain layout reliable).scan_eq layout reliable, directorySectors_single one, firstAnswer,
    List.findSome?_singleton]
  cases findName (fs.block (fs.clusterSector directory)) name 16 0 with
  | none => rfl
  | some offset => rfl

/-- So is the search for a free slot. -/
theorem Links.findFreeDirectoryEntry_single (layout : fs.Layout) (reliable : fs.Reliable)
    (one : fs.bpb.sectorsPerCluster = 1) {directory : Nat} (single : fs.Links directory [directory]) :
    fs.findFreeDirectoryEntry directory =
      .ok (findFree (fs.block (fs.clusterSector directory)) 16 0) := by
  rw [findFreeDirectoryEntry, slotsPerSector_eq layout.sector,
    (single.chain layout reliable).scan_eq layout reliable, directorySectors_single one, firstAnswer,
    List.findSome?_singleton]
  cases findFree (fs.block (fs.clusterSector directory)) 16 0 with
  | none => rfl
  | some offset => rfl

/-- A file has been entered in the first free slot of a directory, with a cluster that was free. -/
structure Makes (fs after : FileSystem) (name : Name) (attributes : UInt8)
    (cluster slot : Nat) (taken : FileSystem) : Prop where
  /-- The cluster was taken first. -/
  allocated : fs.allocateCluster = (cluster, taken)
  /-- It is one of the volume, -/
  valid : fs.InVolume cluster
  /-- its entry was zero, -/
  free : fs.fatEntry cluster = 0
  /-- and is now the mark of an end. -/
  updated : fs.Updated cluster endMark taken
  /-- The name was not there. -/
  absent : fs.findFileInDirectory fs.currentDirectoryCluster name = .ok none
  /-- The slot is one of the sector. -/
  small : slot < 16
  /-- It was the first free one. -/
  first : findFree (fs.block (fs.clusterSector fs.currentDirectoryCluster)) 16 0 =
    some (slotSize * slot)
  /-- It has got the bytes of the entry. -/
  written : after = taken.store (fs.clusterSector fs.currentDirectoryCluster)
    (putBytes (fs.block (fs.clusterSector fs.currentDirectoryCluster)) (slotSize * slot) slotSize
      (entryBytes name attributes cluster 0))

/-- What a creation that succeeds has done, if the directory is one sector and the name fits in a slot. -/
theorem createFile_makes (layout : fs.Layout) (reliable : fs.Reliable)
    (one : fs.bpb.sectorsPerCluster = 1)
    (single : fs.Links fs.currentDirectoryCluster [fs.currentDirectoryCluster]) {name : Name}
    (valid : validateFileName name = true) (short : name.length ≤ 11) {attributes : UInt8}
    {after : FileSystem} (created : fs.createFile name attributes = .ok (true, after)) :
    ∃ cluster slot taken, fs.Makes after name attributes cluster slot taken := by
  have nonempty : name ≠ [] := by
    rintro rfl
    cases valid
  have whole : shortName name = name := List.take_of_length_le short
  obtain ⟨answer, looked⟩ := single.findFileInDirectory_returns layout reliable name
  cases answer with
  | some found =>
    -- A name that is there is refused.
    simp only [createFile, createEntry, valid, Bool.not_true, Bool.false_eq_true, if_false,
      startOf_of_valid valid, if_neg nonempty, looked, Run.ok_bind, Run.pure_eq] at created
    cases created
  | none =>
    rcases fs.allocateCluster_scan with ⟨full, -⟩ | ⟨cluster, allocated, inside, zero, -⟩
    · simp only [createFile, createEntry, valid, Bool.not_true, Bool.false_eq_true, if_false,
        startOf_of_valid valid, if_neg nonempty, looked, Run.ok_bind, full, if_true,
        Run.pure_eq] at created
      cases created
    · obtain ⟨taken, told, updated⟩ := updateFatEntry_updated layout.tables reliable
        (layout.listed inside.2) endMark
      rw [readFatEntry_eq layout.sector reliable] at zero
      rw [told] at allocated
      have given : cluster ≠ 0 := by
        have := inside.1
        omega
      have same := updated.same
      have layout' := layout.same same
      have reliable' := reliable.same same
      have content : taken.block (fs.clusterSector fs.currentDirectoryCluster) =
          fs.block (fs.clusterSector fs.currentDirectoryCluster) := by
        refine updated.outside _ (Or.inr ?_)
        exact Nat.le_trans layout.apart (single.high layout (single.first_mem layout))
      have place := same.clusterSector fs.currentDirectoryCluster
      have one' : taken.bpb.sectorsPerCluster = 1 := by
        rw [same.fields]
        exact one
      have single' : taken.Links fs.currentDirectoryCluster [fs.currentDirectoryCluster] := by
        refine same.links single fun other member => ?_
        rw [updated.fatEntry layout.tables (layout.listed (single.valid other member).2), if_neg]
        rintro rfl
        exact fatEntry_ne_zero single.linked single.valid member zero
      have searched := single'.findFreeDirectoryEntry_single layout' reliable' one'
      rw [place, content] at searched
      simp only [createFile, createEntry, valid, Bool.not_true, Bool.false_eq_true, if_false,
        startOf_of_valid valid, if_neg nonempty, looked, Run.ok_bind, allocated, if_neg given,
        if_neg (Nat.not_lt.mpr short), Run.pure_eq, writeDirectoryEntry, whole, searched] at created
      cases first : findFree (fs.block (fs.clusterSector fs.currentDirectoryCluster)) 16 0 with
      | none =>
        -- There is no slot, and the cluster is given back.
        simp only [first, Run.ok_bind, Bool.not_false, if_true] at created
        cases created
      | some offset =>
        obtain ⟨slot, small, rfl, -⟩ := findFree_some first
        rw [Nat.zero_add] at first
        simp only [first, place, readSector_eq layout'.sector reliable', content, Run.ok_bind,
          writeSector_eq layout'.sector reliable', Bool.not_true, Bool.false_eq_true,
          if_false] at created
        exact ⟨cluster, slot, taken, allocated, inside, zero, updated, looked, small, first,
          (Prod.mk.inj (Except.ok.inj created)).2.symm⟩

namespace Makes

variable {after taken : FileSystem} {name : Name} {attributes : UInt8} {cluster slot : Nat}

/-- Only the disk has changed. -/
theorem same (makes : fs.Makes after name attributes cluster slot taken) : SameVolume fs after := by
  rw [makes.written]
  exact makes.updated.same.trans (taken.store_same _ _)

/-- In the table only the entry of the new cluster has changed. -/
theorem table (makes : fs.Makes after name attributes cluster slot taken) (layout : fs.Layout)
    (single : fs.Links fs.currentDirectoryCluster [fs.currentDirectoryCluster]) {other : Nat}
    (listed : fs.Listed other) :
    after.fatEntry other = if other = cluster then endMark else fs.fatEntry other := by
  have same := makes.updated.same
  have behind : taken.firstFatSector + taken.bpb.tableCount * taken.bpb.tableSize32 ≤
      fs.clusterSector fs.currentDirectoryCluster := by
    rw [same.fields]
    exact Nat.le_trans layout.apart (single.high layout (single.first_mem layout))
  rw [makes.written, Listed.fatEntry_store (layout.tables.same same) _ behind
    (same.listed.mpr listed), makes.updated.fatEntry layout.tables listed]
  rfl

/-- In the data area only the slot has changed. -/
theorem block (makes : fs.Makes after name attributes cluster slot taken) (layout : fs.Layout)
    {sector : Nat} (high : fs.firstDataSector ≤ sector) : after.block sector =
      if sector = fs.clusterSector fs.currentDirectoryCluster then
        putBytes (fs.block (fs.clusterSector fs.currentDirectoryCluster)) (slotSize * slot) slotSize
          (entryBytes name attributes cluster 0)
      else fs.block sector := by
  have small := makes.small
  have whole : cutBlock (putBytes (fs.block (fs.clusterSector fs.currentDirectoryCluster))
      (slotSize * slot) slotSize (entryBytes name attributes cluster 0)) =
      putBytes (fs.block (fs.clusterSector fs.currentDirectoryCluster)) (slotSize * slot) slotSize
        (entryBytes name attributes cluster 0) :=
    cutBlock_putBytes (by simp only [slotSize]; omega)
  rw [makes.written, store_block, whole,
    makes.updated.outside sector (Or.inr (Nat.le_trans layout.apart high))]

/-- The chain of a directory is the one it was. -/
theorem links (makes : fs.Makes after name attributes cluster slot taken) (layout : fs.Layout)
    (single : fs.Links fs.currentDirectoryCluster [fs.currentDirectoryCluster]) {directory : Nat}
    {clusters : List Nat} (links : fs.Links directory clusters) : after.Links directory clusters := by
  refine makes.same.links links fun other member => ?_
  rw [makes.table layout single (layout.listed (links.valid other member).2), if_neg]
  rintro rfl
  exact fatEntry_ne_zero links.linked links.valid member makes.free

/-- The slot holds the bytes of the entry, and the others what they held. -/
theorem slot_bytes (makes : fs.Makes after name attributes cluster slot taken)
    (layout : fs.Layout)
    (single : fs.Links fs.currentDirectoryCluster [fs.currentDirectoryCluster]) :
    (∀ byte < slotSize, after.block (fs.clusterSector fs.currentDirectoryCluster)
      (slotSize * slot + byte) = entryBytes name attributes cluster 0 byte) ∧
    ChangesSlot slot (fs.block (fs.clusterSector fs.currentDirectoryCluster))
      (after.block (fs.clusterSector fs.currentDirectoryCluster)) := by
  rw [makes.block layout (single.high layout (single.first_mem layout)), if_pos rfl]
  refine ⟨fun byte inside => putBytes_add _ _ _ inside, ?_⟩
  have change := changesSlot_putBytes slot 0 slotSize
    (fs.block (fs.clusterSector fs.currentDirectoryCluster))
    (entryBytes name attributes cluster 0) (by simp)
  rwa [Nat.add_zero] at change

/-- The slot was free, and those in front of it were not. -/
theorem was_free (makes : fs.Makes after name attributes cluster slot taken) :
    freeByte (fs.block (fs.clusterSector fs.currentDirectoryCluster) (slotSize * slot)) = true ∧
    ∀ earlier < slot,
      freeByte (fs.block (fs.clusterSector fs.currentDirectoryCluster) (slotSize * earlier)) = false := by
  obtain ⟨slot', -, place, free, live⟩ := findFree_some makes.first
  obtain rfl : slot = slot' := by
    simp only [slotSize] at place
    omega
  simp only [Nat.zero_add] at live
  exact ⟨free, live⟩

/-- The sector is in order as before. -/
theorem order (makes : fs.Makes after name attributes cluster slot taken) (layout : fs.Layout)
    (single : fs.Links fs.currentDirectoryCluster [fs.currentDirectoryCluster])
    (storable : Storable name)
    (order : SlotOrder (fs.block (fs.clusterSector fs.currentDirectoryCluster))) :
    SlotOrder (after.block (fs.clusterSector fs.currentDirectoryCluster)) := by
  obtain ⟨bytes, change⟩ := makes.slot_bytes layout single
  obtain ⟨live, -⟩ := entry_of_entryBytes storable bytes
  exact order.changed change (freeByte_eq_false live).1
    (Or.inr fun earlier below => (freeByte_eq_false (makes.was_free.2 earlier below)).1)

end Makes

/-- The volume with a slot of the current directory marked as deleted. -/
def withMark (fs : FileSystem) (offset : Nat) : FileSystem :=
  fs.store (fs.clusterSector fs.currentDirectoryCluster)
    (Function.update (fs.block (fs.clusterSector fs.currentDirectoryCluster)) offset 0xE5)

/-- Marking a name in a directory of one sector. -/
theorem markChain_single (layout : fs.Layout) (reliable : fs.Reliable)
    (one : fs.bpb.sectorsPerCluster = 1)
    (single : fs.Links fs.currentDirectoryCluster [fs.currentDirectoryCluster]) {name : Name}
    {offset : Nat}
    (found : findName (fs.block (fs.clusterSector fs.currentDirectoryCluster)) name 16 0 = some offset)
    (steps : Nat) : fs.markChain name (steps + 1) fs.currentDirectoryCluster =
      .ok (true, fs.withMark offset) := by
  have number : (fs.clusterSector fs.currentDirectoryCluster + 0) % 2 ^ 32 =
      fs.clusterSector fs.currentDirectoryCluster := by
    rw [Nat.add_zero, clusterSector, Nat.mod_mod]
  have same : SameVolume fs (fs.withMark offset) := fs.store_same _ _
  -- The mark lies in the data area, so the chain still ends here.
  have ends : endMark ≤ (fs.withMark offset).readFatEntry fs.currentDirectoryCluster := by
    rw [readFatEntry_eq (layout.same same).sector (reliable.same same), withMark,
      fatEntry_store layout _ (single.high layout (single.first_mem layout))
        (single.valid _ single.start_mem).2]
    exact single.linked
  rw [withMark] at ends
  rw [markChain, one]
  simp only [markSectors, number, readSector_eq layout.sector reliable,
    slotsPerSector_eq layout.sector, found, writeSector_eq layout.sector reliable, if_pos ends, withMark]

/-- Freeing a chain of one cluster. -/
theorem freeChain_single (layout : fs.Layout) (reliable : fs.Reliable) {cluster : Nat}
    (file : fs.Links cluster [cluster]) (steps : Nat) :
    fs.freeChain (steps + 1) cluster = .ok (fs.freeCluster cluster) := by
  have ends : endMark ≤ fs.readFatEntry cluster := by
    rw [readFatEntry_eq layout.sector reliable]
    exact file.linked
  rw [freeChain, if_neg (layout.not_mark (file.valid _ file.start_mem)).2]
  exact if_pos ends

/-- Deleting a file of one cluster marks its slot and then clears the entry of its cluster. -/
theorem deleteFile_single (layout : fs.Layout) (reliable : fs.Reliable)
    (one : fs.bpb.sectorsPerCluster = 1)
    (single : fs.Links fs.currentDirectoryCluster [fs.currentDirectoryCluster]) {name : Name}
    (valid : validateFileName name = true) {offset cluster : Nat}
    (found : findName (fs.block (fs.clusterSector fs.currentDirectoryCluster)) name 16 0 = some offset)
    (kind : isDirectory (entryAttributes
      (fs.block (fs.clusterSector fs.currentDirectoryCluster)) offset) = false)
    (start : entryCluster (fs.block (fs.clusterSector fs.currentDirectoryCluster)) offset = cluster)
    (file : fs.Links cluster [cluster]) :
    ∃ last, fs.deleteFile name = .ok (true, last) ∧ (fs.withMark offset).Updated cluster 0 last := by
  have looked := single.findFileInDirectory_single layout reliable one name
  rw [found, Option.map_some, start] at looked
  have same : SameVolume fs (fs.withMark offset) := fs.store_same _ _
  have inside := same.inVolume.mpr (file.valid cluster List.mem_cons_self)
  have layout' := layout.same same
  obtain ⟨last, told, updated⟩ := updateFatEntry_updated layout'.tables (reliable.same same)
    (layout'.listed inside.2) 0
  have file' : (fs.withMark offset).Links cluster [cluster] :=
    file.store layout (single.high layout (single.first_mem layout))
  obtain ⟨steps, shape⟩ : ∃ steps, walkSteps = steps + 1 := ⟨2 ^ 32 - 1, by decide⟩
  have freed : (fs.withMark offset).freeCluster cluster = last := by
    obtain ⟨low, high⟩ := inside
    rw [freeCluster, if_neg (by omega), told]
  refine ⟨last, ?_, updated⟩
  simp only [deleteFile, findFile_of_valid valid, looked, Run.ok_bind, kind, Bool.false_eq_true, if_false,
    removeEntry, parentOf_of_valid valid, shape, markChain_single layout reliable one single found,
    freeChain_single layout' (reliable.same same) file', freed, Bool.not_true, Run.pure_eq]

section Inverse

variable {after last taken : FileSystem} {name : Name} {attributes : UInt8} {cluster slot : Nat}

/-- The new entry is found under its name, and lookups of other names return what they did. -/
theorem Makes.lookups (makes : fs.Makes after name attributes cluster slot taken)
    (layout : fs.Layout) (reliable : fs.Reliable) (one : fs.bpb.sectorsPerCluster = 1)
    (single : fs.Links fs.currentDirectoryCluster [fs.currentDirectoryCluster])
    (ordered : SlotOrder (fs.block (fs.clusterSector fs.currentDirectoryCluster)))
    (storable : Storable name) (kind : attributes ≠ 0x0F) :
    findName (after.block (fs.clusterSector fs.currentDirectoryCluster)) name 16 0 =
      some (slotSize * slot) ∧
    ∀ other, other ≠ name → after.findFileInDirectory fs.currentDirectoryCluster other =
      fs.findFileInDirectory fs.currentDirectoryCluster other := by
  obtain ⟨bytes, change⟩ := makes.slot_bytes layout single
  obtain ⟨live, attr, named, -⟩ := entry_of_entryBytes storable bytes
  obtain ⟨free, live'⟩ := makes.was_free
  constructor
  · have looked := makes.absent
    rw [single.findFileInDirectory_single layout reliable one] at looked
    refine findName_replaced makes.small change live'
      (Option.map_eq_none_iff.mp (Except.ok.inj looked)) ⟨live, attr ▸ kind, named⟩
  · intro other different
    refine single.findFileInDirectory_eq layout reliable makes.same (makes.links layout single single)
      fun sector member => ?_
    rw [directorySectors_single one, List.mem_singleton] at member
    subst member
    refine ⟨ordered.findName_changed (makes.order layout single storable ordered) change
      (not_slotNames_of_free free) fun names => different (names.2.2.symm.trans named), ?_⟩
    -- What is found lies in another slot, since this one was free.
    intro place hit byte inside
    refine change.bytes (fun equal => ?_) inside
    obtain ⟨-, -, -, live, -⟩ := findName_some hit
    rw [equal, free] at live
    cases live

/-- The slot is marked as deleted, and the cluster of the file is free again. -/
structure Unmade (fs last : FileSystem) (slot : Nat) : Prop where
  /-- Only the disk has changed. -/
  same : SameVolume fs last
  /-- The table has the entries it had. -/
  table : ∀ cluster, fs.Listed cluster → last.fatEntry cluster = fs.fatEntry cluster
  /-- The slot is one of the sector. -/
  small : slot < 16
  /-- It was free, -/
  was_free : freeByte (fs.block (fs.clusterSector fs.currentDirectoryCluster) (slotSize * slot)) = true
  /-- and is free, -/
  free : last.block (fs.clusterSector fs.currentDirectoryCluster) (slotSize * slot) = 0xE5
  /-- and no other slot of the sector has changed, -/
  change : ChangesSlot slot (fs.block (fs.clusterSector fs.currentDirectoryCluster))
    (last.block (fs.clusterSector fs.currentDirectoryCluster))
  /-- nor has another sector of the data area. -/
  elsewhere : ∀ sector, fs.firstDataSector ≤ sector →
    sector ≠ fs.clusterSector fs.currentDirectoryCluster → last.block sector = fs.block sector

/-- Deleting the file that was made. -/
theorem Makes.deleted (makes : fs.Makes after name attributes cluster slot taken)
    (layout : fs.Layout) (reliable : fs.Reliable) (one : fs.bpb.sectorsPerCluster = 1)
    (single : fs.Links fs.currentDirectoryCluster [fs.currentDirectoryCluster])
    (valid : validateFileName name = true) (storable : Storable name) (few : cluster < 65536)
    (kind : isDirectory attributes = false)
    (found : findName (after.block (fs.clusterSector fs.currentDirectoryCluster)) name 16 0 =
      some (slotSize * slot)) :
    ∃ last, after.deleteFile name = .ok (true, last) ∧ fs.Unmade last slot := by
  obtain ⟨bytes, change⟩ := makes.slot_bytes layout single
  obtain ⟨-, attr, -, start⟩ := entry_of_entryBytes storable bytes
  have same := makes.same
  have layout' := layout.same same
  have reliable' := reliable.same same
  have current : after.currentDirectoryCluster = fs.currentDirectoryCluster := by rw [same.fields]
  have place : after.clusterSector after.currentDirectoryCluster =
      fs.clusterSector fs.currentDirectoryCluster := by rw [current, same.clusterSector]
  have high := single.high layout (single.first_mem layout)
  have one' : after.bpb.sectorsPerCluster = 1 := by rw [same.fields, one]
  have single' := makes.links layout single single
  have file : after.Links cluster [cluster] := by
    refine ⟨?_, rfl, List.nodup_singleton _, fun other member => ?_⟩
    · show endMark ≤ after.fatEntry cluster
      rw [makes.table layout single (layout.listed makes.valid.2), if_pos rfl]
    · rw [List.mem_singleton.mp member]
      exact same.inVolume.mpr makes.valid
  rw [← current] at single'
  obtain ⟨last, told, updated⟩ := deleteFile_single layout' reliable' one' single' valid
    (by rw [place]; exact found) (by rw [place, attr]; exact kind)
    (by rw [place, start, Nat.mod_eq_of_lt few]) file
  have same' : SameVolume after (after.withMark (slotSize * slot)) := after.store_same _ _
  have marked : ∀ sector, fs.firstDataSector ≤ sector → last.block sector =
      if sector = fs.clusterSector fs.currentDirectoryCluster then
        cutBlock (Function.update (after.block (fs.clusterSector fs.currentDirectoryCluster))
          (slotSize * slot) 0xE5)
      else after.block sector := by
    intro sector far
    have behind := (layout'.same same').apart
    rw [updated.outside sector, withMark, store_block, place]
    refine Or.inr (Nat.le_trans behind ?_)
    rw [same'.fields, same.fields]
    exact far
  have sector : fs.clusterSector fs.currentDirectoryCluster =
      after.dataSector fs.currentDirectoryCluster 0 := by
    rw [← same.clusterSector]
    exact layout'.clusterSector_eq (same.inVolume.mpr (single.valid _ single.start_mem))
  have mark := changesSlot_update slot
    (after.block (fs.clusterSector fs.currentDirectoryCluster)) 0xE5
  have whole : cutBlock (Function.update (after.block (fs.clusterSector fs.currentDirectoryCluster))
      (slotSize * slot) 0xE5) = Function.update
        (after.block (fs.clusterSector fs.currentDirectoryCluster)) (slotSize * slot) 0xE5 := by
    rw [sector] at mark ⊢
    exact ChangesSlot.cutBlock makes.small mark
  have here := marked _ high
  rw [if_pos rfl, whole] at here
  refine ⟨last, told, ?_, fun other listed => ?_, makes.small, makes.was_free.1, ?_, ?_, ?_⟩
  · exact (same.trans same').trans updated.same
  · have listed' := same.listed.mpr listed
    rw [updated.fatEntry (layout'.same same').tables (same'.listed.mpr listed'), withMark, place,
      Listed.fatEntry_store layout'.tables _ ?_ listed', makes.table layout single listed]
    · -- The entry of the new cluster was zero before.
      by_cases equal : other = cluster
      · rw [if_pos equal, equal, makes.free, Nat.zero_mod]
      · rw [if_neg equal, if_neg equal]
    · rw [same.fields]
      exact Nat.le_trans layout.apart high
  · rw [here, Function.update_self]
  · rw [here]
    intro index outside
    rw [mark index outside, change index outside]
  · intro sector far other
    rw [marked sector far, if_neg other, makes.block layout far, if_neg other]

/-- The sector is in order as before. -/
theorem Unmade.order (unmade : fs.Unmade last slot)
    (ordered : SlotOrder (fs.block (fs.clusterSector fs.currentDirectoryCluster))) :
    SlotOrder (last.block (fs.clusterSector fs.currentDirectoryCluster)) := by
  refine ordered.changed unmade.change ?_ (Or.inl ?_)
  · rw [unmade.free]
    decide
  · rw [unmade.free]
    decide

/-- Every lookup returns what it did. -/
theorem Unmade.lookups (unmade : fs.Unmade last slot) (layout : fs.Layout)
    (reliable : fs.Reliable)
    (ordered : SlotOrder (fs.block (fs.clusterSector fs.currentDirectoryCluster)))
    {directory : Nat} {clusters : List Nat} (links : fs.Links directory clusters) (other : Name) :
    last.findFileInDirectory directory other = fs.findFileInDirectory directory other := by
  have links' : last.Links directory clusters := unmade.same.links links fun cluster member =>
    unmade.table cluster (layout.listed (links.valid cluster member).2)
  refine links.findFileInDirectory_eq layout reliable unmade.same links' fun sector member => ?_
  by_cases here : sector = fs.clusterSector fs.currentDirectoryCluster
  · subst here
    have free' : freeByte (last.block (fs.clusterSector fs.currentDirectoryCluster)
        (slotSize * slot)) = true := by
      rw [unmade.free]
      decide
    refine ⟨ordered.findName_changed (unmade.order ordered) unmade.change
      (not_slotNames_of_free unmade.was_free) (not_slotNames_of_free free'), ?_⟩
    intro place hit byte inside
    refine unmade.change.bytes (fun equal => ?_) inside
    -- A free slot is not found.
    obtain ⟨-, -, -, live, -⟩ := findName_some hit
    rw [equal, unmade.was_free] at live
    cases live
  · rw [unmade.elsewhere sector (links.high layout member) here]
    exact ⟨rfl, fun _ _ _ _ => rfl⟩

/--
A file that was created is found under its name, and deleting it undoes the creation.

The directory is one sector in which no live slot follows an unused one.
-/
theorem create_delete_inverse (layout : fs.Layout) (reliable : fs.Reliable)
    (one : fs.bpb.sectorsPerCluster = 1)
    (single : fs.Links fs.currentDirectoryCluster [fs.currentDirectoryCluster])
    (ordered : SlotOrder (fs.block (fs.clusterSector fs.currentDirectoryCluster)))
    (plain : Plain name) (kind : attributes = 0x00 ∨ attributes = 0x20)
    (created : fs.createFile name attributes = .ok (true, after))
    (few : fs.allocateCluster.1 < 65536) :
    SlotOrder (after.block (fs.clusterSector fs.currentDirectoryCluster)) ∧
    (∃ place, after.findFileInDirectory fs.currentDirectoryCluster name =
      .ok (some ⟨fs.allocateCluster.1, 0, attributes, place⟩)) ∧
    (∀ other, other ≠ name → after.findFileInDirectory fs.currentDirectoryCluster other =
      fs.findFileInDirectory fs.currentDirectoryCluster other) ∧
    ∃ last, after.deleteFile name = .ok (true, last) ∧
      SlotOrder (last.block (fs.clusterSector fs.currentDirectoryCluster)) ∧
      (∀ directory clusters, fs.Links directory clusters → ∀ other,
        last.findFileInDirectory directory other = fs.findFileInDirectory directory other) ∧
      ∀ cluster, fs.Listed cluster → last.fatEntry cluster = fs.fatEntry cluster := by
  obtain ⟨cluster, slot, taken, makes⟩ := createFile_makes layout reliable one single plain.valid
    plain.short created
  have storable := plain.storable
  rw [makes.allocated] at few ⊢
  have same := makes.same
  have layout' := layout.same same
  have reliable' := reliable.same same
  have kinds : attributes ≠ 0x0F ∧ isDirectory attributes = false := by
    rcases kind with rfl | rfl <;> decide
  obtain ⟨found, others⟩ := makes.lookups layout reliable one single ordered storable kinds.1
  obtain ⟨last, told, unmade⟩ := makes.deleted layout reliable one single plain.valid storable few
    kinds.2 found
  refine ⟨makes.order layout single storable ordered, ?_, others, last, told, unmade.order ordered,
    fun directory clusters links other => unmade.lookups layout reliable ordered links other,
    unmade.table⟩
  obtain ⟨bytes, -⟩ := makes.slot_bytes layout single
  obtain ⟨-, attr, -, start⟩ := entry_of_entryBytes storable bytes
  have single' := makes.links layout single single
  have one' : after.bpb.sectorsPerCluster = 1 := by rw [same.fields, one]
  refine ⟨some (fs.clusterSector fs.currentDirectoryCluster, slotSize * slot), ?_⟩
  rw [single'.findFileInDirectory_single layout' reliable' one', same.clusterSector, found,
    Option.map_some, start, attr, Nat.mod_eq_of_lt few, entrySize_entryBytes (by decide) bytes]

end Inverse

end CreateDelete

/-- A root directory with nothing in it. -/
def emptyRoot : FileSystem := smallVolume (withLink 2 endMark fun _ => 0) 2

/-- Its chain is one cluster. -/
theorem emptyRoot_links : emptyRoot.Links 2 [2] := by
  refine ⟨?_, rfl, List.nodup_singleton _, fun cluster member => ?_⟩
  · show endMark ≤ emptyRoot.fatEntry 2
    decide +kernel
  · rw [List.mem_singleton.mp member]
    exact ⟨by decide, by decide⟩

/-- A file is created in an empty root and deleted again. -/
theorem create_delete_inverse_empty :
    ∃ after place last, emptyRoot.createFile [0x61] 0x20 = .ok (true, after) ∧
      after.findFileInDirectory 2 [0x61] = .ok (some ⟨3, 0, 0x20, place⟩) ∧
      after.deleteFile [0x61] = .ok (true, last) ∧
      last.findFileInDirectory 2 [0x61] = emptyRoot.findFileInDirectory 2 [0x61] ∧
      last.fatEntry 3 = emptyRoot.fatEntry 3 := by
  have told : (emptyRoot.createFile [0x61] 0x20).toOption.map Prod.fst = some true := by
    decide +kernel
  have ordered : SlotOrder (emptyRoot.block (emptyRoot.clusterSector 2)) := by decide +kernel
  cases created : emptyRoot.createFile [0x61] 0x20 with
  | error failure =>
    rw [created] at told
    cases told
  | ok answer =>
    obtain ⟨accepted, after⟩ := answer
    rw [created] at told
    obtain rfl : accepted = true := Option.some.inj told
    have plain : Plain [0x61] := ⟨by decide, by decide, by decide +kernel, by decide, by decide⟩
    have given : emptyRoot.allocateCluster.1 = 3 := by decide +kernel
    have layout : emptyRoot.Layout := smallVolume_layout _ 2
    have reliable : emptyRoot.Reliable := smallVolume_reliable _ 2
    obtain ⟨-, ⟨place, found⟩, -, last, deleted, -, lookups, table⟩ := create_delete_inverse layout
      reliable rfl emptyRoot_links ordered plain (Or.inr rfl) created (by rw [given]; decide)
    rw [given] at found
    exact ⟨after, place, last, rfl, found, deleted, lookups 2 [2] emptyRoot_links [0x61],
      table 3 ⟨by decide, by decide⟩⟩

end FileSystem

end Pocky
