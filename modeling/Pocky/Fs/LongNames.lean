import Pocky.Fs.PathLaws
import Pocky.Fs.WriteEntry

/-! Which slots the creation of a long name overwrites, and when that harms nothing. -/

namespace Pocky

/-- A slot's name has at most eleven bytes. -/
theorem entryName_length (data : Buffer) (offset : Nat) : (entryName data offset).length ≤ 11 := by
  -- Both cuts only shorten the eleven bytes read.
  calc (entryName data offset).length
      ≤ (((List.range 11).map fun index => data (offset + index)).rdropWhile (· == 0x20)).length :=
        (List.takeWhile_sublist _).length_le
    _ ≤ ((List.range 11).map fun index => data (offset + index)).length :=
        (List.rdropWhile_prefix _ _).length_le
    _ = 11 := by simp

/-- A longer name is found nowhere. -/
theorem findName_long {name : Name} (long : 11 < name.length) (data : Buffer)
    (remaining offset : Nat) : findName data name remaining offset = none := by
  -- By induction on the slots that are left.
  induction remaining generalizing offset with
  | zero => rfl
  | succ remaining ih =>
    have different : entryName data offset ≠ name := by
      intro same
      have short := entryName_length data offset
      rw [same] at short
      omega
    rw [findName, if_neg different, ih]
    simp only [ite_self]

namespace FileSystem

/-- A sector in which the last parts of a long name fill the slots up to a given one. -/
def longNameSlots (longName : Name) (checksum : UInt8) (numEntries count last : Nat)
    (data : Buffer) : Buffer :=
  fun index =>
    if last + 1 - count ≤ index / slotSize ∧ index / slotSize ≤ last then
      lfnBytes longName checksum numEntries (index / slotSize + numEntries - 1 - last)
        (index % slotSize)
    else data index

/-- Parts that fit in front of the free slot are put there, in the sector at hand. -/
theorem fillLFN_within {fs : FileSystem} (sector512 : fs.bpb.bytesPerSector = 512)
    (longName : Name) (checksum : UInt8) {numEntries last remaining index : Nat} (sector : Nat)
    (data : Buffer) (small : last < 16) (total : index + remaining = numEntries)
    (fits : remaining ≤ last + 1) :
    fs.fillLFN longName checksum numEntries (slotSize * last) remaining index sector data =
      some (sector, longNameSlots longName checksum numEntries remaining last data) := by
  -- By induction on the parts that are left, the next of which goes to the lowest slot.
  induction remaining generalizing index data with
  | zero =>
    rw [fillLFN]
    congr 2
    funext position
    rw [longNameSlots, if_neg (by omega)]
  | succ remaining ih =>
    have place : (slotSize * last + 2 ^ 64 - (numEntries - 1 - index) * 32) % 2 ^ 64 =
        slotSize * (last - remaining) := by
      simp only [slotSize]
      omega
    have inside : ¬ 512 ≤ slotSize * (last - remaining) := by
      simp only [slotSize]
      omega
    rw [fillLFN]
    simp only [place, sector512, if_neg inside]
    rw [ih _ (by omega) (by omega)]
    congr 2
    funext position
    simp only [longNameSlots, putBytes]
    by_cases later : last + 1 - remaining ≤ position / slotSize ∧ position / slotSize ≤ last
    · have wider : last + 1 - (remaining + 1) ≤ position / slotSize ∧ position / slotSize ≤ last := by
        omega
      rw [if_pos later, if_pos wider]
    · rw [if_neg later]
      by_cases here : slotSize * (last - remaining) ≤ position ∧
          position < slotSize * (last - remaining) + slotSize
      · -- The slot filled in this round.
        have slot : position / slotSize = last - remaining := by
          simp only [slotSize] at here ⊢
          omega
        have byte : position - slotSize * (last - remaining) = position % slotSize := by
          simp only [slotSize] at here ⊢
          omega
        rw [if_pos here, if_pos (by omega), byte, slot]
        congr 1
        omega
      · have outside : ¬ (last + 1 - (remaining + 1) ≤ position / slotSize ∧
            position / slotSize ≤ last) := by
          simp only [slotSize] at here later ⊢
          omega
        rw [if_neg here, if_neg outside]

/-- Parts that fall off the front move the whole name to a later sector. -/
theorem fillLFN_beyond {fs : FileSystem} (sector512 : fs.bpb.bytesPerSector = 512)
    (longName : Name) (checksum : UInt8) {numEntries last index : Nat} (beyond sector : Nat)
    (data : Buffer) (small : last < 16) (total : index + (last + 1 + beyond) = numEntries)
    (bounded : sector + beyond < 2 ^ 32) (few : numEntries ≤ 20) :
    fs.fillLFN longName checksum numEntries (slotSize * last) (last + 1 + beyond) index sector data =
      if beyond = 0 then some (sector, longNameSlots longName checksum numEntries (last + 1) last data)
      else if ∀ step < beyond, fs.disk.readOk fs.disk.clock (sector + 1 + step) = true then
        some (sector + beyond, longNameSlots longName checksum numEntries (last + 1) last
          (fs.block (sector + beyond)))
      else none := by
  -- By induction on the sectors that are passed over.
  induction beyond generalizing index sector data with
  | zero =>
    rw [if_pos rfl]
    exact fillLFN_within sector512 longName checksum sector data small total (Nat.le_refl _)
  | succ beyond ih =>
    rw [if_neg (Nat.succ_ne_zero _)]
    have place : 512 ≤ (slotSize * last + 2 ^ 64 - (numEntries - 1 - index) * 32) % 2 ^ 64 := by
      simp only [slotSize]
      omega
    have number : (sector + 1) % 2 ^ 32 = sector + 1 := Nat.mod_eq_of_lt (by omega)
    rw [show last + 1 + (beyond + 1) = last + 1 + beyond + 1 by omega, fillLFN]
    simp only [sector512, if_pos place, number, readSector_cases sector512]
    by_cases read : fs.disk.readOk fs.disk.clock (sector + 1) = true
    · rw [if_pos read]
      dsimp only
      rw [ih (sector + 1) _ (by omega) (by omega)]
      cases beyond with
      | zero =>
        -- The bytes put into slot zero on the way are overwritten by the next part.
        have all : ∀ step < 0 + 1, fs.disk.readOk fs.disk.clock (sector + 1 + step) = true := by
          intro step below
          obtain rfl : step = 0 := by omega
          exact read
        rw [if_pos rfl, if_pos all]
        congr 2
        funext position
        simp only [longNameSlots, putBytes]
        by_cases front : last + 1 - (last + 1) ≤ position / slotSize ∧ position / slotSize ≤ last
        · rw [if_pos front, if_pos front]
        · have outside : ¬ (0 ≤ position ∧ position < 0 + slotSize) := by
            simp only [slotSize] at front ⊢
            omega
          rw [if_neg front, if_neg front, if_neg outside]
      | succ beyond =>
        rw [if_neg (Nat.succ_ne_zero _)]
        have shift : (∀ step < beyond + 1,
            fs.disk.readOk fs.disk.clock (sector + 1 + 1 + step) = true) ↔
            ∀ step < beyond + 1 + 1, fs.disk.readOk fs.disk.clock (sector + 1 + step) = true := by
          constructor
          · intro all step below
            cases step with
            | zero => exact read
            | succ step =>
              have next := all step (by omega)
              rwa [show sector + 1 + 1 + step = sector + 1 + (step + 1) by omega] at next
          · intro all step below
            have next := all (step + 1) (by omega)
            rwa [show sector + 1 + (step + 1) = sector + 1 + 1 + step by omega] at next
        rw [show sector + 1 + (beyond + 1) = sector + (beyond + 1 + 1) by omega]
        by_cases all : ∀ step < beyond + 1 + 1, fs.disk.readOk fs.disk.clock (sector + 1 + step) = true
        · rw [if_pos all, if_pos (shift.mpr all)]
        · rw [if_neg all, if_neg (mt shift.mp all)]
    · rw [if_neg read]
      have stuck : ¬ ∀ step < beyond + 1, fs.disk.readOk fs.disk.clock (sector + 1 + step) = true :=
        fun all => read (all 0 (by omega))
      rw [if_neg stuck]

/-- All parts of a long name end up in one sector, as many of them as fit there. -/
theorem fillLFN_eq {fs : FileSystem} (sector512 : fs.bpb.bytesPerSector = 512)
    (longName : Name) (checksum : UInt8) {numEntries last : Nat} (sector : Nat)
    (small : last < 16) (few : numEntries ≤ 20) (bounded : sector + 20 < 2 ^ 32) :
    fs.fillLFN longName checksum numEntries (slotSize * last) numEntries 0 sector
        (fs.block sector) =
      if ∀ step < numEntries - 1 - last, fs.disk.readOk fs.disk.clock (sector + 1 + step) = true then
        some (sector + (numEntries - 1 - last),
          longNameSlots longName checksum numEntries numEntries last
            (fs.block (sector + (numEntries - 1 - last))))
      else none := by
  by_cases fits : numEntries ≤ last + 1
  · have all : ∀ step < numEntries - 1 - last,
        fs.disk.readOk fs.disk.clock (sector + 1 + step) = true :=
      fun step below => absurd below (by omega)
    rw [fillLFN_within sector512 longName checksum sector _ small (by omega) fits, if_pos all,
      show numEntries - 1 - last = 0 by omega, Nat.add_zero]
  · obtain ⟨beyond, rfl⟩ : ∃ beyond, numEntries = last + 1 + (beyond + 1) :=
      ⟨numEntries - last - 2, by omega⟩
    rw [fillLFN_beyond sector512 longName checksum (beyond + 1) sector _ small (by omega) (by omega) few,
      if_neg (Nat.succ_ne_zero _), show last + 1 + (beyond + 1) - 1 - last = beyond + 1 by omega]
    have same : ∀ data, longNameSlots longName checksum (last + 1 + (beyond + 1)) (last + 1) last data =
        longNameSlots longName checksum (last + 1 + (beyond + 1)) (last + 1 + (beyond + 1)) last
          data := by
      intro data
      funext position
      simp only [longNameSlots, show last + 1 - (last + 1) = 0 by omega,
        show last + 1 - (last + 1 + (beyond + 1)) = 0 by omega]
    rw [same]

/-- How many slots a long name takes. -/
def numEntries (name : Name) : Nat := (name.length + 12) / 13

/-- The device lets a long name be entered up to a slot, the first free one. -/
structure PlacesLongName (fs : FileSystem) (directory : Nat) (name : Name) (last : Nat) : Prop where
  /-- The slot is the one found. -/
  found : fs.findFreeDirectoryEntry directory = .ok (some (slotSize * last))
  /-- The sectors passed over can be read. -/
  read : ∀ step ≤ numEntries name - 1 - last,
    fs.disk.readOk fs.disk.clock (fs.clusterSector directory + step) = true
  /-- The write is accepted. -/
  write : fs.disk.writeOk fs.disk.clock = true

/-- The sector a long name is entered in. -/
def longNameSector (fs : FileSystem) (directory : Nat) (name : Name) (last : Nat) : Nat :=
  fs.clusterSector directory + (numEntries name - 1 - last)

/-- The state after a long name has been entered. -/
def withLongName (fs : FileSystem) (directory : Nat) (name : Name) (checksum : UInt8) (last : Nat) :
    FileSystem :=
  fs.store (fs.longNameSector directory name last)
    (longNameSlots name checksum (numEntries name) (numEntries name) last
      (fs.block (fs.longNameSector directory name last)))

/-- A long name changes only the disk. -/
theorem withLongName_same (fs : FileSystem) (directory : Nat) (name : Name) (checksum : UInt8)
    (last : Nat) : SameVolume fs (fs.withLongName directory name checksum last) :=
  fs.store_same _ _

/-- Entering a long name writes one sector or nothing. -/
theorem writeLFNEntries_cases {fs : FileSystem} (sector512 : fs.bpb.bytesPerSector = 512)
    {directory : Nat} {name : Name} (checksum : UInt8) (short : name.length ≤ 255)
    (bounded : fs.clusterSector directory + 20 < 2 ^ 32)
    (searched : ∃ answer, fs.findFreeDirectoryEntry directory = .ok answer) :
    (∃ last < 16, fs.PlacesLongName directory name last ∧
      fs.writeLFNEntries directory name checksum =
        .ok (true, fs.withLongName directory name checksum last)) ∨
    (∀ last, ¬ fs.PlacesLongName directory name last) ∧
      (fs.writeLFNEntries directory name checksum = .ok (false, fs) ∨
        fs.writeLFNEntries directory name checksum = .ok (false, fs.refuse)) := by
  have few : numEntries name ≤ 20 := by
    rw [numEntries]
    omega
  obtain ⟨answer, scan⟩ := searched
  rw [writeLFNEntries, ← numEntries]
  dsimp only
  rw [if_neg (by omega), scan, Run.ok_bind]
  cases answer with
  | none =>
    refine Or.inr ⟨fun last places => ?_, Or.inl rfl⟩
    have found := places.found
    rw [scan] at found
    cases found
  | some entryIndex =>
    obtain ⟨last, small, rfl⟩ := findFreeDirectoryEntry_offset sector512 scan
    -- Only the slot found can be the one in question.
    have only : ∀ other, fs.PlacesLongName directory name other → other = last := by
      intro other places
      have same := Option.some.inj (Except.ok.inj (places.found.symm.trans scan))
      simp only [slotSize] at same
      omega
    dsimp only
    by_cases first : fs.disk.readOk fs.disk.clock (fs.clusterSector directory) = true
    · rw [readSector_cases sector512, if_pos first]
      dsimp only
      rw [fillLFN_eq sector512 name checksum (fs.clusterSector directory) small few bounded]
      by_cases all : ∀ step < numEntries name - 1 - last,
          fs.disk.readOk fs.disk.clock (fs.clusterSector directory + 1 + step) = true
      · rw [if_pos all]
        dsimp only
        rw [writeSector_cases sector512]
        by_cases accepted : fs.disk.writeOk fs.disk.clock = true
        · rw [if_pos accepted]
          refine Or.inl ⟨last, small, ⟨scan, ?_, accepted⟩, rfl⟩
          intro step below
          cases step with
          | zero =>
            rw [Nat.add_zero]
            exact first
          | succ step =>
            have next := all step (by omega)
            rwa [show fs.clusterSector directory + 1 + step =
              fs.clusterSector directory + (step + 1) by omega] at next
        · rw [if_neg accepted]
          exact Or.inr ⟨fun other places => accepted places.write, Or.inr rfl⟩
      · rw [if_neg all]
        refine Or.inr ⟨fun other places => all fun step below => ?_, Or.inl rfl⟩
        have next := places.read (step + 1) (by rw [only other places]; omega)
        rwa [show fs.clusterSector directory + (step + 1) =
          fs.clusterSector directory + 1 + step by omega] at next
    · rw [readSector_cases sector512, if_neg first]
      refine Or.inr ⟨fun other places => first ?_, Or.inl rfl⟩
      have zero := places.read 0 (Nat.zero_le _)
      rwa [Nat.add_zero] at zero

/-- The device lets an entry be written to a slot of the first sector. -/
structure PlacesEntry (fs : FileSystem) (directory slot : Nat) : Prop where
  /-- The offset of the slot is the one found. -/
  found : fs.findFreeDirectoryEntry directory = .ok (some (slotSize * slot))
  /-- The sector can be read. -/
  read : fs.disk.readOk fs.disk.clock (fs.clusterSector directory) = true
  /-- The write is accepted. -/
  write : fs.disk.writeOk fs.disk.clock = true

/-- The state after an entry has been written to a slot of the first sector. -/
def withEntryAt (fs : FileSystem) (directory slot : Nat) (entry : Buffer) : FileSystem :=
  fs.store (fs.clusterSector directory)
    (putBytes (fs.block (fs.clusterSector directory)) (slotSize * slot) slotSize entry)

/-- Entering a file writes one slot or nothing. -/
theorem writeDirectoryEntry_cases {fs : FileSystem} (sector512 : fs.bpb.bytesPerSector = 512)
    {directory : Nat} (name : Name) (attributes : UInt8) (fileCluster fileSize : Nat)
    (searched : ∃ answer, fs.findFreeDirectoryEntry directory = .ok answer) :
    (∃ slot < 16, fs.PlacesEntry directory slot ∧
      fs.writeDirectoryEntry directory name attributes fileCluster fileSize =
        .ok (true, fs.withEntryAt directory slot
          (entryBytes name attributes fileCluster fileSize))) ∨
    (∀ slot, ¬ fs.PlacesEntry directory slot) ∧
      (fs.writeDirectoryEntry directory name attributes fileCluster fileSize = .ok (false, fs) ∨
        fs.writeDirectoryEntry directory name attributes fileCluster fileSize =
          .ok (false, fs.refuse)) := by
  obtain ⟨answer, scan⟩ := searched
  rw [writeDirectoryEntry, scan, Run.ok_bind]
  cases answer with
  | none =>
    refine Or.inr ⟨fun slot places => ?_, Or.inl rfl⟩
    have found := places.found
    rw [scan] at found
    cases found
  | some entryIndex =>
    obtain ⟨slot, small, rfl⟩ := findFreeDirectoryEntry_offset sector512 scan
    dsimp only
    rw [readSector_cases sector512]
    by_cases read : fs.disk.readOk fs.disk.clock (fs.clusterSector directory) = true
    · rw [if_pos read]
      dsimp only
      rw [writeSector_cases sector512]
      by_cases accepted : fs.disk.writeOk fs.disk.clock = true
      · rw [if_pos accepted]
        exact Or.inl ⟨slot, small, ⟨scan, read, accepted⟩, rfl⟩
      · rw [if_neg accepted]
        exact Or.inr ⟨fun slot places => accepted places.write, Or.inr rfl⟩
    · rw [if_neg read]
      exact Or.inr ⟨fun slot places => read places.read, Or.inl rfl⟩

/-- A name that is too long for a slot is not found. -/
theorem findFileInDirectory_long {fs : FileSystem} (layout : fs.Layout) {directory : Nat}
    {clusters : List Nat} (chain : fs.Chain directory clusters) {name : Name}
    (long : 11 < name.length) : fs.findFileInDirectory directory name = .ok none := by
  obtain ⟨answer, scanned, told⟩ := chain.scan_cases layout
    (fun sector data => (findName data name fs.slotsPerSector 0).map fun offset =>
      some ⟨entryCluster data offset, entrySize data offset, entryAttributes data offset,
        some (sector, offset)⟩) (none : Option Found) none
  have nowhere : fs.firstAnswer (fun sector data =>
      (findName data name fs.slotsPerSector 0).map fun offset =>
        some (⟨entryCluster data offset, entrySize data offset, entryAttributes data offset,
          some (sector, offset)⟩ : Found)) (fs.directorySectors clusters) = none := by
    rw [firstAnswer, List.findSome?_eq_none_iff]
    intro sector member
    rw [findName_long long]
    rfl
  rw [findFileInDirectory, scanned]
  rcases told with ⟨rfl, -⟩ | rfl
  · rfl
  · rw [nowhere]
    rfl

/-- The data areas of two states are the same. -/
def SameData (fs after : FileSystem) : Prop :=
  ∀ sector, fs.firstDataSector ≤ sector → after.block sector = fs.block sector

/-- The data area stays the same over two steps. -/
theorem SameData.trans {first second third : FileSystem} (left : first.SameData second)
    (right : second.SameData third) (same : SameVolume first second) : first.SameData third := by
  intro sector high
  have high' : second.firstDataSector ≤ sector := by
    rw [same.fields]
    exact high
  rw [right sector high', left sector high]

/-- Freeing a cluster is no change of the data area, even after a refused write. -/
theorem sameData_freeCluster {fs : FileSystem} (layout : fs.Layout) {cluster : Nat}
    (valid : fs.InVolume cluster) : fs.SameData (fs.freeCluster cluster) ∧
      fs.SameData (fs.refuse.freeCluster cluster) := by
  have same : SameVolume fs fs.refuse := ⟨rfl, rfl, rfl⟩
  have refused : fs.SameData fs.refuse := fun _ _ => rfl
  exact ⟨(freeCluster_updates layout valid).data,
    refused.trans (freeCluster_updates (layout.same same) (same.inVolume.mpr valid)).data same⟩

/-- What the creation of a long name can come to. -/
inductive LongNameOutcome (fs : FileSystem) (name : Name) (attributes : UInt8) :
    FileSystem → Prop
  /-- Nothing is written to the data area. -/
  | nothing (cluster : Nat) (taken after : FileSystem)
      (allocated : fs.allocateCluster = (cluster, taken))
      (stopped : cluster ≠ 0 → ∀ last, ¬ taken.PlacesLongName fs.currentDirectoryCluster name last)
      (same : fs.SameData after) : LongNameOutcome fs name attributes after
  /-- The long name is written, and no entry. -/
  | longName (cluster : Nat) (taken after : FileSystem) (last : Nat)
      (allocated : fs.allocateCluster = (cluster, taken)) (given : cluster ≠ 0) (small : last < 16)
      (places : taken.PlacesLongName fs.currentDirectoryCluster name last)
      (stopped : ∀ slot, ¬ (taken.withLongName fs.currentDirectoryCluster name
        (calculateShortNameChecksum (shortName name)) last).PlacesEntry
          fs.currentDirectoryCluster slot)
      (same : (taken.withLongName fs.currentDirectoryCluster name
        (calculateShortNameChecksum (shortName name)) last).SameData after) :
      LongNameOutcome fs name attributes after
  /-- The long name is written, and the entry. -/
  | entry (cluster : Nat) (taken after : FileSystem) (last slot : Nat)
      (allocated : fs.allocateCluster = (cluster, taken)) (given : cluster ≠ 0) (small : last < 16)
      (small' : slot < 16) (places : taken.PlacesLongName fs.currentDirectoryCluster name last)
      (places' : (taken.withLongName fs.currentDirectoryCluster name
        (calculateShortNameChecksum (shortName name)) last).PlacesEntry
          fs.currentDirectoryCluster slot)
      (same : after = (taken.withLongName fs.currentDirectoryCluster name
        (calculateShortNameChecksum (shortName name)) last).withEntryAt fs.currentDirectoryCluster
          slot (entryBytes (shortName name) attributes cluster 0)) :
      LongNameOutcome fs name attributes after

/-- The directory can be searched after changes elsewhere. -/
theorem findFreeDirectoryEntry_returns {fs : FileSystem} (layout : fs.Layout) {directory : Nat}
    {clusters : List Nat} (links : ChainFrom fs.fatEntry (endMark ≤ ·) fs.InVolume directory clusters) :
    ∃ answer, fs.findFreeDirectoryEntry directory = .ok answer := by
  have short : clusters.length ≤ fs.totalClusters :=
    ChainFrom.length_le links fun _ valid => valid.2
  have numbered := layout.numbered
  have limit : badMark ≤ walkSteps := by decide
  obtain ⟨answer, scanned, -⟩ := scanChain_cases
    (fun _ data => (findFree data fs.slotsPerSector 0).map some) none none layout links.linked
    links.head links.valid (show clusters.length ≤ walkSteps by omega)
  exact ⟨answer, scanned⟩

/-- The first sector of a cluster stays well below the largest sector number. -/
theorem Layout.clusterSector_small {fs : FileSystem} (layout : fs.Layout) {cluster : Nat}
    (valid : fs.InVolume cluster)
    (room : fs.firstDataSector + fs.totalClusters * fs.bpb.sectorsPerCluster + 20 ≤ 2 ^ 32) :
    fs.firstDataSector ≤ fs.clusterSector cluster ∧ fs.clusterSector cluster + 20 < 2 ^ 32 := by
  have fits : (cluster - 2 + 1) * fs.bpb.sectorsPerCluster ≤
      fs.totalClusters * fs.bpb.sectorsPerCluster := by
    apply Nat.mul_le_mul_right
    have := valid.2
    omega
  have positive := layout.cluster
  rw [Nat.succ_mul] at fits
  rw [layout.clusterSector_eq valid, dataSector]
  omega

/-- The creation of a long name returns, with one of these outcomes. -/
theorem createFile_long_cases {fs : FileSystem} (layout : fs.Layout)
    (room : fs.firstDataSector + fs.totalClusters * fs.bpb.sectorsPerCluster + 20 ≤ 2 ^ 32)
    {clusters : List Nat} (chain : fs.Chain fs.currentDirectoryCluster clusters) {name : Name}
    (valid : validateFileName name = true) (long : 11 < name.length) (attributes : UInt8) :
    ∃ told after, fs.createFile name attributes = .ok (told, after) ∧
      LongNameOutcome fs name attributes after := by
  have short : name.length ≤ 255 := by
    simp only [validateFileName, Bool.and_eq_true, decide_eq_true_eq] at valid
    omega
  have nonempty : name ≠ [] := by
    rintro rfl
    simp at long
  have inside : fs.InVolume fs.currentDirectoryCluster := chain.valid _ chain.start_mem
  obtain ⟨high, bounded⟩ := layout.clusterSector_small inside room
  rw [createFile, createEntry]
  simp only [valid, Bool.not_true, Bool.false_eq_true, if_false, startOf_of_valid valid,
    if_neg nonempty, findFileInDirectory_long layout chain long, Run.ok_bind, if_pos long]
  rcases allocateCluster_cases layout with
    ⟨none, -⟩ | ⟨cluster, taken, some, within, zero, updates, -⟩
  · rw [none]
    exact ⟨false, fs, rfl, .nothing 0 fs fs none (fun wrong => absurd rfl wrong) fun _ _ => rfl⟩
  · rw [some]
    dsimp only
    have given : cluster ≠ 0 := by
      have := within.1
      omega
    -- Taking a cluster leaves the directory's chain alone.
    have links : ChainFrom taken.fatEntry (endMark ≤ ·) taken.InVolume
        fs.currentDirectoryCluster clusters := by
      refine updates.same.links (chain.links layout) fun other member => ?_
      refine updates.others other (chain.valid other member).2 ?_
      rintro rfl
      exact (chain.entries layout member).2.2.2 ((chain.entries layout member).1.trans zero)
    rw [if_neg given]
    have layout' := layout.same updates.same
    have within' := updates.same.inVolume.mpr within
    have place := updates.same.clusterSector fs.currentDirectoryCluster
    rcases writeLFNEntries_cases layout'.sector (calculateShortNameChecksum (shortName name)) short
      (by rw [place]; exact bounded) (findFreeDirectoryEntry_returns layout' links) with
      ⟨last, small, places, wrote⟩ | ⟨nowhere, wrote | wrote⟩
    · rw [wrote]
      -- The sector lies in the data area, so the table is the same.
      have far : taken.firstDataSector ≤
          taken.longNameSector fs.currentDirectoryCluster name last := by
        rw [longNameSector, place, updates.same.fields]
        exact Nat.le_trans high (Nat.le_add_right _ _)
      have same := taken.withLongName_same fs.currentDirectoryCluster name
        (calculateShortNameChecksum (shortName name)) last
      have links' := same.links links fun other member =>
        fatEntry_store layout' _ far (links.valid other member).2
      rcases writeDirectoryEntry_cases (layout'.same same).sector (shortName name) attributes cluster 0
        (findFreeDirectoryEntry_returns (layout'.same same) links') with
        ⟨slot, small', places', wrote'⟩ | ⟨nowhere, wrote' | wrote'⟩
      · exact ⟨true, _, by simp [wrote'], .entry cluster taken _ last slot some given small small'
          places places' rfl⟩
      · exact ⟨false, _, by simp [wrote'], .longName cluster taken _ last some given small places
          nowhere (sameData_freeCluster (layout'.same same) (same.inVolume.mpr within')).1⟩
      · exact ⟨false, _, by simp [wrote'], .longName cluster taken _ last some given small places
          nowhere (sameData_freeCluster (layout'.same same) (same.inVolume.mpr within')).2⟩
    · rw [wrote]
      exact ⟨false, _, rfl, .nothing cluster taken _ some (fun _ => nowhere)
        (SameData.trans updates.data (sameData_freeCluster layout' within').1 updates.same)⟩
    · rw [wrote]
      exact ⟨false, _, rfl, .nothing cluster taken _ some (fun _ => nowhere)
        (SameData.trans updates.data (sameData_freeCluster layout' within').2 updates.same)⟩

/-- A slot that must stay: a live entry of the directory, or bytes of a cluster outside it. -/
def Guarded (fs : FileSystem) (clusters : List Nat) (sector slot : Nat) : Prop :=
  (sector ∈ fs.directorySectors clusters ∧
    freeByte (fs.block sector (slotSize * slot)) = false) ∨
  ∃ cluster, fs.InVolume cluster ∧ cluster ∉ clusters ∧ sector ∈ fs.clusterSectors cluster

/--
Live entries of a directory and the data of all clusters outside it are as they were.

A sector is sixteen slots of thirty-two bytes.
-/
def KeepsOthers (fs after : FileSystem) (clusters : List Nat) : Prop :=
  ∀ sector slot, slot < 16 → fs.Guarded clusters sector slot → ∀ byte < slotSize,
    after.block sector (slotSize * slot + byte) = fs.block sector (slotSize * slot + byte)

/-- A slot holds an entry. -/
def Holds (fs : FileSystem) (sector slot : Nat) (entry : Buffer) : Prop :=
  ∀ byte < slotSize, fs.block sector (slotSize * slot + byte) = entry byte

/--
No slot that a long name and its entry are written to must stay, unless it holds these bytes already.

The long name takes the slots up to the first free one, or those up to the same position in a
later sector if there are too few; the entry takes the slot of the first sector at the position
of the next free one.
-/
structure Spares (fs : FileSystem) (name : Name) (attributes : UInt8) (clusters : List Nat)
    (cluster : Nat) (taken : FileSystem) (last : Nat) : Prop where
  /-- The slots of the long name, but for one that the entry takes again. -/
  longName : ∀ slot, last + 1 - numEntries name ≤ slot → slot ≤ last →
    ¬ (numEntries name - 1 - last = 0 ∧ (taken.withLongName fs.currentDirectoryCluster name
      (calculateShortNameChecksum (shortName name)) last).PlacesEntry
        fs.currentDirectoryCluster slot) →
    fs.Guarded clusters (fs.longNameSector fs.currentDirectoryCluster name last) slot →
    fs.Holds (fs.longNameSector fs.currentDirectoryCluster name last) slot
      (lfnBytes name (calculateShortNameChecksum (shortName name)) (numEntries name)
        (slot + numEntries name - 1 - last))
  /-- The slot of the entry. -/
  entry : ∀ slot, (taken.withLongName fs.currentDirectoryCluster name
      (calculateShortNameChecksum (shortName name)) last).PlacesEntry
        fs.currentDirectoryCluster slot →
    fs.Guarded clusters (fs.clusterSector fs.currentDirectoryCluster) slot →
    fs.Holds (fs.clusterSector fs.currentDirectoryCluster) slot
      (entryBytes (shortName name) attributes cluster 0)

/-- Either nothing is written, or what is written spares all that must stay. -/
def SparesOthers (fs : FileSystem) (name : Name) (attributes : UInt8) (clusters : List Nat) : Prop :=
  ∀ cluster taken last, fs.allocateCluster = (cluster, taken) → cluster ≠ 0 →
    taken.PlacesLongName fs.currentDirectoryCluster name last →
    fs.Spares name attributes clusters cluster taken last

/-- What must stay lies in the data area. -/
theorem Guarded.high {fs : FileSystem} (layout : fs.Layout) {start : Nat} {clusters : List Nat}
    (chain : fs.Chain start clusters) {sector slot : Nat} (guarded : fs.Guarded clusters sector slot) :
    fs.firstDataSector ≤ sector := by
  rcases guarded with ⟨member, -⟩ | ⟨cluster, valid, -, member⟩
  · obtain ⟨cluster, inside, here⟩ := mem_directorySectors.mp member
    exact layout.clusterSectors_high (chain.valid cluster inside) here
  · exact layout.clusterSectors_high valid member

/-- The slots after a long name has been entered. -/
theorem withLongName_slot (fs : FileSystem) (directory : Nat) (name : Name) (checksum : UInt8)
    (last sector : Nat) {slot byte : Nat} (small : slot < 16) (inside : byte < slotSize) :
    (fs.withLongName directory name checksum last).block sector (slotSize * slot + byte) =
      if sector = fs.longNameSector directory name last ∧ last + 1 - numEntries name ≤ slot ∧
          slot ≤ last then
        lfnBytes name checksum (numEntries name) (slot + numEntries name - 1 - last) byte
      else fs.block sector (slotSize * slot + byte) := by
  have quotient : (slotSize * slot + byte) / slotSize = slot := by
    simp only [slotSize] at inside ⊢
    omega
  have rest : (slotSize * slot + byte) % slotSize = byte := by
    simp only [slotSize] at inside ⊢
    omega
  have within : slotSize * slot + byte < 512 := by
    simp only [slotSize] at inside ⊢
    omega
  rw [withLongName, store_block]
  by_cases here : sector = fs.longNameSector directory name last
  · subst here
    simp only [if_true, cutBlock, if_pos within, longNameSlots, quotient, rest, true_and]
  · rw [if_neg here, if_neg fun both => here both.1]

/-- Only one slot is the first free one. -/
theorem PlacesLongName.unique {fs : FileSystem} {directory : Nat} {name : Name} {last other : Nat}
    (places : fs.PlacesLongName directory name last)
    (places' : fs.PlacesLongName directory name other) : other = last := by
  have same := Option.some.inj (Except.ok.inj (places'.found.symm.trans places.found))
  simp only [slotSize] at same
  omega

/-- Only one slot is that of the entry. -/
theorem PlacesEntry.unique {fs : FileSystem} {directory slot other : Nat}
    (places : fs.PlacesEntry directory slot) (places' : fs.PlacesEntry directory other) :
    other = slot := by
  have same := Option.some.inj (Except.ok.inj (places'.found.symm.trans places.found))
  simp only [slotSize] at same
  omega

/-- What has been written spares what must stay exactly if that has stayed. -/
theorem keepsOthers_iff_spares {fs taken after : FileSystem} (layout : fs.Layout)
    {clusters : List Nat} (chain : fs.Chain fs.currentDirectoryCluster clusters) {name : Name}
    {attributes : UInt8} {cluster last : Nat} (same : SameVolume fs taken)
    (data : fs.SameData taken) (small : last < 16)
    (written : ∀ slot, (taken.withLongName fs.currentDirectoryCluster name
        (calculateShortNameChecksum (shortName name)) last).PlacesEntry
          fs.currentDirectoryCluster slot →
      slot < 16 ∧ ∀ byte < slotSize, after.block (fs.clusterSector fs.currentDirectoryCluster)
        (slotSize * slot + byte) = entryBytes (shortName name) attributes cluster 0 byte)
    (kept : ∀ sector slot, slot < 16 → fs.firstDataSector ≤ sector →
      ¬ (sector = fs.clusterSector fs.currentDirectoryCluster ∧
        (taken.withLongName fs.currentDirectoryCluster name
          (calculateShortNameChecksum (shortName name)) last).PlacesEntry
            fs.currentDirectoryCluster slot) →
      ∀ byte < slotSize, after.block sector (slotSize * slot + byte) =
        (taken.withLongName fs.currentDirectoryCluster name
          (calculateShortNameChecksum (shortName name)) last).block sector (slotSize * slot + byte)) :
    fs.KeepsOthers after clusters ↔ fs.Spares name attributes clusters cluster taken last := by
  have place : taken.longNameSector fs.currentDirectoryCluster name last =
      fs.longNameSector fs.currentDirectoryCluster name last := by
    rw [longNameSector, same.clusterSector, longNameSector]
  constructor
  · intro keeps
    refine ⟨?_, ?_⟩
    · intro slot low high apart guarded byte inside
      have fits : slot < 16 := by omega
      -- The slot was not written again, so it holds its part of the long name.
      have again : ¬ (fs.longNameSector fs.currentDirectoryCluster name last =
          fs.clusterSector fs.currentDirectoryCluster ∧
          (taken.withLongName fs.currentDirectoryCluster name
            (calculateShortNameChecksum (shortName name)) last).PlacesEntry
              fs.currentDirectoryCluster slot) := by
        rintro ⟨equal, places⟩
        rw [longNameSector] at equal
        exact apart ⟨by omega, places⟩
      rw [← keeps _ slot fits guarded byte inside,
        kept _ slot fits (guarded.high layout chain) again byte inside,
        withLongName_slot _ _ _ _ _ _ fits inside, if_pos ⟨place.symm, low, high⟩]
    · intro slot places guarded byte inside
      obtain ⟨fits, entry⟩ := written slot places
      rw [← keeps _ slot fits guarded byte inside, entry byte inside]
  · intro spares sector slot fits guarded byte inside
    have high := guarded.high layout chain
    by_cases again : sector = fs.clusterSector fs.currentDirectoryCluster ∧
        (taken.withLongName fs.currentDirectoryCluster name
          (calculateShortNameChecksum (shortName name)) last).PlacesEntry
            fs.currentDirectoryCluster slot
    · obtain ⟨rfl, places⟩ := again
      rw [(written slot places).2 byte inside, spares.entry slot places guarded byte inside]
    · rw [kept sector slot fits high again byte inside, withLongName_slot _ _ _ _ _ _ fits inside]
      split
      · -- The slot belongs to the long name.
        rename_i part
        obtain ⟨here, low, below⟩ := part
        rw [place] at here
        subst here
        refine (spares.longName slot low below ?_ guarded byte inside).symm
        rintro ⟨first, places⟩
        exact again ⟨by rw [longNameSector, first, Nat.add_zero], places⟩
      · rw [data sector high]

/--
Creating a long name keeps the live entries of its directory and the data of all other clusters,
exactly when the slots it overwrites spare them.
-/
theorem createFile_long_keeps_iff {fs : FileSystem} (layout : fs.Layout)
    (room : fs.firstDataSector + fs.totalClusters * fs.bpb.sectorsPerCluster + 20 ≤ 2 ^ 32)
    {clusters : List Nat} (chain : fs.Chain fs.currentDirectoryCluster clusters) {name : Name}
    (valid : validateFileName name = true) (long : 11 < name.length) (attributes : UInt8) :
    ∃ told after, fs.createFile name attributes = .ok (told, after) ∧
      (fs.KeepsOthers after clusters ↔ fs.SparesOthers name attributes clusters) := by
  obtain ⟨told, after, returned, outcome⟩ :=
    createFile_long_cases layout room chain valid long attributes
  refine ⟨told, after, returned, ?_⟩
  -- A cluster that was taken has left the data area alone.
  have taking : ∀ cluster taken, fs.allocateCluster = (cluster, taken) → cluster ≠ 0 →
      SameVolume fs taken ∧ fs.SameData taken := by
    intro cluster taken allocated given
    rcases allocateCluster_cases layout with ⟨none, -⟩ | ⟨cluster', taken', some, -, -, updates, -⟩
    · rw [none] at allocated
      cases allocated
      exact absurd rfl given
    · rw [some] at allocated
      cases allocated
      exact ⟨updates.same, updates.data⟩
  -- What is known of the slots in question decides about all of them.
  have settles : ∀ {cluster taken last}, fs.allocateCluster = (cluster, taken) → cluster ≠ 0 →
      taken.PlacesLongName fs.currentDirectoryCluster name last →
      (fs.Spares name attributes clusters cluster taken last ↔
        fs.SparesOthers name attributes clusters) := by
    intro cluster taken last allocated given places
    constructor
    · intro spares cluster' taken' last' allocated' _ places'
      rw [allocated] at allocated'
      cases allocated'
      rw [places.unique places']
      exact spares
    · intro spares
      exact spares cluster taken last allocated given places
  cases outcome with
  | nothing cluster taken _ allocated stopped same =>
    constructor
    · intro _ cluster' taken' last allocated' given places
      rw [allocated] at allocated'
      cases allocated'
      exact absurd places (stopped given last)
    · intro _ sector slot _ guarded byte _
      rw [same sector (guarded.high layout chain)]
  | longName cluster taken _ last allocated given small places stopped same =>
    obtain ⟨volume, data⟩ := taking cluster taken allocated given
    have first : (taken.withLongName fs.currentDirectoryCluster name
        (calculateShortNameChecksum (shortName name)) last).firstDataSector =
          fs.firstDataSector := by
      rw [(volume.trans (taken.withLongName_same _ _ _ _)).fields]
    rw [← settles allocated given places]
    refine keepsOthers_iff_spares layout chain volume data small
      (fun slot places' => absurd places' (stopped slot)) ?_
    intro sector slot _ high _ byte _
    rw [same sector (by rw [first]; exact high)]
  | entry cluster taken _ last slot allocated given small small' places places' same =>
    obtain ⟨volume, data⟩ := taking cluster taken allocated given
    rw [← settles allocated given places]
    have sector : (taken.withLongName fs.currentDirectoryCluster name
        (calculateShortNameChecksum (shortName name)) last).clusterSector
          fs.currentDirectoryCluster = fs.clusterSector fs.currentDirectoryCluster :=
      (volume.trans (taken.withLongName_same _ _ _ _)).clusterSector fs.currentDirectoryCluster
    obtain ⟨here, elsewhere⟩ := store_slot (taken.withLongName fs.currentDirectoryCluster name
      (calculateShortNameChecksum (shortName name)) last)
      (fs.clusterSector fs.currentDirectoryCluster) slot
      (entryBytes (shortName name) attributes cluster 0) small'
    rw [withEntryAt, sector] at same
    rw [← same] at here elsewhere
    refine keepsOthers_iff_spares layout chain volume data small ?_ ?_
    · intro other places''
      obtain rfl := places'.unique places''
      exact ⟨small', here⟩
    · intro other slot' fits _ apart byte inside
      refine elsewhere other slot' fits ?_ byte inside
      rintro equal
      cases equal
      exact apart ⟨rfl, places'⟩

/-- A volume with nothing in its root directory but the dot entries of a mount. -/
def mountedRoot : Buffer :=
  putBytes (withLink 2 endMark fun _ => 0) 1024 512 (dotSector 0x20 rootCluster rootCluster)

/-- Its root directory is a chain of one cluster. -/
theorem mountedRoot_chain : (smallVolume mountedRoot 2).Chain 2 [2] := by
  refine ⟨by show endMark ≤ _; decide, rfl, List.nodup_singleton _, ?_⟩
  intro cell member
  obtain rfl := List.mem_singleton.mp member
  exact ⟨Nat.le_refl 2, by show 2 < 20; decide⟩

/-- A free slot of its root directory need not stay. -/
theorem mountedRoot_free {slot : Nat}
    (free : freeByte ((smallVolume mountedRoot 2).block 2 (slotSize * slot)) = true) :
    ¬ (smallVolume mountedRoot 2).Guarded [2] 2 slot := by
  have layout := smallVolume_layout mountedRoot 2
  have inside : (smallVolume mountedRoot 2).InVolume 2 := mountedRoot_chain.valid 2 (by decide)
  rintro (⟨-, live⟩ | ⟨cluster, valid, outside, member⟩)
  · rw [free] at live
    cases live
  · have here : 2 ∈ (smallVolume mountedRoot 2).clusterSectors 2 := by decide
    exact outside (List.mem_singleton.mpr (layout.cluster_unique valid inside member here))

/-- A name of thirteen characters takes the two slots behind the dot entries. -/
theorem mountedRoot_spares :
    (smallVolume mountedRoot 2).SparesOthers (List.replicate 13 0x61) 0x20 [2] := by
  have scan : (smallVolume mountedRoot 2).allocateCluster.2.findFreeDirectoryEntry 2 =
      .ok (some 64) := by decide +kernel
  have scan' : ((smallVolume mountedRoot 2).allocateCluster.2.withLongName 2 (List.replicate 13 0x61)
      (calculateShortNameChecksum (shortName (List.replicate 13 0x61))) 2).findFreeDirectoryEntry 2 =
      .ok (some 96) := by decide +kernel
  intro cluster taken last allocated _ places
  have state : taken = (smallVolume mountedRoot 2).allocateCluster.2 := by rw [allocated]
  subst state
  obtain rfl : last = 2 := by
    have same := Option.some.inj (Except.ok.inj (places.found.symm.trans scan))
    simp only [slotSize] at same
    omega
  refine ⟨?_, ?_⟩
  · intro slot low high _ guarded
    obtain rfl : slot = 2 := by
      have one : numEntries (List.replicate 13 0x61) = 1 := by decide
      omega
    exact absurd guarded (mountedRoot_free (by decide))
  · intro slot places' guarded
    obtain rfl : slot = 3 := by
      have same := Option.some.inj (Except.ok.inj (places'.found.symm.trans scan'))
      simp only [slotSize] at same
      omega
    exact absurd guarded (mountedRoot_free (by decide))

/-- In a fresh root directory a name of thirteen characters harms nothing. -/
theorem createFile_long_keeps_iff_thirteen :
    ∃ told after, (smallVolume mountedRoot 2).createFile (List.replicate 13 0x61) 0x20 =
        .ok (told, after) ∧ (smallVolume mountedRoot 2).KeepsOthers after [2] := by
  obtain ⟨told, after, returned, keeps⟩ := createFile_long_keeps_iff
    (smallVolume_layout mountedRoot 2) (by show 2 + 20 * 1 + 20 ≤ 2 ^ 32; decide)
    mountedRoot_chain (show validateFileName (List.replicate 13 0x61) = true by decide)
    (by decide) 0x20
  exact ⟨told, after, returned, keeps.mpr mountedRoot_spares⟩

/-- In a fresh root directory a name of fourteen characters destroys the entry of the parent. -/
theorem createFile_long_overwrites_live_slot :
    (smallVolume mountedRoot 2).Layout ∧ (smallVolume mountedRoot 2).Reliable ∧
    (smallVolume mountedRoot 2).Chain 2 [2] ∧
    validateFileName (List.replicate 14 0x61) = true ∧
    ∃ after, (smallVolume mountedRoot 2).createFile (List.replicate 14 0x61) 0x20 =
        .ok (true, after) ∧ ¬ (smallVolume mountedRoot 2).KeepsOthers after [2] := by
  have accepted : Run.accepts ((smallVolume mountedRoot 2).createFile (List.replicate 14 0x61) 0x20)
      (fun after => after.block 2 32 == 0x01) = true := by decide +kernel
  obtain ⟨after, returned, written⟩ := Run.exists_of_accepts accepted
  refine ⟨smallVolume_layout _ _, smallVolume_reliable _ _, mountedRoot_chain, by decide, after,
    returned, ?_⟩
  intro keeps
  -- Slot 1 of the root held two dots.
  have kept := keeps 2 1 (by decide) (Or.inl ⟨by decide, by decide⟩) 0 (by decide)
  have before : (smallVolume mountedRoot 2).block 2 (slotSize * 1 + 0) = 0x2E := by decide
  rw [before] at kept
  rw [show slotSize * 1 + 0 = 32 by rfl] at kept
  rw [kept] at written
  exact absurd written (by decide)

end FileSystem

end Pocky
