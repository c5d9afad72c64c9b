import Pocky.Fs.ChainLaws

/-! A new directory entry fills a free slot exactly when the directory's first sector has one. -/

namespace Pocky

namespace FileSystem

/--
The entry has been written into a slot of the directory that was free.

No other slot of the disk has changed.
-/
def FillsFreeSlot (fs after : FileSystem) (clusters : List Nat) (entry : Buffer) : Prop :=
  ∃ sector ∈ fs.directorySectors clusters, ∃ slot < 16,
    freeByte (fs.block sector (slotSize * slot)) = true ∧
    (∀ byte < slotSize, after.block sector (slotSize * slot + byte) = entry byte) ∧
    ∀ other slot', slot' < 16 → (other, slot') ≠ (sector, slot) → ∀ byte < slotSize,
      after.block other (slotSize * slot' + byte) = fs.block other (slotSize * slot' + byte)

/-- The first sector of a directory has a slot that may be filled. -/
def FirstSectorHasRoom (fs : FileSystem) (directory : Nat) : Prop :=
  ∃ slot < 16, freeByte (fs.block (fs.clusterSector directory) (slotSize * slot)) = true

/-- The slots after one of them has been replaced. -/
theorem store_slot (fs : FileSystem) (sector slot : Nat) (entry : Buffer) (small : slot < 16) :
    let after := fs.store sector (putBytes (fs.block sector) (slotSize * slot) slotSize entry)
    (∀ byte < slotSize, after.block sector (slotSize * slot + byte) = entry byte) ∧
    ∀ other slot', slot' < 16 → (other, slot') ≠ (sector, slot) → ∀ byte < slotSize,
      after.block other (slotSize * slot' + byte) = fs.block other (slotSize * slot' + byte) := by
  intro after
  have blocks : ∀ other, after.block other =
      if other = sector then putBytes (fs.block sector) (slotSize * slot) slotSize entry
      else fs.block other := by
    intro other
    rw [store_block]
    split
    · exact cutBlock_putBytes (by simp only [slotSize]; omega)
    · rfl
  constructor
  · intro byte inside
    have within : slotSize * slot ≤ slotSize * slot + byte ∧
        slotSize * slot + byte < slotSize * slot + slotSize := by omega
    rw [blocks, if_pos rfl, putBytes, if_pos within, Nat.add_sub_cancel_left]
  · intro other slot' small' different byte inside
    rw [blocks]
    split
    · -- In the same sector, slots are thirty-two bytes apart.
      rename_i same
      subst same
      have apart : slot' ≠ slot := fun equal => different (by rw [equal])
      have outside : ¬ (slotSize * slot ≤ slotSize * slot' + byte ∧
          slotSize * slot' + byte < slotSize * slot + slotSize) := by
        simp only [slotSize] at *
        omega
      rw [putBytes, if_neg outside]
    · rfl

/-- What an accepted call has done: it has replaced a slot of the first sector. -/
theorem writeDirectoryEntry_store {fs after : FileSystem} (sector512 : fs.bpb.bytesPerSector = 512)
    {directory fileCluster fileSize : Nat} {name : Name} {attributes : UInt8}
    (returned : fs.writeDirectoryEntry directory name attributes fileCluster fileSize =
      .ok (true, after)) :
    ∃ slot < 16, fs.findFreeDirectoryEntry directory = .ok (some (slotSize * slot)) ∧
      fs.readSector (fs.clusterSector directory) = some (fs.block (fs.clusterSector directory)) ∧
      after = fs.store (fs.clusterSector directory)
        (putBytes (fs.block (fs.clusterSector directory)) (slotSize * slot) slotSize
          (entryBytes name attributes fileCluster fileSize)) := by
  obtain ⟨answer, found, rest⟩ := Run.bind_eq_ok.mp returned
  cases answer with
  | none => cases rest
  | some entryIndex =>
    obtain ⟨slot, small, rfl⟩ := findFreeDirectoryEntry_offset sector512 found
    dsimp only at rest
    split at rest
    · cases rest
    · rename_i sectorData read
      obtain rfl := block_of_readSector sector512 read
      exact ⟨slot, small, found, read, store_of_writeSector sector512 (Except.ok.inj rest)⟩

/-- A used slot of the first sector that was overwritten is not a free slot that was filled. -/
theorem not_fillsFreeSlot {fs after : FileSystem} {clusters : List Nat} {entry : Buffer}
    {sector slot : Nat} (small : slot < 16)
    (used : freeByte (fs.block sector (slotSize * slot)) = false)
    (stored : after =
      fs.store sector (putBytes (fs.block sector) (slotSize * slot) slotSize entry)) :
    ¬ FillsFreeSlot fs after clusters entry := by
  rintro ⟨sector', -, slot', small', free, written, kept⟩
  obtain ⟨here, elsewhere⟩ := store_slot fs sector slot entry small
  rw [← stored] at here elsewhere
  have zero : 0 < slotSize := by decide
  by_cases same : (sector, slot) = (sector', slot')
  · cases same
    rw [free] at used
    cases used
  · -- The filled slot would hold the entry's first byte, which is that of the used slot.
    have first := here 0 zero
    rw [kept sector slot small same 0 zero] at first
    have other := written 0 zero
    rw [elsewhere sector' slot' small' (fun equal => same equal.symm) 0 zero, ← first] at other
    rw [Nat.add_zero, Nat.add_zero] at other
    rw [other, used] at free
    cases free

/--
Entering a file fills a free slot of the directory and changes no other slot, exactly when the
first sector of the directory has a free slot.

A free slot elsewhere in the directory is found, but only its offset is used.
-/
theorem writeDirectoryEntry_fills_iff {fs after : FileSystem}
    (accepted : validateBootSector fs.bpb = true) (sector512 : fs.bpb.bytesPerSector = 512)
    {directory : Nat} {clusters : List Nat} (chain : fs.Chain directory clusters)
    {name : Name} {attributes : UInt8} {fileCluster fileSize : Nat}
    (returned : fs.writeDirectoryEntry directory name attributes fileCluster fileSize =
      .ok (true, after)) :
    FillsFreeSlot fs after clusters (entryBytes name attributes fileCluster fileSize) ↔
      fs.FirstSectorHasRoom directory := by
  obtain ⟨slot, small, found, read, stored⟩ := writeDirectoryEntry_store sector512 returned
  have positive : 0 < fs.bpb.sectorsPerCluster := by
    simp only [validateBootSector, powerOfTwo, Bool.and_eq_true, decide_eq_true_eq] at accepted
    omega
  constructor
  · intro fills
    by_contra full
    -- Every slot of the first sector is in use, so the one overwritten is too.
    have used : freeByte (fs.block (fs.clusterSector directory) (slotSize * slot)) = false := by
      cases free : freeByte (fs.block (fs.clusterSector directory) (slotSize * slot)) with
      | false => rfl
      | true => exact absurd ⟨slot, small, free⟩ full
    exact not_fillsFreeSlot small used stored fills
  · rintro ⟨room, inside, free⟩
    have first := findFreeDirectoryEntry_first sector512 positive read inside free found
    obtain ⟨here, elsewhere⟩ := store_slot fs (fs.clusterSector directory) slot
      (entryBytes name attributes fileCluster fileSize) small
    rw [← stored] at here elsewhere
    -- The first sector of the first cluster belongs to the directory.
    have member : fs.clusterSector directory ∈ fs.directorySectors clusters := by
      refine List.mem_flatMap.mpr ⟨directory, chain.start_mem, List.mem_map.mpr ⟨0, ?_, ?_⟩⟩
      · exact List.mem_range.mpr positive
      · rw [Nat.add_zero, clusterSector, Nat.mod_mod]
    exact ⟨_, member, slot, small, first, here, elsewhere⟩

/-- A volume with clusters of two sectors, given the bytes of its disk. -/
def twoSectorVolume (bytes : Buffer) : FileSystem where
  disk := ⟨bytes, 0, fun _ _ => true, fun _ => true⟩
  bpb := ⟨512, 2, 1, 1, 0, 0, 0, 42, 1, 0, 0x29⟩
  firstDataSector := 2
  dataSectors := 40
  totalClusters := 20
  firstFatSector := 1
  freeCount := 0
  nextFree := 0
  currentPath := [slash]
  currentDirName := [slash]
  currentDirectoryCluster := rootCluster

/-- An unused volume whose table says that the root directory has one cluster. -/
def rootOnly : Buffer := putWord (fun _ => 0) (512 + 8) endMark

/-- An unused volume whose root directory's first sector is full of names. -/
def fullFirstSector : Buffer := putBytes rootOnly 1024 512 fun _ => 0x41

/-- The root directory of both volumes is a chain of one cluster. -/
theorem rootOnly_chain : (twoSectorVolume rootOnly).Chain 2 [2] ∧
    (twoSectorVolume fullFirstSector).Chain 2 [2] := by
  have valid : ∀ bytes, ∀ cell ∈ [2], (twoSectorVolume bytes).InVolume cell := by
    intro bytes cell member
    obtain rfl := List.mem_singleton.mp member
    exact ⟨by decide, by show 2 < 20; decide⟩
  exact ⟨⟨by show endMark ≤ _; decide, rfl, by decide, valid _⟩,
    ⟨by show endMark ≤ _; decide, rfl, by decide, valid _⟩⟩

/-- In an unused root directory the first slot is filled. -/
theorem writeDirectoryEntry_fills_iff_unused_root :
    FillsFreeSlot (twoSectorVolume rootOnly)
      ((twoSectorVolume rootOnly).store 2 (putBytes ((twoSectorVolume rootOnly).block 2) 0 slotSize
        (entryBytes [0x42] 0x20 3 0)))
      [2] (entryBytes [0x42] 0x20 3 0) := by
  have returned : (twoSectorVolume rootOnly).writeDirectoryEntry 2 [0x42] 0x20 3 0 =
      .ok (true, (twoSectorVolume rootOnly).store 2
        (putBytes ((twoSectorVolume rootOnly).block 2) 0 slotSize (entryBytes [0x42] 0x20 3 0))) := by
    rfl
  exact (writeDirectoryEntry_fills_iff (by decide) rfl rootOnly_chain.1 returned).mpr
    ⟨0, by decide, by decide⟩

/-- With the first sector full and the second unused, the first name of the directory is lost. -/
theorem writeDirectoryEntry_overwrites_used_slot :
    validateBootSector (twoSectorVolume fullFirstSector).bpb = true ∧
    (twoSectorVolume fullFirstSector).Chain 2 [2] ∧
    ∃ after, (twoSectorVolume fullFirstSector).writeDirectoryEntry 2 [0x42] 0x20 3 0 =
        .ok (true, after) ∧
      ¬ FillsFreeSlot (twoSectorVolume fullFirstSector) after [2] (entryBytes [0x42] 0x20 3 0) := by
  have returned : (twoSectorVolume fullFirstSector).writeDirectoryEntry 2 [0x42] 0x20 3 0 =
      .ok (true, (twoSectorVolume fullFirstSector).store 2
        (putBytes ((twoSectorVolume fullFirstSector).block 2) (slotSize * 0) slotSize
          (entryBytes [0x42] 0x20 3 0))) := by
    rfl
  have used : freeByte ((twoSectorVolume fullFirstSector).block 2 (slotSize * 0)) = false := by
    decide
  exact ⟨by decide, rootOnly_chain.2, _, returned, not_fillsFreeSlot (by decide) used rfl⟩

end FileSystem

end Pocky
