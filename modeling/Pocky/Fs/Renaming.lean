import Pocky.Fs.CreationLaws
import Pocky.Fs.TreeOperations

/-! Renaming within a directory: which bytes change, and whether the new name is found. -/

namespace Pocky

/-- A name that a slot keeps as it is: short, not like a deleted slot, and without a space at the end. -/
def KeptBySlot (name : Name) : Prop :=
  name.length ≤ 11 ∧ name.head? ≠ some 0xE5 ∧ name.getLast? ≠ some 0x20

instance (name : Name) : Decidable (KeptBySlot name) := inferInstanceAs (Decidable (_ ∧ _ ∧ _))

/-- Spaces at the end of a name are dropped together with those behind it. -/
theorem rdropWhile_padding (name : Name) (count : Nat) :
    (name ++ List.replicate count (0x20 : UInt8)).rdropWhile (· == 0x20) =
      name.rdropWhile (· == 0x20) := by
  -- By induction on the number of spaces.
  induction count with
  | zero => rw [List.replicate_zero, List.append_nil]
  | succ count ih =>
    rw [List.replicate_succ', ← List.append_assoc, List.rdropWhile_concat_pos _ _ _ (by simp), ih]

/-- A name padded with spaces is read back without the spaces at its end. -/
theorem entryName_spaces {data : Buffer} {offset : Nat} {name : Name} (short : name.length ≤ 11)
    (text : 0 ∉ name) (bytes : ∀ index < 11, data (offset + index) = name.getD index 0x20) :
    entryName data offset = name.rdropWhile (· == 0x20) := by
  have read : (List.range 11).map (fun index => data (offset + index)) =
      name ++ List.replicate (11 - name.length) 0x20 := by
    rw [← map_getD_range name 0x20 short]
    exact List.map_congr_left fun index member => bytes index (List.mem_range.mp member)
  have nonzero : ∀ byte ∈ name.rdropWhile (· == 0x20), (byte != 0) = true := by
    intro byte member
    have inside := (List.rdropWhile_prefix _ (l := name)).subset member
    simp only [bne_iff_ne, ne_eq]
    rintro rfl
    exact text inside
  rw [entryName, read, rdropWhile_padding, List.takeWhile_eq_self_iff.mpr nonzero]

/-- Without a space at its end, a name padded with spaces is read back. -/
theorem rdropWhile_eq_self {name : Name} :
    name.rdropWhile (· == 0x20) = name ↔ name.getLast? ≠ some 0x20 := by
  rw [List.rdropWhile_eq_self_iff]
  constructor
  · intro kept last
    have nonempty : name ≠ [] := by
      rintro rfl
      cases last
    rw [List.getLast?_eq_some_getLast nonempty, Option.some.injEq] at last
    exact kept nonempty (by simp [last])
  · intro last nonempty space
    exact last (by rw [List.getLast?_eq_some_getLast nonempty, eq_of_beq space])

/-- A slot with a new name has that name for lookups exactly if slots keep it as it is. -/
theorem slotNames_renamed {data data' : Buffer} {name newName : Name} {slot : Nat}
    (short : newName.length ≤ 11) (text : 0 ∉ newName) (nonempty : newName ≠ [])
    (named : SlotNames data name (slotSize * slot))
    (bytes : ∀ byte < slotSize, data' (slotSize * slot + byte) =
      if byte < 11 then newName.getD byte 0x20 else data (slotSize * slot + byte)) :
    SlotNames data' newName (slotSize * slot) ↔ KeptBySlot newName := by
  obtain ⟨first, rest, rfl⟩ := List.exists_cons_of_ne_nil nonempty
  have head : data' (slotSize * slot) = first := by
    have byte := bytes 0 (by decide)
    rwa [Nat.add_zero, if_pos (by decide)] at byte
  have filled : first ≠ 0 := by
    rintro rfl
    exact text List.mem_cons_self
  have attributes : entryAttributes data' (slotSize * slot) ≠ 0x0F := by
    rw [entryAttributes, bytes 11 (by decide), if_neg (by decide)]
    exact named.2.1
  have read : entryName data' (slotSize * slot) = (first :: rest).rdropWhile (· == 0x20) :=
    entryName_spaces short text fun index inside =>
      (bytes index (Nat.lt_trans inside (by decide))).trans (if_pos inside)
  have live : freeByte first = false ↔ (first :: rest).head? ≠ some 0xE5 := by
    simp [freeByte, filled]
  rw [SlotNames, head, read, rdropWhile_eq_self, KeptBySlot, live]
  constructor
  · rintro ⟨unmarked, -, last⟩
    exact ⟨short, unmarked, last⟩
  · rintro ⟨-, unmarked, last⟩
    exact ⟨unmarked, attributes, last⟩

/-- A slot that a lookup has come to is the one that a lookup of its new name finds, or none is. -/
theorem findName_renamed {data data' : Buffer} {name newName : Name} {slot : Nat}
    (change : ChangesSlot slot data data') (hit : findName data name 16 0 = some (slotSize * slot))
    (absent : findName data newName 16 0 = none) :
    findName data' newName 16 0 =
      if SlotNames data' newName (slotSize * slot) then some (slotSize * slot) else none := by
  obtain ⟨slot', small, equal, named, before⟩ := findName_eq_some_iff.mp hit
  obtain rfl : slot = slot' := by
    simp only [slotSize] at equal
    omega
  split
  · rename_i names
    refine findName_eq_some_iff.mpr ⟨slot, small, (Nat.zero_add _).symm, names, fun earlier below => ?_⟩
    have byte := change.bytes (Nat.ne_of_lt below) (show 0 < slotSize by decide)
    have used := (before earlier below).1
    have passed := findName_eq_none_iff.mp absent earlier (Nat.lt_trans below small)
      fun other under => (before other (Nat.lt_trans under below)).1
    rw [Nat.add_zero] at byte
    rw [Nat.zero_add] at used passed ⊢
    rw [byte, slotNames_congr fun index inside => change.bytes (Nat.ne_of_lt below) inside]
    exact ⟨used, passed⟩
  · rename_i other
    exact findName_not_replaced change (fun unused => absurd unused named.used) absent other

/-- Two lookups report the same cluster, size and attributes. -/
def Found.SameFile (found source : Found) : Prop :=
  found.cluster = source.cluster ∧ found.size = source.size ∧ found.attributes = source.attributes

namespace FileSystem

/-- A call of `renameFile` that succeeds in the directory of the old name, which is not the new one. -/
structure RenamesInPlace (fs : FileSystem) (oldName newName : Name) (source : Found) (directory : Nat)
    (name destName : Name) (after : FileSystem) : Prop where
  /-- The new name is accepted. -/
  valid : validateFileName newName = true
  /-- The old path leads to an entry. -/
  resolved : fs.findFile oldName = .ok (some source)
  /-- It is looked for under a name in a directory. -/
  parent : fs.parentOf oldName = .ok (some (directory, name))
  /-- The new path leads to the same directory. -/
  target : fs.renameTarget name newName = .ok (some (directory, destName))
  /-- The name there is another one. -/
  different : name ≠ destName
  /-- The call returns true. -/
  returned : fs.renameFile oldName newName = .ok (true, after)

/-- At most the name bytes of the entry that a directory has for a name have changed. -/
def OnlyNameChanges (fs after : FileSystem) (directory : Nat) (name : Name) : Prop :=
  ∃ entry sector offset, fs.findFileInDirectory directory name = .ok (some entry) ∧
    entry.slot = some (sector, offset) ∧ ∀ addr,
      ¬ (512 * sector + offset ≤ addr ∧ addr < 512 * sector + offset + 11) →
        after.disk.bytes addr = fs.disk.bytes addr

/-- A path leads to a file with the cluster, size and attributes of a source. -/
def FoundAs (fs : FileSystem) (path : Name) (source : Found) : Prop :=
  ∃ found, fs.findFile path = .ok (some found) ∧ found.SameFile source

variable {fs after : FileSystem} {oldName newName name destName : Name} {source : Found}
  {directory : Nat}

/-- A rename in place looks for no other directory than the current one, and edits the entry there. -/
theorem RenamesInPlace.edits
    (renames : fs.RenamesInPlace oldName newName source directory name destName after) :
    directory = fs.currentDirectoryCluster ∧ destName = newName ∧
      fs.findFileInDirectory directory newName = .ok none ∧
      fs.editEntry directory name (fs.renamed newName) = .ok (true, after) := by
  have target := renames.target
  rw [renameTarget] at target
  obtain ⟨answer, looked, further⟩ := Run.bind_eq_ok.mp target
  have here : directory = fs.currentDirectoryCluster ∧ destName = newName ∧ answer = none := by
    cases answer with
    | some found =>
      -- A directory of the new name would keep the old name.
      dsimp only at further
      split at further
      · obtain ⟨-, same⟩ := Prod.mk.inj (Option.some.inj (Except.ok.inj further))
        exact absurd same renames.different
      · cases further
    | none =>
      dsimp only at further
      rw [parentOf_of_valid renames.valid] at further
      obtain ⟨rfl, rfl⟩ := Prod.mk.inj (Option.some.inj (Except.ok.inj further))
      exact ⟨rfl, rfl, rfl⟩
  obtain ⟨rfl, rfl, rfl⟩ := here
  rw [findFile_of_valid renames.valid] at looked
  refine ⟨rfl, rfl, looked, ?_⟩
  have returned := renames.returned
  have different : ¬ (True ∧ name = destName) := fun both => renames.different both.2
  simpa only [renameFile, renames.valid, Bool.not_true, Bool.false_eq_true, if_false, renames.resolved,
    Run.ok_bind, renames.parent, renames.target, if_neg different, if_true] using returned

/-- What editing an entry comes to on a device that refuses nothing. -/
theorem editEntry_stores {clusters : List Nat} {edit : Buffer → Nat → Run Buffer} (layout : fs.Layout)
    (reliable : fs.Reliable) (links : fs.Links directory clusters)
    (edited : fs.editEntry directory name edit = .ok (true, after)) :
    ∃ sector ∈ fs.directorySectors clusters, ∃ slot < 16, ∃ data,
      findName (fs.block sector) name 16 0 = some (slotSize * slot) ∧
      fs.findFileInDirectory directory name = .ok (some
        ⟨entryCluster (fs.block sector) (slotSize * slot), entrySize (fs.block sector) (slotSize * slot),
          entryAttributes (fs.block sector) (slotSize * slot), some (sector, slotSize * slot)⟩) ∧
      edit (fs.block sector) (slotSize * slot) = .ok data ∧ after = fs.store sector data := by
  rw [editEntry] at edited
  rcases links.findFileInDirectory_cases layout reliable name with
    ⟨looked, -⟩ | ⟨sector, inside, offset, hit, looked⟩
  · rw [looked] at edited
    cases edited
  · rw [looked, Run.ok_bind] at edited
    dsimp only at edited
    rw [readSector_eq layout.sector reliable] at edited
    dsimp only at edited
    obtain ⟨data, changed, written⟩ := Run.bind_eq_ok.mp edited
    rw [writeSector_eq layout.sector reliable] at written
    obtain ⟨slot, small, rfl, -⟩ := findName_eq_some_iff.mp hit
    rw [Nat.zero_add] at hit looked changed
    cases written
    exact ⟨sector, inside, slot, small, data, hit, looked, changed, rfl⟩

/-- The bytes of the sector of an entry that has got a short name. -/
theorem renamed_sector {data data' : Buffer} {slot : Nat} (short : newName.length ≤ 11)
    (edited : fs.renamed newName data (slotSize * slot) = .ok data') :
    (∀ byte < slotSize, data' (slotSize * slot + byte) =
      if byte < 11 then newName.getD byte 0x20 else data (slotSize * slot + byte)) ∧
    ∀ index, ¬ (slotSize * slot ≤ index ∧ index < slotSize * slot + 11) → data' index = data index := by
  rw [renamed] at edited
  split at edited
  · cases edited
  · obtain rfl := Except.ok.inj edited
    refine ⟨fun byte _ => renamed_bytes short data (slotSize * slot) byte, fun index outside => ?_⟩
    rw [putBytes, if_neg (by omega), putBytes, if_neg outside]

/-- Storing a sector that differs in the name bytes of a slot changes only them. -/
theorem store_onlyNameChanges {sector slot : Nat} {data : Buffer} {entry : Found}
    (looked : fs.findFileInDirectory directory name = .ok (some entry))
    (place : entry.slot = some (sector, slotSize * slot))
    (kept : ∀ index, ¬ (slotSize * slot ≤ index ∧ index < slotSize * slot + 11) →
      data index = fs.block sector index) :
    fs.OnlyNameChanges (fs.store sector data) directory name := by
  refine ⟨entry, sector, slotSize * slot, looked, place, fun addr outside => ?_⟩
  simp only [store, Disk.putBlock, blockSize]
  by_cases inside : 512 * sector ≤ addr ∧ addr < 512 * sector + 512
  · have sum : 512 * sector + (addr - 512 * sector) = addr := by omega
    refine (if_pos inside).trans ?_
    rw [kept _ (by omega), block, cutBlock, if_pos (by omega), sum]
  · exact if_neg inside

/-- The new name is found exactly if slots keep it, and then with what the old entry recorded. -/
theorem foundAs_renamed_iff {clusters : List Nat} {sector slot : Nat} {data : Buffer} {entry : Found}
    (source : Found) (layout : fs.Layout) (reliable : fs.Reliable) (links : fs.Links fs.currentDirectoryCluster clusters)
    (valid : validateFileName newName = true) (text : 0 ∉ newName) (short : newName.length ≤ 11)
    (absent : fs.findFileInDirectory fs.currentDirectoryCluster newName = .ok none)
    (member : sector ∈ fs.directorySectors clusters) (small : slot < 16)
    (hit : findName (fs.block sector) name 16 0 = some (slotSize * slot))
    (recorded : entry = ⟨entryCluster (fs.block sector) (slotSize * slot),
      entrySize (fs.block sector) (slotSize * slot), entryAttributes (fs.block sector) (slotSize * slot),
      some (sector, slotSize * slot)⟩)
    (edited : fs.renamed newName (fs.block sector) (slotSize * slot) = .ok data) :
    (fs.store sector data).FoundAs newName source ↔ KeptBySlot newName ∧ entry.SameFile source := by
  have nonempty : newName ≠ [] := by
    rintro rfl
    cases valid
  obtain ⟨bytes, kept⟩ := renamed_sector short edited
  have same := fs.store_same sector data
  have layout' := layout.same same
  have reliable' := reliable.same same
  have links' : (fs.store sector data).Links fs.currentDirectoryCluster clusters :=
    links.store layout (links.high layout member)
  have block : (fs.store sector data).block sector = cutBlock data := by
    rw [store_block, if_pos rfl]
  -- The sector of the entry has changed in its slot only.
  have here : ∀ byte < slotSize, (fs.store sector data).block sector (slotSize * slot + byte) =
      if byte < 11 then newName.getD byte 0x20 else fs.block sector (slotSize * slot + byte) := by
    intro byte inside
    rw [block, cutBlock, if_pos (by simp only [slotSize] at *; omega), bytes byte inside]
  have change : ChangesSlot slot (fs.block sector) ((fs.store sector data).block sector) := by
    intro index elsewhere
    rw [block, cutBlock]
    split
    · exact kept index (by simp only [slotSize] at *; omega)
    · rename_i outside
      rw [FileSystem.block, cutBlock, if_neg outside]
  have silent : ∀ other ∈ fs.directorySectors clusters, findName (fs.block other) newName 16 0 = none := by
    rcases links.findFileInDirectory_cases layout reliable newName with
      ⟨-, silent⟩ | ⟨other, -, offset, -, looked⟩
    · exact silent
    · rw [absent] at looked
      cases looked
  obtain ⟨slot', -, -, named, -⟩ := findName_eq_some_iff.mp hit
  have names := slotNames_renamed short text nonempty named here
  have found := findName_renamed change hit (silent sector member)
  have there : (fs.store sector data).currentDirectoryCluster = fs.currentDirectoryCluster := rfl
  rw [FoundAs, findFile_of_valid valid, there]
  rcases links'.findFileInDirectory_cases layout' reliable' newName with
    ⟨looked, none⟩ | ⟨other, inside, offset, hit', looked⟩
  · -- The slot is passed over, so it does not keep the name.
    rw [same.directorySectors] at none
    rw [none sector member] at found
    constructor
    · rintro ⟨answer, told, -⟩
      rw [looked] at told
      cases told
    · rintro ⟨whole, -⟩
      rw [if_pos (names.mpr whole)] at found
      cases found
  · -- No other sector has the name.
    rw [same.directorySectors] at inside
    obtain rfl : other = sector := by
      by_contra different
      rw [store_block, if_neg different, silent other inside] at hit'
      cases hit'
    rw [hit'] at found
    split at found
    · rename_i whole
      obtain rfl := Option.some.inj found
      have late : ∀ byte, 11 ≤ byte → byte < slotSize →
          (fs.store other data).block other (slotSize * slot + byte) =
            fs.block other (slotSize * slot + byte) := fun byte behind inside => by
        rw [here byte inside, if_neg (by omega)]
      have equal : ∀ answer, (fs.store other data).findFileInDirectory fs.currentDirectoryCluster
          newName = .ok (some answer) → (answer.SameFile source ↔ entry.SameFile source) := by
        intro answer told
        obtain rfl := Option.some.inj (Except.ok.inj (looked.symm.trans told))
        subst recorded
        simp only [Found.SameFile, entryCluster, entrySize, entryAttributes, wordAt, halfAt,
          Nat.add_assoc, late 11 (by decide) (by decide), late 26 (by decide) (by decide),
          late (26 + 1) (by decide) (by decide), late 28 (by decide) (by decide),
          late (28 + 1) (by decide) (by decide), late (28 + 2) (by decide) (by decide),
          late (28 + (2 + 1)) (by decide) (by decide)]
      constructor
      · rintro ⟨answer, told, agrees⟩
        exact ⟨names.mp whole, (equal answer told).mp agrees⟩
      · rintro ⟨-, agrees⟩
        exact ⟨_, looked, (equal _ looked).mpr agrees⟩
    · cases found

/--
A rename in place changes the name alone, and makes the entry be found under the new name, exactly
if a slot keeps the new name and the entry is the one that the old path leads to.

A name of at most eleven bytes never changes any other byte.
-/
theorem renameFile_in_place_iff (fs after : FileSystem) (layout : fs.Layout) (reliable : fs.Reliable)
    {clusters : List Nat} (links : fs.Links fs.currentDirectoryCluster clusters)
    (oldName newName name destName : Name) (source : Found) (directory : Nat) (text : 0 ∉ newName)
    (renames : fs.RenamesInPlace oldName newName source directory name destName after) :
    (fs.OnlyNameChanges after directory name ∧ after.FoundAs newName source ↔
      KeptBySlot newName ∧ ∀ entry, fs.findFileInDirectory directory name = .ok (some entry) →
        entry.SameFile source) ∧
      (newName.length ≤ 11 → fs.OnlyNameChanges after directory name) := by
  obtain ⟨rfl, rfl, absent, edited⟩ := renames.edits
  obtain ⟨sector, member, slot, small, data, hit, looked, changed, rfl⟩ :=
    editEntry_stores layout reliable links edited
  by_cases short : destName.length ≤ 11
  · have only := store_onlyNameChanges looked rfl (renamed_sector short changed).2
    have found := foundAs_renamed_iff source layout reliable links renames.valid text short
      absent member small hit rfl changed
    refine ⟨?_, fun _ => only⟩
    rw [and_iff_right only, found]
    refine and_congr_right fun _ => ⟨fun same entry told => ?_, fun all => all _ looked⟩
    obtain rfl := Option.some.inj (Except.ok.inj (looked.symm.trans told))
    exact same
  · -- No lookup finds a name of more than eleven bytes.
    have same := fs.store_same sector data
    have links' : (fs.store sector data).Links fs.currentDirectoryCluster clusters :=
      links.store layout (links.high layout member)
    have long := findFileInDirectory_long (layout.same same)
      (links'.chain (layout.same same) (reliable.same same)) (Nat.lt_of_not_le short)
    refine ⟨⟨?_, fun holds => absurd holds.1.1 short⟩, fun few => absurd few short⟩
    rintro ⟨-, found, told, -⟩
    rw [findFile_of_valid renames.valid] at told
    have answer := told.symm.trans long
    cases answer

/-- A root directory with a file of one cluster. -/
def oneFile : Buffer :=
  withLink 2 endMark <| withLink 3 endMark <| withEntry 2 0 [0x41] 0x20 3 fun _ => 0

/-- Its root directory is a chain of one cluster. -/
theorem oneFile_links : (smallVolume oneFile 2).Links 2 [2] :=
  ⟨by show endMark ≤ _; decide +kernel, rfl, List.nodup_singleton 2, fun cluster member => by
    obtain rfl := List.mem_singleton.mp member
    exact ⟨by decide, by decide +kernel⟩⟩

/-- Renames of that file succeed in place. -/
theorem oneFile_renames {newName : Name} {after : FileSystem} (valid : validateFileName newName = true)
    (other : ([0x41] : Name) ≠ newName)
    (target : (smallVolume oneFile 2).renameTarget [0x41] newName = .ok (some (2, newName)))
    (returned : (smallVolume oneFile 2).renameFile [0x41] newName = .ok (true, after)) :
    (smallVolume oneFile 2).RenamesInPlace [0x41] newName ⟨3, 0, 0x20, some (2, 0)⟩ 2 [0x41] newName
      after :=
  ⟨valid, by decide +kernel, by decide +kernel, target, other, returned⟩

/-- Renaming the file to a name of two bytes. -/
theorem renameFile_in_place_iff_short : ∃ after,
    (smallVolume oneFile 2).renameFile [0x41] [0x42, 0x43] = .ok (true, after) ∧
      (smallVolume oneFile 2).OnlyNameChanges after 2 [0x41] ∧
      after.FoundAs [0x42, 0x43] ⟨3, 0, 0x20, some (2, 0)⟩ := by
  have accepted : Run.accepts ((smallVolume oneFile 2).renameFile [0x41] [0x42, 0x43]) (fun _ => true) =
      true := by decide +kernel
  obtain ⟨after, returned, -⟩ := Run.exists_of_accepts accepted
  have looked : (smallVolume oneFile 2).findFileInDirectory 2 [0x41] =
      .ok (some ⟨3, 0, 0x20, some (2, 0)⟩) := by decide +kernel
  have whole := (renameFile_in_place_iff (smallVolume oneFile 2) after (smallVolume_layout _ 2)
    (smallVolume_reliable _ 2) oneFile_links [0x41] [0x42, 0x43] [0x41] [0x42, 0x43] _ 2 (by decide)
    (oneFile_renames (by decide) (by decide) (by decide +kernel) returned)).1.mpr
    ⟨by decide, fun entry told => by
      obtain rfl := Option.some.inj (Except.ok.inj (looked.symm.trans told))
      exact ⟨rfl, rfl, rfl⟩⟩
  exact ⟨after, returned, whole.1, whole.2⟩

/-- Renaming the file to a name of twelve bytes overwrites its attributes, and it is not found. -/
theorem renameFile_overwrites_attributes : ∃ after,
    (smallVolume oneFile 2).RenamesInPlace [0x41] (List.replicate 12 0x42) ⟨3, 0, 0x20, some (2, 0)⟩ 2
      [0x41] (List.replicate 12 0x42) after ∧
      (smallVolume oneFile 2).disk.bytes 1035 = 0x20 ∧ after.disk.bytes 1035 = 0x42 ∧
      ¬ (smallVolume oneFile 2).OnlyNameChanges after 2 [0x41] ∧
      after.findFile (List.replicate 12 0x42) = .ok none := by
  have accepted : Run.accepts ((smallVolume oneFile 2).renameFile [0x41] (List.replicate 12 0x42))
      (fun after => after.disk.bytes 1035 = 0x42 ∧
        (after.findFile (List.replicate 12 0x42)).toOption = some none) = true := by decide +kernel
  obtain ⟨after, returned, told⟩ := Run.exists_of_accepts accepted
  obtain ⟨byte, lost⟩ := of_decide_eq_true told
  have before : (smallVolume oneFile 2).disk.bytes 1035 = 0x20 := by decide +kernel
  have looked : (smallVolume oneFile 2).findFileInDirectory 2 [0x41] =
      .ok (some ⟨3, 0, 0x20, some (2, 0)⟩) := by decide +kernel
  refine ⟨after, oneFile_renames (by decide) (by decide) (by decide +kernel) returned, before, byte, ?_,
    Run.toOption_eq_some.mp lost⟩
  rintro ⟨entry, sector, offset, found, place, kept⟩
  obtain rfl := Option.some.inj (Except.ok.inj (looked.symm.trans found))
  obtain ⟨rfl, rfl⟩ := Prod.mk.inj (Option.some.inj place)
  have same := kept 1035 (by decide)
  rw [byte, before] at same
  exact absurd same (by decide)

end FileSystem

end Pocky
