import Pocky.Fs.NamedVolume

/-! Creating, deleting and renaming in the root of a volume in whose directories names are not shared. -/

namespace Pocky

namespace FileSystem

/-- A lookup finds the entry that a call has just made: its slot and its cluster were free before. -/
def FindsNew (fs after : FileSystem) (name : Name) (attributes : UInt8) : Prop :=
  ∃ found sector offset, after.findFile name = .ok (some found) ∧
    found.slot = some (sector, offset) ∧ freeByte (fs.block sector offset) = true ∧
    fs.fatEntry found.cluster = 0 ∧ found.attributes = attributes ∧ found.size = 0

/--
A renaming of a file or directory that is there gives it a name of its own.

In a directory that the new name leads to, the old name is free. Otherwise the new name fits in a
slot, and without the spaces at its end it is the old name or free in the current directory.
-/
def RenameKeeps (fs : FileSystem) (oldName newName : Name) : Prop :=
  ∀ source, fs.findFile oldName = .ok (some source) →
    (∀ found, fs.findFile newName = .ok (some found) → isDirectory found.attributes = true →
      found.cluster ≠ fs.currentDirectoryCluster →
      fs.findFileInDirectory found.cluster oldName = .ok none) ∧
    (fs.findFile newName = .ok none → newName.length ≤ 11 ∧
      (newName.rdropWhile (· == 0x20) = oldName ∨
        fs.findFileInDirectory fs.currentDirectoryCluster (newName.rdropWhile (· == 0x20)) = .ok none))

section Calls

variable {fs after : FileSystem} {directories : Nat → Prop} {name : Name} {attributes : UInt8}
  {slot cluster : Nat}

/-- The root is the current directory, and has one cluster. -/
theorem NamedApart.current (named : fs.NamedApart directories) : fs.Single fs.currentDirectoryCluster := by
  rw [named.here]
  exact named.single rootCluster named.root

/-- A name that is not found in a directory is in none of its slots. -/
theorem NamedApart.absent (named : fs.NamedApart directories) {directory : Nat}
    (inside : directories directory) (none : fs.findFileInDirectory directory name = .ok none) :
    ∀ place < 16, ¬ SlotNames (fs.content directory) name (slotSize * place) := by
  rw [(named.single directory inside).findFileInDirectory named.sound] at none
  exact fun place small => (named.distinct directory inside).absent
    (Option.map_eq_none_iff.mp (Except.ok.inj none)) small

/-- What a lookup of an accepted name returns. -/
theorem NamedApart.findFile (named : fs.NamedApart directories) (valid : validateFileName name = true) :
    (findName (fs.content rootCluster) name 16 0 = none ∧ fs.findFile name = .ok none) ∨
    ∃ slot < 16, ∃ found, findName (fs.content rootCluster) name 16 0 = some (slotSize * slot) ∧
      SlotNames (fs.content rootCluster) name (slotSize * slot) ∧
      fs.findFile name = .ok (some found) ∧ found.attributes ≠ 0x0F ∧
      fs.HasTarget directories (rootCluster, slot)
        ⟨found.cluster, isDirectory found.attributes⟩ := by
  rw [findFile_of_valid valid, named.current.findFileInDirectory named.sound, named.here]
  cases found : findName (fs.content rootCluster) name 16 0 with
  | none => exact Or.inl ⟨rfl, rfl⟩
  | some offset =>
    obtain ⟨slot, small, place, names, -⟩ := findName_eq_some_iff.mp found
    rw [Nat.zero_add] at place
    subst place
    exact Or.inr ⟨slot, small, _, rfl, names, rfl, names.2.1, named.root, small, names.target⟩

/-- What the root looks like after an entry has been made in it. -/
theorem Enters.filled (enters : fs.Enters name attributes slot cluster after)
    (named : fs.NamedApart directories) (back : ReadBack name attributes) :
    ∃ data, fs.EditsSlot directories rootCluster slot data after ∧ Distinct data ∧
      SlotNames data name (slotSize * slot) ∧
      slotTarget data slot = some ⟨cluster, isDirectory attributes⟩ ∧
      data = putBytes (fs.content rootCluster) (slotSize * slot) slotSize
        (entryBytes name attributes cluster 0) := by
  have distinct := named.distinct rootCluster named.root
  obtain ⟨absent, first, small, valid, free, becomes⟩ := enters
  rw [named.here] at absent first becomes
  have few : cluster < 65536 := Nat.lt_of_lt_of_le valid.2 named.sound.few
  obtain ⟨change, distinct', names, leads⟩ :=
    distinct.fill (fun _ => distinct.absent absent) first back few rfl
  exact ⟨_, becomes.editsSlot change (named.single _ named.root).valid fun other inside =>
    (named.single other inside).valid, distinct', names, leads, rfl⟩

/-- A new entry is found, also after more has been written elsewhere. -/
theorem Enters.findsNew (enters : fs.Enters name attributes slot cluster after)
    (named : fs.NamedApart directories) (valid : validateFileName name = true)
    (back : ReadBack name attributes) {last : FileSystem} (same : SameVolume fs last)
    (content : last.content rootCluster = after.content rootCluster)
    (single : last.Single rootCluster) : fs.FindsNew last name attributes := by
  obtain ⟨data, edits, -, names, leads, bytes⟩ := enters.filled named back
  obtain ⟨absent, first, small, -, free, -⟩ := enters
  rw [named.here] at absent first
  rw [edits.here] at content
  obtain ⟨slot', -, place, unused, before⟩ := findFree_some first
  obtain rfl : slot = slot' := by
    simp only [slotSize] at place
    omega
  have found := findName_replaced small edits.change
    (fun earlier below => by simpa only [Nat.zero_add] using before earlier below) absent names
  have here : last.currentDirectoryCluster = rootCluster := by
    rw [same.fields]
    exact named.here
  have sector : last.dataSector rootCluster 0 = fs.dataSector rootCluster 0 := by
    rw [same.fields]
    rfl
  refine ⟨last.foundIn rootCluster (slotSize * slot), _, _, ?_, rfl, ?_, ?_, ?_, ?_⟩
  · rw [findFile_of_valid valid, here, single.findFileInDirectory (named.sound.same same), content,
      found]
    rfl
  · rw [sector]
    exact unused
  · obtain ⟨-, -, equal⟩ := slotTarget_some leads
    have start := congrArg Head.cluster equal
    dsimp only at start
    rw [foundIn, content, ← start]
    exact free
  · rw [foundIn, content, bytes]
    exact putBytes_add _ _ _ (by decide : 11 < slotSize)
  · rw [foundIn, content, bytes]
    refine wordAt_byteOf (by decide) fun byte inside => ?_
    rw [Nat.add_assoc, putBytes_add _ _ _ (by simp only [slotSize]; omega), entryBytes,
      if_neg (by omega), if_neg (by omega), if_neg (by omega), if_neg (by omega), if_pos (by omega),
      Nat.add_sub_cancel_left]

/-- Creating a file whose entry is found under its name. -/
theorem NamedApart.createFile (named : fs.NamedApart directories) (valid : validateFileName name = true)
    (back : ReadBack name attributes) (file : isDirectory attributes = false) :
    ∃ told after, fs.createFile name attributes = .ok (told, after) ∧ after.NamedApart directories ∧
      (told = true → fs.FindsNew after name attributes) := by
  rcases createEntry_fitting named.sound named.current valid back.1 attributes with
    ⟨-, after, returned, becomes⟩ | ⟨slot, cluster, after, returned, enters⟩
  · refine ⟨false, after, ?_, named.unchanged becomes, fun wrong => by cases wrong⟩
    rw [FileSystem.createFile, returned]
    rfl
  · obtain ⟨data, edits, distinct, -, leads, -⟩ := enters.filled named back
    rw [file] at leads
    have named' := named.inserted edits distinct enters.valid enters.free
      (fun other inside => enters.becomes.fat other inside) leads (fun wrong => by cases wrong)
    simp only [Bool.false_eq_true, false_and, or_false] at named'
    refine ⟨true, after, ?_, named', fun _ =>
      enters.findsNew named valid back enters.becomes.same rfl (named'.single _ named'.root)⟩
    rw [FileSystem.createFile, returned]
    rfl

/-- Creating a directory whose entry is found under its name. -/
theorem NamedApart.createDirectory (named : fs.NamedApart directories)
    (valid : validateFileName name = true) (back : ReadBack name 0x10) :
    ∃ told after directories', fs.createDirectory name = .ok (told, after) ∧
      after.NamedApart directories' ∧ (told = true → fs.FindsNew after name 0x10) := by
  rcases createEntry_fitting named.sound named.current valid back.1 0x10 with
    ⟨-, after, returned, becomes⟩ | ⟨slot, cluster, middle, returned, enters⟩
  · refine ⟨false, after, directories, ?_, named.unchanged becomes, fun wrong => by cases wrong⟩
    rw [FileSystem.createDirectory, returned]
    rfl
  · obtain ⟨data, edits, distinct, -, leads, -⟩ := enters.filled named back
    have sound := named.sound.same enters.becomes.same
    have valid' : middle.InVolume cluster := enters.becomes.same.inVolume.mpr enters.valid
    have few : cluster < 65536 := Nat.lt_of_lt_of_le enters.valid.2 named.sound.few
    obtain ⟨after, written, becomes⟩ :=
      sound.writeContent valid' (dotSector 0x00 cluster fs.currentDirectoryCluster)
    have edits' := edits.write becomes
      (fun other inside => enters.becomes.same.inVolume.mpr (named.single other inside).valid)
      named.root fun other inside => (named.single other inside).ne_free enters.free
    have new : after.content cluster = dotSector 0x00 cluster rootCluster := by
      rw [becomes.content cluster valid', Function.update_self, cutBlock_dotSector, named.here]
    have named' := named.inserted edits' distinct enters.valid enters.free
      (fun other inside => (becomes.fat other (by rw [enters.becomes.same.fields]; exact inside)).trans
        (enters.becomes.fat other inside)) leads (fun _ => by
          rw [new]
          exact ⟨distinct_dotSector (Or.inl rfl) _ _, fun slot' head target =>
            (slotTarget_dotSector few (by decide) target).2⟩)
    refine ⟨true, after, _, ?_, named', fun _ => enters.findsNew named valid back edits'.same
      (edits'.here.trans edits.here.symm) (named'.single _ named'.root)⟩
    rw [FileSystem.createDirectory, returned, Run.ok_bind]
    dsimp only
    rw [sound.clusterSector valid', written]
    rfl

/-- Removing an entry of the root that does not lead back to it. -/
theorem NamedApart.removeEntry (named : fs.NamedApart directories) (valid : validateFileName name = true)
    {head : Head} (found : findName (fs.content rootCluster) name 16 0 = some (slotSize * slot))
    (target : fs.HasTarget directories (rootCluster, slot) head) (notRoot : head.cluster ≠ rootCluster) :
    ∃ after directories', fs.removeEntry name head.cluster = .ok (true, after) ∧
      after.NamedApart directories' := by
  obtain ⟨single, -⟩ := named.target _ head target
  rw [← named.here] at found
  obtain ⟨after, removed, becomes⟩ :=
    removeEntry_valid named.sound named.current valid found single.links
  rw [named.here] at becomes
  have edits : fs.EditsSlot directories rootCluster slot _ after :=
    becomes.editsSlot (changesSlot_update _ _ _) (named.single _ named.root).valid fun other inside =>
      (named.single other inside).valid
  refine ⟨after, _, removed, named.removed target.2.1 target.2.2 notRoot edits fun other inside away => ?_⟩
  rw [becomes.fat other inside.2, if_neg]
  exact fun member => away (List.mem_singleton.mp member)

/-- Deleting a file. -/
theorem NamedApart.deleteFile (named : fs.NamedApart directories)
    (valid : validateFileName name = true) :
    ∃ told after directories', fs.deleteFile name = .ok (told, after) ∧
      after.NamedApart directories' := by
  rcases named.findFile valid with ⟨-, absent⟩ | ⟨slot, -, found, place, -, lookup, -, target⟩
  · refine ⟨false, fs, directories, ?_, named⟩
    rw [FileSystem.deleteFile, absent]
    rfl
  · rw [FileSystem.deleteFile, lookup, Run.ok_bind]
    dsimp only
    cases kind : isDirectory found.attributes with
    | true => exact ⟨false, fs, directories, rfl, named⟩
    | false =>
      rw [kind] at target
      -- A file is no directory, and so not the root.
      have notRoot : found.cluster ≠ rootCluster := by
        intro isRoot
        have wrong := (named.target _ _ target).2.mpr (isRoot ▸ named.root)
        cases wrong
      obtain ⟨after, directories', removed, named'⟩ := named.removeEntry valid place target notRoot
      exact ⟨true, after, directories', removed, named'⟩

/-- An entry of the root that leads back to it keeps it from being taken for empty. -/
theorem NamedApart.root_full (named : fs.NamedApart directories)
    (found : findName (fs.content rootCluster) name 16 0 = some (slotSize * slot))
    (target : fs.HasTarget directories (rootCluster, slot) ⟨rootCluster, true⟩) :
    emptyVerdict (fs.content rootCluster) 16 0 = some false := by
  obtain ⟨slot', small, place, names, before⟩ := findName_eq_some_iff.mp found
  obtain rfl : slot = slot' := by
    simp only [slotSize] at place
    omega
  refine emptyVerdict_eq_false_iff.mpr ⟨slot, small, fun earlier below => ?_, ?_⟩
  · rcases Nat.lt_or_eq_of_le below with earlier' | rfl
    · exact (before earlier earlier').1
    · rw [Nat.zero_add]
      exact names.used
  · rw [Nat.zero_add]
    exact named.counted slot small target.2.2

/-- Deleting a directory. -/
theorem NamedApart.deleteDirectory (named : fs.NamedApart directories)
    (valid : validateFileName name = true) :
    ∃ told after directories', fs.deleteDirectory name = .ok (told, after) ∧
      after.NamedApart directories' := by
  rcases named.findFile valid with ⟨-, absent⟩ | ⟨slot, -, found, place, -, lookup, -, target⟩
  · refine ⟨false, fs, directories, ?_, named⟩
    rw [FileSystem.deleteDirectory, absent]
    rfl
  · rw [FileSystem.deleteDirectory, lookup, Run.ok_bind]
    dsimp only
    cases kind : isDirectory found.attributes with
    | false => exact ⟨false, fs, directories, rfl, named⟩
    | true =>
      rw [kind] at target
      have inside : directories found.cluster := (named.target _ _ target).2.mp rfl
      rw [(named.single _ inside).isDirectoryEmpty named.sound, Run.ok_bind]
      cases empty : (emptyVerdict (fs.content found.cluster) 16 0).getD true with
      | false => exact ⟨false, fs, directories, rfl, named⟩
      | true =>
        have notRoot : found.cluster ≠ rootCluster := by
          intro isRoot
          rw [isRoot] at target empty
          rw [named.root_full place target] at empty
          cases empty
        obtain ⟨after, directories', removed, named'⟩ := named.removeEntry valid place target notRoot
        exact ⟨true, after, directories', removed, named'⟩

/-- A new name in the root, padded with spaces. -/
theorem NamedApart.renameInPlace (named : fs.NamedApart directories) {newName : Name}
    (short : newName.length ≤ 11) (text : 0 ∉ newName) (small : slot < 16)
    (found : findName (fs.content rootCluster) name 16 0 = some (slotSize * slot))
    (names : SlotNames (fs.content rootCluster) name (slotSize * slot))
    (absent : newName.rdropWhile (· == 0x20) = name ∨
      fs.findFileInDirectory fs.currentDirectoryCluster (newName.rdropWhile (· == 0x20)) = .ok none) :
    ∃ after, fs.editEntry fs.currentDirectoryCluster name (fs.renamed newName) = .ok (true, after) ∧
      after.NamedApart directories := by
  have root := named.single rootCluster named.root
  obtain ⟨data, edited, change, bytes⟩ :=
    renamed_eq named.sound.layout.sector small short (fs.content rootCluster)
  obtain ⟨after, written, becomes⟩ := root.editEntry named.sound small found edited change
  rw [named.here] at absent ⊢
  obtain ⟨distinct, leads, counts⟩ := (named.distinct rootCluster named.root).rename small names short
    text change bytes (absent.imp_right (named.absent named.root))
  have edits : fs.EditsSlot directories rootCluster slot data after :=
    becomes.editsSlot change root.valid fun other inside => (named.single other inside).valid
  exact ⟨after, written, named.renamed edits distinct becomes.fat leads (counts _)⟩

/-- Moving an entry to a directory that has no entry with its name. -/
theorem NamedApart.moveEntry (named : fs.NamedApart directories) {directory : Nat} {source : Found}
    (inside : directories directory) (notRoot : directory ≠ rootCluster) (nonempty : name ≠ [])
    (found : findName (fs.content rootCluster) name 16 0 = some (slotSize * slot))
    (names : SlotNames (fs.content rootCluster) name (slotSize * slot))
    (kind : source.attributes ≠ 0x0F)
    (target : fs.HasTarget directories (rootCluster, slot)
      ⟨source.cluster, isDirectory source.attributes⟩)
    (absent : fs.findFileInDirectory directory name = .ok none) :
    fs.writeDirectoryEntry directory name source.attributes source.cluster source.size =
      .ok (false, fs) ∨
    ∃ middle after, fs.writeDirectoryEntry directory name source.attributes source.cluster
        source.size = .ok (true, middle) ∧
      middle.editEntry fs.currentDirectoryCluster name (fun sectorData offset =>
        .ok (Function.update sectorData offset 0xE5)) = .ok (true, after) ∧
      after.NamedApart directories := by
  have valid := fun other (member : directories other) => (named.single other member).valid
  have single := named.single directory inside
  rcases single.writeDirectoryEntry named.sound name source.attributes source.cluster source.size with
    ⟨-, refused⟩ | ⟨slot', -, middle, first, entered, becomes⟩
  · exact Or.inl refused
  · obtain ⟨leadsTo, -⟩ := named.target _ _ target
    have few : source.cluster < 65536 := Nat.lt_of_lt_of_le leadsTo.valid.2 named.sound.few
    obtain ⟨change, distinct, -, leads⟩ := (named.distinct directory inside).fill
      (named.absent inside absent) first (names.readBack nonempty kind) few rfl
    have enters : fs.EditsSlot directories directory slot' _ middle :=
      becomes.editsSlot change single.valid valid
    -- The root is as before when the old entry is marked.
    have root : middle.content rootCluster = fs.content rootCluster :=
      enters.elsewhere rootCluster named.root notRoot.symm
    have still : middle.Single rootCluster := by
      have alone := named.single rootCluster named.root
      refine ⟨becomes.same.inVolume.mpr alone.valid, ?_⟩
      rw [becomes.fat rootCluster alone.valid.2]
      exact alone.last
    obtain ⟨after, written, becomes'⟩ : ∃ after, middle.editEntry rootCluster name
        (fun sectorData offset => .ok (Function.update sectorData offset 0xE5)) = .ok (true, after) ∧
        middle.Becomes after middle.fatEntry (Function.update middle.content rootCluster
          (Function.update (middle.content rootCluster) (slotSize * slot) 0xE5)) :=
      still.editEntry (named.sound.same becomes.same) target.2.1 (root.symm ▸ found) rfl
        (changesSlot_update slot (middle.content rootCluster) 0xE5)
    have leaves : middle.EditsSlot directories rootCluster slot _ after :=
      becomes'.editsSlot (changesSlot_update _ _ _) still.valid fun other member =>
        becomes.same.inVolume.mpr (valid other member)
    rw [root] at leaves
    refine Or.inr ⟨middle, after, entered, named.here ▸ written,
      named.moved notRoot target.2.1 enters distinct leaves (fun cluster small => ?_)
        (leads.trans target.2.2.symm)⟩
    rw [becomes'.fat cluster (by rw [becomes.same.fields]; exact small), becomes.fat cluster small]

/-- Renaming a file or directory. -/
theorem NamedApart.renameFile (named : fs.NamedApart directories) {newName : Name}
    (valid : validateFileName name = true) (valid' : validateFileName newName = true)
    (text : 0 ∉ newName) (keeps : fs.RenameKeeps name newName) :
    ∃ told after, fs.renameFile name newName = .ok (told, after) ∧ after.NamedApart directories := by
  have accepted : ¬ (!validateFileName newName) = true := by simp [valid']
  have nonempty : name ≠ [] := by
    rintro rfl
    cases valid
  rw [FileSystem.renameFile, if_neg accepted]
  rcases named.findFile valid with ⟨-, absent⟩ | ⟨slot, small, found, place, names, lookup, kind, target⟩
  · rw [absent]
    exact ⟨false, fs, rfl, named⟩
  · obtain ⟨whole, short⟩ := keeps found lookup
    rw [lookup, Run.ok_bind]
    dsimp only
    rw [parentOf_of_valid valid, Run.ok_bind]
    dsimp only
    rw [renameTarget]
    rcases named.findFile valid' with ⟨-, absent⟩ | ⟨slot', -, found', -, -, lookup', -, target'⟩
    · -- The new name is that of nothing: the entry is renamed in the root.
      have different : name ≠ newName := by
        rintro rfl
        rw [lookup] at absent
        cases absent
      rw [absent, Run.ok_bind]
      dsimp only
      rw [parentOf_of_valid valid', Run.ok_bind]
      dsimp only
      rw [if_neg fun both => different both.2, if_pos rfl]
      obtain ⟨fits, free⟩ := short absent
      obtain ⟨after, edited, named'⟩ := named.renameInPlace fits text small place names free
      exact ⟨true, after, edited, named'⟩
    · rw [lookup', Run.ok_bind]
      dsimp only
      cases directory : isDirectory found'.attributes with
      | false => exact ⟨false, fs, rfl, named⟩
      | true =>
        rw [directory] at target'
        simp only [if_true, Run.pure_eq, Run.ok_bind]
        by_cases here : fs.currentDirectoryCluster = found'.cluster
        · rw [if_pos ⟨here, trivial⟩]
          exact ⟨true, fs, rfl, named⟩
        · rw [if_neg fun both => here both.1, if_neg here]
          have inside : directories found'.cluster := (named.target _ _ target').2.mp rfl
          have absent := whole found' lookup' directory (Ne.symm here)
          rcases named.moveEntry inside (fun isRoot => here (named.here.trans isRoot.symm)) nonempty
            place names kind target absent with refused | ⟨middle, after, entered, erased, named'⟩
          · rw [refused]
            exact ⟨false, fs, rfl, named⟩
          · rw [entered]
            exact ⟨true, after, erased, named'⟩

end Calls

end FileSystem

end Pocky
