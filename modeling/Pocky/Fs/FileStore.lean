import Pocky.Fs.AllOrNothing
import Pocky.Fs.HeldFiles

/-! What the operations on files of the root directory do to the map of the files. -/

namespace Pocky

/-- Names depend on the first twelve bytes of a slot. -/
theorem slotNames_front {data data' : Buffer} {name : Name} {slot : Nat}
    (same : ∀ byte < 12, data' (slotSize * slot + byte) = data (slotSize * slot + byte)) :
    SlotNames data' name (slotSize * slot) ↔ SlotNames data name (slotSize * slot) := by
  have first := same 0 (by decide)
  rw [Nat.add_zero] at first
  rw [SlotNames, SlotNames, first, entryName_congr fun index small => same index (by omega),
    entryAttributes, entryAttributes, same 11 (by decide)]

/-- Different names stay different when their bytes stay. -/
theorem Distinct.front {data data' : Buffer} (distinct : Distinct data)
    (same : ∀ slot < 16, ∀ byte < 12,
      data' (slotSize * slot + byte) = data (slotSize * slot + byte)) : Distinct data' := by
  have first : ∀ slot < 16, data' (slotSize * slot) = data (slotSize * slot) :=
    fun slot small => same slot small 0 (by decide)
  refine ⟨fun slot small unused later little behind => ?_,
    fun slot small other small' name names names' => ?_⟩
  · rw [first later little]
    rw [first slot small] at unused
    exact distinct.order slot small unused later little behind
  · exact distinct.once slot small other small' name ((slotNames_front (same slot small)).mp names)
      ((slotNames_front (same other small')).mp names')

/-- A plain name is read back from the entry that is made for it. -/
theorem Plain.readBack {name : Name} (plain : Plain name) {attributes : UInt8}
    (kind : attributes ≠ 0x0F) : ReadBack name attributes := by
  have whole : FileSystem.shortName name = name := List.take_of_length_le plain.short
  have bytes : ∀ index < 11, FileSystem.entryBytes (FileSystem.shortName name) attributes 0 0
      (0 + index) = name.getD index 0x00 := by
    intro index inside
    rw [Nat.zero_add, FileSystem.entryBytes, if_pos inside, whole, whole]
  refine ⟨plain.short, ?_, kind,
    entryName_padded plain.short plain.storable.characters (Or.inl rfl) bytes⟩
  rw [show FileSystem.entryBytes (FileSystem.shortName name) attributes 0 0 0 = name.getD 0 0x00 from
    bytes 0 (by decide)]
  exact plain.storable.freeByte_getD _

/-- A plain name has no spaces to drop. -/
theorem Plain.rdropWhile {name : Name} (plain : Plain name) : name.rdropWhile (· == 0x20) = name := by
  rw [List.rdropWhile_eq_self_iff]
  intro nonempty
  simpa using (plain.storable.byte_ne (List.getLast_mem nonempty)).2.1

/-- A slot that gets a plain name has it. -/
theorem SlotNames.renamed {data data' : Buffer} {name newName : Name} {slot : Nat}
    (names : SlotNames data name (slotSize * slot)) (plain : Plain newName)
    (bytes : ∀ byte, data' (slotSize * slot + byte) =
      if byte < 11 then newName.getD byte 0x20 else data (slotSize * slot + byte)) :
    SlotNames data' newName (slotSize * slot) := by
  refine ⟨?_, ?_, entryName_padded plain.short plain.storable.characters (Or.inr rfl)
    fun index inside => (bytes index).trans (if_pos inside)⟩
  · have first := bytes 0
    rw [Nat.add_zero, if_pos (by decide)] at first
    rw [first]
    exact plain.storable.freeByte_getD _
  · rw [entryAttributes, bytes 11, if_neg (by decide)]
    exact names.2.1

namespace FileSystem

variable {fs : FileSystem} {store : FileStore} {name : Name}

/-- What a lookup of a plain name finds in a volume that keeps a map. -/
theorem Keeps.findFile (keeps : fs.Keeps store) (plain : Plain name) :
    (store name = none ∧ findName (fs.content rootCluster) name 16 0 = none ∧
      fs.findFile name = .ok none) ∨
    ∃ file slot, store name = some file ∧ slot < 16 ∧
      SlotNames (fs.content rootCluster) name (slotSize * slot) ∧ fs.HoldsFile slot file ∧
      findName (fs.content rootCluster) name 16 0 = some (slotSize * slot) ∧
      fs.findFile name = .ok (some (fs.foundIn rootCluster (slotSize * slot))) := by
  rw [findFile_of_valid plain.valid, keeps.here, keeps.root.findFileInDirectory keeps.tidy.sound]
  cases stored : store name with
  | none =>
    have absent : findName (fs.content rootCluster) name 16 0 = none := by
      rw [findName_eq_none_iff]
      intro slot small _
      rw [Nat.zero_add]
      exact keeps.absent name plain stored slot small
    exact Or.inl ⟨rfl, absent, by rw [absent]; rfl⟩
  | some file =>
    obtain ⟨-, slot, small, names, holds⟩ := keeps.present name file stored
    have found := keeps.distinct.findName_eq small names
    exact Or.inr ⟨file, slot, rfl, small, names, holds, found, by rw [found]; rfl⟩

/-- What a lookup reports about a file is that it is no directory. -/
theorem HoldsFile.file {slot : Nat} {file : StoredFile} (holds : fs.HoldsFile slot file) :
    isDirectory (fs.foundIn rootCluster (slotSize * slot)).attributes = false := by
  have leads := holds.leads
  rw [slotHead] at leads
  split at leads
  · cases leads
  · exact congrArg Head.directory (Option.some.inj leads)

/-- The chain of a file. -/
theorem Keeps.chain (keeps : fs.Keeps store) {slot : Nat} (small : slot < 16) {file : StoredFile}
    (holds : fs.HoldsFile slot file) :
    ∃ clusters, fs.Links (entryCluster (fs.content rootCluster) (slotSize * slot)) clusters ∧
      ∀ cluster ∈ clusters, cluster ≠ rootCluster := by
  have owns : fs.Owns (fun cluster => cluster = rootCluster) (.file rootCluster slot)
      (entryCluster (fs.content rootCluster) (slotSize * slot)) := ⟨rfl, small, holds.leads⟩
  obtain ⟨clusters, links⟩ := keeps.tidy.separated.owned.chained _ _ owns
  refine ⟨clusters, links, fun cluster member => ?_⟩
  rintro rfl
  exact keeps.tidy.separated.directory_outside owns links rfl member

/-- What fits in a volume has a size of 32 bits. -/
theorem HoldsData.size_lt (sound : fs.Sound) {start : Nat} {clusters : List Nat} {data : Buffer}
    {size : Nat} (links : fs.Links start clusters) (holds : fs.HoldsData data clusters size) :
    size < 2 ^ 32 := by
  have few := sound.few
  have short : clusters.length ≤ fs.totalClusters := ChainFrom.length_le links fun _ valid => valid.2
  by_contra large
  obtain ⟨cluster, found, -⟩ := holds 65536 (by omega)
  rw [sound.one, Nat.div_one] at found
  obtain ⟨inside, -⟩ := List.getElem?_eq_some_iff.mp found
  omega

/-- Writing a file leaves the root directory as it was. -/
theorem Keeps.writeFile_root (keeps : fs.Keeps store) {middle : FileSystem} {start : Nat}
    {clusters clusters' : List Nat} (outside : ∀ cluster ∈ clusters, cluster ≠ rootCluster)
    (rewrites : fs.RewritesFile clusters middle start clusters') :
    middle.content rootCluster = fs.content rootCluster := by
  obtain ⟨valid, used⟩ := keeps.tidy.separated.used (show rootCluster = rootCluster from rfl)
  have one := keeps.tidy.sound.one
  exact rewrites.data rootCluster valid (fun member => outside _ member rfl) used 0 (by omega)

/-- There is room for so much data in the chain of a file and in the free clusters. -/
def RoomFor (fs : FileSystem) (name : Name) (dataSize : Nat) : Prop :=
  ∃ found clusters, fs.findFile name = .ok (some found) ∧ fs.Links found.cluster clusters ∧
    fs.clustersFor dataSize ≤ clusters.length + fs.freeClusters.card

/-- What has been written to the chain of a slot, before its size is recorded. -/
theorem Keeps.rewritten (keeps : fs.Keeps store) {middle : FileSystem} {slot : Nat} {file : StoredFile}
    (holds : fs.HoldsFile slot file) {clusters clusters' : List Nat}
    (links : fs.Links (entryCluster (fs.content rootCluster) (slotSize * slot)) clusters)
    (outside : ∀ cluster ∈ clusters, cluster ≠ rootCluster)
    (rewrites : fs.RewritesFile clusters middle
      (entryCluster (fs.content rootCluster) (slotSize * slot)) clusters') :
    fs.EditsFile slot clusters (fs.content rootCluster) middle where
  edits := ⟨rewrites.same, fun _ _ => rfl, keeps.writeFile_root outside rewrites,
    fun _ root notRoot => absurd root notRoot⟩
  was := Or.inr ⟨_, holds.leads, links⟩
  fat := rewrites.fat
  content cluster valid apart used _ := by
    have one := keeps.tidy.sound.one
    exact rewrites.data cluster valid apart used 0 (by omega)

/-- The names of a slot that has a name. -/
theorem slotNames_iff {data : Buffer} {slot : Nat} (names : SlotNames data name (slotSize * slot))
    (other : Name) : SlotNames data other (slotSize * slot) ↔ other = name :=
  ⟨fun names' => names'.2.2.symm.trans names.2.2, fun equal => equal ▸ names⟩

/-- A slot that keeps its name keeps the map but for that name. -/
theorem Keeps.replaced (keeps : fs.Keeps store) (plain : Plain name) {after : FileSystem} {slot : Nat}
    {old : List Nat} {data : Buffer} {file : StoredFile} (small : slot < 16)
    (edits : fs.EditsFile slot old data after)
    (tidy : after.Tidy fun cluster => cluster = rootCluster) (distinct : Distinct data)
    (before : ∀ other, SlotNames (fs.content rootCluster) other (slotSize * slot) → other = name)
    (names : SlotNames data name (slotSize * slot)) (holds : after.HoldsFile slot file) :
    after.Keeps (Function.update store name (some file)) := by
  refine keeps.edited small edits tidy distinct ?_ ?_ ?_ ?_ ?_
  · intro other file' stored
    by_cases same : other = name
    · exact same ▸ plain
    · rw [Function.update_of_ne same] at stored
      exact (keeps.present other file' stored).1
  · intro other _ notNow
    rw [Function.update_of_ne]
    rintro rfl
    exact notNow names
  · intro other file' now stored
    obtain rfl := (slotNames_iff names other).mp now
    rw [Function.update_self] at stored
    cases stored
    exact holds
  · intro other _ now
    obtain rfl := (slotNames_iff names other).mp now
    rw [Function.update_self]
    simp
  · intro other was notNow
    obtain rfl := before other was
    exact absurd names notNow

/-- A slot in which a size is recorded keeps its other bytes. -/
theorem putWord_size (data : Buffer) (slot size : Nat) {place byte : Nat} (little : byte < 28) :
    putWord data (slotSize * slot + 28) size (slotSize * place + byte) =
      data (slotSize * place + byte) := by
  rw [putWord, putBytes, if_neg]
  simp only [slotSize]
  omega

/-- Recording the size of what has been written completes the file. -/
theorem Keeps.recordSize (keeps : fs.Keeps store) (plain : Plain name) {slot : Nat}
    {file : StoredFile} (small : slot < 16)
    (names : SlotNames (fs.content rootCluster) name (slotSize * slot)) (holds : fs.HoldsFile slot file)
    {middle : FileSystem} {clusters clusters' : List Nat}
    (outside : ∀ cluster ∈ clusters, cluster ≠ rootCluster)
    (edits : fs.EditsFile slot clusters (fs.content rootCluster) middle)
    (tidy : middle.Tidy fun cluster => cluster = rootCluster) {data : Buffer} {dataSize : Nat}
    (rewrites : fs.RewritesFile clusters middle
      (entryCluster (fs.content rootCluster) (slotSize * slot)) clusters')
    (written : middle.HoldsData data clusters' dataSize) :
    ∃ after, middle.updateFileSize name (dataSize % 2 ^ 32) = .ok (true, after) ∧
      after.Keeps (Function.update store name
        (some { file with size := dataSize, contents := some data })) := by
  have small' := HoldsData.size_lt tidy.sound rewrites.links written
  have root := edits.edits.here
  have here : middle.currentDirectoryCluster = rootCluster := tidy.current
  have single := tidy.separated.single rootCluster rfl
  have found := keeps.distinct.findName_eq small names
  have change : ChangesSlot slot (fs.content rootCluster)
      (putWord (fs.content rootCluster) (slotSize * slot + 28) dataSize) :=
    changesSlot_putBytes slot 28 4 _ _ (by decide)
  rw [← root] at found change
  obtain ⟨after, told, becomes⟩ : ∃ after,
      middle.updateFileSize name (dataSize % 2 ^ 32) = .ok (true, after) ∧
        middle.Becomes after middle.fatEntry (Function.update middle.content rootCluster
          (putWord (middle.content rootCluster) (slotSize * slot + 28) dataSize)) := by
    rw [updateFileSize, parentOf_of_valid plain.valid, here, Nat.mod_eq_of_lt small']
    exact single.editEntry tidy.sound small found rfl change
  obtain ⟨told', after', recorded', tidy'⟩ := tidy.updateFileSize plain (dataSize % 2 ^ 32)
  rw [told] at recorded'
  cases recorded'
  rw [root] at becomes
  refine ⟨after, told, ?_⟩
  have notRoot : ∀ cluster ∈ clusters', cluster ≠ rootCluster := by
    rintro cluster member rfl
    rcases rewrites.fresh _ member with old | free
    · exact outside _ old rfl
    · exact (keeps.tidy.separated.used (show rootCluster = rootCluster from rfl)).2 free
  have content : after.content rootCluster =
      putWord (fs.content rootCluster) (slotSize * slot + 28) dataSize := by
    rw [becomes.content rootCluster single.valid, Function.update_self]
  have front {place byte : Nat} (little : byte < 28) :
      after.content rootCluster (slotSize * place + byte) =
        fs.content rootCluster (slotSize * place + byte) := by
    rw [content]
    exact putWord_size _ slot dataSize little
  have cluster : entryCluster (after.content rootCluster) (slotSize * slot) =
      entryCluster (fs.content rootCluster) (slotSize * slot) := by
    simp only [entryCluster, halfAt, Nat.add_assoc, front (show 26 < 28 by decide),
      front (show 26 + 1 < 28 by decide)]
  have edits' : fs.EditsFile slot clusters (after.content rootCluster) after := by
    refine ⟨⟨edits.edits.same.trans becomes.same, ?_, rfl, fun _ root notRoot => absurd root notRoot⟩,
      edits.was, fun other valid apart used => ?_, fun other valid apart used away => ?_⟩
    · rw [content]
      exact changesSlot_putBytes slot 28 4 _ _ (by decide)
    · rw [becomes.fat other (edits.edits.same.inVolume.mpr valid).2]
      exact edits.fat other valid apart used
    · rw [becomes.content other (edits.edits.same.inVolume.mpr valid), Function.update_of_ne away]
      exact edits.content other valid apart used away
  refine keeps.replaced plain small edits' tidy' (keeps.distinct.front fun place _ byte little =>
      front (by omega)) (fun other named => (slotNames_iff names other).mp named)
    ((slotNames_front fun byte little => front (by omega)).mpr names) ⟨?_, ?_, ?_, ?_⟩
  · rw [slotHead_congr fun byte little => front little, cluster]
    exact holds.leads
  · exact (front (show 11 < 28 by decide)).trans holds.attributes
  · rw [content]
    exact wordAt_putWord _ _ small'
  · rintro contents ⟨⟩
    rw [cluster]
    refine ⟨clusters', becomes.same.links rewrites.links fun other member =>
        becomes.fat other (rewrites.links.valid other member).2,
      written.kept tidy.sound becomes.same fun other member => ?_⟩
    rw [becomes.content other (rewrites.links.valid other member),
      Function.update_of_ne (notRoot other member)]

/-- A file of a map is written: it has the new contents, or there was too little room. -/
theorem Keeps.storeFile (keeps : fs.Keeps store) (plain : Plain name) {file : StoredFile}
    (stored : store name = some file) (data : Buffer) (dataSize : Nat) :
    ∃ told after, fs.storeFile name data dataSize = .ok (told, after) ∧
      after.Keeps (Function.update store name (some
        { file with
          size := if told then dataSize else file.size
          contents := if told then some data else none })) ∧
      (told = false → ¬ fs.RoomFor name dataSize) := by
  rcases keeps.findFile plain with ⟨none, -⟩ | ⟨file', slot, stored', small, names, holds, found, lookup⟩
  · rw [stored] at none
    cases none
  obtain rfl : file = file' := Option.some.inj (stored.symm.trans stored')
  obtain ⟨clusters, links, outside⟩ := keeps.chain small holds
  obtain ⟨told, middle, clusters', returned, writes⟩ :=
    keeps.tidy.sound.layout.writeFile_writes keeps.tidy.sound.reliable links data dataSize
  have edits := keeps.rewritten holds links outside writes.rewrites
  have tidy : middle.Tidy fun cluster => cluster = rootCluster := by
    have written := keeps.tidy.writeFile rfl small holds.leads data dataSize
    rw [returned] at written
    exact written
  have full : ¬ told = true → ¬ fs.RoomFor name dataSize := by
    rintro refused ⟨other, chain, lookup', links', room⟩
    rw [lookup] at lookup'
    cases lookup'
    have numbered : ∀ cluster, fs.InVolume cluster → ¬ endMark ≤ cluster := by
      intro cluster valid
      have few := keeps.tidy.sound.few
      have inside := valid.2
      rw [endMark]
      omega
    rw [links'.unique links numbered] at room
    have failed := writes.failed (by simpa using refused)
    omega
  rw [FileSystem.storeFile, lookup, Run.ok_bind]
  dsimp only
  simp only [foundIn]
  rw [returned]
  cases told with
  | true =>
    obtain ⟨after, recorded, keeps'⟩ := keeps.recordSize plain small names holds outside edits tidy
      writes.rewrites (writes.holds rfl)
    exact ⟨true, after, recorded, keeps', fun refused => absurd refused (by decide)⟩
  | false =>
    refine ⟨false, middle, rfl, keeps.replaced plain small edits tidy keeps.distinct
      (fun other named => (slotNames_iff names other).mp named) names ?_, fun _ => full (by decide)⟩
    have root := edits.edits.here
    refine ⟨by rw [root]; exact holds.leads, by rw [root]; exact holds.attributes,
      by rw [root]; exact holds.size, fun contents none => ?_⟩
    cases none

/-- Making an entry for a new file adds it to the map, without contents. -/
theorem Keeps.entered (keeps : fs.Keeps store) (plain : Plain name) {attributes : UInt8}
    (kind : attributes ≠ 0x0F) (file : isDirectory attributes = false) {slot cluster : Nat}
    {after : FileSystem} (enters : fs.Enters name attributes slot cluster after)
    (tidy : after.Tidy fun cluster => cluster = rootCluster) :
    after.Keeps (Function.update store name (some ⟨attributes, 0, some fun _ => 0⟩)) := by
  have edits := enters.editsSlot keeps.tidy
  have leads := enters.slotHead keeps.tidy.sound keeps.tidy.single plain kind
  obtain ⟨absent, first, small, valid, free, becomes⟩ := enters
  rw [keeps.here] at absent first becomes edits leads
  rw [file] at leads
  have root := keeps.root.ne_free free
  have few := keeps.tidy.sound.few
  have numbered := valid.2
  obtain ⟨change, distinct, names, target⟩ := keeps.distinct.fill
    (fun place little => keeps.distinct.absent absent little) first (plain.readBack kind)
    (show cluster < 65536 by omega) (rfl : _ = putBytes (fs.content rootCluster) (slotSize * slot)
      slotSize (entryBytes name attributes cluster 0))
  have content := edits.here
  have single : after.Single cluster := by
    refine ⟨becomes.same.inVolume.mpr valid, ?_⟩
    rw [becomes.fat cluster valid.2, Function.update_self]
  have start : entryCluster (after.content rootCluster) (slotSize * slot) = cluster := by
    obtain ⟨-, -, head⟩ := slotTarget_some target
    rw [content]
    exact (congrArg Head.cluster head).symm
  have bytes : ∀ byte < slotSize, after.content rootCluster (slotSize * slot + byte) =
      entryBytes name attributes cluster 0 byte := by
    intro byte inside
    rw [content, putBytes_add _ _ _ inside]
  refine keeps.replaced plain small ⟨edits, Or.inl rfl, fun other inside _ used => ?_,
      fun other inside _ _ away => ?_⟩ tidy distinct ?_ names
    ⟨by rw [leads, start], bytes 11 (by decide), entrySize_entryBytes (show 0 < 2 ^ 32 by decide) bytes, ?_⟩
  · rw [becomes.fat other inside.2, Function.update_of_ne]
    rintro rfl
    exact used free
  · rw [becomes.content other inside, Function.update_of_ne away]
  · -- The slot was free.
    intro other named
    obtain ⟨-, -, -, live, -⟩ := findFree_some first
    exact absurd named (not_slotNames_of_free live)
  · rintro contents ⟨⟩
    rw [start]
    exact ⟨[cluster], single.links, fun index nothing => absurd nothing (Nat.not_lt_zero _)⟩

/-- Creating a file adds it to the map, unless its name is taken or there is no room. -/
theorem Keeps.createFile (keeps : fs.Keeps store) (plain : Plain name) {attributes : UInt8}
    (kind : attributes ≠ 0x0F) (file : isDirectory attributes = false) :
    (¬ fs.Enterable name ∧ ∃ after, fs.createFile name attributes = .ok (false, after) ∧
      after.Keeps store) ∨
    store name = none ∧ ∃ slot cluster after, fs.createFile name attributes = .ok (true, after) ∧
      fs.Enters name attributes slot cluster after ∧
      after.Keeps (Function.update store name (some ⟨attributes, 0, some fun _ => 0⟩)) := by
  obtain ⟨told, last, created, tidy⟩ := keeps.tidy.createFile plain kind file
  rcases createEntry_fitting keeps.tidy.sound keeps.tidy.single plain.valid plain.short attributes with
    ⟨full, after, returned, becomes⟩ | ⟨slot, cluster, after, returned, enters⟩
  · refine Or.inl ⟨full, after, ?_, keeps.unchanged becomes⟩
    rw [FileSystem.createFile, returned]
    rfl
  · have done : fs.createFile name attributes = .ok (true, after) := by
      rw [FileSystem.createFile, returned]
      rfl
    have tidy' : after.Tidy fun cluster => cluster = rootCluster := by
      rw [done] at created
      cases created
      exact tidy
    refine Or.inr ⟨?_, slot, cluster, after, done, enters, keeps.entered plain kind file enters tidy'⟩
    rcases keeps.findFile plain with ⟨none, -⟩ | ⟨_, _, _, _, _, _, found, _⟩
    · exact none
    · have absent := enters.absent
      rw [keeps.here, found] at absent
      cases absent

/-- Deleting takes a file out of the map. -/
theorem Keeps.deleteFile (keeps : fs.Keeps store) (plain : Plain name) :
    ∃ after, fs.deleteFile name = .ok ((store name).isSome, after) ∧
      after.Keeps (Function.update store name none) := by
  rcases keeps.findFile plain with ⟨none, -, absent⟩ |
    ⟨file, slot, stored, small, names, holds, found, lookup⟩
  · refine ⟨fs, ?_, ?_⟩
    · rw [FileSystem.deleteFile, absent, none]
      rfl
    · rw [← none, Function.update_eq_self]
      exact keeps
  · obtain ⟨told, last, deleted, tidy⟩ := keeps.tidy.deleteFile plain
    obtain ⟨clusters, links, outside⟩ := keeps.chain small holds
    have found' := found
    rw [← keeps.here] at found'
    obtain ⟨after, removed, becomes⟩ :=
      removeEntry_valid keeps.tidy.sound keeps.tidy.single plain.valid found' links
    have done : fs.deleteFile name = .ok (true, after) := by
      rw [FileSystem.deleteFile, lookup, Run.ok_bind]
      dsimp only
      rw [holds.file]
      exact removed
    have tidy' : after.Tidy fun cluster => cluster = rootCluster := by
      rw [done] at deleted
      cases deleted
      exact tidy
    have edits := keeps.tidy.editsSlot_marked becomes
    rw [keeps.here] at edits becomes
    have free : freeByte (Function.update (fs.content rootCluster) (slotSize * slot) 0xE5
        (slotSize * slot)) = true := by
      rw [Function.update_self]
      decide
    have noName (other : Name) : ¬ SlotNames (Function.update (fs.content rootCluster) (slotSize * slot)
        0xE5) other (slotSize * slot) := not_slotNames_of_free free
    refine ⟨after, by rw [done, stored]; rfl, keeps.edited small ⟨edits, Or.inr ⟨_, holds.leads, links⟩,
      fun cluster valid apart _ => ?_, fun cluster valid _ _ away => ?_⟩ tidy'
      (keeps.distinct.free slot) ?_ ?_ ?_ ?_ ?_⟩
    · rw [becomes.fat cluster valid.2, if_neg apart]
    · rw [becomes.content cluster valid, Function.update_of_ne away]
    · intro other file' stored'
      by_cases same : other = name
      · rw [same, Function.update_self] at stored'
        cases stored'
      · rw [Function.update_of_ne same] at stored'
        exact (keeps.present other file' stored').1
    · intro other was _
      rw [Function.update_of_ne]
      rintro rfl
      exact was names
    · exact fun other _ now => absurd now (noName other)
    · exact fun other _ now => absurd now (noName other)
    · intro other was _
      rw [(slotNames_iff names other).mp was, Function.update_self]

/-- A file under a new name. -/
theorem Keeps.renamedEntry (keeps : fs.Keeps store) {newName : Name} (plain : Plain newName)
    {file : StoredFile} {slot : Nat} (small : slot < 16)
    (names : SlotNames (fs.content rootCluster) name (slotSize * slot)) (holds : fs.HoldsFile slot file)
    (stored : store name = some file) (fresh : store newName = none) :
    ∃ after, fs.editEntry rootCluster name (fs.renamed newName) = .ok (true, after) ∧
      after.Keeps (Function.update (Function.update store name none) newName (some file)) := by
  have found := keeps.distinct.findName_eq small names
  obtain ⟨data, edited, change, bytes⟩ :=
    renamed_eq keeps.tidy.sound.layout.sector small plain.short (fs.content rootCluster)
  have head := slotHead_renamed plain holds.leads bytes
  have named := names.renamed plain bytes
  have behind : ∀ byte, 11 ≤ byte → data (slotSize * slot + byte) =
      fs.content rootCluster (slotSize * slot + byte) :=
    fun byte late => (bytes byte).trans (if_neg (Nat.not_lt.mpr late))
  have cluster : entryCluster data (slotSize * slot) =
      entryCluster (fs.content rootCluster) (slotSize * slot) := by
    simp only [entryCluster, halfAt, Nat.add_assoc, behind 26 (by decide), behind (26 + 1) (by decide)]
  have size : entrySize data (slotSize * slot) =
      entrySize (fs.content rootCluster) (slotSize * slot) := by
    simp only [entrySize, wordAt, halfAt, Nat.add_assoc, behind 28 (by decide),
      behind (28 + 1) (by decide), behind (28 + 2) (by decide), behind (28 + (2 + 1)) (by decide)]
  obtain ⟨after, written, becomes⟩ :=
    keeps.root.editEntry keeps.tidy.sound small found edited change
  have edits : fs.EditsSlot (fun cluster => cluster = rootCluster) rootCluster slot data after :=
    becomes.editsSlot change keeps.root.valid fun _ inside => (keeps.tidy.separated.used inside).1
  have tidy' : after.Tidy fun cluster => cluster = rootCluster := by
    have found' := found
    rw [← keeps.here] at found' edited change
    obtain ⟨last, written', tidy⟩ := keeps.tidy.editEntry (fs.renamed newName) small found' edited change
      (head.trans (by rw [keeps.here]; exact holds.leads.symm)) (ShortSlot.of_slotHead head)
    rw [keeps.here, written] at written'
    cases written'
    exact tidy
  obtain ⟨distinct, -, -⟩ := keeps.distinct.rename small names plain.short
    (fun member => (plain.storable.byte_ne member).1 rfl) change bytes
    (by rw [plain.rdropWhile]; exact Or.inr (keeps.absent newName plain fresh))
  have here := edits.here
  refine ⟨after, written, keeps.edited small ⟨edits, Or.inl rfl, fun other inside _ _ =>
    becomes.fat other inside.2, fun other inside _ _ away => ?_⟩ tidy' distinct ?_ ?_ ?_ ?_ ?_⟩
  · rw [becomes.content other inside, Function.update_of_ne away]
  · intro other file' stored'
    by_cases same : other = newName
    · exact same ▸ plain
    · rw [Function.update_of_ne same] at stored'
      by_cases old : other = name
      · rw [old, Function.update_self] at stored'
        cases stored'
      · rw [Function.update_of_ne old] at stored'
        exact (keeps.present other file' stored').1
  · intro other was now
    rw [Function.update_of_ne, Function.update_of_ne]
    · rintro rfl
      exact was names
    · rintro rfl
      exact now named
  · intro other file' now stored'
    obtain rfl := (slotNames_iff named other).mp now
    rw [Function.update_self] at stored'
    cases stored'
    refine ⟨by rw [here, head, cluster], by rw [here]; exact (behind 11 (by decide)).trans holds.attributes,
      by rw [here, size]; exact holds.size, fun contents known => ?_⟩
    obtain ⟨clusters, links, held⟩ := holds.contents contents known
    rw [here, cluster]
    have owns : fs.Owns (fun cluster => cluster = rootCluster) (.file rootCluster slot)
      (entryCluster (fs.content rootCluster) (slotSize * slot)) := ⟨rfl, small, holds.leads⟩
    refine ⟨clusters, becomes.same.links links fun other member =>
      becomes.fat other (links.valid other member).2,
      held.kept keeps.tidy.sound becomes.same fun other member => ?_⟩
    rw [becomes.content other (links.valid other member), Function.update_of_ne]
    rintro rfl
    exact keeps.tidy.separated.directory_outside owns links rfl member
  · intro other _ now
    obtain rfl := (slotNames_iff named other).mp now
    rw [Function.update_self]
    simp
  · intro other was now
    obtain rfl := (slotNames_iff names other).mp was
    rw [Function.update_of_ne, Function.update_self]
    rintro rfl
    exact now named

/-- Renaming moves a file of the map to a name that is not taken. -/
theorem Keeps.renameFile (keeps : fs.Keeps store) (plain : Plain name) {newName : Name}
    (plain' : Plain newName) :
    (∃ file after, store name = some file ∧ store newName = none ∧
      fs.renameFile name newName = .ok (true, after) ∧
      after.Keeps (Function.update (Function.update store name none) newName (some file))) ∨
    (store name = none ∨ store newName ≠ none) ∧ fs.renameFile name newName = .ok (false, fs) := by
  have accepted : ¬ (!validateFileName newName) = true := by simp [plain'.valid]
  rw [FileSystem.renameFile, if_neg accepted]
  rcases keeps.findFile plain with ⟨none, -, absent⟩ |
    ⟨file, slot, stored, small, names, holds, found, lookup⟩
  · rw [absent]
    exact Or.inr ⟨Or.inl none, rfl⟩
  · rw [lookup, Run.ok_bind]
    dsimp only
    rw [parentOf_of_valid plain.valid, Run.ok_bind]
    dsimp only
    rw [renameTarget]
    rcases keeps.findFile plain' with ⟨fresh, -, absent⟩ | ⟨file', slot', stored', -, -, holds', -, lookup'⟩
    · rw [absent, Run.ok_bind]
      dsimp only
      rw [parentOf_of_valid plain'.valid, Run.ok_bind]
      dsimp only
      have different : ¬ (fs.currentDirectoryCluster = fs.currentDirectoryCluster ∧ name = newName) := by
        rintro ⟨-, rfl⟩
        rw [stored] at fresh
        cases fresh
      rw [if_neg different, if_pos rfl, keeps.here]
      obtain ⟨after, written, keeps'⟩ := keeps.renamedEntry plain' small names holds stored fresh
      exact Or.inl ⟨file, after, stored, fresh, written, keeps'⟩
    · -- The name is that of a file, and nothing is done.
      rw [lookup', Run.ok_bind]
      dsimp only
      rw [holds'.file]
      exact Or.inr ⟨Or.inr (by rw [stored']; simp), rfl⟩

end FileSystem

end Pocky
