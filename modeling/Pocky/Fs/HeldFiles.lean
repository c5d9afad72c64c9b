import Pocky.Fs.UniqueNames

/-! The files of the root directory as a map from names to contents, and which edits keep it. -/

namespace Pocky

/-- A file as its users see it. -/
structure StoredFile where
  /-- The attribute byte. -/
  attributes : UInt8
  /-- How many bytes it has. -/
  size : Nat
  /-- The bytes, unless a write has run out of room. -/
  contents : Option Buffer

/-- The files under their names. -/
abbrev FileStore := Name → Option StoredFile

/-- A name in a slot that is the only one with it is found there. -/
theorem Distinct.findName_eq {data : Buffer} (distinct : Distinct data) {name : Name} {slot : Nat}
    (small : slot < 16) (names : SlotNames data name (slotSize * slot)) :
    findName data name 16 0 = some (slotSize * slot) := by
  cases found : findName data name 16 0 with
  | none => exact absurd names (distinct.absent found small)
  | some entry =>
    obtain ⟨other, little, place, names', -⟩ := findName_eq_some_iff.mp found
    rw [Nat.zero_add] at place
    subst place
    rw [distinct.once slot small other little name names names']

namespace FileSystem

/-- A slot of the root holds a file. -/
structure HoldsFile (fs : FileSystem) (slot : Nat) (file : StoredFile) : Prop where
  /-- It is no directory. -/
  leads : slotHead (fs.content rootCluster) slot =
    some ⟨entryCluster (fs.content rootCluster) (slotSize * slot), false⟩
  /-- It has the attribute byte. -/
  attributes : entryAttributes (fs.content rootCluster) (slotSize * slot) = file.attributes
  /-- It has the size. -/
  size : entrySize (fs.content rootCluster) (slotSize * slot) = file.size
  /-- It leads to the bytes. -/
  contents : ∀ data, file.contents = some data → ∃ clusters,
    fs.Links (entryCluster (fs.content rootCluster) (slotSize * slot)) clusters ∧
      fs.HoldsData data clusters file.size

/-- A volume whose root directory holds the files of a map, and nothing else but dot entries. -/
structure Keeps (fs : FileSystem) (store : FileStore) : Prop where
  /-- Nothing is linked twice. -/
  tidy : fs.Tidy fun cluster => cluster = rootCluster
  /-- Names are different. -/
  distinct : Distinct (fs.content rootCluster)
  /-- The current directory is the root by its path too. -/
  path : fs.currentPath = [slash]
  /-- What the map has is in a slot. -/
  present : ∀ name file, store name = some file → Plain name ∧ ∃ slot < 16,
    SlotNames (fs.content rootCluster) name (slotSize * slot) ∧ fs.HoldsFile slot file
  /-- What it has not is in none. -/
  absent : ∀ name, Plain name → store name = none → ∀ slot < 16,
    ¬ SlotNames (fs.content rootCluster) name (slotSize * slot)

/-- A state in which one slot of the root and the chain it leads to have been changed. -/
structure EditsFile (fs : FileSystem) (slot : Nat) (old : List Nat) (data : Buffer)
    (after : FileSystem) : Prop where
  /-- The slot has been edited. -/
  edits : fs.EditsSlot (fun cluster => cluster = rootCluster) rootCluster slot data after
  /-- The chain was none, or that of the slot. -/
  was : old = [] ∨ ∃ start, slotHead (fs.content rootCluster) slot = some ⟨start, false⟩ ∧
    fs.Links start old
  /-- Clusters in use outside the chain keep their entries. -/
  fat : ∀ cluster, fs.InVolume cluster → cluster ∉ old → fs.fatEntry cluster ≠ 0 →
    after.fatEntry cluster = fs.fatEntry cluster
  /-- They keep their bytes too, but for the root. -/
  content : ∀ cluster, fs.InVolume cluster → cluster ∉ old → fs.fatEntry cluster ≠ 0 →
    cluster ≠ rootCluster → after.content cluster = fs.content cluster

section Edits

variable {fs after : FileSystem} {store store' : FileStore} {slot : Nat} {old : List Nat}
  {data : Buffer}

/-- The current directory is the root. -/
theorem Keeps.here (keeps : fs.Keeps store) : fs.currentDirectoryCluster = rootCluster :=
  keeps.tidy.current

/-- The root has one cluster. -/
theorem Keeps.root (keeps : fs.Keeps store) : fs.Single rootCluster :=
  keeps.tidy.separated.single rootCluster rfl

/-- The data of a sound volume is that of its clusters. -/
theorem Sound.sectorData (sound : fs.Sound) (cluster : Nat) {index : Nat}
    (inside : index < fs.bpb.sectorsPerCluster) : fs.sectorData cluster index = fs.content cluster := by
  rw [sound.one] at inside
  obtain rfl : index = 0 := by omega
  rfl

/-- Data stays in clusters that keep their bytes. -/
theorem HoldsData.kept {bytes : Buffer} {clusters : List Nat} {size : Nat} (sound : fs.Sound)
    (holds : fs.HoldsData bytes clusters size) (same : SameVolume fs after)
    (contents : ∀ cluster ∈ clusters, after.content cluster = fs.content cluster) :
    after.HoldsData bytes clusters size := by
  refine holds.congr sound.layout same fun cluster member index inside => ?_
  rw [sound.sectorData cluster inside, (sound.same same).sectorData cluster
    (by rw [same.sectorsPerCluster]; exact inside), contents cluster member]

/-- A file is still held when its slot and its chain have stayed. -/
theorem HoldsFile.kept {place : Nat} {file : StoredFile} (holds : fs.HoldsFile place file)
    (sound : fs.Sound) (same : SameVolume fs after)
    (bytes : ∀ byte < slotSize, after.content rootCluster (slotSize * place + byte) =
      fs.content rootCluster (slotSize * place + byte))
    (chain : ∀ clusters, fs.Links (entryCluster (fs.content rootCluster) (slotSize * place)) clusters →
      ∀ cluster ∈ clusters, after.fatEntry cluster = fs.fatEntry cluster ∧
        after.content cluster = fs.content cluster) : after.HoldsFile place file := by
  have cluster : entryCluster (after.content rootCluster) (slotSize * place) =
      entryCluster (fs.content rootCluster) (slotSize * place) := by
    simp only [entryCluster, halfAt, Nat.add_assoc, bytes 26 (by decide), bytes (26 + 1) (by decide)]
  have size : entrySize (after.content rootCluster) (slotSize * place) =
      entrySize (fs.content rootCluster) (slotSize * place) := by
    simp only [entrySize, wordAt, halfAt, Nat.add_assoc, bytes 28 (by decide),
      bytes (28 + 1) (by decide), bytes (28 + 2) (by decide), bytes (28 + (2 + 1)) (by decide)]
  have head := slotHead_congr (fun byte little => bytes byte (Nat.lt_trans little (by decide)))
  refine ⟨by rw [head, cluster]; exact holds.leads, (bytes 11 (by decide)).trans holds.attributes,
    size.trans holds.size, fun contents stored => ?_⟩
  obtain ⟨clusters, links, held⟩ := holds.contents contents stored
  rw [cluster]
  exact ⟨clusters, same.links links fun cluster member => (chain clusters links cluster member).1,
    held.kept sound same fun cluster member => (chain clusters links cluster member).2⟩

/-- The file of another slot is still held. -/
theorem EditsFile.other (edits : fs.EditsFile slot old data after) (keeps : fs.Keeps store)
    {place : Nat} (small : place < 16) (small' : slot < 16) (different : place ≠ slot)
    {file : StoredFile} (holds : fs.HoldsFile place file) : after.HoldsFile place file := by
  refine holds.kept keeps.tidy.sound edits.edits.same (fun byte inside => ?_)
    fun clusters links cluster member => ?_
  · rw [edits.edits.here]
    exact edits.edits.change.bytes different inside
  · have owns : fs.Owns (fun cluster => cluster = rootCluster) (.file rootCluster place)
        (entryCluster (fs.content rootCluster) (slotSize * place)) := ⟨rfl, small, holds.leads⟩
    -- The cluster is in use, and neither the root's nor one of the slot edited.
    have used := links.used member
    have notRoot : cluster ≠ rootCluster := by
      rintro rfl
      exact keeps.tidy.separated.directory_outside owns links rfl member
    have apart : cluster ∉ old := by
      rcases edits.was with rfl | ⟨start, leads, chain⟩
      · exact List.not_mem_nil
      · have theirs : fs.Owns (fun cluster => cluster = rootCluster) (.file rootCluster slot) start :=
          ⟨rfl, small', leads⟩
        exact keeps.tidy.separated.owned.disjoint _ _ _ _ _ _
          (fun equal => different (Owner.file.inj equal).2) owns theirs links chain cluster member
    exact ⟨edits.fat cluster (links.valid cluster member) apart used,
      edits.content cluster (links.valid cluster member) apart used notRoot⟩

/-- A map is kept when neither the table nor a cluster changes. -/
theorem Keeps.unchanged (keeps : fs.Keeps store) (becomes : fs.Becomes after fs.fatEntry fs.content) :
    after.Keeps store := by
  have root := becomes.content rootCluster keeps.root.valid
  refine ⟨keeps.tidy.unchanged becomes fun _ _ => rfl, by rw [root]; exact keeps.distinct,
    by rw [becomes.same.fields]; exact keeps.path, fun name file stored => ?_,
    fun name plain none slot small => by rw [root]; exact keeps.absent name plain none slot small⟩
  obtain ⟨plain, slot, small, names, holds⟩ := keeps.present name file stored
  refine ⟨plain, slot, small, by rw [root]; exact names, holds.kept keeps.tidy.sound becomes.same
    (fun byte _ => congrFun root _) fun clusters links cluster member => ?_⟩
  have valid := links.valid cluster member
  exact ⟨becomes.fat cluster valid.2, becomes.content cluster valid⟩

/-- An edit of one slot changes the map at the names that the slot had and has. -/
theorem Keeps.edited (keeps : fs.Keeps store) (small : slot < 16)
    (edits : fs.EditsFile slot old data after)
    (tidy : after.Tidy fun cluster => cluster = rootCluster) (distinct : Distinct data)
    (plain : ∀ name file, store' name = some file → Plain name)
    (others : ∀ name, ¬ SlotNames (fs.content rootCluster) name (slotSize * slot) →
      ¬ SlotNames data name (slotSize * slot) → store' name = store name)
    (here : ∀ name file, SlotNames data name (slotSize * slot) → store' name = some file →
      after.HoldsFile slot file)
    (filled : ∀ name, Plain name → SlotNames data name (slotSize * slot) → store' name ≠ none)
    (left : ∀ name, SlotNames (fs.content rootCluster) name (slotSize * slot) →
      ¬ SlotNames data name (slotSize * slot) → store' name = none) : after.Keeps store' := by
  have content := edits.edits.here
  have elsewhere : ∀ name place, place ≠ slot →
      (SlotNames (after.content rootCluster) name (slotSize * place) ↔
        SlotNames (fs.content rootCluster) name (slotSize * place)) := by
    intro name place different
    rw [content]
    exact slotNames_congr fun byte inside => edits.edits.change.bytes different inside
  refine ⟨tidy, by rw [content]; exact distinct, by rw [edits.edits.same.fields]; exact keeps.path,
    fun name file stored => ⟨plain name file stored, ?_⟩, fun name ok none place little names => ?_⟩
  · by_cases named : SlotNames data name (slotSize * slot)
    · exact ⟨slot, small, by rw [content]; exact named, here name file named stored⟩
    · by_cases before : SlotNames (fs.content rootCluster) name (slotSize * slot)
      · rw [left name before named] at stored
        cases stored
      · -- The slot edited is not that of this name.
        rw [others name before named] at stored
        obtain ⟨-, place, little, names, holds⟩ := keeps.present name file stored
        have different : place ≠ slot := by
          rintro rfl
          exact before names
        exact ⟨place, little, (elsewhere name place different).mpr names,
          edits.other keeps little small different holds⟩
  · by_cases same : place = slot
    · subst same
      rw [content] at names
      exact filled name ok names none
    · have names' := (elsewhere name place same).mp names
      -- Another slot has the name, so the slot edited neither had nor has it.
      have before : ¬ SlotNames (fs.content rootCluster) name (slotSize * slot) := fun before =>
        same (keeps.distinct.once place little slot small name names' before)
      have after' : ¬ SlotNames data name (slotSize * slot) := by
        intro now
        rw [content] at names
        exact same (distinct.once place little slot small name names now)
      rw [others name before after'] at none
      exact keeps.absent name ok none place little names'

end Edits

end FileSystem

end Pocky
