import Pocky.Fs.PathLaws
import Pocky.Fs.Tree

/-! What the operations on plain names do to a tree of directories and files. -/

namespace Pocky

/-- A slot that is in use and not a dot entry. -/
def LiveSlot (data : Buffer) (slot : Nat) : Prop :=
  freeByte (data (slotSize * slot)) = false ∧ entryName data (slotSize * slot) ≠ dot ∧
    entryName data (slotSize * slot) ≠ dotDot

/-- A slot is not in use for a part of a long name. -/
def ShortSlot (data : Buffer) (slot : Nat) : Prop :=
  LiveSlot data slot → entryAttributes data (slotSize * slot) ≠ 0x0F

/-- Whether a slot is part of a long name depends on its first twenty-eight bytes. -/
theorem ShortSlot.congr {data data' : Buffer} {slot : Nat} (short : ShortSlot data slot)
    (same : ∀ byte < 28, data' (slotSize * slot + byte) = data (slotSize * slot + byte)) :
    ShortSlot data' slot := by
  -- The first byte, the name and the attributes are among them.
  have first := same 0 (by decide)
  rw [Nat.add_zero] at first
  rintro ⟨live, notDot, notDotDot⟩
  rw [entryName_congr fun index small => same index (by omega)] at notDot notDotDot
  rw [entryAttributes, same 11 (by decide)]
  exact short ⟨first ▸ live, notDot, notDotDot⟩

/-- A slot that leads somewhere is no part of a long name. -/
theorem ShortSlot.of_slotHead {data : Buffer} {slot : Nat} {head : Head}
    (leads : slotHead data slot = some head) : ShortSlot data slot := by
  intro _ long
  rw [slotHead, if_pos (Or.inr (Or.inl long))] at leads
  cases leads

/-- A free slot is no part of a long name. -/
theorem ShortSlot.of_free {data : Buffer} {slot : Nat}
    (free : freeByte (data (slotSize * slot)) = true) : ShortSlot data slot := by
  rintro ⟨live, -⟩
  rw [free] at live
  cases live

/-- A live slot that is no part of a long name leads to its start cluster. -/
theorem LiveSlot.slotHead {data : Buffer} {slot : Nat} (live : LiveSlot data slot)
    (short : ShortSlot data slot) : slotHead data slot =
      some ⟨entryCluster data (slotSize * slot),
        isDirectory (entryAttributes data (slotSize * slot))⟩ := by
  rw [Pocky.slotHead, if_neg]
  rintro (free | long | isDot | isDotDot)
  · rw [live.1] at free
    cases free
  · exact short live long
  · exact live.2.1 isDot
  · exact live.2.2 isDotDot

/-- A slot that is not live leads nowhere. -/
theorem slotHead_of_not_live {data : Buffer} {slot : Nat} (dead : ¬ LiveSlot data slot) :
    slotHead data slot = none := by
  rw [slotHead, if_pos]
  by_contra other
  simp only [not_or, Bool.not_eq_true] at other
  exact dead ⟨other.1, other.2.2.1, other.2.2.2⟩

/-- A new directory has no long names. -/
theorem ShortSlot.of_dotSector (pad : UInt8) (cluster parent slot : Nat) :
    ShortSlot (FileSystem.dotSector pad cluster parent) slot := by
  -- The first two slots have the attributes of directories, and the others are free.
  match slot with
  | 0 => simp [ShortSlot, entryAttributes, FileSystem.dotSector, FileSystem.dotEntry, slotSize]
  | 1 => simp [ShortSlot, entryAttributes, FileSystem.dotSector, FileSystem.dotEntry, slotSize]
  | slot + 2 =>
    apply ShortSlot.of_free
    rw [dotSector_behind]
    decide

/-- A new directory's bytes lie inside its sector. -/
theorem cutBlock_dotSector (pad : UInt8) (cluster parent : Nat) :
    cutBlock (FileSystem.dotSector pad cluster parent) =
      FileSystem.dotSector pad cluster parent := by
  funext index
  rw [cutBlock]
  split
  · rfl
  · rename_i outside
    rw [FileSystem.dotSector, if_neg (by omega), if_neg (by omega)]

namespace FileSystem

section Creating

variable {fs : FileSystem} {name : Name}

/-- Names of up to eleven characters are not cut. -/
theorem shortName_of_short (short : name.length ≤ 11) : shortName name = name :=
  List.take_of_length_le short

/-- A directory of one cluster keeps its cluster when a free one is taken. -/
theorem Single.allocated {directory taken : Nat} {after : FileSystem} (single : fs.Single directory)
    (free : fs.fatEntry taken = 0)
    (becomes : fs.Becomes after (Function.update fs.fatEntry taken endMark) fs.content) :
    after.Single directory := by
  refine ⟨becomes.same.inVolume.mpr single.valid, ?_⟩
  rw [becomes.fat directory single.valid.2, Function.update_of_ne (single.ne_free free)]
  exact single.last

/-- What a new entry needs: an absent name, a free cluster and a free slot. -/
structure Enterable (fs : FileSystem) (name : Name) : Prop where
  /-- The name is not there. -/
  absent : findName (fs.content fs.currentDirectoryCluster) name 16 0 = none
  /-- A cluster is free. -/
  cluster : ∃ cluster, fs.InVolume cluster ∧ fs.fatEntry cluster = 0
  /-- A slot is free. -/
  slot : findFree (fs.content fs.currentDirectoryCluster) 16 0 ≠ none

/-- A slot of the current directory has been filled with an entry for a free cluster. -/
structure Enters (fs : FileSystem) (name : Name) (attributes : UInt8) (slot cluster : Nat)
    (after : FileSystem) : Prop where
  /-- The name was not there. -/
  absent : findName (fs.content fs.currentDirectoryCluster) name 16 0 = none
  /-- The slot is the first free one. -/
  first : findFree (fs.content fs.currentDirectoryCluster) 16 0 = some (slotSize * slot)
  /-- It is a slot of the sector. -/
  small : slot < 16
  /-- The cluster lies in the volume. -/
  valid : fs.InVolume cluster
  /-- It was free. -/
  free : fs.fatEntry cluster = 0
  /-- The cluster ends a chain, and the slot has the bytes of the entry. -/
  becomes : fs.Becomes after (Function.update fs.fatEntry cluster endMark)
    (Function.update fs.content fs.currentDirectoryCluster
      (putBytes (fs.content fs.currentDirectoryCluster) (slotSize * slot) slotSize
        (entryBytes name attributes cluster 0)))

/-- Entering a short name changes nothing, or fills the first free slot. -/
theorem createEntry_fitting (sound : fs.Sound) (single : fs.Single fs.currentDirectoryCluster)
    (valid : validateFileName name = true) (fits : name.length ≤ 11) (attributes : UInt8) :
    (¬ fs.Enterable name ∧ ∃ after, fs.createEntry name attributes = .ok (none, after) ∧
      fs.Becomes after fs.fatEntry fs.content) ∨
    ∃ slot cluster after, fs.createEntry name attributes =
        .ok (some (fs.currentDirectoryCluster, cluster), after) ∧
      fs.Enters name attributes slot cluster after := by
  have short : ¬ 11 < name.length := Nat.not_lt.mpr fits
  have accepted : ¬ (!validateFileName name) = true := by simp [valid]
  have nonempty : name ≠ [] := by
    rintro rfl
    cases valid
  rw [createEntry, if_neg accepted, startOf_of_valid valid]
  dsimp only
  rw [if_neg nonempty, single.findFileInDirectory sound, Run.ok_bind]
  cases found : findName (fs.content fs.currentDirectoryCluster) name 16 0 with
  | some offset =>
    refine Or.inl ⟨fun enterable => ?_, fs, rfl, Becomes.refl fs⟩
    rw [enterable.absent] at found
    cases found
  | none =>
    simp only [Option.map_none]
    rcases sound.allocateCluster with ⟨none, used⟩ | ⟨taken, middle, some, valid, free, becomes⟩
    · -- No cluster is free.
      rw [none]
      refine Or.inl ⟨fun enterable => ?_, fs, rfl, Becomes.refl fs⟩
      obtain ⟨cluster, inside, unused⟩ := enterable.cluster
      exact used cluster inside unused
    · have sound' := sound.same becomes.same
      have place : middle.content fs.currentDirectoryCluster =
          fs.content fs.currentDirectoryCluster := becomes.content _ single.valid
      have nonzero : taken ≠ 0 := by
        have low := valid.1
        omega
      rw [some]
      dsimp only
      rw [if_neg nonzero, if_neg short, shortName_of_short fits]
      simp only [Run.pure_eq, Run.ok_bind, Bool.not_true, Bool.false_eq_true, if_false]
      rcases (single.allocated free becomes).writeDirectoryEntry sound' name attributes taken 0 with
        ⟨full, refused⟩ | ⟨slot, small, after, first, entered, filled⟩
      · -- No slot is free, and the cluster is given back.
        rw [place] at full
        refine Or.inl ⟨fun enterable => enterable.slot full, middle.freeCluster taken, ?_, ?_⟩
        · rw [refused]
          rfl
        · have valid' : middle.InVolume taken := becomes.same.inVolume.mpr valid
          refine Becomes.congr (becomes.trans (sound'.freeCluster valid')) ?_ ?_
          · intro cluster inside
            by_cases equal : cluster = taken
            · rw [equal, Function.update_self, free]
            · rw [Function.update_of_ne equal, becomes.fat cluster inside,
                Function.update_of_ne equal]
          · intro cluster inside
            exact (becomes.content cluster inside).symm
      · rw [place] at first
        refine Or.inr ⟨slot, taken, after, ?_, found, first, small, valid, free, ?_⟩
        · rw [entered]
          rfl
        · refine Becomes.congr (becomes.trans filled) ?_ ?_
          · intro cluster inside
            exact (becomes.fat cluster inside).symm
          · intro cluster inside
            rw [Function.update_apply, Function.update_apply, place, becomes.content cluster inside]

end Creating

/-- One slot of one directory of a tree has changed. -/
structure EditsSlot (fs : FileSystem) (tree : Nat → Prop) (directory slot : Nat) (data : Buffer)
    (after : FileSystem) : Prop where
  /-- Only the disk has changed. -/
  same : SameVolume fs after
  /-- The bytes of the other slots have stayed. -/
  change : ChangesSlot slot (fs.content directory) data
  /-- The directory has the new bytes. -/
  here : after.content directory = data
  /-- The other directories have their bytes. -/
  elsewhere : ∀ other, tree other → other ≠ directory → after.content other = fs.content other

/-- A tree in which nothing is linked twice, with the current directory in it and no long names. -/
structure Tidy (fs : FileSystem) (tree : Nat → Prop) : Prop where
  /-- The volume is sound. -/
  sound : fs.Sound
  /-- Nothing is linked twice. -/
  separated : fs.Separated tree
  /-- The current directory is in the tree. -/
  current : tree fs.currentDirectoryCluster
  /-- No slot is part of a long name. -/
  short : ∀ directory slot, tree directory → slot < 16 →
    ShortSlot (fs.content directory) slot

section Editing

variable {fs after : FileSystem} {tree : Nat → Prop} {directory slot : Nat} {data : Buffer}

/-- Writing a sector that differs in one slot is an edit of that slot. -/
theorem Becomes.editsSlot {fat : Nat → Nat}
    (becomes : fs.Becomes after fat (Function.update fs.content directory data))
    (change : ChangesSlot slot (fs.content directory) data) (valid : fs.InVolume directory)
    (inside : ∀ other, tree other → fs.InVolume other) :
    fs.EditsSlot tree directory slot data after := by
  refine ⟨becomes.same, change, ?_, ?_⟩
  · rw [becomes.content directory valid, Function.update_self]
  · intro other member different
    rw [becomes.content other (inside other member), Function.update_of_ne different]

/-- Writing a cluster that is none of the directories keeps an edit. -/
theorem EditsSlot.write {middle : FileSystem} {cluster : Nat} {bytes : Buffer} {fat : Nat → Nat}
    (edits : fs.EditsSlot tree directory slot data middle)
    (becomes : middle.Becomes after fat (Function.update middle.content cluster bytes))
    (inside : ∀ other, tree other → middle.InVolume other) (member : tree directory)
    (outside : ∀ other, tree other → other ≠ cluster) :
    fs.EditsSlot tree directory slot data after := by
  have kept : ∀ other, tree other → after.content other = middle.content other := by
    intro other within
    rw [becomes.content other (inside other within), Function.update_of_ne (outside other within)]
  refine ⟨edits.same.trans becomes.same, edits.change, (kept directory member).trans edits.here, ?_⟩
  intro other within different
  exact (kept other within).trans (edits.elsewhere other within different)

/-- The other slots lead where they led. -/
theorem EditsSlot.heads (edits : fs.EditsSlot tree directory slot data after) :
    ∀ other slot', tree other → slot' < 16 → ¬ (other = directory ∧ slot' = slot) →
      slotHead (after.content other) slot' = slotHead (fs.content other) slot' := by
  intro other slot' inside _ different
  by_cases equal : other = directory
  · subst equal
    rw [edits.here]
    exact edits.change.slotHead fun same => different ⟨rfl, same⟩
  · rw [edits.elsewhere other inside equal]

/-- There still are no long names. -/
theorem EditsSlot.short (edits : fs.EditsSlot tree directory slot data after)
    (short : ∀ directory slot, tree directory → slot < 16 →
      ShortSlot (fs.content directory) slot)
    (kind : ShortSlot data slot) :
    ∀ directory slot, tree directory → slot < 16 →
      ShortSlot (after.content directory) slot := by
  intro other slot' inside small
  by_cases equal : other = directory
  · subst equal
    rw [edits.here]
    by_cases same : slot' = slot
    · rw [same]
      exact kind
    · exact (short other slot' inside small).congr fun _ little =>
        edits.change.bytes same (Nat.lt_trans little (by decide))
  · rw [edits.elsewhere other inside equal]
    exact short other slot' inside small

/-- An edit of a slot keeps a tree tidy if it keeps it separated. -/
theorem Tidy.edit (tidy : fs.Tidy tree) (edits : fs.EditsSlot tree directory slot data after)
    (separated : after.Separated tree) (kind : ShortSlot data slot) : after.Tidy tree := by
  refine ⟨tidy.sound.same edits.same, separated, ?_, edits.short tidy.short kind⟩
  rw [edits.same.fields]
  exact tidy.current

/-- The current directory has one cluster. -/
theorem Tidy.single (tidy : fs.Tidy tree) : fs.Single fs.currentDirectoryCluster :=
  tidy.separated.single _ tidy.current

/-- A tree stays tidy when neither the table nor a directory changes. -/
theorem Tidy.unchanged (tidy : fs.Tidy tree) {content : Nat → Buffer}
    (becomes : fs.Becomes after fs.fatEntry content)
    (kept : ∀ directory, tree directory → content directory = fs.content directory) :
    after.Tidy tree := by
  have same : ∀ directory, tree directory → after.content directory = fs.content directory := by
    intro directory inside
    rw [becomes.content directory (tidy.separated.used inside).1]
    exact kept directory inside
  refine ⟨tidy.sound.same becomes.same, tidy.separated.congr becomes ?_, ?_, ?_⟩
  · intro directory slot inside _
    rw [same directory inside]
  · rw [becomes.same.fields]
    exact tidy.current
  · intro directory slot inside small
    rw [same directory inside]
    exact tidy.short directory slot inside small

/-- A new entry is an edit of the current directory. -/
theorem Enters.editsSlot {name : Name} {attributes : UInt8} {cluster : Nat}
    (enters : fs.Enters name attributes slot cluster after) (tidy : fs.Tidy tree) :
    fs.EditsSlot tree fs.currentDirectoryCluster slot
      (putBytes (fs.content fs.currentDirectoryCluster) (slotSize * slot) slotSize
        (entryBytes name attributes cluster 0)) after := by
  have change := changesSlot_putBytes slot 0 slotSize (fs.content fs.currentDirectoryCluster)
    (entryBytes name attributes cluster 0) (by decide)
  rw [Nat.add_zero] at change
  exact enters.becomes.editsSlot change tidy.single.valid fun _ inside => (tidy.separated.used inside).1

/-- The new entry leads to its cluster. -/
theorem Enters.slotHead {name : Name} {attributes : UInt8} {cluster : Nat}
    (enters : fs.Enters name attributes slot cluster after) (sound : fs.Sound)
    (single : fs.Single fs.currentDirectoryCluster) (plain : Plain name)
    (kind : attributes ≠ 0x0F) :
    slotHead (after.content fs.currentDirectoryCluster) slot =
      some ⟨cluster, isDirectory attributes⟩ := by
  have few := sound.few
  have inside := enters.valid.2
  rw [enters.becomes.content _ single.valid, Function.update_self]
  exact slotHead_entryBytes plain (by omega) kind fun _ small => putBytes_add _ _ _ small

end Editing

section Operations

variable {fs : FileSystem} {tree : Nat → Prop} {name : Name}

/-- Creating a file with a plain name. -/
theorem Tidy.createFile (tidy : fs.Tidy tree) (plain : Plain name) {attributes : UInt8}
    (kind : attributes ≠ 0x0F) (file : isDirectory attributes = false) :
    ∃ told after, fs.createFile name attributes = .ok (told, after) ∧ after.Tidy tree := by
  rcases createEntry_fitting tidy.sound tidy.single plain.valid plain.short attributes with
    ⟨-, after, returned, becomes⟩ | ⟨slot, cluster, after, returned, enters⟩
  · refine ⟨false, after, ?_, tidy.unchanged becomes fun _ _ => rfl⟩
    rw [FileSystem.createFile, returned]
    rfl
  · refine ⟨true, after, ?_, ?_⟩
    · rw [FileSystem.createFile, returned]
      rfl
    · have leads := enters.slotHead tidy.sound tidy.single plain kind
      have edits := enters.editsSlot tidy
      rw [file] at leads
      refine tidy.edit edits ?_ (edits.here ▸ ShortSlot.of_slotHead leads)
      -- The slot led nowhere, and now leads to the chain of one cluster.
      have single : after.Single cluster := by
        refine ⟨enters.becomes.same.inVolume.mpr enters.valid, ?_⟩
        rw [enters.becomes.fat cluster enters.valid.2, Function.update_self]
      refine tidy.separated.replaceFile tidy.sound.layout enters.becomes.same tidy.current
        [] [cluster] (Or.inl rfl) edits.heads ?_ ?_ ?_ ?_
      · intro other
        rw [leads]
        simp
      · intro other valid _ used
        rw [enters.becomes.fat other valid.2, Function.update_of_ne]
        rintro rfl
        exact used enters.free
      · intro other member
        rw [List.mem_singleton.mp member]
        exact Or.inr enters.free
      · intro start heads
        rw [leads] at heads
        cases heads
        exact single.links

/-- Creating a directory with a plain name. -/
theorem Tidy.createDirectory (tidy : fs.Tidy tree) (plain : Plain name) :
    ∃ told after tree', fs.createDirectory name = .ok (told, after) ∧ after.Tidy tree' := by
  rcases createEntry_fitting tidy.sound tidy.single plain.valid plain.short 0x10 with
    ⟨-, after, returned, becomes⟩ | ⟨slot, cluster, middle, returned, enters⟩
  · refine ⟨false, after, tree, ?_, tidy.unchanged becomes fun _ _ => rfl⟩
    rw [FileSystem.createDirectory, returned]
    rfl
  · have sound := tidy.sound.same enters.becomes.same
    have valid : middle.InVolume cluster := enters.becomes.same.inVolume.mpr enters.valid
    have leads := enters.slotHead tidy.sound tidy.single plain (by decide)
    have outside : ∀ other, tree other → other ≠ cluster :=
      fun other inside => (tidy.separated.single other inside).ne_free enters.free
    obtain ⟨after, written, becomes⟩ :=
      sound.writeContent valid (dotSector 0x00 cluster fs.currentDirectoryCluster)
    have new : after.content cluster = dotSector 0x00 cluster fs.currentDirectoryCluster := by
      rw [becomes.content cluster valid, Function.update_self]
      exact cutBlock_dotSector _ _ _
    have same := enters.becomes.same.trans becomes.same
    have edits := enters.editsSlot tidy
    -- The old directories are as the new entry has left them.
    have edits' := edits.write becomes
      (fun other inside => enters.becomes.same.inVolume.mpr (tidy.separated.used inside).1)
      tidy.current outside
    have here := edits'.here.trans edits.here.symm
    have fat : ∀ other, fs.InVolume other →
        after.fatEntry other = Function.update fs.fatEntry cluster endMark other := by
      intro other inside
      rw [becomes.fat other (enters.becomes.same.inVolume.mpr inside).2,
        enters.becomes.fat other inside.2]
    refine ⟨true, after, fun other => tree other ∨ other = cluster, ?_, ?_, ?_, ?_, ?_⟩
    · rw [FileSystem.createDirectory, returned, Run.ok_bind]
      dsimp only
      rw [sound.clusterSector valid, written]
      rfl
    · exact tidy.sound.same same
    · refine tidy.separated.insertDirectory tidy.sound.layout same tidy.current enters.valid
        enters.free edits'.heads ?_ ?_ ?_ ?_
      · rw [here]
        exact leads
      · intro slot' small
        rw [new]
        exact slotHead_dotSector (Or.inl rfl) _ _ small
      · intro other inside used
        rw [fat other inside, Function.update_of_ne]
        rintro rfl
        exact used enters.free
      · rw [fat cluster enters.valid, Function.update_self]
    · rw [same.fields]
      exact Or.inl tidy.current
    · rintro other slot' (inside | rfl) small
      · refine edits'.short tidy.short ?_ other slot' inside small
        rw [← edits.here]
        exact ShortSlot.of_slotHead leads
      · rw [new]
        exact ShortSlot.of_dotSector _ _ _ _

/-- Removing an accepted name that was found, and a chain. -/
theorem removeEntry_valid (sound : fs.Sound) (single : fs.Single fs.currentDirectoryCluster)
    (valid : validateFileName name = true) {slot cluster : Nat} {clusters : List Nat}
    (found : findName (fs.content fs.currentDirectoryCluster) name 16 0 = some (slotSize * slot))
    (links : fs.Links cluster clusters) :
    ∃ after, fs.removeEntry name cluster = .ok (true, after) ∧
      fs.Becomes after (fun other => if other ∈ clusters then 0 else fs.fatEntry other)
        (Function.update fs.content fs.currentDirectoryCluster
          (Function.update (fs.content fs.currentDirectoryCluster) (slotSize * slot) 0xE5)) := by
  obtain ⟨middle, marks, becomes⟩ := single.markChain sound name
  have same : marked name (fs.content fs.currentDirectoryCluster) =
      Function.update (fs.content fs.currentDirectoryCluster) (slotSize * slot) 0xE5 := by
    simp only [marked, found]
  rw [same] at becomes
  have links' : middle.Links cluster clusters := becomes.same.links links fun other member =>
    becomes.fat other (links.valid other member).2
  obtain ⟨after, freed, becomes'⟩ := (sound.same becomes.same).freeChain links'
  refine ⟨after, ?_, Becomes.congr (becomes.trans becomes') ?_ ?_⟩
  · rw [removeEntry, parentOf_of_valid valid, Run.ok_bind]
    dsimp only
    rw [marks, Run.ok_bind]
    dsimp only
    rw [freed]
    rfl
  · intro other inside
    rw [becomes.fat other inside]
  · intro other inside
    exact (becomes.content other inside).symm

/-- Marking a slot of the current directory is an edit of it. -/
theorem Tidy.editsSlot_marked (tidy : fs.Tidy tree) {slot : Nat} {fat : Nat → Nat}
    {after : FileSystem} (becomes : fs.Becomes after fat
      (Function.update fs.content fs.currentDirectoryCluster
        (Function.update (fs.content fs.currentDirectoryCluster) (slotSize * slot) 0xE5))) :
    fs.EditsSlot tree fs.currentDirectoryCluster slot
      (Function.update (fs.content fs.currentDirectoryCluster) (slotSize * slot) 0xE5) after :=
  becomes.editsSlot (changesSlot_update _ _ _) tidy.single.valid
    fun _ inside => (tidy.separated.used inside).1

/-- What a lookup of a plain name in the current directory returns. -/
theorem Tidy.findFile (tidy : fs.Tidy tree) (plain : Plain name) :
    (findName (fs.content fs.currentDirectoryCluster) name 16 0 = none ∧
      fs.findFile name = .ok none) ∨
    ∃ slot < 16, ∃ found,
      findName (fs.content fs.currentDirectoryCluster) name 16 0 = some (slotSize * slot) ∧
      fs.findFile name = .ok (some found) ∧
      slotHead (fs.content fs.currentDirectoryCluster) slot =
        some ⟨found.cluster, isDirectory found.attributes⟩ := by
  rw [findFile_of_valid plain.valid, tidy.single.findFileInDirectory tidy.sound]
  cases found : findName (fs.content fs.currentDirectoryCluster) name 16 0 with
  | none => exact Or.inl ⟨rfl, rfl⟩
  | some offset =>
    obtain ⟨slot, small, rfl, leads⟩ := findName_slotHead plain found
    exact Or.inr ⟨slot, small, _, rfl, rfl, leads⟩

/-- Deleting a file with a plain name. -/
theorem Tidy.deleteFile (tidy : fs.Tidy tree) (plain : Plain name) :
    ∃ told after, fs.deleteFile name = .ok (told, after) ∧ after.Tidy tree := by
  rcases tidy.findFile plain with ⟨-, absent⟩ | ⟨slot, small, found, place, lookup, leads⟩
  · refine ⟨false, fs, ?_, tidy⟩
    rw [FileSystem.deleteFile, absent]
    rfl
  · rw [FileSystem.deleteFile, lookup, Run.ok_bind]
    dsimp only
    cases kind : isDirectory found.attributes with
    | true => exact ⟨false, fs, rfl, tidy⟩
    | false =>
      rw [kind] at leads
      have owns : fs.Owns tree (.file fs.currentDirectoryCluster slot) found.cluster :=
        ⟨tidy.current, small, leads⟩
      obtain ⟨clusters, links⟩ := tidy.separated.owned.chained _ _ owns
      obtain ⟨after, removed, becomes⟩ :=
        removeEntry_valid tidy.sound tidy.single plain.valid place links
      have edits := tidy.editsSlot_marked becomes
      have gone : slotHead (after.content fs.currentDirectoryCluster) slot = none := by
        rw [edits.here]
        exact slotHead_free (by rw [Function.update_self]; decide)
      refine ⟨true, after, removed, tidy.edit edits ?_ ?_⟩
      · refine tidy.separated.replaceFile tidy.sound.layout edits.same tidy.current clusters []
          (Or.inr ⟨found.cluster, owns, links⟩) edits.heads ?_ ?_ ?_ ?_
        · intro cluster
          rw [gone]
          simp
        · intro cluster valid outside _
          rw [becomes.fat cluster valid.2, if_neg outside]
        · simp
        · intro start heads
          rw [gone] at heads
          cases heads
      · exact ShortSlot.of_free (by rw [Function.update_self]; decide)

/-- Deleting a directory with a plain name. -/
theorem Tidy.deleteDirectory (tidy : fs.Tidy tree) (plain : Plain name) :
    ∃ told after tree', fs.deleteDirectory name = .ok (told, after) ∧ after.Tidy tree' := by
  rcases tidy.findFile plain with ⟨-, absent⟩ | ⟨slot, small, found, place, lookup, leads⟩
  · refine ⟨false, fs, tree, ?_, tidy⟩
    rw [FileSystem.deleteDirectory, absent]
    rfl
  · rw [FileSystem.deleteDirectory, lookup, Run.ok_bind]
    dsimp only
    cases kind : isDirectory found.attributes with
    | false => exact ⟨false, fs, tree, rfl, tidy⟩
    | true =>
      rw [kind] at leads
      obtain ⟨inside, -⟩ := tidy.separated.subdirectory _ _ _ tidy.current small leads
      have single := tidy.separated.single _ inside
      rw [single.isDirectoryEmpty tidy.sound, Run.ok_bind]
      cases empty : (emptyVerdict (fs.content found.cluster) 16 0).getD true with
      | false => exact ⟨false, fs, tree, rfl, tidy⟩
      | true =>
        -- The current directory has an entry, so it is not the one deleted.
        have other : fs.currentDirectoryCluster ≠ found.cluster := by
          intro equal
          rw [← equal, emptyVerdict_of_findName plain place] at empty
          cases empty
        obtain ⟨after, removed, becomes⟩ :=
          removeEntry_valid tidy.sound tidy.single plain.valid place single.links
        have edits := tidy.editsSlot_marked becomes
        have free : freeByte (Function.update (fs.content fs.currentDirectoryCluster)
            (slotSize * slot) 0xE5 (slotSize * slot)) = true := by
          rw [Function.update_self]
          decide
        refine ⟨true, after, fun other => tree other ∧ other ≠ found.cluster, removed,
          tidy.sound.same edits.same, ?_, ?_, ?_⟩
        · refine tidy.separated.removeDirectory tidy.sound.layout edits.same tidy.current small leads
            edits.heads ?_ ?_
          · rw [edits.here]
            exact slotHead_free free
          · intro cluster valid different _
            rw [becomes.fat cluster valid.2, if_neg]
            exact fun member => different (List.mem_singleton.mp member)
        · rw [edits.same.fields]
          exact ⟨tidy.current, other⟩
        · rintro directory slot' ⟨inside', -⟩ small'
          exact edits.short tidy.short (ShortSlot.of_free free) directory slot' inside' small'

/-- Changing a slot of the current directory without changing where it leads. -/
theorem Tidy.editEntry (tidy : fs.Tidy tree) {slot : Nat} (edit : Buffer → Nat → Run Buffer)
    {data : Buffer} (small : slot < 16)
    (found : findName (fs.content fs.currentDirectoryCluster) name 16 0 = some (slotSize * slot))
    (edited : edit (fs.content fs.currentDirectoryCluster) (slotSize * slot) = .ok data)
    (change : ChangesSlot slot (fs.content fs.currentDirectoryCluster) data)
    (head : slotHead data slot = slotHead (fs.content fs.currentDirectoryCluster) slot)
    (kind : ShortSlot data slot) :
    ∃ after, fs.editEntry fs.currentDirectoryCluster name edit = .ok (true, after) ∧
      after.Tidy tree := by
  obtain ⟨after, written, becomes⟩ := tidy.single.editEntry tidy.sound small found edited change
  have edits : fs.EditsSlot tree fs.currentDirectoryCluster slot data after :=
    becomes.editsSlot change tidy.single.valid fun _ inside => (tidy.separated.used inside).1
  refine ⟨after, written, tidy.edit edits (tidy.separated.congr becomes ?_) kind⟩
  intro other slot' inside little
  by_cases here : other = fs.currentDirectoryCluster ∧ slot' = slot
  · obtain ⟨rfl, rfl⟩ := here
    rw [edits.here, head]
  · exact edits.heads other slot' inside little here

/-- Recording the size of a file with a plain name. -/
theorem Tidy.updateFileSize (tidy : fs.Tidy tree) (plain : Plain name) (newSize : Nat) :
    ∃ told after, fs.updateFileSize name newSize = .ok (told, after) ∧ after.Tidy tree := by
  rw [FileSystem.updateFileSize, parentOf_of_valid plain.valid, Run.ok_bind]
  rcases tidy.findFile plain with ⟨absent, -⟩ | ⟨slot, small, found, place, -, leads⟩
  · exact ⟨false, fs, tidy.single.editEntry_absent tidy.sound _ absent, tidy⟩
  · -- The size lies behind all that matters.
    have bytes : ∀ byte < 28, putWord (fs.content fs.currentDirectoryCluster)
        (slotSize * slot + 28) newSize (slotSize * slot + byte) =
          fs.content fs.currentDirectoryCluster (slotSize * slot + byte) := by
      intro byte little
      rw [putWord, putBytes, if_neg (by omega)]
    have head := slotHead_congr bytes
    obtain ⟨after, written, tidy'⟩ := tidy.editEntry
      (fun sectorData offset => .ok (putWord sectorData (offset + 28) newSize)) small place rfl
      (changesSlot_putBytes slot 28 4 _ _ (by decide)) head
      (ShortSlot.of_slotHead (head.trans leads))
    exact ⟨true, after, written, tidy'⟩

/-- The bytes of a slot after it has got a new name. -/
theorem renamed_bytes {newName : Name} (short : newName.length ≤ 11) (data : Buffer)
    (offset byte : Nat) : putBytes (putBytes data offset 11 fun _ => 0x20) offset newName.length
      (fun index => newName.getD index 0) (offset + byte) =
      if byte < 11 then newName.getD byte 0x20 else data (offset + byte) := by
  by_cases inName : byte < newName.length
  · rw [putBytes_add _ _ _ inName, if_pos (by omega)]
    simp [List.getD_eq_getElem?_getD, inName]
  · rw [putBytes, if_neg (by omega), putBytes]
    by_cases inSlot : byte < 11
    · rw [if_pos (by omega), if_pos inSlot]
      simp [List.getD_eq_getElem?_getD, List.getElem?_eq_none (Nat.le_of_not_lt inName)]
    · rw [if_neg (by omega), if_neg inSlot]

/-- A short new name stays inside its slot. -/
theorem renamed_eq (sector : fs.bpb.bytesPerSector = 512) {slot : Nat} (small : slot < 16)
    {newName : Name} (short : newName.length ≤ 11) (data : Buffer) :
    ∃ data', fs.renamed newName data (slotSize * slot) = .ok data' ∧ ChangesSlot slot data data' ∧
      ∀ byte, data' (slotSize * slot + byte) =
        if byte < 11 then newName.getD byte 0x20 else data (slotSize * slot + byte) := by
  have fits : ¬ fs.bpb.bytesPerSector < slotSize * slot + newName.length := by
    rw [sector]
    simp only [slotSize]
    omega
  refine ⟨_, if_neg fits, ?_, renamed_bytes short data (slotSize * slot)⟩
  have first := changesSlot_putBytes slot 0 11 data (fun _ => 0x20) (by decide)
  have second := changesSlot_putBytes slot 0 newName.length
    (putBytes data (slotSize * slot) 11 fun _ => 0x20) (fun index => newName.getD index 0)
    (by simp only [slotSize]; omega)
  rw [Nat.add_zero] at first second
  exact fun index away => (second index away).trans (first index away)

/-- A slot with a new name leads where it led. -/
theorem slotHead_renamed {newName : Name} (plain : Plain newName) {data data' : Buffer} {slot : Nat}
    {head : Head} (leads : slotHead data slot = some head)
    (bytes : ∀ byte, data' (slotSize * slot + byte) =
      if byte < 11 then newName.getD byte 0x20 else data (slotSize * slot + byte)) :
    slotHead data' slot = some head := by
  have behind : ∀ byte, 11 ≤ byte → data' (slotSize * slot + byte) = data (slotSize * slot + byte) :=
    fun byte late => (bytes byte).trans (if_neg (Nat.not_lt.mpr late))
  have live : freeByte (data' (slotSize * slot)) = false := by
    have first := bytes 0
    rw [Nat.add_zero, if_pos (by decide)] at first
    rw [first]
    exact plain.storable.freeByte_getD _
  have named : entryName data' (slotSize * slot) = newName :=
    entryName_padded plain.short plain.storable.characters (Or.inr rfl) fun index inside =>
      (bytes index).trans (if_pos inside)
  have attributes : entryAttributes data' (slotSize * slot) = entryAttributes data (slotSize * slot) :=
    behind 11 (by decide)
  have cluster : entryCluster data' (slotSize * slot) = entryCluster data (slotSize * slot) := by
    simp only [entryCluster, halfAt, Nat.add_assoc, behind 26 (by decide), behind (26 + 1) (by decide)]
  rw [slotHead] at leads
  split at leads
  · cases leads
  · rename_i other
    have kind : entryAttributes data' (slotSize * slot) ≠ 0x0F := by
      rw [attributes]
      exact fun long => other (Or.inr (Or.inl long))
    rw [slotHead_plain plain live kind named, cluster, attributes]
    exact leads

/-- Renaming a plain name to a plain name that is not that of a directory. -/
theorem Tidy.renameFile (tidy : fs.Tidy tree) (plain : Plain name) {newName : Name}
    (plain' : Plain newName) (target : ∀ found, fs.findFile newName = .ok (some found) →
      isDirectory found.attributes = false) :
    ∃ told after, fs.renameFile name newName = .ok (told, after) ∧ after.Tidy tree := by
  have accepted : ¬ (!validateFileName newName) = true := by simp [plain'.valid]
  rw [FileSystem.renameFile, if_neg accepted]
  rcases tidy.findFile plain with ⟨-, absent⟩ | ⟨slot, small, found, place, lookup, leads⟩
  · rw [absent]
    exact ⟨false, fs, rfl, tidy⟩
  · rw [lookup, Run.ok_bind]
    dsimp only
    rw [parentOf_of_valid plain.valid, Run.ok_bind]
    dsimp only
    rw [renameTarget]
    rcases tidy.findFile plain' with ⟨-, absent⟩ | ⟨-, -, found', -, lookup', -⟩
    · rw [absent, Run.ok_bind]
      dsimp only
      rw [parentOf_of_valid plain'.valid, Run.ok_bind]
      dsimp only
      by_cases equal : name = newName
      · rw [if_pos ⟨rfl, equal⟩]
        exact ⟨true, fs, rfl, tidy⟩
      · rw [if_neg fun both => equal both.2, if_pos rfl]
        obtain ⟨data, edited, change, bytes⟩ :=
          renamed_eq tidy.sound.layout.sector small plain'.short (fs.content fs.currentDirectoryCluster)
        have head := slotHead_renamed plain' leads bytes
        obtain ⟨after, written, tidy'⟩ := tidy.editEntry (fs.renamed newName) small place edited change
          (head.trans leads.symm) (ShortSlot.of_slotHead head)
        exact ⟨true, after, written, tidy'⟩
    · -- The target is a file, and nothing is done.
      rw [lookup', Run.ok_bind]
      dsimp only
      rw [target found' lookup']
      exact ⟨false, fs, rfl, tidy⟩

/-- Going to another directory of the tree. -/
theorem Tidy.setCurrentDirectoryCluster (tidy : fs.Tidy tree) {cluster : Nat}
    (inside : tree cluster) : (fs.setCurrentDirectoryCluster cluster).Tidy tree := by
  -- Neither the table nor the directories depend on the current directory.
  obtain ⟨⟨⟨sector, first, copies, apart, bounded, covered, numbered⟩, ⟨read, write⟩, one, few⟩,
    ⟨root, single, ⟨chained, disjoint⟩, subdirectory, unique⟩, -, short⟩ := tidy
  exact ⟨⟨⟨sector, first, copies, apart, bounded, covered, numbered⟩, ⟨read, write⟩, one, few⟩,
    ⟨root, fun directory member => ⟨(single directory member).valid, (single directory member).last⟩,
      ⟨chained, disjoint⟩, subdirectory, unique⟩, inside, short⟩

/-- Writing a file that a slot of the tree leads to. -/
theorem Tidy.writeFile (tidy : fs.Tidy tree) {directory slot start : Nat} (inside : tree directory)
    (small : slot < 16) (leads : slotHead (fs.content directory) slot = some ⟨start, false⟩)
    (data : Buffer) (dataSize : Nat) : (fs.writeFile start data dataSize).2.Tidy tree := by
  have owns : fs.Owns tree (.file directory slot) start := ⟨inside, small, leads⟩
  obtain ⟨clusters, links⟩ := tidy.separated.owned.chained _ _ owns
  obtain ⟨told, after, clusters', returned, rewrites, -, -⟩ :=
    tidy.sound.writeFile links data dataSize
  rw [returned]
  -- Directories are in use outside the chain of the file.
  have kept : ∀ other, tree other → after.content other = fs.content other := by
    intro other member
    obtain ⟨valid, used⟩ := tidy.separated.used member
    exact rewrites.content other valid (tidy.separated.directory_outside owns links member) used
  refine ⟨tidy.sound.same rewrites.same, ?_, ?_, ?_⟩
  · refine tidy.separated.replaceFile tidy.sound.layout rewrites.same inside clusters clusters'
      (Or.inr ⟨start, owns, links⟩) ?_ ?_ rewrites.fat rewrites.fresh ?_
    · intro other slot' member _ _
      rw [kept other member]
    · intro cluster
      rw [kept directory inside, leads]
      simp
    · intro other heads
      rw [kept directory inside, leads] at heads
      cases heads
      exact rewrites.links
  · rw [rewrites.same.fields]
    exact tidy.current
  · intro other slot' member little
    rw [kept other member]
    exact tidy.short other slot' member little

end Operations

end FileSystem

end Pocky
