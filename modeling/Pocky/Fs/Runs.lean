import Pocky.Fs.TreeOperations

/-! Runs of commands on a freshly mounted volume, in which no two files are ever cross-linked. -/

namespace Pocky

namespace FileSystem

/-- A live slot of one of the clusters of a directory. -/
def HasEntry (fs : FileSystem) (directory cluster slot : Nat) : Prop :=
  ∃ clusters, fs.Chain directory clusters ∧ cluster ∈ clusters ∧ slot < 16 ∧
    LiveSlot (fs.content cluster) slot

/-- The directories that can be reached from the root through live entries. -/
inductive LiveDirectory (fs : FileSystem) : Nat → Prop where
  /-- The root is one. -/
  | root : LiveDirectory fs rootCluster
  /-- An entry of one may lead to another. -/
  | entry {directory cluster slot : Nat} (live : LiveDirectory fs directory)
    (has : fs.HasEntry directory cluster slot)
    (kind : isDirectory (entryAttributes (fs.content cluster) (slotSize * slot)) = true) :
    LiveDirectory fs (entryCluster (fs.content cluster) (slotSize * slot))

/-- The start clusters of the root and of every live entry, an entry being named by its place. -/
inductive Heads (fs : FileSystem) : Option (Nat × Nat) → Nat → Prop where
  /-- The root heads a chain. -/
  | root : Heads fs none rootCluster
  /-- An entry of a directory heads one. -/
  | entry {directory cluster slot : Nat} (live : fs.LiveDirectory directory)
    (has : fs.HasEntry directory cluster slot) :
    Heads fs (some (cluster, slot)) (entryCluster (fs.content cluster) (slotSize * slot))

/-- The calls of a run. -/
inductive Command where
  /-- Creating a file. -/
  | createFile (name : Name) (attributes : UInt8)
  /-- Creating a directory. -/
  | createDirectory (name : Name)
  /-- Deleting a file. -/
  | deleteFile (name : Name)
  /-- Deleting a directory. -/
  | deleteDirectory (name : Name)
  /-- Renaming a file or directory. -/
  | renameFile (oldName newName : Name)
  /-- Going to a directory. -/
  | setCurrentDirectoryCluster (cluster : Nat)
  /-- Writing to the start cluster that a lookup reports. -/
  | writeFile (name : Name) (data : Buffer) (dataSize : Nat)
  /-- Recording a size. -/
  | updateFileSize (name : Name) (newSize : Nat)

/-- The state after a call; what the call reports is dropped. -/
def perform (fs : FileSystem) : Command → Run FileSystem
  | .createFile name attributes => do return (← fs.createFile name attributes).2
  | .createDirectory name => do return (← fs.createDirectory name).2
  | .deleteFile name => do return (← fs.deleteFile name).2
  | .deleteDirectory name => do return (← fs.deleteDirectory name).2
  | .renameFile oldName newName => do return (← fs.renameFile oldName newName).2
  | .setCurrentDirectoryCluster cluster => .ok (fs.setCurrentDirectoryCluster cluster)
  | .writeFile name data dataSize => do
    match ← fs.findFile name with
    | none => return fs
    | some found => return (fs.writeFile found.cluster data dataSize).2
  | .updateFileSize name newSize => do return (← fs.updateFileSize name newSize).2

/-- The calls that a run may make in a state. -/
def Allowed (fs : FileSystem) : Command → Prop
  | .createFile name attributes => Plain name ∧ (attributes = 0 ∨ attributes = 0x20)
  | .createDirectory name => Plain name
  | .deleteFile name => Plain name
  | .deleteDirectory name => Plain name
  | .renameFile oldName newName => Plain oldName ∧ Plain newName ∧
    ∀ found, fs.findFile newName = .ok (some found) → isDirectory found.attributes = false
  | .setCurrentDirectoryCluster cluster => fs.LiveDirectory cluster
  | .writeFile name _ _ => Plain name ∧
    ∃ found, fs.findFile name = .ok (some found) ∧ isDirectory found.attributes = false
  | .updateFileSize name _ => Plain name

/-- The states that runs from a state reach. -/
inductive Reached (start : FileSystem) : FileSystem → Prop where
  /-- Nothing has been called. -/
  | nothing : Reached start start
  /-- One more call has returned. -/
  | call {fs after : FileSystem} (command : Command) (reached : Reached start fs)
    (allowed : fs.Allowed command) (returned : fs.perform command = .ok after) :
    Reached start after

/--
A volume that has just been mounted and is empty.

Its root was never used or holds at most dot entries, and all other clusters are free.
-/
structure Fresh (before fs : FileSystem) : Prop where
  /-- Before mounting, the current directory is the root. -/
  started : before.currentDirectoryCluster = rootCluster
  /-- Mounting succeeds. -/
  mounted : before.mount = (true, fs)
  /-- The volume is sound. -/
  sound : fs.Sound
  /-- The root lies in the volume. -/
  valid : fs.InVolume rootCluster
  /-- The root has one cluster. -/
  last : endMark ≤ fs.fatEntry rootCluster
  /-- The other clusters are free. -/
  free : ∀ cluster, fs.InVolume cluster → cluster ≠ rootCluster → fs.fatEntry cluster = 0
  /-- The root was never used, or holds at most dot entries. -/
  empty : before.block fs.firstDataSector 0 = 0 ∨
    ∀ slot < 16, ¬ LiveSlot (before.block fs.firstDataSector) slot

section Tidiness

variable {fs : FileSystem} {tree : Nat → Prop}

/-- An entry of a directory of a tidy tree leads to its start cluster. -/
theorem Tidy.leads (tidy : fs.Tidy tree) {directory cluster slot : Nat} (inside : tree directory)
    (has : fs.HasEntry directory cluster slot) : cluster = directory ∧ slot < 16 ∧
      slotHead (fs.content directory) slot =
        some ⟨entryCluster (fs.content cluster) (slotSize * slot),
          isDirectory (entryAttributes (fs.content cluster) (slotSize * slot))⟩ := by
  -- The chain of the directory is its one cluster.
  obtain ⟨clusters, chain, member, small, live⟩ := has
  have only : clusters = [directory] :=
    chain.unique ((tidy.separated.single directory inside).chain tidy.sound)
      fun _ valid => (tidy.sound.layout.not_mark valid).2
  rw [only] at member
  obtain rfl := List.mem_singleton.mp member
  exact ⟨rfl, small, live.slotHead (tidy.short cluster slot inside small)⟩

/-- The live directories are in the tree. -/
theorem Tidy.liveDirectory (tidy : fs.Tidy tree) {directory : Nat}
    (live : fs.LiveDirectory directory) : tree directory := by
  -- By induction on the way from the root.
  induction live with
  | root => exact tidy.separated.root
  | entry _ has kind inside =>
    obtain ⟨rfl, small, leads⟩ := tidy.leads inside has
    rw [kind] at leads
    exact (tidy.separated.subdirectory _ _ _ inside small leads).1

/-- In a tidy tree nothing is linked twice. -/
theorem Tidy.owned (tidy : fs.Tidy tree) :
    Owned fs.readFatEntry (endMark ≤ ·) fs.InVolume fs.Heads := by
  have table : fs.readFatEntry = fs.fatEntry :=
    funext (readFatEntry_eq tidy.sound.layout.sector tidy.sound.reliable)
  -- Each head is that of an owner of the tree, by the kind of its entry.
  have owner : ∀ place start, fs.Heads place start → ∃ owner, fs.Owns tree owner start ∧
      (place = none ∧ owner = .directory rootCluster ∨
        ∃ directory slot, place = some (directory, slot) ∧ tree directory ∧ slot < 16 ∧
          (owner = .file directory slot ∨ owner = .directory start ∧
            slotHead (fs.content directory) slot = some ⟨start, true⟩)) := by
    rintro place start (_ | ⟨live, has⟩)
    · exact ⟨.directory rootCluster, ⟨tidy.separated.root, rfl⟩, Or.inl ⟨rfl, rfl⟩⟩
    · rename_i directory cluster slot
      have inside := tidy.liveDirectory live
      obtain ⟨rfl, small, leads⟩ := tidy.leads inside has
      cases kind : isDirectory (entryAttributes (fs.content cluster) (slotSize * slot)) with
      | false =>
        rw [kind] at leads
        exact ⟨.file cluster slot, ⟨inside, small, leads⟩,
          Or.inr ⟨cluster, slot, rfl, inside, small, Or.inl rfl⟩⟩
      | true =>
        rw [kind] at leads
        exact ⟨.directory _, ⟨(tidy.separated.subdirectory _ _ _ inside small leads).1, rfl⟩,
          Or.inr ⟨cluster, slot, rfl, inside, small, Or.inr ⟨rfl, leads⟩⟩⟩
  rw [table]
  refine ⟨?_, ?_⟩
  · intro place start heads
    obtain ⟨owner, owns, -⟩ := owner place start heads
    exact tidy.separated.owned.chained owner start owns
  · intro place place' start start' clusters clusters' different heads heads' chain chain'
    obtain ⟨first, owns, which⟩ := owner place start heads
    obtain ⟨second, owns', which'⟩ := owner place' start' heads'
    refine tidy.separated.owned.disjoint first second start start' clusters clusters' ?_ owns owns'
      chain chain'
    -- Different places have different owners, since no directory has two entries and the root none.
    rintro rfl
    rcases which with ⟨rfl, rfl⟩ | ⟨directory, slot, rfl, inside, small, rfl | ⟨rfl, leads⟩⟩
    · rcases which' with ⟨rfl, -⟩ | ⟨directory, slot, -, inside, small, wrong | ⟨equal, leads⟩⟩
      · exact different rfl
      · cases wrong
      · cases equal
        exact (tidy.separated.subdirectory _ _ _ inside small leads).2 rfl
    · rcases which' with ⟨-, wrong⟩ | ⟨directory', slot', rfl, -, -, equal | ⟨wrong, -⟩⟩
      · cases wrong
      · cases equal
        exact different rfl
      · cases wrong
    · rcases which' with ⟨-, equal⟩ | ⟨directory', slot', rfl, inside', small', wrong | ⟨equal, leads'⟩⟩
      · cases equal
        exact (tidy.separated.subdirectory _ _ _ inside small leads).2 rfl
      · cases wrong
      · cases equal
        obtain ⟨rfl, rfl⟩ :=
          tidy.separated.unique _ _ _ _ _ inside inside' small small' leads leads'
        exact different rfl

/-- Every call that is allowed returns, and leaves a tidy tree. -/
theorem Tidy.perform (tidy : fs.Tidy tree) {command : Command} (allowed : fs.Allowed command) :
    ∃ after tree', fs.perform command = .ok after ∧ after.Tidy tree' := by
  cases command with
  | createFile name attributes =>
    obtain ⟨plain, kinds⟩ := allowed
    have kind : attributes ≠ 0x0F ∧ isDirectory attributes = false := by
      rcases kinds with rfl | rfl
      · decide
      · decide
    obtain ⟨told, after, returned, tidy'⟩ := tidy.createFile plain kind.1 kind.2
    exact ⟨after, tree, by rw [FileSystem.perform, returned]; rfl, tidy'⟩
  | createDirectory name =>
    obtain ⟨told, after, tree', returned, tidy'⟩ := tidy.createDirectory allowed
    exact ⟨after, tree', by rw [FileSystem.perform, returned]; rfl, tidy'⟩
  | deleteFile name =>
    obtain ⟨told, after, returned, tidy'⟩ := tidy.deleteFile allowed
    exact ⟨after, tree, by rw [FileSystem.perform, returned]; rfl, tidy'⟩
  | deleteDirectory name =>
    obtain ⟨told, after, tree', returned, tidy'⟩ := tidy.deleteDirectory allowed
    exact ⟨after, tree', by rw [FileSystem.perform, returned]; rfl, tidy'⟩
  | renameFile oldName newName =>
    obtain ⟨plain, plain', target⟩ := allowed
    obtain ⟨told, after, returned, tidy'⟩ := tidy.renameFile plain plain' target
    exact ⟨after, tree, by rw [FileSystem.perform, returned]; rfl, tidy'⟩
  | setCurrentDirectoryCluster cluster =>
    exact ⟨_, tree, rfl, tidy.setCurrentDirectoryCluster (tidy.liveDirectory allowed)⟩
  | writeFile name data dataSize =>
    obtain ⟨plain, found, lookup, kind⟩ := allowed
    refine ⟨(fs.writeFile found.cluster data dataSize).2, tree, ?_, ?_⟩
    · rw [FileSystem.perform, lookup]
      rfl
    · rcases tidy.findFile plain with ⟨-, absent⟩ | ⟨slot, small, found', -, lookup', leads⟩
      · rw [absent] at lookup
        cases lookup
      · rw [lookup'] at lookup
        cases lookup
        rw [kind] at leads
        exact tidy.writeFile tidy.current small leads data dataSize
  | updateFileSize name newSize =>
    obtain ⟨told, after, returned, tidy'⟩ := tidy.updateFileSize allowed newSize
    exact ⟨after, tree, by rw [FileSystem.perform, returned]; rfl, tidy'⟩

/-- Whole runs leave a tidy tree. -/
theorem Tidy.reached (tidy : fs.Tidy tree) {after : FileSystem} (reached : fs.Reached after) :
    ∃ tree', after.Tidy tree' := by
  -- By induction on the calls of the run.
  induction reached with
  | nothing => exact ⟨tree, tidy⟩
  | call command _ allowed returned ih =>
    obtain ⟨tree', tidy'⟩ := ih
    obtain ⟨after, tree'', returned', tidy''⟩ := tidy'.perform allowed
    rw [returned'] at returned
    cases returned
    exact ⟨tree'', tidy''⟩

end Tidiness

/-- What a successful mount has done after it took over the geometry. -/
theorem mount_cases {before fs : FileSystem} (mounted : before.mount = (true, fs)) :
    ∃ middle root, middle.disk = before.disk ∧
      middle.currentDirectoryCluster = before.currentDirectoryCluster ∧
      middle.readSector (middle.clusterSector rootCluster) = some root ∧
      (root 0 = 0 ∧ middle.writeSector (middle.clusterSector rootCluster)
          (dotSector 0x20 rootCluster rootCluster) = (true, fs) ∨ root 0 ≠ 0 ∧ fs = middle) := by
  rw [mount] at mounted
  split at mounted
  · cases mounted
  · rename_i bootSector _
    split at mounted
    · cases mounted
    · rename_i first taken
      have kept : first.disk = before.disk ∧
          first.currentDirectoryCluster = before.currentDirectoryCluster := by
        rw [initializeVolume] at taken
        split at taken
        · cases taken
        · cases taken
          exact ⟨rfl, rfl⟩
      split at mounted
      · cases mounted
      · rename_i second informed
        have kept' : second.disk = first.disk ∧
            second.currentDirectoryCluster = first.currentDirectoryCluster := by
          rw [readFSInfo] at informed
          split at informed
          · cases informed
            exact ⟨rfl, rfl⟩
          · split at informed
            · cases informed
            · split at informed
              · cases informed
              · cases informed
                exact ⟨rfl, rfl⟩
        dsimp only at mounted
        split at mounted
        · cases mounted
        · rename_i root read
          refine ⟨second, root, kept'.1.trans kept.1, kept'.2.trans kept.2, read, ?_⟩
          split at mounted
          · exact Or.inl ⟨‹_›, mounted⟩
          · exact Or.inr ⟨‹_›, ((Prod.mk.inj mounted).2).symm⟩

/-- Fields that carry over go back, too. -/
theorem SameVolume.symm {fs after : FileSystem} (same : SameVolume fs after) :
    SameVolume after fs := by
  refine ⟨?_, same.readOk.symm, same.writeOk.symm⟩
  rw [same.fields]

/-- The root of a fresh volume is as it was, or holds the dot entries that mounting has written. -/
theorem Fresh.content_root {before fs : FileSystem} (fresh : Fresh before fs) :
    before.block fs.firstDataSector 0 = 0x00 ∧
        fs.content rootCluster = dotSector 0x20 rootCluster rootCluster ∨
      before.block fs.firstDataSector 0 ≠ 0x00 ∧
        fs.content rootCluster = before.block fs.firstDataSector := by
  obtain ⟨middle, root, disk, -, read, wrote⟩ := mount_cases fresh.mounted
  have stored : SameVolume middle fs ∧ (root 0 = 0 ∧ fs = middle.store (middle.clusterSector rootCluster)
      (dotSector 0x20 rootCluster rootCluster) ∨ root 0 ≠ 0 ∧ fs = middle) := by
    rcases wrote with ⟨unused, written⟩ | ⟨used, rfl⟩
    · have geometry : fs.bpb = middle.bpb := by
        rw [← writeSector_bpb middle, written]
      have stored := store_of_writeSector (geometry ▸ fresh.sound.layout.sector) written
      exact ⟨stored ▸ store_same _ _ _, Or.inl ⟨unused, stored⟩⟩
    · exact ⟨SameVolume.refl fs, Or.inr ⟨used, rfl⟩⟩
  obtain ⟨same, wrote⟩ := stored
  have sound := fresh.sound.same same.symm
  have valid : middle.InVolume rootCluster := same.inVolume.mp fresh.valid
  have first : middle.dataSector rootCluster 0 = fs.firstDataSector := by
    rw [same.fields, dataSector, rootCluster]
    simp
  -- What mounting has read of the root is what was there before.
  have bytes : root = before.block fs.firstDataSector := by
    rw [block_of_readSector sound.layout.sector read, sound.clusterSector valid, first, block, block, disk]
  rw [← bytes]
  rcases wrote with ⟨unused, stored⟩ | ⟨used, rfl⟩
  · rw [sound.clusterSector valid] at stored
    refine Or.inl ⟨unused, ?_⟩
    rw [stored, (sound.store valid _).content rootCluster valid, Function.update_self]
    exact cutBlock_dotSector _ _ _
  · refine Or.inr ⟨used, ?_⟩
    rw [bytes, content, first, block, block, disk]

/-- The root of a fresh volume has no entries. -/
theorem Fresh.root {before fs : FileSystem} (fresh : Fresh before fs) {slot : Nat}
    (small : slot < 16) :
    slotHead (fs.content rootCluster) slot = none ∧ ShortSlot (fs.content rootCluster) slot := by
  rcases fresh.content_root with ⟨-, content⟩ | ⟨used, content⟩
  · rw [content]
    exact ⟨slotHead_dotSector (Or.inr rfl) _ _ small, ShortSlot.of_dotSector _ _ _ _⟩
  · -- The root was in use already, for dot entries at most.
    rw [content]
    rcases fresh.empty with unused | dead
    · exact absurd unused used
    · exact ⟨slotHead_of_not_live (dead slot small), fun live => absurd live (dead slot small)⟩

/-- A fresh volume is tidy. -/
theorem Fresh.tidy {before fs : FileSystem} (fresh : Fresh before fs) :
    fs.Tidy fun cluster => cluster = rootCluster := by
  have single : fs.Single rootCluster := ⟨fresh.valid, fresh.last⟩
  -- No slot of the root leads anywhere, so the root is the only owner.
  have owner : ∀ owner start, fs.Owns (fun cluster => cluster = rootCluster) owner start →
      owner = .directory rootCluster ∧ start = rootCluster := by
    intro owner start owns
    cases owner with
    | directory cluster =>
      obtain ⟨rfl, rfl⟩ := owns
      exact ⟨rfl, rfl⟩
    | file directory slot =>
      obtain ⟨rfl, small, leads⟩ := owns
      rw [(fresh.root small).1] at leads
      cases leads
  refine ⟨fresh.sound, ⟨rfl, ?_, ⟨?_, ?_⟩, ?_, ?_⟩, ?_, ?_⟩
  · rintro directory rfl
    exact single
  · intro place start owns
    obtain ⟨-, rfl⟩ := owner place start owns
    exact ⟨_, single.links⟩
  · intro place other start start' clusters clusters' different owns owns'
    exact absurd ((owner place start owns).1.trans (owner other start' owns').1.symm) different
  · rintro directory slot cluster rfl small leads
    rw [(fresh.root small).1] at leads
    cases leads
  · rintro directory slot other slot' cluster rfl - small - leads
    rw [(fresh.root small).1] at leads
    cases leads
  · obtain ⟨middle, root, -, kept, -, ⟨-, written⟩ | ⟨-, rfl⟩⟩ := mount_cases fresh.mounted
    · have same : fs.currentDirectoryCluster = middle.currentDirectoryCluster := by
        have fields : (middle.writeSector (middle.clusterSector rootCluster)
            (dotSector 0x20 rootCluster rootCluster)).2.currentDirectoryCluster =
            middle.currentDirectoryCluster := by
          rw [writeSector, diskWrite]
          split
          · rfl
          · rfl
        rw [written] at fields
        exact fields
      exact same.trans (kept.trans fresh.started)
    · exact kept.trans fresh.started
  · rintro directory slot rfl small
    exact (fresh.root small).2

/--
No file is ever cross-linked.

In every state that a run from a fresh volume reaches, the root and every live entry head chains
that share no cluster, and every further call returns.
-/
theorem fresh_runs_never_cross_link {before fs after : FileSystem} (fresh : Fresh before fs)
    (reached : fs.Reached after) :
    Owned after.readFatEntry (endMark ≤ ·) after.InVolume after.Heads ∧
      ∀ command, after.Allowed command → ∃ next, after.perform command = .ok next := by
  obtain ⟨tree, tidy⟩ := fresh.tidy.reached reached
  refine ⟨tidy.owned, fun command allowed => ?_⟩
  obtain ⟨next, -, returned, -⟩ := tidy.perform allowed
  exact ⟨next, returned⟩

/-- The boot sector and the table of an empty volume of twenty clusters. -/
def emptyDisk : Buffer :=
  withLink 2 0x0FFFFFFF
    (putBytes (fun _ => 0) 0 67 fun index =>
      if index = 12 then 2 else if index = 13 ∨ index = 14 ∨ index = 16 ∨ index = 36 then 1
      else if index = 32 then 22 else if index = 66 then 0x29 else 0)

/-- An empty volume before it is mounted. -/
def unmounted : FileSystem :=
  { smallVolume emptyDisk rootCluster with
    bpb := ⟨0, 0, 0, 0, 0, 0, 0, 0, 0, 0, 0⟩
    firstDataSector := 0
    dataSectors := 0
    totalClusters := 0
    firstFatSector := 0 }

set_option maxRecDepth 4000 in
/-- Mounting it enters the dot entries in its root. -/
theorem unmounted_mount : unmounted.mount =
    (true, (smallVolume emptyDisk rootCluster).store 2 (dotSector 0x20 rootCluster rootCluster)) := by
  rfl

/-- The empty volume is fresh once it is mounted. -/
theorem unmounted_fresh : Fresh unmounted (unmounted.mount).2 := by
  refine ⟨rfl, unmounted_mount.trans (by rw [unmounted_mount]), ?_, ?_, ?_, ?_, Or.inl ?_⟩
  · rw [unmounted_mount]
    have sound : (smallVolume emptyDisk rootCluster).Sound :=
      ⟨smallVolume_layout _ _, smallVolume_reliable _ _, rfl, by decide⟩
    exact sound.same (store_same _ _ _)
  · rw [unmounted_mount]
    exact ⟨by decide, by decide⟩
  · decide +kernel
  · have table : ∀ cluster < 20, cluster ≠ rootCluster → 2 ≤ cluster →
        unmounted.mount.2.fatEntry cluster = 0 := by decide +kernel
    intro cluster valid other
    rw [unmounted_mount] at valid
    exact table cluster valid.2 other valid.1
  · decide +kernel

/-- After a file and a directory have been created, both head chains of their own. -/
theorem fresh_runs_never_cross_link_created : ∃ after, unmounted.mount.2.Reached after ∧
    after.block 2 (slotSize * 2) = 0x61 ∧ after.block 2 (slotSize * 3) = 0x62 ∧
    Owned after.readFatEntry (endMark ≤ ·) after.InVolume after.Heads := by
  have accepted : Run.accepts (unmounted.mount.2.createFile [0x61] 0x20) (fun middle =>
      Run.accepts (middle.createDirectory [0x62]) fun after =>
        after.block 2 (slotSize * 2) == 0x61 && after.block 2 (slotSize * 3) == 0x62) = true := by
    decide +kernel
  obtain ⟨middle, first, accepted'⟩ := Run.exists_of_accepts accepted
  obtain ⟨after, second, check⟩ := Run.exists_of_accepts accepted'
  have plain : ∀ name : Name, name = [0x61] ∨ name = [0x62] → Plain name := by
    rintro name (rfl | rfl)
    · exact ⟨by decide, by decide, by decide +kernel, by decide, by decide⟩
    · exact ⟨by decide, by decide, by decide +kernel, by decide, by decide⟩
  have reached : unmounted.mount.2.Reached after := by
    have once : unmounted.mount.2.Reached middle := by
      refine .call (.createFile [0x61] 0x20) .nothing ⟨plain _ (Or.inl rfl), Or.inr rfl⟩ ?_
      rw [perform, first]
      rfl
    refine .call (.createDirectory [0x62]) once (plain _ (Or.inr rfl)) ?_
    rw [perform, second]
    rfl
  rw [Bool.and_eq_true, beq_iff_eq, beq_iff_eq] at check
  exact ⟨after, reached, check.1, check.2, (fresh_runs_never_cross_link unmounted_fresh reached).1⟩

end FileSystem

end Pocky
