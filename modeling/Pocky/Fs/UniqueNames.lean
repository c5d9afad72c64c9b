import Pocky.Fs.NamedCalls
import Pocky.Fs.Runs
import Pocky.Lib.Calls

/-! Runs of creations, deletions and renamings on an empty volume, in which names stay unique. -/

namespace Pocky

/-- A name that is accepted, and ends at its first zero byte. -/
def Given (name : Name) : Prop := FileSystem.validateFileName name = true ∧ 0 ∉ name

instance (name : Name) : Decidable (Given name) := inferInstanceAs (Decidable (_ ∧ _))

namespace FileSystem

/-- Creating, deleting or renaming, with accepted names. -/
def Command.OnNames : Command → Prop
  | .createFile name _ => Given name
  | .createDirectory name => Given name
  | .deleteFile name => Given name
  | .deleteDirectory name => Given name
  | .renameFile oldName newName => Given oldName ∧ Given newName
  | .setCurrentDirectoryCluster _ => False
  | .writeFile _ _ _ => False
  | .updateFileSize _ _ => False

instance : (command : Command) → Decidable command.OnNames
  | .createFile name _ => inferInstanceAs (Decidable (Given name))
  | .createDirectory name => inferInstanceAs (Decidable (Given name))
  | .deleteFile name => inferInstanceAs (Decidable (Given name))
  | .deleteDirectory name => inferInstanceAs (Decidable (Given name))
  | .renameFile oldName newName => inferInstanceAs (Decidable (Given oldName ∧ Given newName))
  | .setCurrentDirectoryCluster _ => inferInstanceAs (Decidable False)
  | .writeFile _ _ _ => inferInstanceAs (Decidable False)
  | .updateFileSize _ _ => inferInstanceAs (Decidable False)

/-- No entry gets a name that its slot does not keep, or one that another entry in its directory has. -/
def KeepsNames (fs : FileSystem) : Command → Prop
  | .createFile name attributes => ReadBack name attributes ∧ isDirectory attributes = false
  | .createDirectory name => ReadBack name 0x10
  | .renameFile oldName newName => fs.RenameKeeps oldName newName
  | _ => True

/-- A call that succeeds, and the state after it. -/
def nextState (fs : FileSystem) (command : Command) : Option FileSystem :=
  (fs.perform command).toOption

/-- A slot of one of the clusters of a directory. -/
def HasSlotIn (fs : FileSystem) (directory cluster slot : Nat) : Prop :=
  ∃ clusters, fs.Chain directory clusters ∧ cluster ∈ clusters ∧ slot < 16

/-- The directories that can be reached from the root through entries, dot entries included. -/
inductive ReachedDirectory (fs : FileSystem) : Nat → Prop where
  /-- The root is one. -/
  | root : ReachedDirectory fs rootCluster
  /-- An entry of one may lead to another. -/
  | entry {directory cluster slot next : Nat} (reached : ReachedDirectory fs directory)
    (has : fs.HasSlotIn directory cluster slot)
    (leads : slotTarget (fs.content cluster) slot = some ⟨next, true⟩) : ReachedDirectory fs next

/-- No directory has two entries with one name, as lookups read names. -/
def UniqueNames (fs : FileSystem) : Prop :=
  ∀ directory cluster slot cluster' slot' name, fs.ReachedDirectory directory →
    fs.HasSlotIn directory cluster slot → fs.HasSlotIn directory cluster' slot' →
    SlotNames (fs.content cluster) name (slotSize * slot) →
    SlotNames (fs.content cluster') name (slotSize * slot') → cluster = cluster' ∧ slot = slot'

/-- Where a creation returns true, a lookup finds what has been created. -/
def FindsCreated (fs : FileSystem) : Command → Prop
  | .createFile name attributes => ∀ after, fs.createFile name attributes = .ok (true, after) →
    fs.FindsNew after name attributes
  | .createDirectory name => ∀ after, fs.createDirectory name = .ok (true, after) →
    fs.FindsNew after name 0x10
  | _ => True

section Runs

variable {fs : FileSystem} {directories : Nat → Prop}

/-- A directory has only the slots of its cluster. -/
theorem NamedApart.hasSlot (named : fs.NamedApart directories) {directory cluster slot : Nat}
    (inside : directories directory) (has : fs.HasSlotIn directory cluster slot) :
    cluster = directory ∧ slot < 16 := by
  -- The chain of the directory is its one cluster.
  obtain ⟨clusters, chain, member, small⟩ := has
  have only : clusters = [directory] :=
    chain.unique ((named.single directory inside).chain named.sound)
      fun _ valid => (named.sound.layout.not_mark valid).2
  rw [only] at member
  exact ⟨List.mem_singleton.mp member, small⟩

/-- The directories that can be reached are among those whose names are different. -/
theorem NamedApart.reached (named : fs.NamedApart directories) {directory : Nat}
    (reached : fs.ReachedDirectory directory) : directories directory := by
  -- By induction on the way from the root.
  induction reached with
  | root => exact named.root
  | entry _ has leads inside =>
    obtain ⟨rfl, small⟩ := named.hasSlot inside has
    exact (named.target (_, _) _ ⟨inside, small, leads⟩).2.mp rfl

/-- So no directory has two entries with one name. -/
theorem NamedApart.uniqueNames (named : fs.NamedApart directories) : fs.UniqueNames := by
  intro directory cluster slot cluster' slot' name reached has has' names names'
  have inside := named.reached reached
  obtain ⟨rfl, small⟩ := named.hasSlot inside has
  obtain ⟨rfl, small'⟩ := named.hasSlot inside has'
  exact ⟨rfl, (named.distinct _ inside).once slot small slot' small' name names names'⟩

/-- A call that keeps names returns, keeps them unique, and finds what it has created. -/
theorem NamedApart.perform (named : fs.NamedApart directories) {command : Command}
    (given : command.OnNames) (keeps : fs.KeepsNames command) :
    (∃ after directories', fs.perform command = .ok after ∧ after.NamedApart directories') ∧
      fs.FindsCreated command := by
  cases command with
  | createFile name attributes =>
    obtain ⟨told, after, returned, named', found⟩ := named.createFile given.1 keeps.1 keeps.2
    refine ⟨⟨after, directories, by rw [FileSystem.perform, returned]; rfl, named'⟩, ?_⟩
    intro after' returned'
    rw [returned] at returned'
    cases returned'
    exact found rfl
  | createDirectory name =>
    obtain ⟨told, after, directories', returned, named', found⟩ := named.createDirectory given.1 keeps
    refine ⟨⟨after, directories', by rw [FileSystem.perform, returned]; rfl, named'⟩, ?_⟩
    intro after' returned'
    rw [returned] at returned'
    cases returned'
    exact found rfl
  | deleteFile name =>
    obtain ⟨told, after, directories', returned, named'⟩ := named.deleteFile given.1
    exact ⟨⟨after, directories', by rw [FileSystem.perform, returned]; rfl, named'⟩, trivial⟩
  | deleteDirectory name =>
    obtain ⟨told, after, directories', returned, named'⟩ := named.deleteDirectory given.1
    exact ⟨⟨after, directories', by rw [FileSystem.perform, returned]; rfl, named'⟩, trivial⟩
  | renameFile oldName newName =>
    obtain ⟨told, after, returned, named'⟩ := named.renameFile given.1.1 given.2.1 given.2.2 keeps
    exact ⟨⟨after, directories, by rw [FileSystem.perform, returned]; rfl, named'⟩, trivial⟩
  | setCurrentDirectoryCluster cluster => cases given
  | writeFile name data dataSize => cases given
  | updateFileSize name newSize => cases given

end Runs

/-- Before it is mounted, the root of an empty volume was never used, or an earlier mount has left it. -/
def UnusedRoot (before fs : FileSystem) : Prop :=
  before.block fs.firstDataSector 0 = 0x00 ∨
    before.block fs.firstDataSector = dotSector 0x20 rootCluster rootCluster

/-- On a freshly mounted empty volume, the root has the dot entries and is the only directory. -/
theorem Fresh.namedApart {before fs : FileSystem} (fresh : Fresh before fs)
    (unused : UnusedRoot before fs) : fs.NamedApart fun cluster => cluster = rootCluster := by
  have content : fs.content rootCluster = dotSector 0x20 rootCluster rootCluster := by
    rcases fresh.content_root with ⟨-, content⟩ | ⟨used, content⟩
    · exact content
    · rcases unused with unused | left
      · exact absurd unused used
      · rw [content, left]
  have single : fs.Single rootCluster := ⟨fresh.valid, fresh.last⟩
  -- All its entries lead back to it.
  have back : ∀ place head, fs.HasTarget (fun cluster => cluster = rootCluster) place head →
      place.2 < 2 ∧ head = ⟨rootCluster, true⟩ := by
    rintro ⟨_, slot⟩ head ⟨rfl, -, leads⟩
    rw [content] at leads
    obtain ⟨first, both⟩ := slotTarget_dotSector (by decide) (by decide) leads
    exact ⟨first, both.elim id id⟩
  refine ⟨fresh.sound, fresh.tidy.current, rfl, ?_, ?_, ?_, ?_, ?_⟩
  · rintro directory rfl
    exact single
  · rintro directory rfl
    rw [content]
    exact distinct_dotSector (Or.inr rfl) _ _
  · intro place head has
    rw [(back place head has).2]
    exact ⟨single, iff_of_true rfl rfl⟩
  · intro place other head head' has _ _ notRoot
    rw [(back place head has).2] at notRoot
    exact absurd rfl notRoot
  · intro slot small leads
    rw [content]
    exact counted_dotSector _ _ (back (rootCluster, slot) _ ⟨rfl, small, leads⟩).1

/--
Names stay unique.

In every state that is reached from an empty volume by creating, deleting and renaming so that no
entry gets a name that is cut, hidden or taken, no directory has two entries with one name, and
every further such call returns, a creation only with true if its entry is found.
-/
theorem fresh_runs_keep_names_unique {before fs after : FileSystem} (fresh : Fresh before fs)
    (unused : UnusedRoot before fs) (calls : List Command) (given : ∀ call ∈ calls, call.OnNames)
    (keeps : Calls.AllMeet nextState KeepsNames fs calls)
    (ran : Calls.run nextState fs calls = some after) :
    after.UniqueNames ∧ ∀ call : Command, call.OnNames → after.KeepsNames call →
      (∃ next, after.perform call = .ok next) ∧ after.FindsCreated call := by
  obtain ⟨directories, named⟩ : ∃ directories, after.NamedApart directories := by
    refine Calls.run_invariant (fun fs : FileSystem => ∃ directories, fs.NamedApart directories) ?_
      calls fs after ⟨_, fresh.namedApart unused⟩ (Calls.allMeet_and given keeps) ran
    rintro state call next ⟨directories, named⟩ ⟨onNames, keeps⟩ performed
    obtain ⟨⟨next', directories', returned, named'⟩, -⟩ := named.perform onNames keeps
    rw [nextState, returned] at performed
    cases performed
    exact ⟨directories', named'⟩
  refine ⟨named.uniqueNames, fun call onNames keeps => ?_⟩
  obtain ⟨⟨next, -, returned, -⟩, found⟩ := named.perform onNames keeps
  exact ⟨⟨next, returned⟩, found⟩

/-- A directory, and a file that is moved into it. -/
def movedFile : List Command :=
  [.createDirectory [0x64], .createFile [0x78] 0x20, .renameFile [0x78] [0x64]]

/-- The empty volume keeps its names while a file is moved into a new directory. -/
theorem fresh_runs_keep_names_unique_moved : ∃ after,
    Calls.run nextState unmounted.mount.2 movedFile = some after ∧
      SlotNames (after.content 3) [0x78] (slotSize * 2) ∧ after.UniqueNames := by
  have moved : (Calls.run nextState unmounted.mount.2 movedFile).any (fun after =>
      SlotNames (after.content 3) [0x78] (slotSize * 2)) = true := by decide +kernel
  obtain ⟨after, ran, names⟩ := (Option.any_eq_true _ _).mp moved
  have free : (Calls.run nextState unmounted.mount.2 (movedFile.take 2)).all (fun before =>
      before.findFile [0x64] = .ok (some ⟨3, 0, 0x10, some (2, 64)⟩) ∧
        before.findFileInDirectory 3 [0x78] = .ok none) = true := by decide +kernel
  refine ⟨after, ran, of_decide_eq_true names, (fresh_runs_keep_names_unique unmounted_fresh
    (Or.inl (by decide +kernel)) movedFile (by decide) ?_ ran).1⟩
  have readBack : ReadBack [0x64] 0x10 ∧ ReadBack [0x78] 0x20 := by decide
  refine ⟨readBack.1, fun first performed => ⟨⟨readBack.2, by decide⟩, fun before performed' =>
    ⟨?_, fun _ _ => trivial⟩⟩⟩
  have state : Calls.run nextState unmounted.mount.2 (movedFile.take 2) = some before :=
    Calls.run_cons.mpr ⟨first, performed, Calls.run_cons.mpr ⟨before, performed', rfl⟩⟩
  rw [state] at free
  obtain ⟨target, absent⟩ := of_decide_eq_true free
  refine fun _ _ => ⟨fun found lookup _ _ => ?_, fun lookup => ?_⟩
  · rw [target] at lookup
    cases lookup
    exact absent
  · rw [target] at lookup
    cases lookup

/-- Two slots of one directory with one name. -/
theorem not_uniqueNames {fs : FileSystem} {directory slot slot' : Nat} {name : Name}
    (reached : fs.ReachedDirectory directory) (valid : fs.InVolume directory)
    (last : endMark ≤ fs.readFatEntry directory) (small : slot < 16) (small' : slot' < 16)
    (different : slot ≠ slot') (names : SlotNames (fs.content directory) name (slotSize * slot))
    (names' : SlotNames (fs.content directory) name (slotSize * slot')) : ¬ fs.UniqueNames := by
  intro unique
  have chain : fs.Chain directory [directory] := by
    refine ⟨last, rfl, List.nodup_singleton _, fun cluster member => ?_⟩
    obtain rfl := List.mem_singleton.mp member
    exact valid
  have has : ∀ slot < 16, fs.HasSlotIn directory directory slot :=
    fun slot small => ⟨_, chain, List.mem_singleton.mpr rfl, small⟩
  exact different (unique directory directory slot directory slot' name reached (has slot small)
    (has slot' small') names names').2

/-- Two files with one name of twelve bytes. -/
def longTwins : List Command :=
  [.createFile (List.replicate 12 0x61) 0x20, .createFile (List.replicate 12 0x61) 0x20]

/-- Two files with one name of one byte, both moved into one directory. -/
def movedTwins : List Command :=
  movedFile ++ [.createFile [0x78] 0x20, .renameFile [0x78] [0x64]]

/-- On the empty volume both runs make two entries with one name, and a long name is not found. -/
theorem fresh_runs_share_names : Fresh unmounted unmounted.mount.2 ∧
    UnusedRoot unmounted unmounted.mount.2 ∧
    (∀ call ∈ longTwins ++ movedTwins, call.OnNames) ∧
    (∃ after, Calls.run nextState unmounted.mount.2 longTwins = some after ∧ ¬ after.UniqueNames) ∧
    (∃ after, Calls.run nextState unmounted.mount.2 movedTwins = some after ∧ ¬ after.UniqueNames) ∧
    ¬ unmounted.mount.2.FindsCreated (.createFile (List.replicate 12 0x61) 0x20) := by
  refine ⟨unmounted_fresh, Or.inl (by decide +kernel), by decide, ?_, ?_, ?_⟩
  · have shared : (Calls.run nextState unmounted.mount.2 longTwins).any (fun after =>
        2 < after.totalClusters ∧ endMark ≤ after.readFatEntry 2 ∧
          SlotNames (after.content 2) (List.replicate 11 0x61) (slotSize * 3) ∧
          SlotNames (after.content 2) (List.replicate 11 0x61) (slotSize * 5)) = true := by
      decide +kernel
    obtain ⟨after, ran, told⟩ := (Option.any_eq_true _ _).mp shared
    obtain ⟨inside, last, names, names'⟩ := of_decide_eq_true told
    exact ⟨after, ran, not_uniqueNames .root ⟨by decide, inside⟩ last (by decide) (by decide)
      (by decide) names names'⟩
  · have shared : (Calls.run nextState unmounted.mount.2 movedTwins).any (fun after =>
        3 < after.totalClusters ∧ endMark ≤ after.readFatEntry 2 ∧ endMark ≤ after.readFatEntry 3 ∧
          slotTarget (after.content 2) 2 = some ⟨3, true⟩ ∧
          SlotNames (after.content 3) [0x78] (slotSize * 2) ∧
          SlotNames (after.content 3) [0x78] (slotSize * 3)) = true := by
      decide +kernel
    obtain ⟨after, ran, told⟩ := (Option.any_eq_true _ _).mp shared
    obtain ⟨inside, rootLast, last, leads, names, names'⟩ := of_decide_eq_true told
    have chain : after.Chain rootCluster [rootCluster] := by
      refine ⟨rootLast, rfl, List.nodup_singleton _, fun cluster member => ?_⟩
      obtain rfl := List.mem_singleton.mp member
      exact ⟨by decide, Nat.lt_of_succ_lt inside⟩
    have reached : after.ReachedDirectory 3 :=
      .entry .root ⟨_, chain, List.mem_singleton.mpr rfl, by decide⟩ leads
    exact ⟨after, ran, not_uniqueNames reached ⟨by decide, inside⟩ last (by decide) (by decide)
      (by decide) names names'⟩
  · have lost : Run.accepts (unmounted.mount.2.createFile (List.replicate 12 0x61) 0x20) (fun after =>
        (after.findFile (List.replicate 12 0x61)).toOption = some none) = true := by decide +kernel
    obtain ⟨after, returned, told⟩ := Run.exists_of_accepts lost
    intro finds
    obtain ⟨found, -, -, lookup, -⟩ := finds after returned
    rw [Run.toOption_eq_some.mp (of_decide_eq_true told)] at lookup
    cases lookup

end FileSystem

end Pocky
