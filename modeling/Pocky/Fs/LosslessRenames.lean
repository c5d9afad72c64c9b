import Pocky.Fs.RenamedTree

/-! Renaming keeps every file and directory reachable, or loses some of them. -/

namespace Pocky

namespace FileSystem

/--
Whether a rename keeps every file and directory.

A new name that is not taken is a dot name just if the old one is, or the old one is a dot name that
leads to the root. A directory of the new name is the current one, or it is not the one to be moved
there, and the slot that the entry gets there leads nowhere.
-/
def RenamesSafely (fs : FileSystem) (oldName newName : Name) : Prop :=
  ∀ source, fs.findFile oldName = .ok (some source) →
    (fs.findFile newName = .ok none →
      (DotName oldName ∧ source.cluster = rootCluster) ∨ (DotName oldName ↔ DotName newName)) ∧
    ∀ target, fs.findFile newName = .ok (some target) →
      target.cluster = fs.currentDirectoryCluster ∨
      ((DotName oldName ∨ target.cluster ≠ source.cluster) ∧ ∀ slot < 16,
        fs.findFreeDirectoryEntry target.cluster = .ok (some (slotSize * slot)) →
        slotHead (fs.block (fs.clusterSector target.cluster)) slot = none)

variable {fs after : FileSystem} {oldName newName : Name}

/-- A rename between plain names that succeeds: in place, not at all, or into a directory. -/
theorem renameFile_plain_cases (whole : slash ∉ oldName) (filled : oldName ≠ [])
    (returned : fs.renameFile oldName newName = .ok (true, after)) :
    ∃ source, fs.findFile oldName = .ok (some source) ∧
      fs.findFileInDirectory fs.currentDirectoryCluster oldName = .ok (some source) ∧
      ((fs.findFile newName = .ok none ∧
          fs.editEntry fs.currentDirectoryCluster oldName (fs.renamed newName) = .ok (true, after)) ∨
        ∃ target, fs.findFile newName = .ok (some target) ∧
          fs.findFileInDirectory fs.currentDirectoryCluster newName = .ok (some target) ∧
          isDirectory target.attributes = true ∧
          ((target.cluster = fs.currentDirectoryCluster ∧ after = fs) ∨
            target.cluster ≠ fs.currentDirectoryCluster ∧ ∃ middle,
              fs.writeDirectoryEntry target.cluster oldName source.attributes source.cluster
                source.size = .ok (true, middle) ∧
              middle.editEntry fs.currentDirectoryCluster oldName (fun sectorData offset =>
                .ok (Function.update sectorData offset 0xE5)) = .ok (true, after))) := by
  unfold renameFile at returned
  by_cases valid : validateFileName newName = true
  case neg =>
    simp only [valid, Bool.not_false, if_true] at returned
    cases returned
  simp only [valid, Bool.not_true, Bool.false_eq_true, if_false] at returned
  obtain ⟨answer, looked, rest⟩ := Run.bind_eq_ok.mp returned
  cases answer with
  | none => cases rest
  | some source =>
    have here := looked
    rw [fs.findFile_of_notMem whole filled] at here
    refine ⟨source, looked, here, ?_⟩
    dsimp only at rest
    rw [fs.parentOf_of_notMem whole, Run.ok_bind] at rest
    dsimp only at rest
    obtain ⟨goal, aimed, rest⟩ := Run.bind_eq_ok.mp rest
    rw [renameTarget] at aimed
    obtain ⟨answer, told, aimed⟩ := Run.bind_eq_ok.mp aimed
    cases answer with
    | none =>
      -- The new name is in no other directory, so that the entry stays in its own.
      dsimp only at aimed
      rw [parentOf_of_valid valid] at aimed
      cases aimed
      have different : oldName ≠ newName := by
        rintro rfl
        rw [looked] at told
        cases told
      refine Or.inl ⟨told, ?_⟩
      dsimp only at rest
      rw [if_neg fun both => different both.2, if_pos rfl] at rest
      exact rest
    | some target =>
      dsimp only at aimed
      split at aimed
      case isFalse =>
        cases aimed
        cases rest
      case isTrue directory =>
        cases aimed
        have there := told
        rw [findFile_of_valid valid] at there
        refine Or.inr ⟨target, told, there, directory, ?_⟩
        dsimp only at rest
        by_cases stays : fs.currentDirectoryCluster = target.cluster
        · rw [if_pos ⟨stays, rfl⟩] at rest
          cases rest
          exact Or.inl ⟨stays.symm, rfl⟩
        · rw [if_neg fun both => stays both.1, if_neg stays] at rest
          obtain ⟨⟨entered, middle⟩, wrote, rest⟩ := Run.bind_eq_ok.mp rest
          dsimp only at rest
          cases entered with
          | false => cases rest
          | true => exact Or.inr ⟨Ne.symm stays, middle, wrote, rest⟩

/--
A rename between plain names that succeeds loses nothing exactly if dot names stay dot names in
place, no directory is moved into itself, and no entry is written over.
-/
theorem renameFile_losesNothing_iff (fs after : FileSystem) (oldName newName : Name)
    (layout : fs.Layout) (reliable : fs.Reliable) (hierarchy : fs.Hierarchy)
    (old : Storable oldName) (new : Storable newName) (whole : slash ∉ oldName)
    (returned : fs.renameFile oldName newName = .ok (true, after)) :
    fs.LosesNothing after ↔ fs.RenamesSafely oldName newName := by
  obtain ⟨depth, inside⟩ := hierarchy.current
  obtain ⟨source, resolved, looked, cases⟩ := renameFile_plain_cases whole old.nonempty returned
  have safely : fs.RenamesSafely oldName newName ↔
      (fs.findFile newName = .ok none →
        (DotName oldName ∧ source.cluster = rootCluster) ∨ (DotName oldName ↔ DotName newName)) ∧
      ∀ target, fs.findFile newName = .ok (some target) →
        target.cluster = fs.currentDirectoryCluster ∨
        ((DotName oldName ∨ target.cluster ≠ source.cluster) ∧ ∀ slot < 16,
          fs.findFreeDirectoryEntry target.cluster = .ok (some (slotSize * slot)) →
          slotHead (fs.block (fs.clusterSector target.cluster)) slot = none) := by
    constructor
    · exact fun safe => safe source resolved
    · intro safe other found
      obtain rfl := Option.some.inj (Except.ok.inj (resolved.symm.trans found))
      exact safe
  rw [safely]
  rcases cases with ⟨absent, edited⟩ | ⟨target, told, aimed, kind, stays | moves⟩
  · -- The entry gets the new name where it is.
    rw [hierarchy.tree.losesNothing_in_place_iff layout reliable inside looked new edited]
    constructor
    · exact fun kept => ⟨fun _ => kept, fun target found => by
        rw [absent] at found
        cases found⟩
    · exact fun safe => safe.1 absent
  · -- The directory of the new name is the one the entry is in.
    obtain ⟨same, rfl⟩ := stays
    refine iff_of_true ?_ ⟨fun absent => ?_, fun other found => ?_⟩
    · rw [(Relabels.refl after).losesNothing_iff hierarchy.tree fun _ _ leads => Or.inl leads]
      exact hierarchy.tree.rooted_slots.keepsNodes
    · rw [told] at absent
      cases absent
    · obtain rfl := Option.some.inj (Except.ok.inj (told.symm.trans found))
      exact Or.inl same
  · -- The entry moves into the directory of the new name.
    obtain ⟨elsewhere, middle, entered, edited⟩ := moves
    have goalAt := hierarchy.tree.lookup_directory layout reliable inside aimed kind
    rw [hierarchy.tree.losesNothing_moved_iff layout reliable inside looked goalAt elsewhere old
      entered edited aimed kind rfl]
    constructor
    · intro kept
      refine ⟨fun absent => ?_, fun other found => ?_⟩
      · rw [told] at absent
        cases absent
      · obtain rfl := Option.some.inj (Except.ok.inj (told.symm.trans found))
        exact Or.inr kept
    · intro safe
      exact (safe.2 target told).resolve_left elsewhere

/-- Moving /b into /a loses nothing. -/
theorem renameFile_losesNothing_moved : ∃ after,
    (smallVolume twoDirectories 2).renameFile [0x62] [0x61] = .ok (true, after) ∧
      (smallVolume twoDirectories 2).LosesNothing after := by
  have accepted : Run.accepts ((smallVolume twoDirectories 2).renameFile [0x62] [0x61])
      (fun _ => true) = true := by decide +kernel
  obtain ⟨after, returned, -⟩ := Run.exists_of_accepts accepted
  have source : (smallVolume twoDirectories 2).findFile [0x62] =
      .ok (some ⟨5, 0, 0x10, some (2, 96)⟩) := by decide +kernel
  have target : (smallVolume twoDirectories 2).findFile [0x61] =
      .ok (some ⟨3, 0, 0x10, some (2, 64)⟩) := by decide +kernel
  have taken : (smallVolume twoDirectories 2).findFreeDirectoryEntry 3 = .ok (some (slotSize * 3)) := by
    decide +kernel
  have free : slotHead ((smallVolume twoDirectories 2).block
      ((smallVolume twoDirectories 2).clusterSector 3)) 3 = none := by decide +kernel
  refine ⟨after, returned, (renameFile_losesNothing_iff _ after [0x62] [0x61]
    (smallVolume_layout _ 2) (smallVolume_reliable _ 2) twoDirectories_hierarchy
    ⟨by decide, by decide, by decide +kernel⟩ ⟨by decide, by decide, by decide +kernel⟩ (by decide)
    returned).mpr ?_⟩
  intro entry found
  obtain rfl := Option.some.inj (Except.ok.inj (source.symm.trans found))
  refine ⟨fun absent => ?_, fun goal told => Or.inr ⟨Or.inr ?_, fun slot _ chosen => ?_⟩⟩
  · rw [target] at absent
    cases absent
  · obtain rfl := Option.some.inj (Except.ok.inj (target.symm.trans told))
    decide
  · obtain rfl := Option.some.inj (Except.ok.inj (target.symm.trans told))
    have offset := Option.some.inj (Except.ok.inj (taken.symm.trans chosen))
    obtain rfl := Nat.eq_of_mul_eq_mul_left (by decide) offset
    exact free

/-- Moving /a into /a loses it. -/
theorem renameFile_loses_directory : ∃ after,
    (smallVolume twoDirectories 2).Hierarchy ∧ Storable [0x61] ∧
      (smallVolume twoDirectories 2).renameFile [0x61] [0x61] = .ok (true, after) ∧
      ¬ (smallVolume twoDirectories 2).LosesNothing after := by
  have accepted : Run.accepts ((smallVolume twoDirectories 2).renameFile [0x61] [0x61])
      (fun _ => true) = true := by decide +kernel
  obtain ⟨after, returned, -⟩ := Run.exists_of_accepts accepted
  have name : Storable [0x61] := ⟨by decide, by decide, by decide +kernel⟩
  have found : (smallVolume twoDirectories 2).findFile [0x61] =
      .ok (some ⟨3, 0, 0x10, some (2, 64)⟩) := by decide +kernel
  refine ⟨after, twoDirectories_hierarchy, name, returned, ?_⟩
  obtain ⟨source, resolved, looked, ⟨absent, -⟩ | ⟨target, told, aimed, kind, stays | moves⟩⟩ :=
    renameFile_plain_cases (by decide) name.nonempty returned
  · rw [found] at absent
    cases absent
  · obtain rfl := Option.some.inj (Except.ok.inj (found.symm.trans told))
    exact absurd stays.1 (by decide)
  · obtain ⟨elsewhere, middle, entered, edited⟩ := moves
    obtain rfl := Option.some.inj (Except.ok.inj (found.symm.trans resolved))
    obtain rfl := Option.some.inj (Except.ok.inj (found.symm.trans told))
    have tree := twoDirectories_hierarchy.tree
    have inside : (smallVolume twoDirectories 2).DirectoryAt 2 0 := Reach.root
    have goalAt := tree.lookup_directory (smallVolume_layout _ 2) (smallVolume_reliable _ 2) inside
      aimed kind
    rw [tree.losesNothing_moved_iff (smallVolume_layout _ 2) (smallVolume_reliable _ 2) inside looked
      goalAt elsewhere name entered edited aimed kind rfl]
    rintro ⟨dotted | different, -⟩
    · exact absurd dotted (by decide)
    · exact different rfl

end FileSystem

end Pocky
