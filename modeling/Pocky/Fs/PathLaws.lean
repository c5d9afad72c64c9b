import Pocky.Fs.ChainLaws
import Pocky.Fs.RemovalLaws

/-! Paths: their components, and the directories a lookup goes through. -/

namespace Pocky

/-- A path has at least one component. -/
theorem components_ne_nil (path : Name) : components path ≠ [] := by
  -- Every case of the definition starts a list.
  cases path with
  | nil => simp [components]
  | cons byte rest =>
    rw [components]
    split
    · simp
    · split <;> simp

/-- A path without slashes is its only component. -/
theorem components_of_no_slash {path : Name} (whole : cutLastSlash path = none) :
    components path = [path] := by
  -- By induction on the path, whose first byte is no slash either.
  induction path with
  | nil => rfl
  | cons byte rest ih =>
    rw [cutLastSlash] at whole
    split at whole
    · cases whole
    · rename_i inner
      split at whole
      · cases whole
      · rename_i plain
        rw [components, ih inner]
        exact if_neg plain

/-- A path of one component has no slash. -/
theorem cutLastSlash_of_single {path first : Name} (only : components path = [first]) :
    cutLastSlash path = none := by
  -- By induction on the path, whose first byte is no slash.
  induction path generalizing first with
  | nil => rfl
  | cons byte rest ih =>
    rw [components] at only
    rw [cutLastSlash]
    cases parts : components rest with
    | nil => exact absurd parts (components_ne_nil rest)
    | cons head others =>
      rw [parts] at only
      dsimp only at only
      split at only
      · cases only
      · rename_i plain
        cases only
        rw [ih parts]
        exact if_neg plain

/-- The last component of a path is what stands behind its last slash. -/
theorem components_getLast {path directory file : Name}
    (cut : cutLastSlash path = some (directory, file)) :
    (components path).getLast? = some file := by
  -- By induction on the path; a byte in front changes only the first component.
  induction path generalizing directory with
  | nil => cases cut
  | cons byte rest ih =>
    rw [cutLastSlash] at cut
    split at cut
    · rename_i directory' file' inner
      cases cut
      have last := ih inner
      rw [components]
      cases parts : components rest with
      | nil => exact absurd parts (components_ne_nil rest)
      | cons first others =>
        rw [parts] at last
        cases others with
        | nil =>
          -- The last slash lies behind the first byte, so there are two components at least.
          rw [cutLastSlash_of_single parts] at inner
          cases inner
        | cons second others =>
          dsimp only
          split <;> simpa using last
    · rename_i inner
      split at cut
      · rename_i separator
        cases cut
        rw [components, components_of_no_slash inner]
        simp [separator]
      · cases cut
/-- A name is copied unchanged if it leaves room for its zero byte. -/
theorem copyPath_eq_ok {name copy : Name} :
    copyPath name = .ok copy ↔ copy = name ∧ name.length < maxPath := by
  rw [copyPath]
  split
  · rename_i short
    exact ⟨fun same => ⟨(Except.ok.inj same).symm, short⟩, fun same => by rw [same.1]⟩
  · rename_i long
    constructor
    · intro wrong
      cases wrong
    · intro same
      exact absurd same.2 long

/-- A directory reported for itself is one. -/
theorem Found.directory_isDirectory (cluster : Nat) :
    isDirectory (Found.directory cluster).attributes = true := by
  show isDirectory 0x10 = true
  decide

namespace FileSystem

/-- The directory the last component of a path is looked up in. -/
def lastDirectory (fs : FileSystem) : Nat → List Name → Run (Option Nat)
  | startCluster, dirname :: second :: rest => do
    match ← fs.findFileInDirectory startCluster dirname with
    | none => return none
    | some found =>
      if !isDirectory found.attributes then return none
      else fs.lastDirectory found.cluster (second :: rest)
  | startCluster, _ => .ok (some startCluster)

/-- A lookup goes through a directory for every component but the last. -/
theorem findComponents_cons {fs : FileSystem} {start : Nat} {dirname second : Name}
    {rest : List Name} {found : Found}
    (resolved : fs.findComponents start (dirname :: second :: rest) = .ok (some found)) :
    ∃ middle, fs.findFileInDirectory start dirname = .ok (some middle) ∧
      isDirectory middle.attributes = true ∧
      ((second :: rest = [[]] ∧ found = middle) ∨
        fs.findComponents middle.cluster (second :: rest) = .ok (some found)) := by
  rw [findComponents] at resolved
  · obtain ⟨name, copied, lookup⟩ := Run.bind_eq_ok.mp resolved
    obtain ⟨rfl, -⟩ := copyPath_eq_ok.mp copied
    obtain ⟨answer, looked, resolved⟩ := Run.bind_eq_ok.mp lookup
    cases answer with
    | none => cases resolved
    | some middle =>
      dsimp only at resolved
      cases kind : isDirectory middle.attributes with
      | false =>
        rw [kind] at resolved
        cases resolved
      | true =>
        simp only [kind, Bool.not_true, Bool.false_eq_true, if_false] at resolved
        refine ⟨middle, looked, kind, ?_⟩
        split at resolved
        · rename_i blank
          cases resolved
          exact Or.inl ⟨blank, rfl⟩
        · exact Or.inr resolved
  · simp

/-- A path that does not lead to a directory leads to a slot of the last one searched. -/
theorem findComponents_last {fs : FileSystem} {start : Nat} {names : List Name} {found : Found}
    (resolved : fs.findComponents start names = .ok (some found))
    (file : isDirectory found.attributes = false) :
    ∃ directory name, fs.lastDirectory start names = .ok (some directory) ∧
      names.getLast? = some name ∧ fs.findFileInDirectory directory name = .ok (some found) := by
  -- By induction on the components.
  induction names generalizing start with
  | nil =>
    obtain rfl := Option.some.inj (Except.ok.inj resolved)
    rw [Found.directory_isDirectory] at file
    cases file
  | cons dirname rest ih =>
    cases rest with
    | nil =>
      rw [findComponents] at resolved
      split at resolved
      · obtain rfl := Option.some.inj (Except.ok.inj resolved)
        rw [Found.directory_isDirectory] at file
        cases file
      · exact ⟨start, dirname, rfl, rfl, resolved⟩
    | cons second rest =>
      obtain ⟨middle, looked, kind, ⟨-, same⟩ | further⟩ := findComponents_cons resolved
      · rw [same, kind] at file
        cases file
      · obtain ⟨directory, name, last, named, here⟩ := ih further
        refine ⟨directory, name, ?_, by simpa using named, here⟩
        rw [lastDirectory, looked, Run.ok_bind]
        simp only [kind, Bool.not_true, Bool.false_eq_true, if_false]
        exact last

/-- What a lookup in a directory returns was read from one of its sectors. -/
theorem findFileInDirectory_some {fs : FileSystem} (layout : fs.Layout) {directory : Nat}
    {clusters : List Nat} (chain : fs.Chain directory clusters) {name : Name} {found : Found}
    (looked : fs.findFileInDirectory directory name = .ok (some found)) :
    ∃ sector ∈ fs.directorySectors clusters, ∃ offset,
      findName (fs.block sector) name 16 0 = some offset ∧
      found = ⟨entryCluster (fs.block sector) offset, entrySize (fs.block sector) offset,
        entryAttributes (fs.block sector) offset, some (sector, offset)⟩ := by
  rw [findFileInDirectory] at looked
  obtain ⟨answer, scanned, told⟩ := chain.scan_cases layout
    (fun sector data => (findName data name fs.slotsPerSector 0).map fun offset =>
      some ⟨entryCluster data offset, entrySize data offset, entryAttributes data offset,
        some (sector, offset)⟩) (none : Option Found) none
  rw [scanned] at looked
  cases looked
  rcases told with ⟨wrong, -⟩ | first
  · cases wrong
  · cases answered : fs.firstAnswer (fun sector data =>
        (findName data name fs.slotsPerSector 0).map fun offset =>
          some (⟨entryCluster data offset, entrySize data offset, entryAttributes data offset,
            some (sector, offset)⟩ : Found)) (fs.directorySectors clusters) with
    | none =>
      rw [answered] at first
      cases first
    | some inner =>
      rw [answered] at first
      obtain rfl : some found = inner := first
      obtain ⟨sector, member, here⟩ := List.exists_of_findSome?_eq_some answered
      obtain ⟨offset, hit, equal⟩ := Option.map_eq_some_iff.mp here
      rw [slotsPerSector_eq layout.sector] at hit
      exact ⟨sector, member, offset, hit, (Option.some.inj equal).symm⟩

/-- A name is cut nowhere if it has no slash. -/
theorem cutLastSlash_of_notMem {name : Name} (whole : slash ∉ name) : cutLastSlash name = none := by
  -- By induction on the name.
  induction name with
  | nil => rfl
  | cons byte rest ih =>
    obtain ⟨other, later⟩ := not_or.mp (mt List.mem_cons.mpr whole)
    rw [cutLastSlash, ih later]
    exact if_neg fun same => other same.symm

/-- A name without a slash starts at the current directory. -/
theorem startOf_of_notMem (fs : FileSystem) {name : Name} (whole : slash ∉ name) :
    fs.startOf name = (fs.currentDirectoryCluster, name) := by
  cases name with
  | nil => rfl
  | cons byte rest =>
    rw [startOf]
    exact if_neg fun same => whole (by simp [same])

/-- A name without a slash is looked up in the current directory. -/
theorem findFile_of_notMem (fs : FileSystem) {name : Name} (whole : slash ∉ name)
    (filled : name ≠ []) :
    fs.findFile name = fs.findFileInDirectory fs.currentDirectoryCluster name := by
  rw [findFile, startOf_of_notMem fs whole]
  dsimp only
  rw [components_of_no_slash (cutLastSlash_of_notMem whole), findComponents, if_neg filled]

/-- A name without a slash is changed in the current directory. -/
theorem parentOf_of_notMem (fs : FileSystem) {name : Name} (whole : slash ∉ name) :
    fs.parentOf name = .ok (some (fs.currentDirectoryCluster, name)) := by
  rw [parentOf, startOf_of_notMem fs whole]
  dsimp only
  rw [cutLastSlash_of_notMem whole]

/-- A valid name has no slash. -/
theorem slash_notMem_of_valid {name : Name} (valid : validateFileName name = true) :
    slash ∉ name := by
  intro member
  simp only [validateFileName, Bool.and_eq_true, List.all_eq_true, decide_eq_true_eq] at valid
  exact valid.2 slash member (by decide)

/-- A valid name starts in the current directory. -/
theorem startOf_of_valid {fs : FileSystem} {name : Name} (valid : validateFileName name = true) :
    fs.startOf name = (fs.currentDirectoryCluster, name) :=
  fs.startOf_of_notMem (slash_notMem_of_valid valid)

/-- A valid name is looked up in the current directory. -/
theorem findFile_of_valid {fs : FileSystem} {name : Name} (valid : validateFileName name = true) :
    fs.findFile name = fs.findFileInDirectory fs.currentDirectoryCluster name := by
  refine fs.findFile_of_notMem (slash_notMem_of_valid valid) ?_
  rintro rfl
  cases valid

/-- Operations on a valid name change the current directory. -/
theorem parentOf_of_valid {fs : FileSystem} {name : Name} (valid : validateFileName name = true) :
    fs.parentOf name = .ok (some (fs.currentDirectoryCluster, name)) :=
  fs.parentOf_of_notMem (slash_notMem_of_valid valid)

end FileSystem

end Pocky
