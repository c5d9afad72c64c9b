import Pocky.Fs.NestedDeletes

/-! Where paths lead after the calls that a recursive deletion makes for the entries it finds. -/

namespace Pocky

namespace FileSystem

/-- What nested calls have left of a tree, seen from the directory they change. -/
structure Thinned (fs middle : FileSystem) (directory : Nat) : Prop where
  /-- Only the disk has changed. -/
  same : SameVolume fs middle
  /-- A tree is left. -/
  hierarchy : middle.Hierarchy
  /-- What can be reached could be reached. -/
  backward : ∀ {head depth}, middle.Reachable head depth → fs.Reachable head depth
  /-- Lookups tell what they told, unless they are those of the nested calls. -/
  lookups : ∀ {other depth}, middle.DirectoryAt other depth → ∀ {name},
    other ≠ directory ∨ name ≠ placeholder →
    middle.findFileInDirectory other name = fs.findFileInDirectory other name
  /-- So do those, or what they found first cannot be reached any more, nor led to a directory. -/
  nested : middle.findFileInDirectory directory placeholder =
      fs.findFileInDirectory directory placeholder ∨
    ∃ found, fs.Nested directory found ∧
      (isDirectory found.attributes = true → fs.Leaf found.cluster) ∧
      ∀ depth, ¬ middle.DirectoryAt found.cluster depth

/-- The directory that nested calls change, if any call changes one. -/
structure NestedIn (fs : FileSystem) (directory : Nat) : Prop where
  /-- It is the one that the first part of the nested path leads to. -/
  leads : ∀ entry, fs.findFileInDirectory fs.currentDirectoryCluster placeholder =
    .ok (some entry) → entry.cluster = directory
  /-- It is not the current directory. -/
  apart : fs.currentDirectoryCluster ≠ directory

section Steps

variable {fs middle after : FileSystem} {directory : Nat}

/-- There is such a directory. -/
theorem Hierarchy.nestedIn (hierarchy : fs.Hierarchy) (layout : fs.Layout)
    (reliable : fs.Reliable) : ∃ directory, fs.NestedIn directory := by
  obtain ⟨depth, current⟩ := hierarchy.current
  obtain ⟨clusters, links⟩ := hierarchy.tree.chained current
  obtain ⟨answer, looked⟩ := links.findFileInDirectory_returns layout reliable placeholder
  cases answer with
  | none =>
    -- No lookup succeeds, so that any other number will do.
    refine ⟨fs.currentDirectoryCluster + 1, fun entry wrong => ?_, Nat.ne_of_lt (Nat.lt_succ_self _)⟩
    rw [looked] at wrong
    cases wrong
  | some entry =>
    refine ⟨entry.cluster, fun other same => ?_, fun equal => ?_⟩
    · rw [looked] at same
      cases same
      rfl
    · obtain ⟨place, slot, -, -, live, named, cluster, -⟩ :=
        hierarchy.tree.lookup layout reliable current looked
      have proper : fs.nameAt place ≠ dot ∧ fs.nameAt place ≠ dotDot := by
        rw [named]
        decide
      have leads := (fs.slotHead_eq place).mpr ⟨live, proper⟩
      have below : fs.Reachable _ (depth + 1) := Reach.child current ⟨rfl, slot, leads⟩
      have same := hierarchy.tree.head_unique current below (equal.trans cluster)
      rw [← same] at below
      have depths := hierarchy.tree.rooted.depth_unique current below
      omega

/-- Without calls everything is as it was. -/
theorem Thinned.refl (hierarchy : fs.Hierarchy) (directory : Nat) : fs.Thinned fs directory :=
  ⟨SameVolume.refl fs, hierarchy, fun reach => reach, fun _ _ _ => rfl, Or.inl rfl⟩

/-- One more nested call. -/
theorem Thinned.step (thinned : fs.Thinned middle directory) (layout : fs.Layout)
    (reliable : fs.Reliable) (nestedIn : fs.NestedIn directory) (step : middle.NestedStep after) :
    fs.Thinned after directory := by
  have layout' := layout.same thinned.same
  have reliable' := reliable.same thinned.same
  have hierarchy' := step.hierarchy thinned.hierarchy layout' reliable'
  rcases step with rfl | ⟨directory', found, clusters, uproots⟩
  · exact thinned
  · have tree := thinned.hierarchy.tree
    obtain ⟨depth, place, currentAt, inside, leads, removed, notRoot⟩ :=
      uproots.laws thinned.hierarchy layout' reliable'
    have head : middle.Reachable ⟨found.cluster, isDirectory found.attributes⟩ (depth + 1 + 1) :=
      Reach.child inside leads
    have links : middle.Links (⟨found.cluster, isDirectory found.attributes⟩ : Head).cluster
      clusters := uproots.links
    -- The call changes the directory that the path leads to in the first place.
    obtain ⟨entry, looked, kind, equal⟩ := uproots.nested.above
    have current : middle.currentDirectoryCluster = fs.currentDirectoryCluster := by
      rw [thinned.same.fields]
    rw [current] at looked currentAt
    rw [thinned.lookups currentAt (Or.inl nestedIn.apart)] at looked
    obtain rfl : directory = directory' := (nestedIn.leads entry looked).symm.trans equal
    have before : ∀ {other depth}, after.Reachable other depth → middle.Reachable other depth ∧
        other ≠ ⟨found.cluster, isDirectory found.attributes⟩ :=
      uproots.prunes.reachable tree layout' links notRoot inside leads removed
    refine ⟨thinned.same.trans uproots.prunes.same, hierarchy',
      fun reach => thinned.backward (before reach).1, ?_, Or.inr ?_⟩
    · intro other deep reach name elsewhere
      obtain ⟨way, different⟩ := before reach
      rw [uproots.prunes.lookup tree layout' links reliable' head inside way different elsewhere,
        thinned.lookups way elsewhere]
    · rcases thinned.nested with kept | ⟨first, nested, leaf, lost⟩
      · refine ⟨found, ⟨⟨entry, looked, kind, equal⟩, kept ▸ uproots.nested.found⟩, ?_, ?_⟩
        · intro isDir name other looked' kind'
          rw [isDir] at head
          have different : found.cluster ≠ directory := by
            intro same
            rw [same] at head
            have depths := tree.rooted.depth_unique head inside
            omega
          rw [← thinned.lookups head (Or.inl different)] at looked'
          exact uproots.leaf isDir name other looked' kind'
        · intro deep reach
          obtain ⟨way, different⟩ := before reach
          exact different (tree.head_unique way head rfl)
      · exact ⟨first, nested, leaf, fun deep reach => lost deep (before reach).1⟩

/-- A directory whose place another one of the same name has taken. -/
structure Replaced (fs middle : FileSystem) (directory other other' : Nat) : Prop where
  /-- It was the one that the nested path led to. -/
  first : ∃ found, fs.Nested directory found ∧ found.cluster = other ∧ fs.Leaf other
  /-- It had an entry, -/
  leads : ∃ depth place, fs.DirectoryAt directory depth ∧ fs.Entry ⟨directory, true⟩ place ⟨other, true⟩
  /-- and the other one has one. -/
  leads' : ∃ depth place, middle.DirectoryAt directory depth ∧
    middle.Entry ⟨directory, true⟩ place ⟨other', true⟩

/-- Two ways along the same names have come to the same directory, or nearly so. -/
def Alike (fs middle : FileSystem) (directory other other' : Nat) : Prop :=
  (other = other' ∧ ∃ depth, middle.DirectoryAt other depth) ∨
    fs.Replaced middle directory other other'

/-- A lookup that leads to a directory through a proper name has an entry. -/
theorem Tree.entry_of_lookup {fs : FileSystem} (tree : fs.Tree) (layout : fs.Layout)
    (reliable : fs.Reliable) {directory depth : Nat} (inside : fs.DirectoryAt directory depth)
    {name : Name} {found : Found}
    (looked : fs.findFileInDirectory directory name = .ok (some found)) (notDot : name ≠ dot)
    (notDotDot : name ≠ dotDot) : ∃ place : Nat × Nat,
      found.slot = some (place.1, slotSize * place.2) ∧ fs.nameAt place = name ∧
      fs.Entry ⟨directory, true⟩ place ⟨found.cluster, isDirectory found.attributes⟩ := by
  obtain ⟨place, slot, at', -, live, named, cluster, told⟩ :=
    tree.lookup layout reliable inside looked
  have leads := (fs.slotHead_eq place).mpr ⟨live, named ▸ notDot, named ▸ notDotDot⟩
  rw [← told, ← cluster] at leads
  exact ⟨place, at', named, rfl, slot, leads⟩

/-- What one dot leads to. -/
theorem Tree.lookup_dot {fs : FileSystem} (tree : fs.Tree) (layout : fs.Layout)
    (reliable : fs.Reliable) {directory depth : Nat} (inside : fs.DirectoryAt directory depth)
    {found : Found} (looked : fs.findFileInDirectory directory dot = .ok (some found)) :
    found.cluster = directory := by
  obtain ⟨place, slot, -, -, live, named, cluster, -⟩ := tree.lookup layout reliable inside looked
  rw [cluster, (tree.self inside slot live named).2]

/-- What two dots lead to. -/
theorem Tree.lookup_dotDot {fs : FileSystem} (tree : fs.Tree) (layout : fs.Layout)
    (reliable : fs.Reliable) {directory parent depth : Nat} {place : Nat × Nat}
    (above : fs.DirectoryAt parent depth)
    (leads : fs.Entry ⟨parent, true⟩ place ⟨directory, true⟩) {found : Found}
    (looked : fs.findFileInDirectory directory dotDot = .ok (some found)) :
    found.cluster = parent := by
  have inside : fs.DirectoryAt directory (depth + 1) := Reach.child above leads
  obtain ⟨place', slot, -, -, live, named, cluster, -⟩ := tree.lookup layout reliable inside looked
  rcases (tree.parent inside slot live named).2 with ⟨isRoot, -⟩ | ⟨depth', place'', upper, step⟩
  · rw [isRoot] at leads
    exact absurd leads (tree.rooted.rootless above)
  · obtain ⟨same, -⟩ := tree.rooted.unique upper above step leads
    rw [cluster]
    exact congrArg Head.cluster same

end Steps

section Walking

variable {fs middle : FileSystem} {directory : Nat} (thinned : fs.Thinned middle directory)
  (hierarchy : fs.Hierarchy) (layout : fs.Layout) (reliable : fs.Reliable)
include thinned hierarchy layout reliable

/-- One name leads on from directories that are alike to directories that are alike. -/
theorem Thinned.alike_step {other other' : Nat} (alike : fs.Alike middle directory other other')
    {name : Name} {found found' : Found}
    (looked : fs.findFileInDirectory other name = .ok (some found))
    (kind : isDirectory found.attributes = true)
    (looked' : middle.findFileInDirectory other' name = .ok (some found'))
    (kind' : isDirectory found'.attributes = true) :
    fs.Alike middle directory found.cluster found'.cluster := by
  have layout' := layout.same thinned.same
  have reliable' := reliable.same thinned.same
  have tree := hierarchy.tree
  have tree' := thinned.hierarchy.tree
  rcases alike with ⟨rfl, depth, reach⟩ | ⟨⟨first, nested, rfl, leaf⟩, ⟨depth, place, above, leads⟩,
    depth', place', above', leads'⟩
  · have same : middle.findFileInDirectory other name = fs.findFileInDirectory other name →
        fs.Alike middle directory found.cluster found'.cluster := by
      intro equal
      obtain rfl := Option.some.inj (Except.ok.inj (looked.symm.trans (equal.symm.trans looked')))
      exact Or.inl ⟨rfl, _, tree'.lookup_directory layout' reliable' reach looked' kind'⟩
    by_cases elsewhere : other ≠ directory ∨ name ≠ placeholder
    · exact same (thinned.lookups reach elsewhere)
    · obtain ⟨rfl, rfl⟩ : other = directory ∧ name = placeholder := by
        simpa [not_or] using elsewhere
      rcases thinned.nested with equal | ⟨first, nested, leaf, lost⟩
      · exact same equal
      · -- What was found first is gone, and another one has been found.
        obtain rfl := Option.some.inj (Except.ok.inj (looked.symm.trans nested.found))
        obtain ⟨place, -, -, leads⟩ := tree.entry_of_lookup layout reliable (thinned.backward reach)
          looked (by decide) (by decide)
        obtain ⟨place', -, -, leads'⟩ := tree'.entry_of_lookup layout' reliable' reach looked'
          (by decide) (by decide)
        rw [kind] at leads
        rw [kind'] at leads'
        exact Or.inr ⟨⟨found, nested, rfl, leaf kind⟩, ⟨depth, place, thinned.backward reach, leads⟩,
          depth, place', reach, leads'⟩
  · -- From a directory that holds no other one, only the dot names lead on.
    rcases leaf name found looked kind with rfl | rfl
    · have inside : fs.DirectoryAt first.cluster (depth + 1) := Reach.child above leads
      have inside' : middle.DirectoryAt other' (depth' + 1) := Reach.child above' leads'
      rw [tree.lookup_dot layout reliable inside looked,
        tree'.lookup_dot layout' reliable' inside' looked']
      exact Or.inr ⟨⟨first, nested, rfl, leaf⟩, ⟨depth, place, above, leads⟩, depth', place', above',
        leads'⟩
    · rw [tree.lookup_dotDot layout reliable above leads looked,
        tree'.lookup_dotDot layout' reliable' above' leads' looked']
      exact Or.inl ⟨rfl, depth', above'⟩

/-- The same names lead from one directory to directories that are alike. -/
theorem Thinned.alike {names : List Name} {start start' target target' : Nat}
    (alike : fs.Alike middle directory start start') (walks : fs.Walks start names target)
    (walks' : middle.Walks start' names target') :
    fs.Alike middle directory target target' := by
  -- By induction on the way.
  induction walks generalizing start' with
  | nil =>
    cases walks'
    exact alike
  | cons looked kind further ih =>
    cases walks' with
    | cons looked' kind' further' =>
      exact ih (thinned.alike_step hierarchy layout reliable alike looked kind looked' kind') further'

end Walking

/-- What the nested path leads to. -/
theorem Nested.findFile {fs : FileSystem} {directory : Nat} {found : Found}
    (nested : fs.Nested directory found) : fs.findFile slashFormat = .ok (some found) := by
  obtain ⟨entry, looked, kind, rfl⟩ := nested.above
  have copied : copyPath placeholder = .ok placeholder := rfl
  rw [FileSystem.findFile, startOf_slashFormat]
  dsimp only
  rw [components_slashFormat, findComponents, copied, Run.ok_bind, looked, Run.ok_bind]
  · dsimp only
    rw [kind]
    simp only [Bool.not_true, Bool.false_eq_true, if_false]
    rw [if_neg (by decide), findComponents, if_neg (by decide)]
    exact nested.found
  · simp

/-- The path ends with a proper name, which both ways to resolve it look up in one directory. -/
def EndsAtEntry (fs : FileSystem) (path : Name) (parent : Nat) (name : Name) : Prop :=
  name ≠ [] ∧ name ≠ dot ∧ name ≠ dotDot ∧
    fs.lastDirectory (fs.startOf path).1 (components (fs.startOf path).2) = .ok (some parent)

/-- Such a path leads to an entry of the directory. -/
theorem EndsAtEntry.looked {fs : FileSystem} {path name : Name} {parent : Nat}
    (ends : fs.EndsAtEntry path parent name) (hierarchy : fs.Hierarchy) (layout : fs.Layout)
    (reliable : fs.Reliable) {found : Found} (resolved : fs.findFile path = .ok (some found))
    (parentIs : fs.parentOf path = .ok (some (parent, name))) :
    fs.findFileInDirectory parent name = .ok (some found) := by
  obtain ⟨last, depth, depth', resolution⟩ :=
    hierarchy.resolution layout reliable resolved parentIs
  obtain rfl : last = parent :=
    Option.some.inj (Except.ok.inj (resolution.lastIs.symm.trans ends.2.2.2))
  exact resolution.outcome.resolve_left fun wrong => ends.1 wrong.1

/-- After the nested calls a path leads to the same entry, if it still leads to a directory. -/
theorem Thinned.looked {fs middle : FileSystem} {directory : Nat}
    (thinned : fs.Thinned middle directory) (hierarchy : fs.Hierarchy) (layout : fs.Layout)
    (reliable : fs.Reliable) {path name name' : Name} {found : Found} {parent parent' : Nat}
    (resolved : fs.findFile path = .ok (some found)) (kind : isDirectory found.attributes = true)
    (parentIs : fs.parentOf path = .ok (some (parent, name)))
    (ends : fs.EndsAtEntry path parent name)
    (other : fs.findFile slashFormat ≠ .ok (some found))
    (parentIs' : middle.parentOf path = .ok (some (parent', name'))) :
    name' = name ∧ (∃ depth, middle.DirectoryAt parent' depth) ∧
      middle.findFileInDirectory parent' name' = .ok (some found) := by
  have looked := ends.looked hierarchy layout reliable resolved parentIs
  have same : middle.startOf = fs.startOf := by
    rw [thinned.same.fields]
    rfl
  have current : middle.currentDirectoryCluster = fs.currentDirectoryCluster := by
    rw [thinned.same.fields]
  obtain ⟨above, currentAt⟩ := thinned.hierarchy.current
  -- Both resolve the part in front of the name from the same directory.
  obtain ⟨rfl, alike⟩ : name' = name ∧ fs.Alike middle directory parent parent' := by
    rcases parentOf_cases parentIs with ⟨whole, rfl, rfl⟩ | ⟨dirPath, temp, cut, tempIs, isDir, rfl⟩
    · rcases parentOf_cases parentIs' with ⟨-, rfl, rfl⟩ | ⟨dirPath, temp, cut, -⟩
      · obtain ⟨depth, -, startAt, -⟩ := thinned.hierarchy.startOf path
        rw [same] at startAt ⊢
        exact ⟨rfl, Or.inl ⟨rfl, depth, startAt⟩⟩
      · rw [same, whole] at cut
        cases cut
    · rcases parentOf_cases parentIs' with ⟨whole, -⟩ | ⟨dirPath', temp', cut', tempIs', isDir', rfl⟩
      · rw [same, cut] at whole
        cases whole
      · rw [same, cut] at cut'
        cases cut'
        obtain ⟨filled, start⟩ := hierarchy.filled layout reliable resolved cut
        rw [findFile, start] at tempIs
        rw [findFile, same, start] at tempIs'
        have walks := walks_of_findComponents tempIs isDir filled
        have walks' := walks_of_findComponents tempIs' isDir' filled
        rw [current] at currentAt
        exact ⟨rfl, thinned.alike hierarchy layout reliable (Or.inl ⟨rfl, above, currentAt⟩) walks walks'⟩
  refine ⟨rfl, ?_⟩
  rcases alike with ⟨rfl, depth, reach⟩ | ⟨⟨first, -, rfl, leaf⟩, -, -⟩
  · refine ⟨⟨depth, reach⟩, ?_⟩
    by_cases elsewhere : parent ≠ directory ∨ name' ≠ placeholder
    · rw [thinned.lookups reach elsewhere, looked]
    · obtain ⟨rfl, rfl⟩ : parent = directory ∧ name' = placeholder := by
        simpa [not_or] using elsewhere
      rcases thinned.nested with kept | ⟨first, nested, -, -⟩
      · rw [kept, looked]
      · -- The nested calls would have deleted the directory itself.
        obtain rfl := Option.some.inj (Except.ok.inj (looked.symm.trans nested.found))
        exact absurd nested.findFile other
  · exact absurd (leaf _ found looked kind) (not_or.mpr ⟨ends.2.1, ends.2.2.1⟩)

end FileSystem

end Pocky
