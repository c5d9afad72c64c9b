import Pocky.Fs.DeleteFile
import Pocky.Fs.Lookups
import Pocky.Lib.Rooted

/-! The tree of directories and files that hangs from the root, on clusters of any size. -/

namespace Pocky

namespace FileSystem

/-- What the root directory is. -/
def rootHead : Head := ⟨rootCluster, true⟩

/-- A sector of a directory and the number of one of its slots. -/
def SlotOf (fs : FileSystem) (directory : Nat) (place : Nat × Nat) : Prop :=
  ∃ clusters, fs.Links directory clusters ∧ place.1 ∈ fs.directorySectors clusters ∧ place.2 < 16

/-- A slot that holds an entry, be it a dot entry. -/
def LiveAt (fs : FileSystem) (place : Nat × Nat) : Prop :=
  freeByte (fs.block place.1 (slotSize * place.2)) = false ∧
    entryAttributes (fs.block place.1) (slotSize * place.2) ≠ 0x0F

/-- The name in a slot. -/
def nameAt (fs : FileSystem) (place : Nat × Nat) : Name :=
  entryName (fs.block place.1) (slotSize * place.2)

/-- The start cluster in a slot. -/
def clusterAt (fs : FileSystem) (place : Nat × Nat) : Nat :=
  entryCluster (fs.block place.1) (slotSize * place.2)

/-- Whether a slot says that it is that of a directory. -/
def directoryAt (fs : FileSystem) (place : Nat × Nat) : Bool :=
  isDirectory (entryAttributes (fs.block place.1) (slotSize * place.2))

/-- An entry of a directory, and what it leads to; dot entries are not counted. -/
def Entry (fs : FileSystem) (directory : Head) (place : Nat × Nat) (head : Head) : Prop :=
  directory.directory = true ∧ fs.SlotOf directory.cluster place ∧
    slotHead (fs.block place.1) place.2 = some head

/-- What can be reached from the root, and how deep it lies. -/
def Reachable (fs : FileSystem) (head : Head) (depth : Nat) : Prop :=
  Reach fs.Entry rootHead head depth

/-- A directory that can be reached. -/
def DirectoryAt (fs : FileSystem) (cluster depth : Nat) : Prop := fs.Reachable ⟨cluster, true⟩ depth

/-- The directory another one lies in; the root lies in itself. -/
def Parent (fs : FileSystem) (directory parent : Nat) : Prop :=
  (directory = rootCluster ∧ parent = rootCluster) ∨
    ∃ depth place, fs.DirectoryAt parent depth ∧ fs.Entry ⟨parent, true⟩ place ⟨directory, true⟩

/--
The entries that can be reached from the root form a tree of disjoint chains.

The dot entries of a directory lead to itself and to its parent.
-/
structure Tree (fs : FileSystem) : Prop where
  /-- There is one entry for every file and every directory but the root. -/
  rooted : Rooted fs.Entry rootHead
  /-- Files and directories are chains. -/
  chained : ∀ {head depth}, fs.Reachable head depth → ∃ clusters, fs.Links head.cluster clusters
  /-- Different ones have no cluster in common. -/
  apart : ∀ {head head' depth depth' clusters clusters' cluster}, fs.Reachable head depth →
    fs.Reachable head' depth' → fs.Links head.cluster clusters → fs.Links head'.cluster clusters' →
    cluster ∈ clusters → cluster ∈ clusters' → head = head'
  /-- One dot leads to the directory itself. -/
  self : ∀ {directory depth place}, fs.DirectoryAt directory depth → fs.SlotOf directory place →
    fs.LiveAt place → fs.nameAt place = dot →
    fs.directoryAt place = true ∧ fs.clusterAt place = directory
  /-- Two dots lead to its parent. -/
  parent : ∀ {directory depth place}, fs.DirectoryAt directory depth → fs.SlotOf directory place →
    fs.LiveAt place → fs.nameAt place = dotDot →
    fs.directoryAt place = true ∧ fs.Parent directory (fs.clusterAt place)
  /-- Every entry has a name. -/
  named : ∀ {directory depth place}, fs.DirectoryAt directory depth → fs.SlotOf directory place →
    fs.LiveAt place → fs.nameAt place ≠ []

/-- A tree to work in. -/
structure Hierarchy (fs : FileSystem) : Prop where
  /-- The entries form a tree. -/
  tree : fs.Tree
  /-- The current directory is one of it. -/
  current : ∃ depth, fs.DirectoryAt fs.currentDirectoryCluster depth

/-- What a slot leads to. -/
theorem slotHead_eq (fs : FileSystem) (place : Nat × Nat) :
    slotHead (fs.block place.1) place.2 = some ⟨fs.clusterAt place, fs.directoryAt place⟩ ↔
      fs.LiveAt place ∧ fs.nameAt place ≠ dot ∧ fs.nameAt place ≠ dotDot := by
  rw [slotHead, LiveAt, nameAt, clusterAt, directoryAt]
  split
  · rename_i nowhere
    constructor
    · intro wrong
      cases wrong
    · rintro ⟨⟨live, kind⟩, notDot, notDotDot⟩
      rcases nowhere with free | long | one | two
      · rw [free] at live
        cases live
      · exact absurd long kind
      · exact absurd one notDot
      · exact absurd two notDotDot
  · rename_i somewhere
    simp only [not_or, Bool.not_eq_true] at somewhere
    exact ⟨fun _ => ⟨⟨somewhere.1, somewhere.2.1⟩, somewhere.2.2⟩, fun _ => rfl⟩

/-- A slot that leads somewhere leads to what it says. -/
theorem slotHead_some {fs : FileSystem} {place : Nat × Nat} {head : Head}
    (leads : slotHead (fs.block place.1) place.2 = some head) :
    head = ⟨fs.clusterAt place, fs.directoryAt place⟩ ∧ fs.LiveAt place ∧ fs.nameAt place ≠ dot ∧
      fs.nameAt place ≠ dotDot := by
  have told : head = ⟨fs.clusterAt place, fs.directoryAt place⟩ := by
    rw [slotHead] at leads
    split at leads
    · cases leads
    · exact (Option.some.inj leads).symm
  rw [told] at leads
  exact ⟨told, (fs.slotHead_eq place).mp leads⟩

variable {fs : FileSystem}

/-- There is one chain of the table's bytes from a cluster. -/
theorem Links.eq {start : Nat} {clusters clusters' : List Nat} (layout : fs.Layout)
    (links : fs.Links start clusters) (links' : fs.Links start clusters') : clusters = clusters' :=
  ChainFrom.unique links links' fun _ valid => (layout.not_mark valid).2

/-- The depth a component of a path leads to. -/
def stepDepth (depth : Nat) (name : Name) : Nat :=
  if name = dot then depth else if name = dotDot then depth - 1 else depth + 1

/-- A component leads from a deeper directory at least as deep as from another one. -/
theorem stepDepth_mono {depth depth' : Nat} (deeper : depth ≤ depth') (name : Name) :
    stepDepth depth name ≤ stepDepth depth' name := by
  unfold stepDepth
  split
  · exact deeper
  · split
    · exact Nat.sub_le_sub_right deeper 1
    · exact Nat.succ_le_succ deeper

/-- All components together do. -/
theorem foldl_stepDepth_mono (names : List Name) {depth depth' : Nat} (deeper : depth ≤ depth') :
    names.foldl stepDepth depth ≤ names.foldl stepDepth depth' := by
  -- By induction on the components.
  induction names generalizing depth depth' with
  | nil => exact deeper
  | cons name rest ih => exact ih (stepDepth_mono deeper name)

namespace Tree

/-- The slot a lookup has found. -/
theorem lookup (tree : fs.Tree) (layout : fs.Layout) (reliable : fs.Reliable)
    {directory depth : Nat} (inside : fs.DirectoryAt directory depth) {name : Name} {found : Found}
    (looked : fs.findFileInDirectory directory name = .ok (some found)) :
    ∃ place, fs.SlotOf directory place ∧ found.slot = some (place.1, slotSize * place.2) ∧
      findName (fs.block place.1) name 16 0 = some (slotSize * place.2) ∧ fs.LiveAt place ∧
      fs.nameAt place = name ∧ found.cluster = fs.clusterAt place ∧
      isDirectory found.attributes = fs.directoryAt place := by
  obtain ⟨clusters, links⟩ := tree.chained inside
  obtain ⟨sector, member, offset, hit, rfl⟩ :=
    findFileInDirectory_some layout (links.chain layout reliable) looked
  obtain ⟨slot, small, place, live, kind, named, -⟩ := findName_some hit
  rw [Nat.zero_add] at place
  subst place
  exact ⟨(sector, slot), ⟨clusters, links, member, small⟩, rfl, hit, ⟨live, kind⟩, named, rfl, rfl⟩

/-- An empty name is not found. -/
theorem lookup_ne_nil (tree : fs.Tree) (layout : fs.Layout) (reliable : fs.Reliable)
    {directory depth : Nat} (inside : fs.DirectoryAt directory depth) {name : Name} {found : Found}
    (looked : fs.findFileInDirectory directory name = .ok (some found)) : name ≠ [] := by
  obtain ⟨place, slot, -, -, live, named, -⟩ := tree.lookup layout reliable inside looked
  rw [← named]
  exact tree.named inside slot live

/-- The directory another one lies in is one of the tree, one step less deep. -/
theorem parent_at (tree : fs.Tree) {directory parent depth : Nat}
    (inside : fs.DirectoryAt directory depth) (above : fs.Parent directory parent) :
    fs.DirectoryAt parent (depth - 1) := by
  rcases above with ⟨rfl, rfl⟩ | ⟨depth', place, reach, leads⟩
  · have zero := tree.rooted.depth_unique inside (Reach.root : fs.Reachable rootHead 0)
    rw [zero]
    exact Reach.root
  · have deeper := tree.rooted.child_depth reach leads inside
    rw [deeper]
    exact reach

/-- A lookup that leads to a directory leads to one of the tree, at the depth its name tells. -/
theorem lookup_directory (tree : fs.Tree) (layout : fs.Layout) (reliable : fs.Reliable)
    {directory depth : Nat} (inside : fs.DirectoryAt directory depth) {name : Name} {found : Found}
    (looked : fs.findFileInDirectory directory name = .ok (some found))
    (kind : isDirectory found.attributes = true) :
    fs.DirectoryAt found.cluster (stepDepth depth name) := by
  obtain ⟨place, slot, -, -, live, named, cluster, told⟩ :=
    tree.lookup layout reliable inside looked
  rw [cluster, stepDepth]
  by_cases one : name = dot
  · rw [if_pos one, (tree.self inside slot live (named.trans one)).2]
    exact inside
  · rw [if_neg one]
    by_cases two : name = dotDot
    · rw [if_pos two]
      exact tree.parent_at inside (tree.parent inside slot live (named.trans two)).2
    · rw [if_neg two]
      have leads := (fs.slotHead_eq place).mpr ⟨live, named ▸ one, named ▸ two⟩
      rw [← told, kind] at leads
      exact Reach.child inside ⟨rfl, slot, leads⟩

end Tree

/-- The directories of the tree are well formed. -/
theorem Hierarchy.wellFormed (hierarchy : fs.Hierarchy) (layout : fs.Layout) (reliable : fs.Reliable) :
    fs.WellFormed fun cluster => ∃ depth, fs.DirectoryAt cluster depth := by
  refine ⟨⟨0, Reach.root⟩, hierarchy.current, ?_, ?_, ?_⟩
  · rintro cluster ⟨depth, inside⟩
    obtain ⟨clusters, links⟩ := hierarchy.tree.chained inside
    exact ⟨clusters, links.chain layout reliable⟩
  · rintro cluster other clusters others ⟨depth, inside⟩ ⟨depth', inside'⟩ chain chain'
      ⟨shared, here, there⟩
    have same := hierarchy.tree.apart inside inside' (chain.links layout) (chain'.links layout) here there
    exact congrArg Head.cluster same
  · rintro cluster clusters ⟨depth, inside⟩ chain sector member slot small live kind
    have place : fs.SlotOf cluster (sector, slot) := ⟨clusters, chain.links layout, member, small⟩
    have alive : fs.LiveAt (sector, slot) := ⟨live, kind⟩
    show if fs.directoryAt (sector, slot) = true then
        ∃ depth, fs.DirectoryAt (fs.clusterAt (sector, slot)) depth
      else ∃ file, fs.Chain (fs.clusterAt (sector, slot)) file
    by_cases one : fs.nameAt (sector, slot) = dot
    · obtain ⟨told, leads⟩ := hierarchy.tree.self inside place alive one
      rw [if_pos told]
      refine ⟨depth, ?_⟩
      rw [leads]
      exact inside
    · by_cases two : fs.nameAt (sector, slot) = dotDot
      · obtain ⟨told, above⟩ := hierarchy.tree.parent inside place alive two
        rw [if_pos told]
        exact ⟨_, hierarchy.tree.parent_at inside above⟩
      · have leads := (fs.slotHead_eq (sector, slot)).mpr ⟨alive, one, two⟩
        have reach := Reach.child inside ⟨rfl, place, leads⟩
        split
        · rename_i told
          rw [told] at reach
          exact ⟨_, reach⟩
        · obtain ⟨file, links⟩ := hierarchy.tree.chained reach
          exact ⟨file, links.chain layout reliable⟩

/-- Going from directory to directory along names. -/
inductive Walks (fs : FileSystem) : Nat → List Name → Nat → Prop where
  /-- No name leads nowhere. -/
  | nil (directory : Nat) : Walks fs directory [] directory
  /-- The first name is that of a directory, from which the others lead on. -/
  | cons {directory target : Nat} {name : Name} {rest : List Name} {found : Found}
      (looked : fs.findFileInDirectory directory name = .ok (some found))
      (kind : isDirectory found.attributes = true) (further : Walks fs found.cluster rest target) :
      Walks fs directory (name :: rest) target

/-- A way along names leads to one directory. -/
theorem Walks.unique {start target target' : Nat} {names : List Name}
    (walks : fs.Walks start names target) (walks' : fs.Walks start names target') :
    target = target' := by
  -- By induction on the way.
  induction walks with
  | nil =>
    cases walks'
    rfl
  | cons looked kind further ih =>
    cases walks' with
    | cons looked' kind' further' =>
      obtain rfl := Option.some.inj (Except.ok.inj (looked.symm.trans looked'))
      exact ih further'

/-- A way along names stays in the tree, at the depth the names tell. -/
theorem Walks.directoryAt (tree : fs.Tree) (layout : fs.Layout) (reliable : fs.Reliable)
    {start target depth : Nat} {names : List Name} (walks : fs.Walks start names target)
    (inside : fs.DirectoryAt start depth) : fs.DirectoryAt target (names.foldl stepDepth depth) := by
  -- By induction on the way.
  induction walks generalizing depth with
  | nil => exact inside
  | cons looked kind further ih =>
    exact ih (tree.lookup_directory layout reliable inside looked kind)

/-- The names on a way are not empty. -/
theorem Walks.ne_nil (tree : fs.Tree) (layout : fs.Layout) (reliable : fs.Reliable)
    {start target depth : Nat} {names : List Name} (walks : fs.Walks start names target)
    (inside : fs.DirectoryAt start depth) : ∀ name ∈ names, name ≠ [] := by
  -- By induction on the way.
  induction walks generalizing depth with
  | nil => simp
  | cons looked kind further ih =>
    rw [List.forall_mem_cons]
    exact ⟨tree.lookup_ne_nil layout reliable inside looked,
      ih (tree.lookup_directory layout reliable inside looked kind)⟩

/-- Resolving a path to a directory goes along its names. -/
theorem walks_of_findComponents {start : Nat} {names : List Name} {found : Found}
    (resolved : fs.findComponents start names = .ok (some found))
    (kind : isDirectory found.attributes = true) (filled : ∀ name ∈ names, name ≠ []) :
    fs.Walks start names found.cluster := by
  -- By induction on the names.
  induction names generalizing start with
  | nil =>
    obtain rfl := Option.some.inj (Except.ok.inj resolved)
    exact .nil start
  | cons name rest ih =>
    cases rest with
    | nil =>
      rw [findComponents, if_neg (filled name List.mem_cons_self)] at resolved
      exact .cons resolved kind (.nil _)
    | cons second rest =>
      obtain ⟨middle, looked, middleKind, ⟨blank, -⟩ | further⟩ := findComponents_cons resolved
      · exact absurd (List.cons.inj blank).1 (filled second (by simp))
      · exact .cons looked middleKind
          (ih further fun other member => filled other (List.mem_cons_of_mem _ member))

/-- A path cut at its last slash has one component more than the part in front. -/
theorem components_cut {path directory file : Name}
    (cut : cutLastSlash path = some (directory, file)) :
    components path = components directory ++ [file] := by
  -- By induction on the path; a byte in front goes to the first component of both.
  induction path generalizing directory with
  | nil => cases cut
  | cons byte rest ih =>
    rw [cutLastSlash] at cut
    split at cut
    · rename_i directory' file' inner
      cases cut
      have shape := ih inner
      rw [components, shape, components]
      cases parts : components directory' with
      | nil => exact absurd parts (components_ne_nil directory')
      | cons first others =>
        simp only [List.cons_append]
        split <;> rfl
    · rename_i inner
      split at cut
      · rename_i separator
        cases cut
        have only := components_of_no_slash inner
        simp only [components, only, separator, if_true, List.singleton_append]
      · cases cut

/-- Resolving a path goes along the names in front of the last one. -/
theorem walks_of_findComponents_concat {start : Nat} {names : List Name} {name : Name}
    {found : Found} (resolved : fs.findComponents start (names ++ [name]) = .ok (some found)) :
    ∃ last, fs.Walks start names last ∧
      fs.lastDirectory start (names ++ [name]) = .ok (some last) ∧
      ((name = [] ∧ found.cluster = last ∧ isDirectory found.attributes = true) ∨
        fs.findFileInDirectory last name = .ok (some found)) := by
  -- By induction on the names in front.
  induction names generalizing start with
  | nil =>
    rw [List.nil_append, findComponents] at resolved
    refine ⟨start, .nil start, rfl, ?_⟩
    split at resolved
    · rename_i blank
      obtain rfl := Option.some.inj (Except.ok.inj resolved)
      exact Or.inl ⟨blank, rfl, Found.directory_isDirectory start⟩
    · exact Or.inr resolved
  | cons first rest ih =>
    obtain ⟨second, others, shape⟩ : ∃ second others, rest ++ [name] = second :: others := by
      cases rest with
      | nil => exact ⟨name, [], rfl⟩
      | cons second others => exact ⟨second, others ++ [name], rfl⟩
    rw [List.cons_append, shape] at resolved
    obtain ⟨middle, looked, kind, outcome⟩ := findComponents_cons resolved
    have step : ∀ last, fs.lastDirectory middle.cluster (rest ++ [name]) = .ok (some last) →
        fs.lastDirectory start (first :: rest ++ [name]) = .ok (some last) := by
      intro last found
      rw [List.cons_append, shape, lastDirectory, looked, Run.ok_bind]
      simp only [kind, Bool.not_true, Bool.false_eq_true, if_false]
      rw [← shape]
      exact found
    rcases outcome with ⟨blank, rfl⟩ | further
    · -- The path ends with a slash behind this name.
      rw [blank] at shape
      obtain ⟨rfl, only⟩ : rest = [] ∧ [name] = [[]] := by
        cases rest with
        | nil => exact ⟨rfl, shape⟩
        | cons second others =>
          have lengths := congrArg List.length shape
          simp at lengths
      refine ⟨found.cluster, .cons looked kind (.nil _), step _ rfl, Or.inl ⟨?_, rfl, kind⟩⟩
      exact (List.cons.inj only).1
    · rw [← shape] at further
      obtain ⟨last, walks, lastIs, outcome⟩ := ih further
      exact ⟨last, .cons looked kind walks, step last lastIs, outcome⟩

/-- How the two ways a path is resolved lie to each other. -/
structure Resolution (fs : FileSystem) (path : Name) (found : Found) (parent : Nat) (name : Name)
    (last depth depth' : Nat) : Prop where
  /-- The lookup looks for the last component in this directory, -/
  lastIs : fs.lastDirectory (fs.startOf path).1 (components (fs.startOf path).2) = .ok (some last)
  /-- which is one of the tree. -/
  lastAt : fs.DirectoryAt last depth
  /-- So is the one the operation changes, -/
  parentAt : fs.DirectoryAt parent depth'
  /-- which lies as deep or deeper. -/
  deeper : depth ≤ depth'
  /-- The path ends with a slash, or its last component is found there. -/
  outcome : (name = [] ∧ found.cluster = last ∧ isDirectory found.attributes = true) ∨
    fs.findFileInDirectory last name = .ok (some found)

/-- A path starts at a directory that is not deeper than the current one. -/
theorem Hierarchy.startOf (hierarchy : fs.Hierarchy) (path : Name) :
    ∃ depth depth', fs.DirectoryAt (fs.startOf path).1 depth ∧
      fs.DirectoryAt fs.currentDirectoryCluster depth' ∧ depth ≤ depth' := by
  obtain ⟨depth, current⟩ := hierarchy.current
  cases path with
  | nil => exact ⟨depth, depth, current, current, Nat.le_refl _⟩
  | cons byte rest =>
    rw [FileSystem.startOf]
    split
    · exact ⟨0, depth, Reach.root, current, Nat.zero_le _⟩
    · exact ⟨depth, depth, current, current, Nat.le_refl _⟩

/-- A path that leads to a directory leads to one of the tree. -/
theorem Hierarchy.foundAt (hierarchy : fs.Hierarchy) (layout : fs.Layout) (reliable : fs.Reliable)
    {path : Name} {found : Found} (resolved : fs.findFile path = .ok (some found))
    (kind : isDirectory found.attributes = true) : ∃ depth, fs.DirectoryAt found.cluster depth := by
  have tree := hierarchy.wellFormed layout reliable
  exact tree.findComponents layout (tree.startOf path) resolved kind

/-- The directory that an operation changes is one of the tree. -/
theorem Hierarchy.parentAt (hierarchy : fs.Hierarchy) (layout : fs.Layout) (reliable : fs.Reliable)
    {path name : Name} {parent : Nat} (parentIs : fs.parentOf path = .ok (some (parent, name))) :
    ∃ depth, fs.DirectoryAt parent depth := by
  rcases parentOf_cases parentIs with ⟨-, rfl, -⟩ | ⟨dirPath, found, -, resolved, kind, rfl⟩
  · exact (hierarchy.wellFormed layout reliable).startOf path
  · exact hierarchy.foundAt layout reliable resolved kind

/-- The part of a path in front of its last slash has no empty component, if the path was found. -/
theorem Hierarchy.filled (hierarchy : fs.Hierarchy) (layout : fs.Layout) (reliable : fs.Reliable)
    {path dirPath name : Name} {found : Found} (resolved : fs.findFile path = .ok (some found))
    (cut : cutLastSlash (fs.startOf path).2 = some (dirPath, name)) :
    (∀ name ∈ components dirPath, name ≠ []) ∧
      fs.startOf dirPath = (fs.currentDirectoryCluster, dirPath) := by
  obtain ⟨depth, depth', startAt, -, -⟩ := hierarchy.startOf path
  rw [findFile] at resolved
  dsimp only at resolved
  rw [components_cut cut] at resolved
  obtain ⟨last, walks, -, -⟩ := walks_of_findComponents_concat resolved
  have filled := walks.ne_nil hierarchy.tree layout reliable startAt
  refine ⟨filled, ?_⟩
  -- So it starts with a name.
  cases dirPath with
  | nil => rfl
  | cons byte rest =>
    rw [FileSystem.startOf]
    split
    · rename_i separator
      refine absurd rfl (filled [] ?_)
      rw [components]
      cases parts : components rest with
      | nil => exact absurd parts (components_ne_nil rest)
      | cons first others => simp [separator]
    · rfl

/-- A path that has been found and whose parent has been found is resolved in two ways. -/
theorem Hierarchy.resolution (hierarchy : fs.Hierarchy) (layout : fs.Layout)
    (reliable : fs.Reliable) {path name : Name} {found : Found} {parent : Nat}
    (resolved : fs.findFile path = .ok (some found))
    (parentIs : fs.parentOf path = .ok (some (parent, name))) :
    ∃ last depth depth', fs.Resolution path found parent name last depth depth' := by
  obtain ⟨depth, depth', startAt, currentAt, deeper⟩ := hierarchy.startOf path
  rcases parentOf_cases parentIs with ⟨whole, rfl, rfl⟩ | ⟨dirPath, temp, cut, tempIs, kind, rfl⟩
  · -- Without a slash both look in the directory where the path starts.
    have shape : components (fs.startOf path).2 = [] ++ [(fs.startOf path).2] :=
      components_of_no_slash whole
    rw [findFile] at resolved
    dsimp only at resolved
    rw [shape] at resolved
    obtain ⟨last, walks, lastIs, outcome⟩ := walks_of_findComponents_concat resolved
    cases walks
    exact ⟨_, depth, depth, by rw [shape]; exact lastIs, startAt, startAt, Nat.le_refl _, outcome⟩
  · obtain ⟨filled, start⟩ := hierarchy.filled layout reliable resolved cut
    have shape := components_cut cut
    rw [findFile] at resolved
    dsimp only at resolved
    rw [shape] at resolved
    obtain ⟨last, walks, lastIs, outcome⟩ := walks_of_findComponents_concat resolved
    rw [findFile, start] at tempIs
    have walks' := walks_of_findComponents tempIs kind filled
    exact ⟨last, _, _, by rw [shape]; exact lastIs,
      walks.directoryAt hierarchy.tree layout reliable startAt,
      walks'.directoryAt hierarchy.tree layout reliable currentAt,
      foldl_stepDepth_mono _ deeper, outcome⟩

end FileSystem

end Pocky
