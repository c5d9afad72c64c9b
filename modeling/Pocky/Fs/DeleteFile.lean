import Pocky.Fs.PathLaws

/-! When deleting a file removes the entry its path leads to, and nothing else. -/

namespace Pocky

namespace FileSystem

/-- Directories with chains of their own, whose entries lead to directories or to chains. -/
structure WellFormed (fs : FileSystem) (directory : Nat → Prop) : Prop where
  /-- The root is a directory. -/
  root : directory rootCluster
  /-- So is the current directory. -/
  current : directory fs.currentDirectoryCluster
  /-- A directory is a chain. -/
  chained : ∀ cluster, directory cluster → ∃ clusters, fs.Chain cluster clusters
  /-- Different directories have no cluster in common. -/
  disjoint : ∀ cluster other clusters others, directory cluster → directory other →
    fs.Chain cluster clusters → fs.Chain other others → (∃ shared ∈ clusters, shared ∈ others) →
    cluster = other
  /-- A live entry leads to a directory or to the chain of a file. -/
  entries : ∀ cluster clusters, directory cluster → fs.Chain cluster clusters →
    ∀ sector ∈ fs.directorySectors clusters, ∀ slot < 16,
      freeByte (fs.block sector (slotSize * slot)) = false →
      entryAttributes (fs.block sector) (slotSize * slot) ≠ 0x0F →
      if isDirectory (entryAttributes (fs.block sector) (slotSize * slot)) then
        directory (entryCluster (fs.block sector) (slotSize * slot))
      else ∃ file, fs.Chain (entryCluster (fs.block sector) (slotSize * slot)) file

/--
The entry a path leads to is marked as deleted and its chain is freed.

No other byte of the data area and no other entry of the table has changed.
-/
def Removes (fs after : FileSystem) (path : Name) : Prop :=
  ∃ found sector offset clusters, fs.findFile path = .ok (some found) ∧
    found.slot = some (sector, offset) ∧ fs.Chain found.cluster clusters ∧
    (∀ other, fs.firstDataSector ≤ other → after.block other =
      if other = sector then Function.update (fs.block sector) offset 0xE5 else fs.block other) ∧
    ∀ cluster < fs.totalClusters, after.fatEntry cluster =
      if cluster ∈ clusters then 0 else fs.fatEntry cluster

/--
The two ways a path is resolved lead to one entry.

The part before the last slash is resolved without the leading slash of the path.
-/
structure Unambiguous (fs : FileSystem) (path : Name) : Prop where
  /-- That part leads to the directory in which the whole path ends. -/
  directory : ∀ dirPath fileName, cutLastSlash (fs.startOf path).2 = some (dirPath, fileName) →
    ∃ found, fs.findFile dirPath = .ok (some found) ∧
      fs.lastDirectory (fs.startOf path).1 (components (fs.startOf path).2) =
        .ok (some found.cluster)
  /-- One sector of that directory has the name. -/
  once : ∀ cluster clusters name,
    fs.lastDirectory (fs.startOf path).1 (components (fs.startOf path).2) = .ok (some cluster) →
    fs.Chain cluster clusters → (components (fs.startOf path).2).getLast? = some name →
    ∀ sector ∈ fs.directorySectors clusters, ∀ other ∈ fs.directorySectors clusters,
      hasName name (fs.block sector) = true → hasName name (fs.block other) = true → sector = other
  /-- The device reads and writes the entries of the chain, after the one write of the mark. -/
  device : ∀ found clusters, fs.findFile path = .ok (some found) →
    fs.Chain found.cluster clusters → fs.Frees (fs.disk.clock + 1) clusters

/-- An entry found in a directory leads to a directory or to a chain. -/
theorem WellFormed.lookup {fs : FileSystem} (layout : fs.Layout) {directory : Nat → Prop}
    (tree : fs.WellFormed directory) {cluster : Nat} (inside : directory cluster) {name : Name}
    {found : Found} (looked : fs.findFileInDirectory cluster name = .ok (some found)) :
    if isDirectory found.attributes then directory found.cluster
    else ∃ file, fs.Chain found.cluster file := by
  -- The slot it was read from is live and has a place in one of the directory's sectors.
  obtain ⟨clusters, chain⟩ := tree.chained cluster inside
  obtain ⟨sector, member, offset, hit, rfl⟩ := findFileInDirectory_some layout chain looked
  obtain ⟨slot, small, place, live, attributes, -⟩ := findName_some hit
  rw [Nat.zero_add] at place
  subst place
  exact tree.entries cluster clusters inside chain sector member slot small live attributes

/-- A path that leads to a directory leads to one of the tree. -/
theorem WellFormed.findComponents {fs : FileSystem} (layout : fs.Layout) {directory : Nat → Prop}
    (tree : fs.WellFormed directory) {start : Nat} (inside : directory start) {names : List Name}
    {found : Found} (resolved : fs.findComponents start names = .ok (some found))
    (kind : isDirectory found.attributes = true) : directory found.cluster := by
  -- By induction on the components.
  induction names generalizing start with
  | nil =>
    obtain rfl := Option.some.inj (Except.ok.inj resolved)
    exact inside
  | cons dirname rest ih =>
    cases rest with
    | nil =>
      rw [FileSystem.findComponents] at resolved
      split at resolved
      · obtain rfl := Option.some.inj (Except.ok.inj resolved)
        exact inside
      · have leads := tree.lookup layout inside resolved
        rwa [if_pos kind] at leads
    | cons second rest =>
      obtain ⟨middle, looked, middleKind, outcome⟩ := findComponents_cons resolved
      have leads := tree.lookup layout inside looked
      rw [if_pos middleKind] at leads
      rcases outcome with ⟨-, rfl⟩ | further
      · exact leads
      · exact ih leads further

/-- The directory a path ends in belongs to the tree. -/
theorem WellFormed.lastDirectory {fs : FileSystem} (layout : fs.Layout) {directory : Nat → Prop}
    (tree : fs.WellFormed directory) {start cluster : Nat} (inside : directory start)
    {names : List Name} (last : fs.lastDirectory start names = .ok (some cluster)) :
    directory cluster := by
  -- By induction on the components.
  induction names generalizing start with
  | nil =>
    cases last
    exact inside
  | cons dirname rest ih =>
    cases rest with
    | nil =>
      cases last
      exact inside
    | cons second rest =>
      rw [FileSystem.lastDirectory] at last
      obtain ⟨answer, looked, further⟩ := Run.bind_eq_ok.mp last
      cases answer with
      | none => cases further
      | some middle =>
        dsimp only at further
        cases kind : isDirectory middle.attributes with
        | false =>
          rw [kind] at further
          cases further
        | true =>
          simp only [kind, Bool.not_true, Bool.false_eq_true, if_false] at further
          have leads := tree.lookup layout inside looked
          rw [if_pos kind] at leads
          exact ih leads further

/-- Paths start at a directory of the tree. -/
theorem WellFormed.startOf {fs : FileSystem} {directory : Nat → Prop}
    (tree : fs.WellFormed directory) (path : Name) : directory (fs.startOf path).1 := by
  cases path with
  | nil => exact tree.current
  | cons byte rest =>
    rw [FileSystem.startOf]
    split
    · exact tree.root
    · exact tree.current

/-- How an operation gets from a path to a directory and a name. -/
theorem parentOf_cases {fs : FileSystem} {path fileName : Name} {cluster : Nat}
    (parent : fs.parentOf path = .ok (some (cluster, fileName))) :
    (cutLastSlash (fs.startOf path).2 = none ∧ cluster = (fs.startOf path).1 ∧
      fileName = (fs.startOf path).2) ∨
    ∃ dirPath found, cutLastSlash (fs.startOf path).2 = some (dirPath, fileName) ∧
      fs.findFile dirPath = .ok (some found) ∧ isDirectory found.attributes = true ∧
      cluster = found.cluster := by
  rw [parentOf] at parent
  dsimp only at parent
  split at parent
  · rename_i whole
    cases parent
    exact Or.inl ⟨whole, rfl, rfl⟩
  · rename_i dirPath rest cut
    obtain ⟨copy, copied, lookup⟩ := Run.bind_eq_ok.mp parent
    obtain ⟨rfl, -⟩ := copyPath_eq_ok.mp copied
    obtain ⟨answer, resolved, further⟩ := Run.bind_eq_ok.mp lookup
    cases answer with
    | none => cases further
    | some found =>
      dsimp only at further
      cases kind : isDirectory found.attributes with
      | false =>
        rw [kind] at further
        cases further
      | true =>
        simp only [kind, Bool.not_true, Bool.false_eq_true, if_false] at further
        cases further
        exact Or.inr ⟨copy, found, cut, resolved, kind, rfl⟩

/-- The steps of a deletion that succeeded. -/
theorem deleteFile_cases {fs after : FileSystem} {path : Name}
    (returned : fs.deleteFile path = .ok (true, after)) :
    ∃ found cluster fileName middle, fs.findFile path = .ok (some found) ∧
      isDirectory found.attributes = false ∧ fs.parentOf path = .ok (some (cluster, fileName)) ∧
      fs.markChain fileName walkSteps cluster = .ok (true, middle) ∧
      middle.freeChain walkSteps found.cluster = .ok after := by
  obtain ⟨answer, resolved, further⟩ := Run.bind_eq_ok.mp returned
  cases answer with
  | none => cases further
  | some found =>
    dsimp only at further
    cases kind : isDirectory found.attributes with
    | true =>
      rw [kind] at further
      cases further
    | false =>
      rw [kind, if_neg (by decide)] at further
      obtain ⟨answer, parent, further⟩ := Run.bind_eq_ok.mp further
      cases answer with
      | none => cases further
      | some place =>
        obtain ⟨cluster, fileName⟩ := place
        obtain ⟨⟨told, middle⟩, marking, further⟩ := Run.bind_eq_ok.mp further
        cases told with
        | false => cases further
        | true =>
          obtain ⟨last, freeing, further⟩ := Run.bind_eq_ok.mp further
          cases further
          exact ⟨found, cluster, fileName, middle, resolved, kind, parent, marking, freeing⟩

/-- The name an operation looks for is the last component of the path. -/
theorem parentOf_name {fs : FileSystem} {path fileName : Name} {cluster : Nat}
    (parent : fs.parentOf path = .ok (some (cluster, fileName))) :
    (components (fs.startOf path).2).getLast? = some fileName := by
  rcases parentOf_cases parent with ⟨whole, -, rfl⟩ | ⟨dirPath, found, cut, -, -, -⟩
  · rw [components_of_no_slash whole]
    rfl
  · exact components_getLast cut

/-- The sectors of a chain are different. -/
theorem Chain.directorySectors_nodup {fs : FileSystem} (layout : fs.Layout) {clusters : List Nat}
    (nodup : clusters.Nodup) (valid : ∀ cluster ∈ clusters, fs.InVolume cluster) :
    (fs.directorySectors clusters).Nodup := by
  -- By induction on the clusters, which share no sectors.
  induction clusters with
  | nil => exact List.nodup_nil
  | cons cluster rest ih =>
    obtain ⟨absent, nodup⟩ := List.nodup_cons.mp nodup
    have others : ∀ other ∈ rest, fs.InVolume other := fun other member =>
      valid other (List.mem_cons_of_mem _ member)
    have inside := valid cluster List.mem_cons_self
    rw [directorySectors_cons, List.nodup_append]
    refine ⟨layout.clusterSectors_nodup inside, ih nodup others, ?_⟩
    rintro sector here other there rfl
    exact layout.directorySectors_disjoint inside others absent sector there here

/-- The sectors of a chain lie in the data area. -/
theorem Chain.directorySectors_high {fs : FileSystem} (layout : fs.Layout) {start : Nat}
    {clusters : List Nat} (chain : fs.Chain start clusters) :
    ∀ sector ∈ fs.directorySectors clusters, fs.firstDataSector ≤ sector := by
  intro sector member
  obtain ⟨cluster, inside, here⟩ := mem_directorySectors.mp member
  exact layout.clusterSectors_high (chain.valid cluster inside) here

/-- Two directories with a common sector are one. -/
theorem WellFormed.same_directory {fs : FileSystem} (layout : fs.Layout) {directory : Nat → Prop}
    (tree : fs.WellFormed directory) {cluster other : Nat} {clusters others : List Nat}
    (inside : directory cluster) (inside' : directory other) (chain : fs.Chain cluster clusters)
    (chain' : fs.Chain other others) {sector : Nat}
    (member : sector ∈ fs.directorySectors clusters)
    (member' : sector ∈ fs.directorySectors others) : cluster = other := by
  -- The sector belongs to one cluster, which both have.
  obtain ⟨shared, within, here⟩ := mem_directorySectors.mp member
  obtain ⟨shared', within', here'⟩ := mem_directorySectors.mp member'
  obtain rfl := layout.cluster_unique (chain.valid _ within) (chain'.valid _ within') here here'
  exact tree.disjoint cluster other clusters others inside inside' chain chain'
    ⟨shared, within, within'⟩

/-- There is one chain from a cluster. -/
theorem Chain.eq {fs : FileSystem} (layout : fs.Layout) {start : Nat} {clusters others : List Nat}
    (chain : fs.Chain start clusters) (chain' : fs.Chain start others) : clusters = others :=
  ChainFrom.unique chain chain' fun _ valid => (layout.not_mark valid).2

/-- A sector that has a name, after it has been marked. -/
theorem marked_some {name : Name} {data : Buffer} {offset : Nat}
    (found : findName data name 16 0 = some offset) :
    marked name data = Function.update data offset 0xE5 := by
  simp only [marked, found]

/-- A sector that has a name changes when the name is marked. -/
theorem marked_ne {name : Name} {data : Buffer} (has : hasName name data = true) :
    marked name data ≠ data := by
  intro same
  rw [hasName, Option.isSome_iff_exists] at has
  obtain ⟨offset, found⟩ := has
  obtain ⟨-, -, -, live, -⟩ := findName_some found
  rw [marked_some found] at same
  -- The byte marked was not a mark before.
  have byte := congrFun same offset
  rw [Function.update_self] at byte
  rw [← byte] at live
  cases live

/-- A sector without a name has nothing to mark. -/
theorem marked_of_not {name : Name} {data : Buffer} (has : hasName name data ≠ true) :
    marked name data = data := by
  cases found : findName data name 16 0 with
  | none => simp only [marked, found]
  | some offset => exact absurd (by rw [hasName, found]; rfl) has

/-- A deletion that succeeded: the entry found, the directory marked, and what became of them. -/
structure Deletion (fs : FileSystem) (path : Name) (after : FileSystem) (found : Found)
    (name : Name) (last parent : Nat) (clusters parents file : List Nat) (sector offset : Nat) :
    Prop where
  /-- The path leads to the entry. -/
  resolved : fs.findFile path = .ok (some found)
  /-- The entry lies in the last directory searched, -/
  lastIs : fs.lastDirectory (fs.startOf path).1 (components (fs.startOf path).2) = .ok (some last)
  /-- which is a chain. -/
  chain : fs.Chain last clusters
  /-- The name is the last component of the path. -/
  named : (components (fs.startOf path).2).getLast? = some name
  /-- The entry lies in this sector, -/
  member : sector ∈ fs.directorySectors clusters
  /-- in the first slot with the name. -/
  hit : findName (fs.block sector) name 16 0 = some offset
  /-- That slot is the one the lookup has read. -/
  slot : found.slot = some (sector, offset)
  /-- The entry is that of a file. -/
  fileChain : fs.Chain found.cluster file
  /-- The directory marked is the one the operation resolves. -/
  parentIs : fs.parentOf path = .ok (some (parent, name))
  /-- It is a chain. -/
  parentChain : fs.Chain parent parents
  /-- A common sector makes both directories one. -/
  same : ∀ shared ∈ fs.directorySectors clusters, shared ∈ fs.directorySectors parents → last = parent
  /-- The name has been marked in every sector of that directory. -/
  blocks : ∀ other, fs.firstDataSector ≤ other → after.block other =
    if other ∈ fs.directorySectors parents then marked name (fs.block other) else fs.block other
  /-- Entries of the table outside the chain are as they were. -/
  others : ∀ cluster < fs.totalClusters, cluster ∉ file → after.fatEntry cluster = fs.fatEntry cluster
  /-- Those of the chain are zero if the device has gone along. -/
  zero : (∀ cluster ∈ file, after.fatEntry cluster = 0) ↔
    fs.Frees (fs.disk.clock + (fs.directorySectors parents).countP fun sector =>
      hasName name (fs.block sector)) file

/-- What a deletion that succeeded has done. -/
theorem deleteFile_deletion {fs after : FileSystem} (layout : fs.Layout)
    {directory : Nat → Prop} (tree : fs.WellFormed directory) {path : Name}
    (returned : fs.deleteFile path = .ok (true, after)) :
    ∃ found name last parent clusters parents file sector offset,
      fs.Deletion path after found name last parent clusters parents file sector offset := by
  obtain ⟨found, parent, name, middle, resolved, kind, place, marking, freeing⟩ :=
    deleteFile_cases returned
  have named := parentOf_name place
  -- The entry found lies in the last directory searched.
  obtain ⟨last, name', lastIs, named', looked⟩ := findComponents_last resolved kind
  obtain rfl : name = name' := Option.some.inj (named.symm.trans named')
  have lastIn := tree.lastDirectory layout (tree.startOf path) lastIs
  obtain ⟨clusters, chain⟩ := tree.chained last lastIn
  obtain ⟨sector, member, offset, hit, shape⟩ := findFileInDirectory_some layout chain looked
  have leads := tree.lookup layout lastIn looked
  rw [if_neg (by rw [kind]; decide)] at leads
  obtain ⟨file, fileChain⟩ := leads
  -- The directory marked is one of the tree.
  have parentIn : directory parent := by
    rcases parentOf_cases place with ⟨-, rfl, -⟩ | ⟨dirPath, temp, -, tempIs, tempKind, rfl⟩
    · exact tree.startOf path
    · exact tree.findComponents layout (tree.startOf dirPath) tempIs tempKind
  obtain ⟨parents, parentChain⟩ := tree.chained parent parentIn
  have links := parentChain.links layout
  have marks := markChain_marks layout links.linked links.head links.nodup links.valid marking
  have entries := marks.fatEntry layout (parentChain.directorySectors_high layout)
  -- The marks have not changed the table, so the chain that is freed is the one found.
  have fileLinks := (fileChain.links layout).congr fun cluster inside =>
    entries cluster (fileChain.valid cluster inside).2
  have total : middle.totalClusters = fs.totalClusters := by rw [marks.same.fields]
  have first : middle.firstDataSector = fs.firstDataSector := by rw [marks.same.fields]
  obtain ⟨last', freed, frees⟩ := freeChain_freed (layout.same marks.same) fileLinks.linked
    fileLinks.head fileLinks.nodup
    (fun cluster inside => marks.same.inVolume.mpr (fileLinks.valid cluster inside))
    (fileChain.length_le layout)
  obtain rfl : last' = after := Except.ok.inj (freed.symm.trans freeing)
  refine ⟨found, name, last, parent, clusters, parents, file, sector, offset,
    resolved, lastIs, chain, named, member, hit, by rw [shape], fileChain, place, parentChain,
    ?_, ?_, ?_, ?_⟩
  · intro shared here there
    exact tree.same_directory layout lastIn parentIn chain parentChain here there
  · intro other high
    rw [frees.data other (first ▸ high), marks.blocks]
  · intro cluster small outside
    rw [frees.others cluster (total ▸ small) outside, entries cluster small]
  · rw [frees.zero, marks.same.frees, marks.clock]

namespace Deletion

variable {fs after : FileSystem} {path name : Name} {found : Found} {last parent : Nat}
  {clusters parents file : List Nat} {sector offset : Nat}

/-- The sector of the entry has its name. -/
theorem hasName
    (deletion : fs.Deletion path after found name last parent clusters parents file sector offset) :
    hasName name (fs.block sector) = true := by
  rw [Pocky.hasName, deletion.hit]
  rfl

/-- If one sector of the directory has the name, there was one mark to write. -/
theorem count_eq_one (layout : fs.Layout)
    (deletion : fs.Deletion path after found name last parent clusters parents file sector offset)
    (member : sector ∈ fs.directorySectors parents)
    (once : ∀ other ∈ fs.directorySectors parents,
      Pocky.hasName name (fs.block other) = true → other = sector) :
    ((fs.directorySectors parents).countP fun sector => Pocky.hasName name (fs.block sector)) = 1 := by
  have nodup := Chain.directorySectors_nodup layout deletion.parentChain.nodup deletion.parentChain.valid
  rw [← List.count_eq_one_of_mem nodup member, List.count]
  apply List.countP_congr
  intro other inside
  rw [beq_iff_eq]
  constructor
  · exact once other inside
  · rintro rfl
    exact deletion.hasName

/-- If nothing but the entry found has changed, the path leads to it both ways. -/
theorem unambiguous (layout : fs.Layout)
    (deletion : fs.Deletion path after found name last parent clusters parents file sector offset)
    (removes : fs.Removes after path) : fs.Unambiguous path := by
  obtain ⟨found', sector', offset', file', resolved, slot, fileChain, blocks, entries⟩ := removes
  obtain rfl : found' = found :=
    Option.some.inj (Except.ok.inj (resolved.symm.trans deletion.resolved))
  obtain ⟨rfl, rfl⟩ : sector' = sector ∧ offset' = offset :=
    Prod.mk.inj (Option.some.inj (slot.symm.trans deletion.slot))
  obtain rfl := fileChain.eq layout deletion.fileChain
  have high := deletion.chain.directorySectors_high layout sector' deletion.member
  -- The sector of the entry has changed, so it was marked.
  have changed : sector' ∈ fs.directorySectors parents := by
    by_contra outside
    have kept := deletion.blocks sector' high
    rw [if_neg outside, blocks sector' high, if_pos rfl, ← marked_some deletion.hit] at kept
    exact marked_ne deletion.hasName kept
  have equal := deletion.same sector' deletion.member changed
  have lists : clusters = parents := by
    have chain := deletion.chain
    rw [equal] at chain
    exact chain.eq layout deletion.parentChain
  -- No other sector has, so no other one has the name.
  have once : ∀ other ∈ fs.directorySectors parents,
      Pocky.hasName name (fs.block other) = true → other = sector' := by
    intro other inside has
    by_contra different
    have there := deletion.parentChain.directorySectors_high layout other inside
    have kept := deletion.blocks other there
    rw [if_pos inside, blocks other there, if_neg different] at kept
    exact marked_ne has kept.symm
  refine ⟨?_, ?_, ?_⟩
  · intro dirPath fileName cut
    rcases parentOf_cases deletion.parentIs with ⟨whole, -, -⟩ | ⟨dirPath', temp, cut', tempIs, -, is⟩
    · rw [whole] at cut
      cases cut
    · rw [cut] at cut'
      cases cut'
      exact ⟨temp, tempIs, by rw [deletion.lastIs, equal, is]⟩
  · intro cluster others name' lastIs chain named first member second member' has has'
    obtain rfl : last = cluster :=
      Option.some.inj (Except.ok.inj (deletion.lastIs.symm.trans lastIs))
    obtain rfl : name = name' := Option.some.inj (deletion.named.symm.trans named)
    obtain rfl := chain.eq layout deletion.chain
    rw [lists] at member member'
    rw [once first member has, once second member' has']
  · intro found'' clusters' resolved' chain
    obtain rfl : found'' = found' :=
      Option.some.inj (Except.ok.inj (resolved'.symm.trans deletion.resolved))
    obtain rfl := chain.eq layout deletion.fileChain
    rw [← deletion.count_eq_one layout changed once]
    apply deletion.zero.mp
    intro cluster inside
    rw [entries cluster (deletion.fileChain.valid cluster inside).2, if_pos inside]

/-- If the path leads to the entry both ways, nothing but it changes. -/
theorem removes (layout : fs.Layout)
    (deletion : fs.Deletion path after found name last parent clusters parents file sector offset)
    (unambiguous : fs.Unambiguous path) : fs.Removes after path := by
  -- The directory marked is the one the entry lies in.
  have equal : last = parent := by
    rcases parentOf_cases deletion.parentIs with ⟨whole, is, -⟩ | ⟨dirPath, temp, cut, tempIs, -, is⟩
    · have only := deletion.lastIs
      rw [components_of_no_slash whole] at only
      rw [is]
      exact (Option.some.inj (Except.ok.inj only)).symm
    · obtain ⟨temp', tempIs', lastIs⟩ := unambiguous.directory dirPath name cut
      obtain rfl : temp' = temp := Option.some.inj (Except.ok.inj (tempIs'.symm.trans tempIs))
      rw [is]
      exact Option.some.inj (Except.ok.inj (deletion.lastIs.symm.trans lastIs))
  have lists : clusters = parents := by
    have chain := deletion.chain
    rw [equal] at chain
    exact chain.eq layout deletion.parentChain
  have member := deletion.member
  rw [lists] at member
  have once : ∀ other ∈ fs.directorySectors parents,
      Pocky.hasName name (fs.block other) = true → other = sector := by
    intro other inside has
    rw [← lists] at inside
    exact unambiguous.once last clusters name deletion.lastIs deletion.chain deletion.named other
      inside sector deletion.member has deletion.hasName
  refine ⟨found, sector, offset, file, deletion.resolved, deletion.slot, deletion.fileChain, ?_, ?_⟩
  · intro other high
    rw [deletion.blocks other high]
    by_cases here : other = sector
    · subst here
      rw [if_pos member, if_pos rfl, marked_some deletion.hit]
    · rw [if_neg here]
      split
      · rename_i inside
        exact marked_of_not fun has => here (once other inside has)
      · rfl
  · intro cluster small
    split
    · rename_i inside
      refine deletion.zero.mpr ?_ cluster inside
      rw [deletion.count_eq_one layout member once]
      exact unambiguous.device found file deletion.resolved deletion.fileChain
    · rename_i outside
      exact deletion.others cluster small outside

end Deletion

/--
A deletion removes the entry its path leads to, and nothing else, exactly when the path leads to
one entry both ways and the device goes along.
-/
theorem deleteFile_removes_iff {fs after : FileSystem} (layout : fs.Layout)
    {directory : Nat → Prop} (tree : fs.WellFormed directory) {path : Name}
    (returned : fs.deleteFile path = .ok (true, after)) :
    fs.Removes after path ↔ fs.Unambiguous path := by
  obtain ⟨found, name, last, parent, clusters, parents, file, sector, offset, deletion⟩ :=
    deleteFile_deletion layout tree returned
  exact ⟨deletion.unambiguous layout, deletion.removes layout⟩

/--
The files /a/x and /b/a/x, with one cluster each.

The directories are clusters 2 for the root, 3 for /a, 4 for /b and 6 for /b/a.
-/
def twoFiles : Buffer :=
  withEntry 2 0 [0x61] 0x10 3 <| withEntry 2 1 [0x62] 0x10 4 <| withEntry 3 0 [0x78] 0x20 5 <|
  withEntry 4 0 [0x61] 0x10 6 <| withEntry 6 0 [0x78] 0x20 7 <|
  withLink 2 endMark <| withLink 3 endMark <| withLink 4 endMark <| withLink 5 endMark <|
  withLink 6 endMark <| withLink 7 endMark fun _ => 0

/-- Every cluster in use is a chain of its own. -/
theorem twoFiles_chain (current : Nat) {cluster : Nat} (used : cluster ∈ [2, 3, 4, 5, 6, 7]) :
    (smallVolume twoFiles current).Chain cluster [cluster] := by
  have ends : ∀ cluster ∈ [2, 3, 4, 5, 6, 7],
      endMark ≤ (smallVolume twoFiles 2).readFatEntry cluster := by decide
  rw [← (smallVolume_current twoFiles current).1] at ends
  refine ⟨ends cluster used, rfl, List.nodup_singleton _, ?_⟩
  intro cell member
  obtain rfl := List.mem_singleton.mp member
  simp only [List.mem_cons, List.not_mem_nil, or_false] at used
  exact ⟨by omega, by show cell < 20; omega⟩

/-- The directories of that volume are well formed. -/
theorem twoFiles_wellFormed {current : Nat} (inside : current ∈ [2, 3, 4, 6]) :
    (smallVolume twoFiles current).WellFormed (· ∈ [2, 3, 4, 6]) := by
  have sub : ∀ cluster ∈ [2, 3, 4, 6], cluster ∈ [2, 3, 4, 5, 6, 7] := by decide
  have only : ∀ {cluster clusters}, cluster ∈ [2, 3, 4, 6] →
      (smallVolume twoFiles current).Chain cluster clusters → clusters = [cluster] :=
    fun member chain => chain.eq (smallVolume_layout _ _) (twoFiles_chain current (sub _ member))
  refine ⟨by decide, inside, fun cluster member => ⟨_, twoFiles_chain current (sub _ member)⟩, ?_, ?_⟩
  · rintro cluster other clusters others member member' chain chain' ⟨shared, here, there⟩
    rw [only member chain] at here
    rw [only member' chain'] at there
    exact (List.mem_singleton.mp here).symm.trans (List.mem_singleton.mp there)
  · intro cluster clusters member chain sector here slot small live attributes
    rw [only member chain] at here
    -- The table of all slots.
    have slots : ∀ cluster ∈ [2, 3, 4, 6],
        (smallVolume twoFiles 2).directorySectors [cluster] = [cluster] ∧
        ∀ slot < 16, freeByte ((smallVolume twoFiles 2).block cluster (slotSize * slot)) = false →
          entryCluster ((smallVolume twoFiles 2).block cluster) (slotSize * slot) ∈
            if isDirectory (entryAttributes ((smallVolume twoFiles 2).block cluster)
              (slotSize * slot)) then [3, 4, 6] else [5, 7] := by decide
    obtain ⟨-, blocks, sectors⟩ := smallVolume_current twoFiles current
    obtain ⟨sectorsOf, entries⟩ := slots cluster member
    rw [sectors, sectorsOf] at here
    obtain rfl := List.mem_singleton.mp here
    rw [blocks] at live ⊢
    have entry := entries slot small live
    split
    · rename_i kind
      rw [if_pos kind] at entry
      exact List.mem_cons_of_mem _ entry
    · rename_i kind
      rw [if_neg kind] at entry
      have used : ∀ cluster ∈ [5, 7], cluster ∈ [2, 3, 4, 5, 6, 7] := by decide
      exact ⟨_, twoFiles_chain current (used _ entry)⟩

/-- From the root directory, the path /a/x leads to one file both ways. -/
theorem twoFiles_unambiguous : (smallVolume twoFiles 2).Unambiguous [slash, 0x61, slash, 0x78] := by
  have start : (smallVolume twoFiles 2).startOf [slash, 0x61, slash, 0x78] =
      (2, [0x61, slash, 0x78]) := by decide
  have last : (smallVolume twoFiles 2).lastDirectory 2 (components [0x61, slash, 0x78]) =
      .ok (some 3) := by decide +kernel
  refine ⟨?_, ?_, ?_⟩
  · rw [start]
    intro dirPath fileName cut
    have parts : cutLastSlash [0x61, slash, 0x78] = some ([0x61], [0x78]) := by decide
    obtain ⟨rfl, rfl⟩ := Prod.mk.inj (Option.some.inj (parts.symm.trans cut))
    exact ⟨⟨3, 0, 0x10, some (2, 0)⟩, by decide +kernel, last⟩
  · rw [start]
    intro cluster clusters name lastIs chain named sector member other member' _ _
    obtain rfl : 3 = cluster := Option.some.inj (Except.ok.inj (last.symm.trans lastIs))
    obtain rfl := chain.eq (smallVolume_layout _ _) (twoFiles_chain 2 (by decide))
    have sectors : (smallVolume twoFiles 2).directorySectors [3] = [3] := by decide
    rw [sectors] at member member'
    rw [List.mem_singleton.mp member, List.mem_singleton.mp member']
  · intro found clusters _ _
    exact (smallVolume_reliable _ _).frees _ _

/-- With the root as current directory, /a/x is deleted. -/
theorem deleteFile_removes_iff_from_root :
    ∃ after, (smallVolume twoFiles 2).deleteFile [slash, 0x61, slash, 0x78] = .ok (true, after) ∧
      (smallVolume twoFiles 2).Removes after [slash, 0x61, slash, 0x78] := by
  have accepted : Run.accepts ((smallVolume twoFiles 2).deleteFile [slash, 0x61, slash, 0x78])
      (fun _ => true) = true := by decide +kernel
  obtain ⟨after, returned, -⟩ := Run.exists_of_accepts accepted
  exact ⟨after, returned, (deleteFile_removes_iff (smallVolume_layout _ _)
    (twoFiles_wellFormed (by decide)) returned).mpr twoFiles_unambiguous⟩

/--
With /b as current directory, deleting /a/x marks /b/a/x as deleted.

The clusters of /a/x are freed, and its entry stays.
-/
theorem deleteFile_removes_other_entry :
    (smallVolume twoFiles 4).Layout ∧ (smallVolume twoFiles 4).Reliable ∧
    (smallVolume twoFiles 4).WellFormed (· ∈ [2, 3, 4, 6]) ∧
    ∃ after, (smallVolume twoFiles 4).deleteFile [slash, 0x61, slash, 0x78] = .ok (true, after) ∧
      ¬ (smallVolume twoFiles 4).Removes after [slash, 0x61, slash, 0x78] := by
  have accepted : Run.accepts ((smallVolume twoFiles 4).deleteFile [slash, 0x61, slash, 0x78])
      (fun after => after.block 6 0 == 0xE5) = true := by decide +kernel
  obtain ⟨after, returned, marked⟩ := Run.exists_of_accepts accepted
  refine ⟨smallVolume_layout _ _, smallVolume_reliable _ _, twoFiles_wellFormed (by decide),
    after, returned, ?_⟩
  rintro ⟨found, sector, offset, clusters, resolved, slot, -, blocks, -⟩
  -- The path leads to the entry in sector 3, so sector 6 should be as it was.
  have leads : (smallVolume twoFiles 4).findFile [slash, 0x61, slash, 0x78] =
      .ok (some ⟨5, 0, 0x20, some (3, 0)⟩) := by decide +kernel
  obtain rfl := Option.some.inj (Except.ok.inj (leads.symm.trans resolved))
  obtain ⟨rfl, rfl⟩ := Prod.mk.inj (Option.some.inj slot)
  have kept := blocks 6 (by show 2 ≤ 6; decide)
  rw [if_neg (by decide)] at kept
  have before : (smallVolume twoFiles 4).block 6 0 = 0x78 := by decide
  rw [kept, before] at marked
  exact absurd marked (by decide)

end FileSystem

end Pocky
