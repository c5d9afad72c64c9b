import Pocky.Fs.Subtrees
import Pocky.Fs.Thinning

/-! When deleting a directory leaves an entry behind that leads to a free cluster. -/

namespace Pocky

namespace FileSystem

/-- The root, and every entry in use that can be reached from it, lead to clusters in use. -/
structure NoneDangling (fs : FileSystem) : Prop where
  /-- The root has a cluster. -/
  root : fs.fatEntry rootCluster ≠ 0
  /-- So has what any entry leads to, dot entries included. -/
  entries : ∀ directory depth place, fs.DirectoryAt directory depth → fs.SlotOf directory place →
    fs.LiveAt place → fs.fatEntry (fs.clusterAt place) ≠ 0

/-- In a tree nothing dangles. -/
theorem Tree.noneDangling {fs : FileSystem} (tree : fs.Tree) : fs.NoneDangling := by
  -- Whatever can be reached has a chain.
  have used : ∀ {cluster kind depth}, fs.Reachable ⟨cluster, kind⟩ depth →
      fs.fatEntry cluster ≠ 0 := by
    intro cluster kind depth reach
    obtain ⟨clusters, links⟩ := tree.chained reach
    exact fatEntry_ne_zero links.linked links.valid links.start_mem
  refine ⟨used (Reach.root : fs.Reachable rootHead 0), ?_⟩
  intro directory depth place inside slot live
  by_cases one : fs.nameAt place = dot
  · rw [(tree.self inside slot live one).2]
    exact used inside
  · by_cases two : fs.nameAt place = dotDot
    · exact used (tree.parent_at inside (tree.parent inside slot live two).2)
    · have leads := (fs.slotHead_eq place).mpr ⟨live, one, two⟩
      exact used (Reach.child inside ⟨rfl, slot, leads⟩)

section Pruning

variable {fs after : FileSystem} {parent : Nat} {name : Name} {clusters : List Nat} {head : Nat}

/-- If the entry of the freed directory and those on the way to it are kept, it dangles. -/
theorem Prunes.dangling (prunes : fs.Prunes after parent name clusters) (tree : fs.Tree)
    (layout : fs.Layout) (links : fs.Links head clusters) {directory depth : Nat}
    (above : fs.DirectoryAt directory depth) {place : Nat × Nat}
    (leads : fs.Entry ⟨directory, true⟩ place ⟨head, true⟩)
    (spared : ∀ {node depth' label target}, fs.Reachable node depth' → depth' < depth →
      fs.Entry node label target → fs.KeepsSlot after label)
    (own : fs.KeepsSlot after place) : ¬ after.NoneDangling := by
  have inside : fs.Reachable ⟨head, true⟩ (depth + 1) := Reach.child above leads
  -- Directories that are no deeper than the parent are not the one that was freed.
  have stays : ∀ {node depth' label target}, fs.Reachable node depth' → depth' ≤ depth →
      fs.KeepsSlot after label → fs.Entry node label target → after.Entry node label target := by
    intro node depth' label target reach shallow kept step
    have way := step.directoryAt reach
    obtain ⟨kind, slot, told⟩ := step
    have different : node.cluster ≠ head := by
      intro equal
      rw [equal] at way
      have same := tree.rooted.depth_unique way inside
      omega
    refine ⟨kind, (prunes.slotOf_iff tree layout links inside way different label).mpr slot, ?_⟩
    rw [kept.slotHead]
    exact told
  intro none
  have way : after.DirectoryAt directory depth := Reach.shallow above fun below reach step =>
    stays reach (Nat.le_of_lt below) (spared reach below step) step
  obtain ⟨-, slot, told⟩ := stays above (Nat.le_refl _) own leads
  obtain ⟨shape, live, -⟩ := slotHead_some told
  have cluster : head = after.clusterAt place := congrArg Head.cluster shape
  have free := prunes.table head (links.valid _ links.start_mem).2
  rw [if_pos links.start_mem] at free
  have used := none.entries directory depth place way slot live
  rw [← cluster] at used
  exact used free

/--
Deleting a directory leaves no entry behind that dangles just when its own entry is marked.

It is, if the path ends with a proper name that both ways to resolve the path look up in the same
directory.
-/
theorem Prunes.noneDangling_iff (prunes : fs.Prunes after parent name clusters) (tree : fs.Tree)
    (layout : fs.Layout) (reliable : fs.Reliable) {path : Name} {found : Found}
    {last depth depth' : Nat} (resolution : fs.Resolution path found parent name last depth depth')
    (kind : isDirectory found.attributes = true) (links : fs.Links found.cluster clusters) :
    after.NoneDangling ↔ name ≠ [] ∧ name ≠ dot ∧ name ≠ dotDot ∧ last = parent := by
  -- Where the directory itself lies.
  have inside : ∃ deep, fs.DirectoryAt found.cluster deep ∧ (name = [] → deep ≤ depth') := by
    rcases resolution.outcome with ⟨-, same, -⟩ | looked
    · rw [same]
      exact ⟨depth, resolution.lastAt, fun _ => resolution.deeper⟩
    · exact ⟨_, tree.lookup_directory layout reliable resolution.lastAt looked kind,
        fun blank => absurd blank (tree.lookup_ne_nil layout reliable resolution.lastAt looked)⟩
  obtain ⟨deep, insideAt, blankDeep⟩ := inside
  -- A proper name is that of an entry of the last directory.
  have entry : name ≠ [] → name ≠ dot → name ≠ dotDot → ∃ place,
      fs.findFileInDirectory last name = .ok (some found) ∧
      found.slot = some (place.1, slotSize * place.2) ∧
      fs.Entry ⟨last, true⟩ place ⟨found.cluster, true⟩ := by
    intro filled one two
    rcases resolution.outcome with ⟨blank, -⟩ | looked
    · exact absurd blank filled
    · obtain ⟨place, slot, place', -, live, named, cluster, told⟩ :=
        tree.lookup layout reliable resolution.lastAt looked
      have leads := (fs.slotHead_eq place).mpr ⟨live, named ▸ one, named ▸ two⟩
      rw [← told, kind, ← cluster] at leads
      exact ⟨place, looked, place', rfl, slot, leads⟩
  constructor
  · intro none
    by_contra wrong
    have notRoot : (⟨found.cluster, true⟩ : Head) ≠ rootHead := by
      intro isRoot
      have free := prunes.table found.cluster (links.valid _ links.start_mem).2
      have same : found.cluster = rootCluster := congrArg Head.cluster isRoot
      rw [if_pos links.start_mem, same] at free
      exact none.root free
    -- The directory has an entry in another one, one step less deep.
    obtain ⟨directory, place, depth'', rfl, above, leads⟩ := Reachable.above insideAt notRoot
    have marked : ∀ {node depth₁ label target}, fs.Reachable node depth₁ →
        fs.Entry node label target → fs.KeepsSlot after label ∨
        node.cluster = parent ∧ depth₁ = depth' ∧
          (name = [] ∨ name ≠ [] ∧ name ≠ dot ∧ name ≠ dotDot) := by
      intro node depth₁ label target reach step
      have way := step.directoryAt reach
      obtain ⟨nodeKind, slot, told⟩ := step
      obtain ⟨-, -, one, two⟩ := slotHead_some told
      rcases prunes.slots label (slot.inArea layout) with kept | ⟨slot', ⟨-, -, named⟩, -⟩
      · exact Or.inl kept
      · have same := tree.slotOf_unique layout way resolution.parentAt slot slot'
        rw [same] at way
        refine Or.inr ⟨same, tree.rooted.depth_unique way resolution.parentAt, ?_⟩
        by_cases filled : name = []
        · exact Or.inl filled
        · exact Or.inr ⟨filled, fun equal => one (named.trans equal),
            fun equal => two (named.trans equal)⟩
    -- With a proper name the directory's entry is in the last directory, which is not the parent.
    have proper : name ≠ [] ∧ name ≠ dot ∧ name ≠ dotDot → directory = last ∧ depth'' = depth := by
      rintro ⟨filled, one, two⟩
      obtain ⟨place', -, -, leads'⟩ := entry filled one two
      obtain ⟨sameDirectory, -⟩ := tree.rooted.unique above resolution.lastAt leads leads'
      have isLast : directory = last := congrArg Head.cluster sameDirectory
      rw [isLast] at above
      exact ⟨isLast, tree.rooted.depth_unique above resolution.lastAt⟩
    have deeper := resolution.deeper
    refine prunes.dangling tree layout links above leads ?_ ?_ none
    · intro node depth₁ label target reach shallow step
      rcases marked reach step with kept | ⟨-, depths, blank | filled⟩
      · exact kept
      · have bound := blankDeep blank
        omega
      · have same := (proper filled).2
        omega
    · rcases marked above leads with kept | ⟨same, depths, blank | filled⟩
      · exact kept
      · have bound := blankDeep blank
        omega
      · exact absurd ⟨filled.1, filled.2.1, filled.2.2, (proper filled).1.symm.trans same⟩ wrong
  · rintro ⟨filled, one, two, rfl⟩
    obtain ⟨place, looked, slot, leads⟩ := entry filled one two
    have notRoot : (⟨found.cluster, true⟩ : Head) ≠ rootHead := by
      intro isRoot
      rw [isRoot] at leads
      exact tree.rooted.rootless resolution.lastAt leads
    exact (prunes.tree tree layout links notRoot resolution.lastAt leads
      (prunes.removed found place looked slot)).noneDangling

end Pruning

/-- If an empty directory is deleted, its own entry is marked. -/
def DeletesOwnEntry (fs : FileSystem) (path : Name) : Prop :=
  ∀ found parent name, fs.findFile path = .ok (some found) → isDirectory found.attributes = true →
    fs.isDirectoryEmpty found.cluster = .ok true → fs.parentOf path = .ok (some (parent, name)) →
    fs.EndsAtEntry path parent name

/-- The calls for what a directory holds find nothing to delete. -/
def NestedIdle (fs : FileSystem) (found : Found) : Prop :=
  fs.findFile slashFormat = .ok none ∨ fs.HoldsNothing found.cluster

/-- If a directory is deleted with what it holds, its own entry is marked. -/
def DeletesOwnEntryRecursively (fs : FileSystem) (path : Name) : Prop :=
  ∀ found, fs.findFile path = .ok (some found) → isDirectory found.attributes = true →
    (∃ parent name, fs.parentOf path = .ok (some (parent, name)) ∧
      fs.EndsAtEntry path parent name) ∨
    fs.NestedIdle found ∧ ∀ parent name, fs.parentOf path = .ok (some (parent, name)) →
      fs.findFileInDirectory parent name = .ok none

section Deletion

variable {fs after : FileSystem} {path : Name} {told : Bool}

/-- Deleting an empty directory. -/
theorem deleteDirectory_noneDangling (layout : fs.Layout) (reliable : fs.Reliable)
    (hierarchy : fs.Hierarchy) (returned : fs.deleteDirectory path = .ok (told, after)) :
    after.NoneDangling ↔ fs.DeletesOwnEntry path := by
  have unchanged : after = fs → (after.NoneDangling ↔ True) := by
    rintro rfl
    exact ⟨fun _ => trivial, fun _ => hierarchy.tree.noneDangling⟩
  rw [deleteDirectory] at returned
  obtain ⟨answer, resolved, returned⟩ := Run.bind_eq_ok.mp returned
  cases answer with
  | none =>
    cases returned
    rw [unchanged rfl, true_iff]
    intro found parent name resolved'
    rw [resolved] at resolved'
    cases resolved'
  | some found =>
    dsimp only at returned
    cases kind : isDirectory found.attributes with
    | false =>
      rw [kind] at returned
      cases returned
      rw [unchanged rfl, true_iff]
      intro found' parent name resolved' kind'
      rw [resolved] at resolved'
      cases resolved'
      rw [kind] at kind'
      cases kind'
    | true =>
      simp only [kind, Bool.not_true, Bool.false_eq_true, if_false] at returned
      obtain ⟨empty, verdict, returned⟩ := Run.bind_eq_ok.mp returned
      cases empty with
      | false =>
        cases returned
        rw [unchanged rfl, true_iff]
        intro found' parent name resolved' kind' verdict'
        rw [resolved] at resolved'
        cases resolved'
        rw [verdict] at verdict'
        cases verdict'
      | true =>
        simp only [Bool.not_true, Bool.false_eq_true, if_false] at returned
        obtain ⟨answer, parentIs, returned⟩ := Run.bind_eq_ok.mp returned
        cases answer with
        | none =>
          cases returned
          rw [unchanged rfl, true_iff]
          intro found' parent name _ _ _ parentIs'
          rw [parentIs] at parentIs'
          cases parentIs'
        | some pair =>
          obtain ⟨parent, name⟩ := pair
          obtain ⟨⟨marked, middle⟩, marking, returned⟩ := Run.bind_eq_ok.mp returned
          obtain ⟨last, depth, depth', resolution⟩ :=
            hierarchy.resolution layout reliable resolved parentIs
          obtain ⟨sectors, directoryLinks⟩ := hierarchy.tree.chained resolution.parentAt
          obtain ⟨deep, inside⟩ := hierarchy.foundAt layout reliable resolved kind
          obtain ⟨clusters, links⟩ := hierarchy.tree.chained inside
          obtain rfl := directoryLinks.markChain_told layout reliable marking
          obtain ⟨final, freeing, returned⟩ := Run.bind_eq_ok.mp returned
          cases returned
          have prunes := markChain_prunes layout reliable directoryLinks links marking freeing
          rw [prunes.noneDangling_iff hierarchy.tree layout reliable resolution kind links]
          constructor
          · rintro ⟨filled, one, two, rfl⟩ found' parent' name' resolved' _ _ parentIs'
            rw [parentIs] at parentIs'
            cases parentIs'
            exact ⟨filled, one, two, resolution.lastIs⟩
          · intro proper
            obtain ⟨filled, one, two, lastIs⟩ := proper found parent name resolved kind verdict parentIs
            exact ⟨filled, one, two, Option.some.inj (Except.ok.inj (resolution.lastIs.symm.trans lastIs))⟩

/-- Where the chain of the directory and the entry to mark are, nothing dangles afterwards. -/
theorem Tree.noneDangling_of_marked {middle edited : FileSystem} (tree : middle.Tree)
    (layout : middle.Layout) (reliable : middle.Reliable) {parent depth : Nat} {name : Name}
    {found : Found} (inside : middle.DirectoryAt parent depth)
    (looked : middle.findFileInDirectory parent name = .ok (some found))
    (notDot : name ≠ dot) (notDotDot : name ≠ dotDot) {marked : Bool}
    (marking : middle.editEntry parent name (fun entryData offset =>
      .ok (Function.update entryData offset 0xE5)) = .ok (marked, edited))
    (freeing : edited.freeChain walkSteps found.cluster = .ok after) : after.NoneDangling := by
  obtain ⟨place, slot, -, leads⟩ :=
    tree.entry_of_lookup layout reliable inside looked notDot notDotDot
  obtain ⟨sectors, directoryLinks⟩ := tree.chained inside
  obtain ⟨clusters, links⟩ := tree.chained (Reach.child inside leads)
  rcases editEntry_prunes layout reliable directoryLinks links marking with
    ⟨-, -, absent⟩ | ⟨-, other, entry, -, -, pruned⟩
  · rw [looked] at absent
    cases absent
  · have prunes := (pruned after freeing).1
    refine (prunes.tree tree layout links ?_ inside leads
      (prunes.removed found place looked slot)).noneDangling
    intro isRoot
    rw [isRoot] at leads
    exact tree.rooted.rootless inside leads

/-- If the nested calls find nothing to delete, they do nothing. -/
theorem NestedIdle.still (layout : fs.Layout) (reliable : fs.Reliable) {found : Found}
    (idle : fs.NestedIdle found) {clusters : List Nat} (links : fs.Links found.cluster clusters)
    {depth : Nat} {fullPath : Name} {cleared : Bool} {middle : FileSystem}
    (clearing : clearChain (deleteNested (deleteRecursive depth) fullPath) walkSteps found.cluster
      fs = .ok (cleared, middle)) : cleared = true ∧ middle = fs := by
  have calls : fs.CallsStill (deleteNested (deleteRecursive depth) fullPath) (fun _ => True)
      (fs.directorySectors clusters) := by
    rcases idle with absent | nothing
    · intro sector _ slot _ _ after called
      refine ⟨?_, trivial⟩
      obtain ⟨told, call⟩ := deleteNested_eq called
      split at call
      · rcases deleteRecursive_cases call with ⟨-, same, -⟩ | ⟨_, _, _, _, -, resolved, -⟩
        · exact same
        · rw [absent] at resolved
          cases resolved
      · rw [deleteFile, absent, Run.ok_bind] at call
        cases call
        rfl
    · exact nothing.callsStill links _ _
  obtain ⟨told, same, -⟩ :=
    clearChain_still layout reliable links.linked links.head links.valid calls clearing
  exact ⟨told, same⟩

/-- If the own entry is marked, deleting a directory with what it holds leaves nothing dangling. -/
theorem DeletesOwnEntryRecursively.noneDangling (layout : fs.Layout) (reliable : fs.Reliable)
    (hierarchy : fs.Hierarchy) (own : fs.DeletesOwnEntryRecursively path)
    (returned : fs.deleteDirectoryRecursive path = .ok (told, after)) : after.NoneDangling := by
  rcases deleteRecursive_cases returned with
    ⟨-, rfl, -⟩ | ⟨depth, found, cleared, middle, -, resolved, kind, clearing, outcome⟩
  · exact hierarchy.tree.noneDangling
  · rcases own found resolved kind with ⟨parent, name, parentIs, ends⟩ | ⟨idle, absent⟩
    · obtain ⟨last, above, above', resolution⟩ :=
        hierarchy.resolution layout reliable resolved parentIs
      obtain ⟨deep, inside⟩ := hierarchy.foundAt layout reliable resolved kind
      obtain ⟨clusters, links⟩ := hierarchy.tree.chained inside
      -- After the nested calls the path still leads to the entry of the directory.
      obtain ⟨same, hierarchy', target⟩ : SameVolume fs middle ∧ middle.Hierarchy ∧
          ∀ parent' name', middle.parentOf path = .ok (some (parent', name')) → name' = name ∧
            (∃ depth, middle.DirectoryAt parent' depth) ∧
            middle.findFileInDirectory parent' name' = .ok (some found) := by
        by_cases nested : fs.findFile slashFormat = .ok (some found)
        · obtain ⟨-, rfl, -⟩ := clearChain_nested layout reliable nested kind links _ _ clearing
          refine ⟨SameVolume.refl _, hierarchy, fun parent' name' parentIs' => ?_⟩
          rw [parentIs] at parentIs'
          cases parentIs'
          exact ⟨rfl, ⟨_, resolution.parentAt⟩,
            ends.looked hierarchy layout reliable resolved parentIs⟩
        · obtain ⟨directory, nestedIn⟩ := hierarchy.nestedIn layout reliable
          have thinned : fs.Thinned middle directory := by
            refine clearChain_preserves (fun state => fs.Thinned state directory) ?_ ?_
              (Thinned.refl hierarchy directory) clearing
            · intro data slot _ state state' thinned called
              exact thinned.step layout reliable nestedIn (deleteNested_step thinned.hierarchy
                (layout.same thinned.same) (reliable.same thinned.same) called)
            · intro state thinned
              exact (layout.same thinned.same).sector
          exact ⟨thinned.same, thinned.hierarchy, fun parent' name' =>
            thinned.looked hierarchy layout reliable resolved kind parentIs ends nested⟩
      rcases outcome with ⟨-, rfl, -⟩ | ⟨-, parent', name', marked, edited, parentIs', marking, last'⟩
      · exact hierarchy'.tree.noneDangling
      · obtain ⟨rfl, ⟨depth', reach⟩, looked⟩ := target parent' name' parentIs'
        rcases last' with ⟨rfl, -, rfl⟩ | ⟨-, -, freeing⟩
        · obtain ⟨sectors, directoryLinks⟩ := hierarchy'.tree.chained reach
          rcases editEntry_prunes (layout.same same) (reliable.same same) directoryLinks directoryLinks
            marking with ⟨-, rfl, -⟩ | ⟨wrong, -⟩
          · exact hierarchy'.tree.noneDangling
          · cases wrong
        · exact hierarchy'.tree.noneDangling_of_marked (layout.same same) (reliable.same same) reach
            looked ends.2.1 ends.2.2.1 marking freeing
    · obtain ⟨deep, inside⟩ := hierarchy.foundAt layout reliable resolved kind
      obtain ⟨clusters, links⟩ := hierarchy.tree.chained inside
      obtain ⟨-, rfl⟩ := idle.still layout reliable links clearing
      rcases outcome with ⟨-, rfl, -⟩ | ⟨-, parent, name, marked, edited, parentIs, marking, last⟩
      · exact hierarchy.tree.noneDangling
      · obtain ⟨depth', reach⟩ := hierarchy.parentAt layout reliable parentIs
        obtain ⟨sectors, directoryLinks⟩ := hierarchy.tree.chained reach
        rcases editEntry_prunes layout reliable directoryLinks links marking with
          ⟨rfl, rfl, -⟩ | ⟨-, other, entry, looked, -⟩
        · rcases last with ⟨-, -, rfl⟩ | ⟨wrong, -⟩
          · exact hierarchy.tree.noneDangling
          · cases wrong
        · rw [absent parent name parentIs] at looked
          cases looked

/-- If nothing dangles after nested calls that did nothing, the own entry is marked. -/
theorem deletesOwnEntryRecursively_of_idle (layout : fs.Layout) (reliable : fs.Reliable)
    (hierarchy : fs.Hierarchy)
    (idle : ∀ found, fs.findFile path = .ok (some found) → fs.NestedIdle found)
    (returned : fs.deleteDirectoryRecursive path = .ok (told, after)) (none : after.NoneDangling) :
    fs.DeletesOwnEntryRecursively path := by
  intro found resolved kind
  rcases deleteRecursive_cases returned with
    ⟨-, -, file⟩ | ⟨depth, found', cleared, middle, -, resolved', -, clearing, outcome⟩
  · rw [file found resolved] at kind
    cases kind
  · rw [resolved] at resolved'
    cases resolved'
    obtain ⟨deep, inside⟩ := hierarchy.foundAt layout reliable resolved kind
    obtain ⟨clusters, links⟩ := hierarchy.tree.chained inside
    obtain ⟨rfl, rfl⟩ := (idle found resolved).still layout reliable links clearing
    rcases outcome with ⟨-, -, absent⟩ | ⟨-, parent, name, marked, edited, parentIs, marking, last⟩
    · refine Or.inr ⟨idle found resolved, fun parent name parentIs => ?_⟩
      rw [absent rfl] at parentIs
      cases parentIs
    · obtain ⟨final, above, above', resolution⟩ :=
        hierarchy.resolution layout reliable resolved parentIs
      obtain ⟨sectors, directoryLinks⟩ := hierarchy.tree.chained resolution.parentAt
      rcases editEntry_prunes layout reliable directoryLinks links marking with
        ⟨-, -, absent⟩ | ⟨rfl, other, entry, -, -, pruned⟩
      · -- A name that is not there is not marked, and nothing is freed.
        refine Or.inr ⟨idle found resolved, fun parent' name' parentIs' => ?_⟩
        rw [parentIs] at parentIs'
        cases parentIs'
        exact absent
      · rcases last with ⟨wrong, -⟩ | ⟨-, -, freeing⟩
        · cases wrong
        · obtain ⟨filled, one, two, rfl⟩ := ((pruned after freeing).1.noneDangling_iff hierarchy.tree
            layout reliable resolution kind links).mp none
          exact Or.inl ⟨final, name, parentIs, filled, one, two, resolution.lastIs⟩

end Deletion

/--
Deletions leave nothing dangling just when they mark the entry of the directory they free.

For a recursive deletion this needs that the nested calls find nothing to delete; if they do, a path
that ends with a proper name is still enough.
-/
theorem deletion_noneDangling {fs after : FileSystem} (layout : fs.Layout) (reliable : fs.Reliable)
    (hierarchy : fs.Hierarchy) {path : Name} {told : Bool} :
    (fs.deleteDirectory path = .ok (told, after) →
      (after.NoneDangling ↔ fs.DeletesOwnEntry path)) ∧
    (fs.deleteDirectoryRecursive path = .ok (told, after) →
      (fs.DeletesOwnEntryRecursively path → after.NoneDangling) ∧
      ((∀ found, fs.findFile path = .ok (some found) → fs.NestedIdle found) →
        after.NoneDangling → fs.DeletesOwnEntryRecursively path)) :=
  ⟨deleteDirectory_noneDangling layout reliable hierarchy, fun returned =>
    ⟨fun own => own.noneDangling layout reliable hierarchy returned, fun idle none =>
      deletesOwnEntryRecursively_of_idle layout reliable hierarchy idle returned none⟩⟩

/-- Deleting /b, which is empty, leaves nothing dangling. -/
theorem deletion_noneDangling_empty :
    ∃ after, (smallVolume twoDirectories 2).deleteDirectory [0x62] = .ok (true, after) ∧
      after.NoneDangling := by
  have accepted : Run.accepts ((smallVolume twoDirectories 2).deleteDirectory [0x62])
      (fun _ => true) = true := by decide +kernel
  obtain ⟨after, returned, -⟩ := Run.exists_of_accepts accepted
  refine ⟨after, returned, ((deletion_noneDangling (smallVolume_layout _ _) (smallVolume_reliable _ _)
    twoDirectories_hierarchy).1 returned).mpr ?_⟩
  intro found parent name _ _ _ parentIs
  have isParent : (smallVolume twoDirectories 2).parentOf [0x62] = .ok (some (2, [0x62])) := by
    decide +kernel
  rw [isParent] at parentIs
  cases parentIs
  exact ⟨by decide, by decide, by decide, by decide +kernel⟩

/-- Deleting the current directory by its dot name, in the root, frees the cluster of the root. -/
theorem deleteDirectoryRecursive_frees_root :
    (smallVolume twoDirectories 2).Layout ∧ (smallVolume twoDirectories 2).Reliable ∧
    (smallVolume twoDirectories 2).Hierarchy ∧
    ∃ after, (smallVolume twoDirectories 2).deleteDirectoryRecursive dot = .ok (true, after) ∧
      after.fatEntry rootCluster = 0 ∧ ¬ after.NoneDangling := by
  have accepted : Run.accepts ((smallVolume twoDirectories 2).deleteDirectoryRecursive dot)
      (fun after => after.fatEntry rootCluster = 0) = true := by decide +kernel
  obtain ⟨after, returned, free⟩ := Run.exists_of_accepts accepted
  have free := of_decide_eq_true free
  exact ⟨smallVolume_layout _ _, smallVolume_reliable _ _, twoDirectories_hierarchy, after, returned,
    free, fun none => none.root free⟩

end FileSystem

end Pocky
