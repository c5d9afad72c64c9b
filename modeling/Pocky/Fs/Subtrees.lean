import Pocky.Fs.Catalogue
import Pocky.Fs.NestedDeletes

/-! What a recursive deletion reclaims of the subtree below a directory. -/

namespace Pocky

namespace FileSystem

/-- What can be reached from a directory, the directory included. -/
def Below (fs : FileSystem) (directory other : Head) : Prop :=
  ∃ depth, Reach fs.Entry directory other depth

/-- The subtree of an entry has been given back, and nothing else has changed. -/
structure Reclaims (fs after : FileSystem) (entry : Nat × Nat) (directory : Head) : Prop where
  /-- The entry is gone. -/
  gone : ¬ after.LiveAt entry
  /-- The clusters of every file and directory of the subtree are free. -/
  free : ∀ other clusters, fs.Below directory other → fs.Links other.cluster clusters →
    ∀ cluster ∈ clusters, after.fatEntry cluster = 0
  /-- No other entry of the table has changed. -/
  table : ∀ cluster < fs.totalClusters, (∀ other clusters, fs.Below directory other →
    fs.Links other.cluster clusters → cluster ∉ clusters) →
    after.fatEntry cluster = fs.fatEntry cluster
  /-- No sector outside the subtree has changed, the slot of the entry aside. -/
  slots : ∀ place, fs.InArea place → place ≠ entry → (∀ other clusters, fs.Below directory other →
    fs.Links other.cluster clusters → place.1 ∉ fs.directorySectors clusters) →
    fs.KeepsSlot after place

/-- A directory has no entries, dot entries aside. -/
def HoldsNothing (fs : FileSystem) (directory : Nat) : Prop :=
  ∀ place child, ¬ fs.Entry ⟨directory, true⟩ place child

/-- Below a directory that holds nothing there is only itself. -/
theorem HoldsNothing.below {fs : FileSystem} {directory : Nat} (nothing : fs.HoldsNothing directory)
    {other : Head} (below : fs.Below ⟨directory, true⟩ other) : other = ⟨directory, true⟩ := by
  -- By induction on the way, whose first step would be an entry.
  obtain ⟨depth, reach⟩ := below
  induction reach with
  | root => rfl
  | child above leads ih =>
    rw [ih] at leads
    exact absurd leads (nothing _ _)

/-- The scan of a directory that holds nothing makes no call. -/
theorem HoldsNothing.callsStill {fs : FileSystem} {directory : Nat}
    (nothing : fs.HoldsNothing directory) {clusters : List Nat}
    (links : fs.Links directory clusters) (delete : FileSystem → Name → UInt8 → Run FileSystem)
    (handled : UInt8 → Prop) : fs.CallsStill delete handled (fs.directorySectors clusters) := by
  intro sector member slot small visible
  -- Any entry that the scan comes to is an entry of the directory.
  have leads := (fs.slotHead_eq (sector, slot)).mpr
    ⟨⟨visible.live, visible.short⟩, visible.notDot, visible.notDotDot⟩
  exact absurd ⟨rfl, ⟨clusters, links, member, small⟩, leads⟩ (nothing (sector, slot) _)

/-- A directory of one sector that leads nowhere holds nothing. -/
theorem Single.holdsNothing {fs : FileSystem} {directory : Nat} (single : fs.Single directory)
    (sound : fs.Sound) (empty : ∀ slot < 16, slotHead (fs.content directory) slot = none) :
    fs.HoldsNothing directory := by
  rintro place child ⟨-, slot, leads⟩
  obtain ⟨number, small, rfl⟩ := (single.slotOf sound).mp slot
  exact absurd ((empty number small).symm.trans leads) (by simp)

section Deletion

variable {fs after : FileSystem} {name : Name} {entry place : Nat × Nat} {cluster : Nat}
  {child : Head}

/-- A volume on which a directory of the root has a name and holds an entry. -/
structure HoldsChild (fs : FileSystem) (name : Name) (entry : Nat × Nat) (cluster : Nat)
    (place : Nat × Nat) (child : Head) : Prop where
  /-- It is laid out properly, -/
  layout : fs.Layout
  /-- its device refuses nothing, -/
  reliable : fs.Reliable
  /-- and its entries form a tree. -/
  hierarchy : fs.Hierarchy
  /-- The root is the current directory. -/
  current : fs.currentDirectoryCluster = rootCluster
  /-- It has an entry that leads to the directory. -/
  leads : fs.Entry rootHead entry ⟨cluster, true⟩
  /-- The entry has the name. -/
  named : fs.nameAt entry = name
  /-- The directory holds another entry. -/
  holds : fs.Entry ⟨cluster, true⟩ place child

/-- The nested calls change only the directory that has their name. -/
theorem HoldsChild.step (holds : fs.HoldsChild name entry cluster place child)
    (other : name ≠ placeholder) (step : fs.NestedStep after) :
    after.HoldsChild name entry cluster place child := by
  have hierarchy' := step.hierarchy holds.hierarchy holds.layout holds.reliable
  rcases step with rfl | ⟨directory, found, clusters, uproots⟩
  · exact holds
  · obtain ⟨layout, reliable, hierarchy, current, isEntry, named, isChild⟩ := holds
    have tree := hierarchy.tree
    obtain ⟨depth, label, currentAt, inside, leads, removed, notRoot⟩ :=
      uproots.laws hierarchy layout reliable
    have same := uproots.prunes.same
    have head : fs.Reachable ⟨found.cluster, isDirectory found.attributes⟩ (depth + 1 + 1) :=
      Reach.child inside leads
    rw [current] at currentAt
    obtain rfl : depth = 0 := tree.rooted.depth_unique currentAt Reach.root
    have links : fs.Links (⟨found.cluster, isDirectory found.attributes⟩ : Head).cluster clusters :=
      uproots.links
    -- The directory whose entry is deleted is not the one with the other name.
    have different : cluster ≠ directory := by
      rintro rfl
      obtain ⟨above, looked, kind, cluster'⟩ := uproots.nested.above
      rw [current] at looked
      obtain ⟨label', slot', -, -, live, named', leads', told⟩ :=
        tree.lookup layout reliable (Reach.root : fs.Reachable rootHead 0) looked
      have proper : fs.nameAt label' ≠ dot ∧ fs.nameAt label' ≠ dotDot := by
        rw [named']
        decide
      have step' := (fs.slotHead_eq label').mpr ⟨live, proper⟩
      rw [← told, kind, ← leads', cluster'] at step'
      obtain ⟨-, rfl⟩ := tree.rooted.unique Reach.root Reach.root isEntry ⟨rfl, slot', step'⟩
      exact other (named.symm.trans named')
    have rootDirectory : rootHead.cluster ≠ directory := by
      rintro rfl
      have depths := tree.rooted.depth_unique inside (Reach.root : fs.Reachable rootHead 0)
      omega
    have reach : fs.Reachable ⟨cluster, true⟩ (0 + 1) := Reach.child Reach.root isEntry
    have notHead : (⟨cluster, true⟩ : Head) ≠ ⟨found.cluster, isDirectory found.attributes⟩ := by
      intro equal
      rw [equal] at reach
      have depths := tree.rooted.depth_unique reach head
      omega
    obtain ⟨isEntry', kept⟩ := uproots.prunes.keepsEntry tree layout links head inside Reach.root
      notRoot.symm rootDirectory isEntry
    obtain ⟨isChild', -⟩ := uproots.prunes.keepsEntry tree layout links head inside reach
      notHead different isChild
    have current' : after.currentDirectoryCluster = rootCluster := by
      rw [same.fields]
      exact current
    refine ⟨layout.same same, reliable.same same, hierarchy', current', isEntry', ?_, isChild'⟩
    rw [kept.nameAt, named]

/-- A recursive deletion frees nothing that the directory holds. -/
theorem HoldsChild.used (holds : fs.HoldsChild name entry cluster place child)
    (other : name ≠ placeholder) (whole : slash ∉ name) (filled : name ≠ [])
    (found : Found) (looked : fs.findFileInDirectory rootCluster name = .ok (some found))
    (same : found.cluster = cluster)
    (returned : fs.deleteDirectoryRecursive name = .ok (true, after)) :
    after.fatEntry child.cluster ≠ 0 := by
  rcases deleteRecursive_cases returned with
    ⟨wrong, -⟩ | ⟨depth, found', cleared, middle, -, resolved, kind, clearing, outcome⟩
  · cases wrong
  · rw [findFile_of_notMem fs whole filled, holds.current, looked] at resolved
    cases resolved
    -- The scan leaves the directory and its entry as they are.
    have holds' : middle.HoldsChild name entry cluster place child := by
      refine clearChain_preserves (fun state => state.HoldsChild name entry cluster place child)
        ?_ ?_ holds clearing
      · intro data slot visible state state' kept called
        exact kept.step other (deleteNested_step kept.hierarchy kept.layout kept.reliable called)
      · intro state kept
        exact kept.layout.sector
    rcases outcome with ⟨wrong, -⟩ | ⟨-, directory, dirName, marked, edited, parentIs, marking, last⟩
    · cases wrong
    · rw [parentOf_of_notMem middle whole, holds'.current] at parentIs
      cases parentIs
      have tree := holds'.hierarchy.tree
      have rootAt : middle.Reachable rootHead 0 := Reach.root
      have inside : middle.Reachable ⟨cluster, true⟩ (0 + 1) := Reach.child rootAt holds'.leads
      have below : middle.Reachable child (0 + 1 + 1) := Reach.child inside holds'.holds
      obtain ⟨sectors, rootLinks⟩ := tree.chained rootAt
      obtain ⟨clusters, links⟩ := tree.chained inside
      obtain ⟨cells, childLinks⟩ := tree.chained below
      rw [same] at last
      rcases editEntry_prunes holds'.layout holds'.reliable rootLinks links marking with
        ⟨rfl, -⟩ | ⟨rfl, found', entry', -, -, pruned⟩
      · rcases last with ⟨-, wrong, -⟩ | ⟨wrong, -⟩ <;> cases wrong
      · rcases last with ⟨wrong, -⟩ | ⟨-, -, freeing⟩
        · cases wrong
        · have different : child ≠ ⟨cluster, true⟩ := by
            rintro rfl
            have depths := tree.rooted.depth_unique inside below
            omega
          have start := childLinks.start_mem
          have apart := Prunes.outside tree links inside below different childLinks _ start
          rw [(pruned after freeing).1.table _ (childLinks.valid _ start).2, if_neg apart]
          exact fatEntry_ne_zero childLinks.linked childLinks.valid start

/-- A directory that holds nothing is reclaimed. -/
theorem HoldsNothing.reclaims (layout : fs.Layout) (reliable : fs.Reliable)
    (hierarchy : fs.Hierarchy) (current : fs.currentDirectoryCluster = rootCluster)
    (whole : slash ∉ name) (filled : name ≠ []) {found : Found}
    (looked : fs.findFileInDirectory rootCluster name = .ok (some found))
    (slot : found.slot = some (entry.1, slotSize * entry.2))
    (nothing : fs.HoldsNothing found.cluster)
    (returned : fs.deleteDirectoryRecursive name = .ok (true, after)) :
    fs.Reclaims after entry ⟨found.cluster, true⟩ := by
  rcases deleteRecursive_cases returned with
    ⟨wrong, -⟩ | ⟨depth, found', cleared, middle, -, resolved, kind, clearing, outcome⟩
  · cases wrong
  · rw [findFile_of_notMem fs whole filled, current, looked] at resolved
    cases resolved
    have rootAt : fs.Reachable rootHead 0 := Reach.root
    obtain ⟨depth', inside⟩ : ∃ depth', fs.DirectoryAt found.cluster depth' :=
      ⟨_, hierarchy.tree.lookup_directory layout reliable rootAt looked kind⟩
    obtain ⟨sectors, rootLinks⟩ := hierarchy.tree.chained rootAt
    obtain ⟨clusters, links⟩ := hierarchy.tree.chained inside
    obtain ⟨rfl, rfl, -⟩ := clearChain_still layout reliable links.linked links.head links.valid
      (nothing.callsStill links _ fun _ => True) clearing
    rcases outcome with ⟨wrong, -⟩ | ⟨-, directory, dirName, marked, edited, parentIs, marking, last⟩
    · cases wrong
    · rw [parentOf_of_notMem _ whole, current] at parentIs
      cases parentIs
      rcases editEntry_prunes layout reliable rootLinks links marking with
        ⟨rfl, -⟩ | ⟨rfl, other, label, looked', slot', pruned⟩
      · rcases last with ⟨-, wrong, -⟩ | ⟨wrong, -⟩ <;> cases wrong
      · rcases last with ⟨wrong, -⟩ | ⟨-, -, freeing⟩
        · cases wrong
        · obtain rfl := Option.some.inj (Except.ok.inj (looked.symm.trans looked'))
          rw [slot] at slot'
          obtain ⟨sector, offset⟩ := Prod.mk.inj (Option.some.inj slot')
          obtain rfl : entry = label :=
            Prod.ext sector (Nat.eq_of_mul_eq_mul_left (by decide) offset)
          obtain ⟨prunes, frame⟩ := pruned after freeing
          refine ⟨(prunes.removed found entry looked slot).not_live, ?_, ?_, ?_⟩
          · intro other cells below otherLinks cluster member
            rw [nothing.below below] at otherLinks
            rw [otherLinks.eq layout links] at member
            rw [prunes.table cluster (links.valid cluster member).2, if_pos member]
          · intro cluster small outside
            rw [prunes.table cluster small, if_neg (outside _ clusters ⟨0, Reach.root⟩ links)]
          · intro place area different _
            exact frame place area different

end Deletion

/--
A recursive deletion from the root reclaims a directory that holds nothing, and no other one.

The exception is a directory that has the name of the placeholder in the library's format.
-/
theorem deleteDirectoryRecursive_reclaims {fs after : FileSystem} (layout : fs.Layout)
    (reliable : fs.Reliable) (hierarchy : fs.Hierarchy)
    (current : fs.currentDirectoryCluster = rootCluster) {name : Name} (whole : slash ∉ name)
    (filled : name ≠ []) (notDot : name ≠ dot) (notDotDot : name ≠ dotDot) {found : Found}
    {entry : Nat × Nat} (looked : fs.findFileInDirectory rootCluster name = .ok (some found))
    (slot : found.slot = some (entry.1, slotSize * entry.2))
    (returned : fs.deleteDirectoryRecursive name = .ok (true, after)) :
    (fs.HoldsNothing found.cluster → fs.Reclaims after entry ⟨found.cluster, true⟩) ∧
      (name ≠ placeholder → fs.Reclaims after entry ⟨found.cluster, true⟩ →
        fs.HoldsNothing found.cluster) := by
  refine ⟨fun nothing => nothing.reclaims layout reliable hierarchy current whole filled looked slot
    returned, fun other reclaims place child isChild => ?_⟩
  have rootAt : fs.Reachable rootHead 0 := Reach.root
  -- The call has returned true, so what it found is a directory.
  have kind : isDirectory found.attributes = true := by
    rcases deleteRecursive_cases returned with ⟨wrong, -⟩ | ⟨_, found', _, _, -, resolved, kind, -⟩
    · cases wrong
    · rw [findFile_of_notMem fs whole filled, current, looked] at resolved
      cases resolved
      exact kind
  obtain ⟨label, slotOf, slot', -, live, named, cluster, told⟩ :=
    hierarchy.tree.lookup layout reliable rootAt looked
  rw [slot] at slot'
  obtain ⟨sector, offset⟩ := Prod.mk.inj (Option.some.inj slot')
  obtain rfl : entry = label := Prod.ext sector (Nat.eq_of_mul_eq_mul_left (by decide) offset)
  have leads := (fs.slotHead_eq entry).mpr ⟨live, named ▸ notDot, named ▸ notDotDot⟩
  rw [← told, kind, ← cluster] at leads
  have holds : fs.HoldsChild name entry found.cluster place child :=
    ⟨layout, reliable, hierarchy, current, ⟨rfl, slotOf, leads⟩, named, isChild⟩
  -- The chain of what the directory holds would have to be free.
  obtain ⟨clusters, links⟩ :=
    hierarchy.tree.chained (Reach.child (Reach.child rootAt holds.leads) isChild)
  refine holds.used other whole filled found looked rfl returned ?_
  exact reclaims.free child clusters ⟨1, Reach.child Reach.root isChild⟩ links _ links.start_mem

/-- The empty directory /b is reclaimed. -/
theorem deleteDirectoryRecursive_reclaims_empty :
    ∃ after, (smallVolume twoDirectories 2).deleteDirectoryRecursive [0x62] = .ok (true, after) ∧
      (smallVolume twoDirectories 2).Reclaims after (2, 3) ⟨5, true⟩ := by
  have accepted : Run.accepts ((smallVolume twoDirectories 2).deleteDirectoryRecursive [0x62])
      (fun _ => true) = true := by decide +kernel
  obtain ⟨after, returned, -⟩ := Run.exists_of_accepts accepted
  have looked : (smallVolume twoDirectories 2).findFileInDirectory rootCluster [0x62] =
      .ok (some ⟨5, 0, 0x10, some (2, slotSize * 3)⟩) := by decide +kernel
  have single : (smallVolume twoDirectories 2).Single 5 := ⟨by decide, by decide +kernel⟩
  have sufficient := (deleteDirectoryRecursive_reclaims (smallVolume_layout _ _)
    (smallVolume_reliable _ _) twoDirectories_hierarchy rfl (by decide) (by decide) (by decide)
    (by decide) looked
    (show _ = some (((2, 3) : Nat × Nat).1, slotSize * ((2, 3) : Nat × Nat).2) from rfl) returned).1
  exact ⟨after, returned, sufficient (single.holdsNothing (smallVolume_sound _ _) (by decide +kernel))⟩

/-- Deleting /a with the file in it leaves the cluster of the file in use. -/
theorem deleteDirectoryRecursive_leaks_file :
    (smallVolume twoDirectories 2).Layout ∧ (smallVolume twoDirectories 2).Reliable ∧
    (smallVolume twoDirectories 2).Hierarchy ∧
    ∃ after, (smallVolume twoDirectories 2).deleteDirectoryRecursive [0x61] = .ok (true, after) ∧
      (smallVolume twoDirectories 2).Below ⟨3, true⟩ ⟨4, false⟩ ∧ after.fatEntry 4 ≠ 0 ∧
      ¬ (smallVolume twoDirectories 2).Reclaims after (2, 2) ⟨3, true⟩ := by
  have accepted : Run.accepts ((smallVolume twoDirectories 2).deleteDirectoryRecursive [0x61])
      (fun after => after.fatEntry 4 ≠ 0) = true := by decide +kernel
  obtain ⟨after, returned, used⟩ := Run.exists_of_accepts accepted
  have used := of_decide_eq_true used
  have single : ∀ cluster ∈ [3, 4], (smallVolume twoDirectories 2).Single cluster := by
    intro cluster member
    have ends : ∀ cluster ∈ [3, 4], (smallVolume twoDirectories 2).InVolume cluster ∧
        endMark ≤ (smallVolume twoDirectories 2).fatEntry cluster := by decide +kernel
    exact ⟨(ends cluster member).1, (ends cluster member).2⟩
  have leads : (smallVolume twoDirectories 2).Entry ⟨3, true⟩ (3, 2) ⟨4, false⟩ :=
    ⟨rfl, ((single 3 (by decide)).slotOf (smallVolume_sound _ _)).mpr ⟨2, by decide, rfl⟩,
      by decide +kernel⟩
  have below : (smallVolume twoDirectories 2).Below ⟨3, true⟩ ⟨4, false⟩ :=
    ⟨1, Reach.child Reach.root leads⟩
  refine ⟨smallVolume_layout _ _, smallVolume_reliable _ _, twoDirectories_hierarchy, after, returned,
    below, used, fun reclaims => ?_⟩
  exact used (reclaims.free _ _ below (single 4 (by decide)).links 4 (by simp))

end FileSystem

end Pocky
