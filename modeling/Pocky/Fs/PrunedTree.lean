import Pocky.Fs.Pruning

/-! The tree that is left when a file or directory has been taken out of it. -/

namespace Pocky

namespace FileSystem

variable {fs after : FileSystem} {parent : Nat} {name : Name} {clusters : List Nat}

/-- The slots of a directory lie in the data area. -/
theorem SlotOf.inArea (layout : fs.Layout) {directory : Nat} {place : Nat × Nat}
    (slot : fs.SlotOf directory place) : fs.InArea place := by
  obtain ⟨sectors, links, member, small⟩ := slot
  exact ⟨small, links.high layout member⟩

/-- A slot belongs to one directory. -/
theorem Tree.slotOf_unique (tree : fs.Tree) (layout : fs.Layout)
    {directory directory' depth depth' : Nat} {place : Nat × Nat}
    (inside : fs.DirectoryAt directory depth) (inside' : fs.DirectoryAt directory' depth')
    (slot : fs.SlotOf directory place) (slot' : fs.SlotOf directory' place) :
    directory = directory' := by
  obtain ⟨clusters, links, member, -⟩ := slot
  obtain ⟨clusters', links', member', -⟩ := slot'
  obtain ⟨shared, within, here⟩ := mem_directorySectors.mp member
  obtain ⟨shared', within', here'⟩ := mem_directorySectors.mp member'
  obtain rfl := layout.cluster_unique (links.valid _ within) (links'.valid _ within') here here'
  exact congrArg Head.cluster (tree.apart inside inside' links links' within within')

/-- Of what can be reached, one thing starts at a cluster. -/
theorem Tree.head_unique (tree : fs.Tree) {head head' : Head} {depth depth' : Nat}
    (reach : fs.Reachable head depth) (reach' : fs.Reachable head' depth')
    (same : head.cluster = head'.cluster) : head = head' := by
  obtain ⟨clusters, links⟩ := tree.chained reach
  exact tree.apart reach reach' links (by rw [← same]; exact links) links.start_mem links.start_mem

/-- Anything but the root has an entry in a directory, which lies one step less deep. -/
theorem Reachable.above {head : Head} {depth : Nat} (reach : fs.Reachable head depth)
    (notRoot : head ≠ rootHead) : ∃ directory place depth', depth = depth' + 1 ∧
      fs.DirectoryAt directory depth' ∧ fs.Entry ⟨directory, true⟩ place head := by
  cases reach with
  | root => exact absurd rfl notRoot
  | @child node _ label depth' way step =>
    obtain ⟨directory, kind⟩ := node
    obtain ⟨rfl, slot, told⟩ := step
    exact ⟨directory, label, depth', rfl, way, rfl, slot, told⟩

/-- An entry that can be reached belongs to a directory. -/
theorem Entry.directoryAt {node head : Head} {place : Nat × Nat} {depth : Nat}
    (step : fs.Entry node place head) (reach : fs.Reachable node depth) :
    fs.DirectoryAt node.cluster depth := by
  rw [DirectoryAt, ← step.1]
  exact reach

namespace Prunes

/-- A slot that is still in use has not changed. -/
theorem keepsSlot (prunes : fs.Prunes after parent name clusters) {place : Nat × Nat}
    (area : fs.InArea place) (live : after.LiveAt place) : fs.KeepsSlot after place := by
  rcases prunes.slots place area with kept | ⟨-, gone⟩
  · exact kept
  · exact absurd live gone.not_live

variable {head : Head} (tree : fs.Tree) (layout : fs.Layout)
  (links : fs.Links head.cluster clusters)
include tree links

/-- Another chain of the tree has no cluster of the one that was freed. -/
theorem outside {depth depth' : Nat} (inside : fs.Reachable head depth) {other : Head}
    (reach : fs.Reachable other depth') (different : other ≠ head) {others : List Nat}
    (links' : fs.Links other.cluster others) : ∀ cluster ∈ others, cluster ∉ clusters :=
  fun _ member here => different (tree.apart reach inside links' links member here)

include layout in
/-- Another chain of the tree is still there. -/
theorem keepsLinks (prunes : fs.Prunes after parent name clusters) {depth depth' : Nat}
    (inside : fs.Reachable head depth) {other : Head} (reach : fs.Reachable other depth')
    (different : other ≠ head) (others : List Nat) :
    after.Links other.cluster others ↔ fs.Links other.cluster others := by
  obtain ⟨cells, links'⟩ := tree.chained reach
  have apart := outside tree links inside reach different links'
  have stays : after.Links other.cluster cells := by
    refine prunes.same.links links' fun cluster member => ?_
    rw [prunes.table cluster (links'.valid cluster member).2, if_neg (apart cluster member)]
  constructor
  · intro found
    rw [found.eq (layout.same prunes.same) stays]
    exact links'
  · intro found
    rw [found.eq layout links']
    exact stays

include layout in
/-- The slots of another directory are still its slots. -/
theorem slotOf_iff (prunes : fs.Prunes after parent name clusters) {depth depth' directory : Nat}
    (inside : fs.Reachable head depth) (reach : fs.DirectoryAt directory depth')
    (different : directory ≠ head.cluster) (place : Nat × Nat) :
    after.SlotOf directory place ↔ fs.SlotOf directory place := by
  have same := prunes.keepsLinks tree layout links inside reach
    fun equal => different (congrArg Head.cluster equal)
  simp only [SlotOf, prunes.same.directorySectors]
  exact exists_congr fun others => and_congr_left fun _ => same others

include layout in
/-- The entries of other directories are kept. -/
theorem keepsEntry (prunes : fs.Prunes after parent name clusters) {depth depth' deep : Nat}
    (inside : fs.Reachable head depth) (parentAt : fs.DirectoryAt parent depth')
    {node target : Head} {label : Nat × Nat} (reach : fs.Reachable node deep)
    (different : node ≠ head) (elsewhere : node.cluster ≠ parent)
    (step : fs.Entry node label target) :
    after.Entry node label target ∧ fs.KeepsSlot after label := by
  have way := step.directoryAt reach
  obtain ⟨kind, slot, told⟩ := step
  have apart : node.cluster ≠ head.cluster := fun equal =>
    different (tree.head_unique reach inside equal)
  have slot' := (prunes.slotOf_iff tree layout links inside way apart label).mpr slot
  rcases prunes.slots label (slot.inArea layout) with kept | ⟨marked, -⟩
  · refine ⟨⟨kind, slot', ?_⟩, kept⟩
    rw [kept.slotHead]
    exact told
  · exact absurd (tree.slotOf_unique layout way parentAt slot marked) elsewhere

include layout in
/-- What lies no deeper than the directory that was changed can still be reached. -/
theorem shallow (prunes : fs.Prunes after parent name clusters) {depth depth' deep : Nat}
    (inside : fs.Reachable head depth) (parentAt : fs.DirectoryAt parent depth')
    {other : Head} (reach : fs.Reachable other deep) (less : deep ≤ depth') (deeper : deep ≤ depth) :
    after.Reachable other deep := by
  -- The entries on the way lie in directories less deep than both.
  refine Reach.shallow reach fun {node label target above} below way step => ?_
  refine (prunes.keepsEntry tree layout links inside parentAt way ?_ ?_ step).1
  · rintro rfl
    have depths := tree.rooted.depth_unique way inside
    omega
  · intro equal
    have at' := step.directoryAt way
    rw [equal] at at'
    have depths := tree.rooted.depth_unique at' parentAt
    omega

include layout in
/-- A lookup that could not find what was deleted tells what it told. -/
theorem lookup (prunes : fs.Prunes after parent name clusters) (reliable : fs.Reliable)
    {depth depth' deep : Nat} (inside : fs.Reachable head depth)
    (parentAt : fs.DirectoryAt parent depth') {other : Nat} (reach : fs.DirectoryAt other deep)
    (different : (⟨other, true⟩ : Head) ≠ head) {name' : Name}
    (elsewhere : other ≠ parent ∨ name' ≠ name) :
    after.findFileInDirectory other name' = fs.findFileInDirectory other name' := by
  obtain ⟨cells, links'⟩ := tree.chained reach
  have links'' := (prunes.keepsLinks tree layout links inside reach different cells).mpr links'
  -- A slot of this directory has stayed, or had the other name.
  have slots : ∀ sector ∈ fs.directorySectors cells, ∀ slot < 16,
      fs.KeepsSlot after (sector, slot) ∨
        name' ≠ name ∧ fs.Marked after name (sector, slot) := by
    intro sector member slot small
    have slotOf : fs.SlotOf other (sector, slot) := ⟨cells, links', member, small⟩
    rcases prunes.slots (sector, slot) (slotOf.inArea layout) with kept | ⟨there, gone⟩
    · exact Or.inl kept
    · have same := tree.slotOf_unique layout reach parentAt slotOf there
      exact Or.inr ⟨elsewhere.resolve_left fun wrong => wrong same, gone⟩
  refine links'.findFileInDirectory_eq layout reliable prunes.same links'' fun sector member => ?_
  refine ⟨findName_congr fun slot small => ?_, fun slot hit => ?_⟩
  · rcases slots sector member slot small with kept | ⟨other, names, gone⟩
    · rw [kept.first]
      exact ⟨Iff.rfl, slotNames_congr kept⟩
    · have unused : after.block sector (slotSize * slot) ≠ 0x00 := by
        rw [show after.block sector (slotSize * slot) = 0xE5 from gone]
        decide
      refine ⟨⟨fun wrong => absurd wrong unused, fun wrong => absurd wrong names.used⟩, ?_, ?_⟩
      · rintro ⟨live, -⟩
        rw [show after.block sector (slotSize * slot) = 0xE5 from gone] at live
        cases live
      · exact fun names' => absurd (names'.2.2.symm.trans names.2.2) other
  · obtain ⟨place, small, equal, names, -⟩ := findName_eq_some_iff.mp hit
    rw [Nat.zero_add] at equal
    obtain rfl := Nat.eq_of_mul_eq_mul_left (by decide) equal
    rcases slots sector member slot small with kept | ⟨other, names', -⟩
    · exact kept
    · exact absurd (names.2.2.symm.trans names'.2.2) other

variable (notRoot : head ≠ rootHead) {directory depth' : Nat}
  (above : fs.DirectoryAt directory depth') {place : Nat × Nat}
  (leads : fs.Entry ⟨directory, true⟩ place head) (removed : fs.Marked after name place)
include notRoot above leads removed

include layout in
/-- If the entry of what was freed is marked, what can be reached could be reached before. -/
theorem reachable (prunes : fs.Prunes after parent name clusters) {other : Head} {depth : Nat}
    (reach : after.Reachable other depth) : fs.Reachable other depth ∧ other ≠ head := by
  have inside : fs.Reachable head (depth' + 1) := Reach.child above leads
  -- By induction on the way; no entry that is left leads to what was freed.
  induction reach with
  | root => exact ⟨Reach.root, fun equal => notRoot equal.symm⟩
  | @child node target label depth _ step ih =>
    obtain ⟨reach, different⟩ := ih
    obtain ⟨kind, slot, told⟩ := step
    have way : fs.DirectoryAt node.cluster depth := by
      rw [DirectoryAt, ← kind]
      exact reach
    have elsewhere : node.cluster ≠ head.cluster := fun equal =>
      different (tree.head_unique reach inside equal)
    have slot' := (prunes.slotOf_iff tree layout links inside way elsewhere label).mp slot
    have live := (slotHead_some told).2.1
    rw [(prunes.keepsSlot (slot'.inArea layout) live).slotHead] at told
    have step' : fs.Entry node label target := ⟨kind, slot', told⟩
    refine ⟨Reach.child reach step', fun equal => ?_⟩
    rw [equal] at step'
    obtain ⟨-, rfl⟩ := tree.rooted.unique reach above step' leads
    exact removed.not_live live

include layout in
/-- The entries that are left have not changed. -/
theorem entry (prunes : fs.Prunes after parent name clusters) {node target : Head}
    {label : Nat × Nat} {depth : Nat} (reach : after.Reachable node depth)
    (step : after.Entry node label target) : fs.Entry node label target := by
  have inside : fs.Reachable head (depth' + 1) := Reach.child above leads
  obtain ⟨way, different⟩ :=
    prunes.reachable tree layout links notRoot above leads removed reach
  obtain ⟨kind, slot, told⟩ := step
  have way' : fs.DirectoryAt node.cluster depth := by
    rw [DirectoryAt, ← kind]
    exact way
  have slot' := (prunes.slotOf_iff tree layout links inside way'
    (fun equal => different (tree.head_unique way inside equal)) label).mp slot
  rw [(prunes.keepsSlot (slot'.inArea layout) (slotHead_some told).2.1).slotHead] at told
  exact ⟨kind, slot', told⟩

include layout in
/-- A slot in use that is left, and the directory it lies in. -/
theorem live (prunes : fs.Prunes after parent name clusters) {other depth : Nat}
    {label : Nat × Nat} (reach : after.DirectoryAt other depth) (slot : after.SlotOf other label)
    (live : after.LiveAt label) : fs.DirectoryAt other depth ∧ fs.SlotOf other label ∧
      fs.LiveAt label ∧ fs.KeepsSlot after label := by
  have inside : fs.Reachable head (depth' + 1) := Reach.child above leads
  obtain ⟨way, different⟩ :=
    prunes.reachable tree layout links notRoot above leads removed reach
  have slot' := (prunes.slotOf_iff tree layout links inside way
    (fun equal => different (tree.head_unique way inside equal)) label).mp slot
  have kept := prunes.keepsSlot (slot'.inArea layout) live
  exact ⟨way, slot', kept.liveAt.mp live, kept⟩

end Prunes

/-- If the entry of what was freed is marked, a tree is left. -/
theorem Prunes.tree (prunes : fs.Prunes after parent name clusters) (tree : fs.Tree)
    (layout : fs.Layout) {head : Head} (links : fs.Links head.cluster clusters)
    (notRoot : head ≠ rootHead) {directory depth' : Nat}
    (above : fs.DirectoryAt directory depth') {place : Nat × Nat}
    (leads : fs.Entry ⟨directory, true⟩ place head) (removed : fs.Marked after name place) :
    after.Tree := by
  have inside : fs.Reachable head (depth' + 1) := Reach.child above leads
  have before : ∀ {other depth}, after.Reachable other depth →
      fs.Reachable other depth ∧ other ≠ head :=
    prunes.reachable tree layout links notRoot above leads removed
  have back : ∀ {node label target depth}, after.Reachable node depth →
      after.Entry node label target → fs.Entry node label target :=
    prunes.entry tree layout links notRoot above leads removed
  refine ⟨⟨?_, ?_⟩, ?_, ?_, ?_, ?_, ?_⟩
  · intro node label depth reach step
    exact tree.rooted.rootless (before reach).1 (back reach step)
  · intro node node' label label' target depth depth' reach reach' step step'
    exact tree.rooted.unique (before reach).1 (before reach').1 (back reach step) (back reach' step')
  · intro other depth reach
    obtain ⟨way, different⟩ := before reach
    obtain ⟨others, links'⟩ := tree.chained way
    exact ⟨others, (prunes.keepsLinks tree layout links inside way different others).mpr links'⟩
  · intro one two depth depth' ones twos cluster reach reach' links₁ links₂ member member'
    obtain ⟨way, different⟩ := before reach
    obtain ⟨way', different'⟩ := before reach'
    exact tree.apart way way'
      ((prunes.keepsLinks tree layout links inside way different ones).mp links₁)
      ((prunes.keepsLinks tree layout links inside way' different' twos).mp links₂) member member'
  · intro other depth label reach slot live named
    obtain ⟨way, slot', live', kept⟩ :=
      prunes.live tree layout links notRoot above leads removed reach slot live
    rw [kept.directoryAt, kept.clusterAt]
    exact tree.self way slot' live' (kept.nameAt.symm.trans named)
  · intro other depth label reach slot live named
    obtain ⟨way, slot', live', kept⟩ :=
      prunes.live tree layout links notRoot above leads removed reach slot live
    obtain ⟨told, upper⟩ := tree.parent way slot' live' (kept.nameAt.symm.trans named)
    rw [kept.directoryAt, kept.clusterAt]
    refine ⟨told, ?_⟩
    rcases upper with isRoot | ⟨depth₁, place', topAt, step⟩
    · exact Or.inl isRoot
    · -- The directory can still be reached, so the way goes through its parent.
      have notTop : (⟨other, true⟩ : Head) ≠ rootHead := by
        intro equal
        rw [equal] at step
        exact tree.rooted.rootless topAt step
      obtain ⟨node, label', depth₂, -, nodeAt, step'⟩ := Reachable.above reach notTop
      obtain ⟨same, -⟩ := tree.rooted.unique (before nodeAt).1 topAt (back nodeAt step') step
      obtain rfl : node = fs.clusterAt label := congrArg Head.cluster same
      exact Or.inr ⟨depth₂, label', nodeAt, step'⟩
  · intro other depth label reach slot live
    obtain ⟨way, slot', live', kept⟩ :=
      prunes.live tree layout links notRoot above leads removed reach slot live
    rw [kept.nameAt]
    exact tree.named way slot' live'

end FileSystem

end Pocky
