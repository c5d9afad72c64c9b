import Pocky.Fs.RelabelledTree
import Pocky.Fs.Thinning

/-! What a rename does to the tree: an entry gets a new name, or moves to another directory. -/

namespace Pocky

/-- A slot with a new name leads where it led, unless it gets a dot name. -/
theorem slotHead_of_renamed {data data' : Buffer} {name newName : Name} {slot : Nat}
    (storable : Storable newName) (named : SlotNames data name (slotSize * slot))
    (bytes : ∀ byte < slotSize, data' (slotSize * slot + byte) =
      if byte < 11 then newName.getD byte 0x20 else data (slotSize * slot + byte)) :
    slotHead data' slot = if DotName newName then none
      else some ⟨entryCluster data (slotSize * slot),
        isDirectory (entryAttributes data (slotSize * slot))⟩ := by
  have behind : ∀ byte < slotSize, 11 ≤ byte →
      data' (slotSize * slot + byte) = data (slotSize * slot + byte) :=
    fun byte inside late => (bytes byte inside).trans (if_neg (Nat.not_lt.mpr late))
  have attributes : entryAttributes data' (slotSize * slot) = entryAttributes data (slotSize * slot) :=
    behind 11 (by decide) (by decide)
  have cluster : entryCluster data' (slotSize * slot) = entryCluster data (slotSize * slot) := by
    simp only [entryCluster, halfAt, Nat.add_assoc, behind 26 (by decide) (by decide),
      behind (26 + 1) (by decide) (by decide)]
  have names : SlotNames data' newName (slotSize * slot) := by
    refine ⟨?_, ?_, ?_⟩
    · have first := bytes 0 (by decide)
      rw [Nat.add_zero, if_pos (by decide)] at first
      rw [first]
      exact storable.freeByte_getD _
    · rw [attributes]
      exact named.2.1
    · exact entryName_padded storable.short storable.characters (Or.inr rfl) fun index inside =>
        (bytes index (Nat.lt_trans inside (by decide))).trans (if_pos inside)
  rw [names.slotHead, cluster, attributes]

/-- A new entry leads to its cluster, unless it gets a dot name. -/
theorem slotHead_of_entered {data : Buffer} {name : Name} {slot cluster size : Nat} {attributes : UInt8}
    (storable : Storable name) (small : cluster < 65536) (kind : attributes ≠ 0x0F)
    (bytes : ∀ byte < slotSize, data (slotSize * slot + byte) =
      FileSystem.entryBytes name attributes cluster size byte) :
    slotHead data slot =
      if DotName name then none else some ⟨cluster, isDirectory attributes⟩ := by
  obtain ⟨live, told, named, start⟩ := entry_of_entryBytes storable bytes
  have names : SlotNames data name (slotSize * slot) := ⟨live, told ▸ kind, named⟩
  rw [names.slotHead, told, start, Nat.mod_eq_of_lt small]

namespace FileSystem

section Lookups

variable {fs : FileSystem} (tree : fs.Tree) (layout : fs.Layout) (reliable : fs.Reliable)
  {directory depth : Nat} (inside : fs.DirectoryAt directory depth) {name : Name} {found : Found}
include tree layout reliable inside

/-- The slot a lookup has found, and what it leads to. -/
theorem Tree.lookup_place (looked : fs.findFileInDirectory directory name = .ok (some found)) :
    ∃ place, fs.HasSlot ⟨directory, true⟩ place ∧
      SlotNames (fs.block place.1) name (slotSize * place.2) ∧
      found = ⟨entryCluster (fs.block place.1) (slotSize * place.2),
        entrySize (fs.block place.1) (slotSize * place.2),
        entryAttributes (fs.block place.1) (slotSize * place.2),
        some (place.1, slotSize * place.2)⟩ ∧
      fs.leadsTo place =
        if DotName name then none else some ⟨found.cluster, isDirectory found.attributes⟩ := by
  obtain ⟨clusters, links⟩ := tree.chained inside
  obtain ⟨sector, member, offset, hit, rfl⟩ :=
    findFileInDirectory_some layout (links.chain layout reliable) looked
  obtain ⟨slot, small, place, live, kind, named, -⟩ := findName_some hit
  rw [Nat.zero_add] at place
  subst place
  have names : SlotNames (fs.block sector) name (slotSize * slot) := ⟨live, kind, named⟩
  exact ⟨(sector, slot), ⟨rfl, clusters, links, member, small⟩, names, rfl, names.slotHead⟩

/-- What a lookup has found can be reached. -/
theorem Tree.found_reachable (looked : fs.findFileInDirectory directory name = .ok (some found)) :
    ∃ above, fs.Reachable ⟨found.cluster, isDirectory found.attributes⟩ above := by
  obtain ⟨place, slot, -, -, live, named, cluster, told⟩ :=
    tree.lookup layout reliable inside looked
  by_cases isDot : name = dot
  · obtain ⟨kind, self⟩ := tree.self inside slot live (named.trans isDot)
    rw [cluster, told, kind, self]
    exact ⟨depth, inside⟩
  by_cases isDotDot : name = dotDot
  · obtain ⟨kind, parent⟩ := tree.parent inside slot live (named.trans isDotDot)
    rw [cluster, told, kind]
    rcases parent with ⟨-, isRoot⟩ | ⟨above, -, way, -⟩
    · rw [isRoot]
      exact ⟨0, .root⟩
    · exact ⟨above, way⟩
  · obtain ⟨place, -, -, leads⟩ := tree.entry_of_lookup layout reliable inside looked isDot isDotDot
    exact ⟨_, inside.child leads⟩

end Lookups

section Edits

variable {fs after : FileSystem}

/-- A sector that changes in one slot is stored as it is there. -/
theorem changesSlot_stored {sector slot : Nat} {data : Buffer}
    (change : ChangesSlot slot (fs.block sector) data) :
    ChangesSlot slot (fs.block sector) (cutBlock data) := by
  intro index elsewhere
  rw [cutBlock]
  split
  · exact change index elsewhere
  · rename_i outside
    rw [block, cutBlock, if_neg outside]

/-- Editing the first slot of a name changes what that slot leads to. -/
theorem editEntry_relabels {directory : Nat} {name : Name} {clusters : List Nat}
    {edit : Buffer → Nat → Run Buffer} (layout : fs.Layout) (reliable : fs.Reliable)
    (links : fs.Links directory clusters)
    (confined : ∀ data data' slot, edit data (slotSize * slot) = .ok data' →
      ChangesSlot slot data data')
    (edited : fs.editEntry directory name edit = .ok (true, after)) :
    ∃ place data found, fs.findFileInDirectory directory name = .ok (some found) ∧
      found.slot = some (place.1, slotSize * place.2) ∧ place.2 < 16 ∧
      edit (fs.block place.1) (slotSize * place.2) = .ok data ∧
      fs.Relabels after (Function.update fs.leadsTo place (slotHead (cutBlock data) place.2)) := by
  obtain ⟨sector, member, slot, small, data, -, looked, changed, rfl⟩ :=
    editEntry_stores layout reliable links edited
  exact ⟨(sector, slot), data, _, looked, rfl, small, changed,
    relabels_store layout (links.high layout member)
      (changesSlot_stored (confined _ _ _ changed))⟩

/-- A new name changes one slot. -/
theorem renamed_confined {newName : Name} (short : newName.length ≤ 11) (data data' : Buffer)
    (slot : Nat) (edited : fs.renamed newName data (slotSize * slot) = .ok data') :
    ChangesSlot slot data data' := by
  intro index elsewhere
  refine (renamed_sector short edited).2 index fun within => elsewhere ?_
  simp only [slotSize] at within ⊢
  omega

/-- So does the mark of a deleted slot. -/
theorem deleted_confined (data data' : Buffer) (slot : Nat)
    (edited : (.ok (Function.update data (slotSize * slot) 0xE5) : Run Buffer) = .ok data') :
    ChangesSlot slot data data' := by
  obtain rfl := Except.ok.inj edited
  exact changesSlot_update slot data 0xE5

/-- A slot with that mark leads nowhere. -/
theorem slotHead_deleted (data : Buffer) {slot : Nat} (small : slot < 16) :
    slotHead (cutBlock (Function.update data (slotSize * slot) 0xE5)) slot = none := by
  refine slotHead_free ?_
  rw [cutBlock, if_pos (by simp only [slotSize]; omega), Function.update_self]
  rfl

/-- Entering a name changes what the slot that is taken leads to. -/
theorem writeDirectoryEntry_relabels {directory cluster size : Nat} {name : Name}
    {attributes : UInt8} {clusters : List Nat} (layout : fs.Layout) (reliable : fs.Reliable)
    (links : fs.Links directory clusters) (storable : Storable name) (small : cluster < 65536)
    (kind : attributes ≠ 0x0F)
    (entered : fs.writeDirectoryEntry directory name attributes cluster size = .ok (true, after)) :
    ∃ slot < 16, fs.findFreeDirectoryEntry directory = .ok (some (slotSize * slot)) ∧
      (∃ data, after = fs.store (fs.clusterSector directory) data) ∧
      fs.Relabels after (Function.update fs.leadsTo (fs.clusterSector directory, slot)
        (if DotName name then none else some ⟨cluster, isDirectory attributes⟩)) := by
  rw [writeDirectoryEntry] at entered
  rcases links.findFreeDirectoryEntry_cases layout reliable with
    ⟨none, -⟩ | ⟨slot, few, taken, -⟩
  · rw [none] at entered
    cases entered
  · rw [taken, Run.ok_bind] at entered
    dsimp only at entered
    rw [readSector_eq layout.sector reliable] at entered
    dsimp only at entered
    rw [writeSector_eq layout.sector reliable] at entered
    cases entered
    have change : ChangesSlot slot (fs.block (fs.clusterSector directory))
        (putBytes (fs.block (fs.clusterSector directory)) (slotSize * slot) slotSize
          (entryBytes name attributes cluster size)) :=
      changesSlot_putBytes slot 0 slotSize _ _ (by decide)
    have relabels := relabels_store layout (links.high layout (links.first_mem layout))
      (changesSlot_stored change)
    have leads : slotHead (cutBlock (putBytes (fs.block (fs.clusterSector directory))
        (slotSize * slot) slotSize (entryBytes name attributes cluster size))) slot =
          if DotName name then none else some ⟨cluster, isDirectory attributes⟩ :=
      slotHead_of_entered storable small kind fun byte inside => by
        rw [cutBlock, if_pos (by simp only [slotSize] at inside ⊢; omega), putBytes_add _ _ _ inside]
    rw [leads] at relabels
    exact ⟨slot, few, taken, ⟨_, rfl⟩, relabels⟩

end Edits

section Slots

variable {fs : FileSystem} (tree : fs.Tree)
include tree

/-- The tree as a graph of slots. -/
theorem Tree.rooted_slots : Rooted (SlotEdge fs.HasSlot fs.leadsTo) rootHead := by
  rw [← entry_eq]
  exact tree.rooted

variable (layout : fs.Layout) {directory depth : Nat}
include layout

/-- A slot belongs to one of the directories that can be reached. -/
theorem Tree.owner
    (inside : Reach (SlotEdge fs.HasSlot fs.leadsTo) rootHead ⟨directory, true⟩ depth)
    {place : Nat × Nat} (own : fs.HasSlot ⟨directory, true⟩ place) {node : Head} {depth' : Nat}
    (reach : Reach (SlotEdge fs.HasSlot fs.leadsTo) rootHead node depth')
    (own' : fs.HasSlot node place) : node = ⟨directory, true⟩ := by
  rw [← fs.entry_eq] at inside reach
  obtain ⟨cluster, kind⟩ := node
  obtain rfl : kind = true := own'.1
  rw [tree.slotOf_unique layout reach inside own'.2 own.2]

/-- A directory that is told by its name can be reached without any other slot of its parent. -/
theorem Tree.aim_without (reliable : fs.Reliable)
    (inside : Reach (SlotEdge fs.HasSlot fs.leadsTo) rootHead ⟨directory, true⟩ depth)
    {place : Nat × Nat} {head : Head} (own : fs.HasSlot ⟨directory, true⟩ place)
    (led : fs.leadsTo place = some head) {name : Name} {target : Found}
    (aimed : fs.findFileInDirectory directory name = .ok (some target))
    (kind : isDirectory target.attributes = true) (other : target.cluster ≠ head.cluster)
    (elsewhere : target.cluster ≠ directory) :
    ∃ deep, Reach (SlotEdge fs.HasSlot (Function.update fs.leadsTo place none)) rootHead
      ⟨target.cluster, true⟩ deep := by
  have without : ∀ {node depth'}, Reach (SlotEdge fs.HasSlot fs.leadsTo) rootHead node depth' →
      depth' ≤ depth → Reach (SlotEdge fs.HasSlot (Function.update fs.leadsTo place none)) rootHead
        node depth' := fun reach less =>
    tree.rooted_slots.reach_without inside ⟨own, led⟩ (tree.owner layout inside own) reach less
  have inside' : fs.DirectoryAt directory depth := by
    rw [DirectoryAt, Reachable, entry_eq]
    exact inside
  by_cases isDot : name = dot
  · -- One dot leads to the directory itself.
    obtain ⟨place', slot, -, -, live, named, cluster, -⟩ :=
      tree.lookup layout reliable inside' aimed
    exact absurd (cluster.trans (tree.self inside' slot live (named.trans isDot)).2) elsewhere
  by_cases isDotDot : name = dotDot
  · -- Two dots lead to a directory less deep.
    have reach := tree.lookup_directory layout reliable inside' aimed kind
    rw [stepDepth, if_neg isDot, if_pos isDotDot, DirectoryAt, Reachable, entry_eq] at reach
    exact ⟨_, without reach (Nat.sub_le _ _)⟩
  · obtain ⟨place', -, -, -, slot, leads⟩ :=
      tree.entry_of_lookup layout reliable inside' aimed isDot isDotDot
    refine ⟨_, (without inside (Nat.le_refl _)).child ⟨⟨rfl, slot⟩, ?_⟩⟩
    rw [kind] at leads
    rw [Function.update_of_ne]
    · exact leads
    · rintro rfl
      exact other (congrArg Head.cluster (Option.some.inj (leads.symm.trans led)))

end Slots

section InPlace

variable {fs after : FileSystem} (tree : fs.Tree) (layout : fs.Layout) (reliable : fs.Reliable)
  {directory depth : Nat} (inside : fs.DirectoryAt directory depth) {name : Name} {found : Found}
  (looked : fs.findFileInDirectory directory name = .ok (some found))
include tree layout reliable inside looked

/-- The slot that an edit of a name changes is the one a lookup has found. -/
theorem Tree.edits_place {edit : Buffer → Nat → Run Buffer}
    (confined : ∀ data data' slot, edit data (slotSize * slot) = .ok data' →
      ChangesSlot slot data data')
    (edited : fs.editEntry directory name edit = .ok (true, after)) :
    ∃ place data, fs.HasSlot ⟨directory, true⟩ place ∧ place.2 < 16 ∧
      SlotNames (fs.block place.1) name (slotSize * place.2) ∧
      edit (fs.block place.1) (slotSize * place.2) = .ok data ∧
      found.cluster = entryCluster (fs.block place.1) (slotSize * place.2) ∧
      found.attributes = entryAttributes (fs.block place.1) (slotSize * place.2) ∧
      found.slot = some (place.1, slotSize * place.2) ∧
      fs.leadsTo place =
        (if DotName name then none else some ⟨found.cluster, isDirectory found.attributes⟩) ∧
      fs.Relabels after (Function.update fs.leadsTo place (slotHead (cutBlock data) place.2)) := by
  obtain ⟨clusters, links⟩ := tree.chained inside
  obtain ⟨place, data, found', looked', slot, small, changed, relabels⟩ :=
    editEntry_relabels layout reliable links confined edited
  obtain rfl := Option.some.inj (Except.ok.inj (looked.symm.trans looked'))
  obtain ⟨place', own, names, recorded, led⟩ := tree.lookup_place layout reliable inside looked
  have slot' : found.slot = some (place'.1, slotSize * place'.2) := by rw [recorded]
  obtain ⟨sector, offset⟩ := Prod.mk.inj (Option.some.inj (slot'.symm.trans slot))
  obtain rfl : place' = place :=
    Prod.ext sector (Nat.eq_of_mul_eq_mul_left (by decide) offset)
  exact ⟨place', data, own, small, names, changed, by rw [recorded], by rw [recorded], slot', led,
    relabels⟩

/-- A rename in place keeps everything if dot names stay dot names, or the slot led to the root. -/
theorem Tree.losesNothing_in_place_iff {newName : Name} (storable : Storable newName)
    (edited : fs.editEntry directory name (fs.renamed newName) = .ok (true, after)) :
    fs.LosesNothing after ↔
      (DotName name ∧ found.cluster = rootCluster) ∨ (DotName name ↔ DotName newName) := by
  obtain ⟨place, data, own, small, names, changed, cluster, attributes, -, led, relabels⟩ :=
    tree.edits_place layout reliable inside looked (renamed_confined storable.short) edited
  obtain ⟨above, reach⟩ := tree.found_reachable layout reliable inside looked
  have told : slotHead (cutBlock data) place.2 =
      if DotName newName then none else some ⟨found.cluster, isDirectory found.attributes⟩ := by
    rw [cluster, attributes]
    refine slotHead_of_renamed storable names fun byte within => ?_
    rw [cutBlock, if_pos (by simp only [slotSize] at within ⊢; omega)]
    exact (renamed_sector storable.short changed).1 byte within
  rw [told] at relabels
  have rooted := tree.rooted_slots
  rw [relabels.losesNothing_iff tree fun label target leads => by
    rcases update_eq_some leads with ⟨-, new⟩ | ⟨-, same⟩
    · split at new
      · cases new
      · exact Or.inr ⟨above, Option.some.inj new ▸ reach⟩
    · exact Or.inl same]
  have isRoot : found.cluster = rootCluster → (⟨found.cluster, isDirectory found.attributes⟩ : Head) =
      rootHead := fun same => tree.head_unique reach (.root : fs.Reachable rootHead 0) same
  simp only [Reachable, DirectoryAt, entry_eq] at reach inside
  by_cases wasDot : DotName name
  · rw [if_pos wasDot] at led
    by_cases isDot : DotName newName
    · -- Neither name counts.
      rw [if_pos isDot, ← led, Function.update_eq_self]
      exact iff_of_true rooted.keepsNodes (Or.inr (iff_of_true wasDot isDot))
    · -- The slot has not counted before; now it leads to the directory or to the one above.
      rw [if_neg isDot]
      by_cases root : found.cluster = rootCluster
      · rw [isRoot root]
        exact iff_of_true (rooted.keepsNodes_root led) (Or.inl ⟨wasDot, root⟩)
      · refine iff_of_false (reach.not_keepsNodes_of_doubled (fun same => root ?_) inside own led) ?_
        · exact congrArg Head.cluster same
        · rintro (⟨-, same⟩ | same)
          · exact root same
          · exact isDot (same.mp wasDot)
  · rw [if_neg wasDot] at led
    by_cases isDot : DotName newName
    · -- The slot does not count any more, and what it led to is lost.
      rw [if_pos isDot]
      have known : ∀ label target, Function.update fs.leadsTo place none label = some target →
          label ≠ place ∧ fs.leadsTo label = some target := fun label target leads => by
        rcases update_eq_some leads with ⟨-, new⟩ | kept
        · cases new
        · exact kept
      refine iff_of_false (rooted.not_keepsNodes_of_lost inside ⟨own, led⟩
        (fun label target leads => Or.inl (known label target leads).2)
        fun label leads => known label _ leads) ?_
      rintro (⟨dotted, -⟩ | same)
      · exact wasDot dotted
      · exact wasDot (same.mpr isDot)
    · rw [if_neg isDot, ← led, Function.update_eq_self]
      exact iff_of_true rooted.keepsNodes (Or.inr (iff_of_false wasDot isDot))

end InPlace

section Moves

variable {fs middle after : FileSystem} (tree : fs.Tree) (layout : fs.Layout)
  (reliable : fs.Reliable) {directory goal depth : Nat} (inside : fs.DirectoryAt directory depth)
  {name : Name} {found : Found}
  (looked : fs.findFileInDirectory directory name = .ok (some found)) {deep : Nat}
  (goalAt : fs.DirectoryAt goal deep) (elsewhere : goal ≠ directory) (storable : Storable name)
  (entered : fs.writeDirectoryEntry goal name found.attributes found.cluster found.size =
    .ok (true, middle))
  (edited : middle.editEntry directory name (fun sectorData offset =>
    .ok (Function.update sectorData offset 0xE5)) = .ok (true, after))
include tree layout reliable inside looked goalAt elsewhere storable entered edited

/-- A move fills a slot of the other directory and empties the one a lookup has found. -/
theorem Tree.moved_relabels :
    ∃ place slot, fs.HasSlot ⟨directory, true⟩ place ∧ slot < 16 ∧
      fs.findFreeDirectoryEntry goal = .ok (some (slotSize * slot)) ∧
      fs.HasSlot ⟨goal, true⟩ (fs.clusterSector goal, slot) ∧
      fs.leadsTo place =
        (if DotName name then none else some ⟨found.cluster, isDirectory found.attributes⟩) ∧
      fs.Relabels after (moved fs.leadsTo place (fs.clusterSector goal, slot)
        (if DotName name then none else some ⟨found.cluster, isDirectory found.attributes⟩)) := by
  obtain ⟨clusters, links⟩ := tree.chained inside
  obtain ⟨others, goalLinks⟩ := tree.chained goalAt
  obtain ⟨place, own, names, recorded, led⟩ := tree.lookup_place layout reliable inside looked
  have small : found.cluster < 65536 := by
    rw [recorded]
    simp only [entryCluster, halfAt]
    have low := (fs.block place.1 (slotSize * place.2 + 26)).toNat_lt
    have high := (fs.block place.1 (slotSize * place.2 + 26 + 1)).toNat_lt
    omega
  have kind : found.attributes ≠ 0x0F := by
    rw [recorded]
    exact names.2.1
  obtain ⟨slot, few, taken, ⟨data, rfl⟩, filled⟩ :=
    writeDirectoryEntry_relabels layout reliable goalLinks storable small kind entered
  have goalOwn : fs.HasSlot ⟨goal, true⟩ (fs.clusterSector goal, slot) :=
    ⟨rfl, others, goalLinks, goalLinks.first_mem layout, few⟩
  have same := fs.store_same (fs.clusterSector goal) data
  have links' : (fs.store (fs.clusterSector goal) data).Links directory clusters :=
    links.store layout (goalLinks.high layout (goalLinks.first_mem layout))
  -- The sector that has been written is none of the directory the entry was in.
  have again := links.findFileInDirectory_congr layout reliable same links' (fun sector member => by
    rw [store_block, if_neg]
    rintro rfl
    exact elsewhere (tree.slotOf_unique layout goalAt inside goalOwn.2
      ⟨clusters, links, member, few⟩)) name
  obtain ⟨place', data', found', looked', slot', small', changed, emptied⟩ :=
    editEntry_relabels (layout.same same) (reliable.same same) links' deleted_confined edited
  rw [again, looked] at looked'
  obtain rfl := Option.some.inj (Except.ok.inj looked')
  have here : found.slot = some (place.1, slotSize * place.2) := by rw [recorded]
  obtain ⟨sector, offset⟩ := Prod.mk.inj (Option.some.inj (here.symm.trans slot'))
  obtain rfl : place = place' :=
    Prod.ext sector (Nat.eq_of_mul_eq_mul_left (by decide) offset)
  obtain rfl := Except.ok.inj changed
  rw [slotHead_deleted _ small', filled.leadsTo] at emptied
  exact ⟨place, slot, own, few, taken, goalOwn, led, filled.trans emptied⟩

/-- A move keeps everything unless a directory gets into itself or an entry is written over. -/
theorem Tree.losesNothing_moved_iff {newName : Name} {target : Found}
    (aimed : fs.findFileInDirectory directory newName = .ok (some target))
    (kind : isDirectory target.attributes = true) (same : target.cluster = goal) :
    fs.LosesNothing after ↔ (DotName name ∨ goal ≠ found.cluster) ∧
      ∀ slot < 16, fs.findFreeDirectoryEntry goal = .ok (some (slotSize * slot)) →
        slotHead (fs.block (fs.clusterSector goal)) slot = none := by
  obtain ⟨place, slot, own, few, taken, goalOwn, led, relabels⟩ :=
    tree.moved_relabels layout reliable inside looked goalAt elsewhere storable entered edited
  obtain ⟨above, reach⟩ := tree.found_reachable layout reliable inside looked
  have rooted := tree.rooted_slots
  -- The slot that is taken is the only one to ask about.
  have free : (∀ slot < 16, fs.findFreeDirectoryEntry goal = .ok (some (slotSize * slot)) →
      slotHead (fs.block (fs.clusterSector goal)) slot = none) ↔
        fs.leadsTo (fs.clusterSector goal, slot) = none := by
    constructor
    · exact fun nowhere => nowhere slot few taken
    · intro nowhere other _ taken'
      have offset := Option.some.inj (Except.ok.inj (taken.symm.trans taken'))
      obtain rfl := Nat.eq_of_mul_eq_mul_left (by decide) offset
      exact nowhere
  have known : ∀ node, (if DotName name then none
      else some (⟨found.cluster, isDirectory found.attributes⟩ : Head)) = some node →
        ∃ above, fs.Reachable node above := by
    intro node new
    split at new
    · cases new
    · exact ⟨above, Option.some.inj new ▸ reach⟩
  rw [free, relabels.losesNothing_iff tree fun label node leads => by
    obtain ⟨-, ⟨-, new⟩ | same⟩ := moved_eq_some leads
    · exact Or.inr (known node new)
    · exact Or.inl same]
  simp only [Reachable, DirectoryAt, entry_eq] at reach inside goalAt known
  by_cases wasDot : DotName name
  · rw [if_pos wasDot] at led known ⊢
    cases here : fs.leadsTo (fs.clusterSector goal, slot) with
    | none =>
      -- Neither slot has counted, and neither does.
      have unchanged : moved fs.leadsTo place (fs.clusterSector goal, slot) none = fs.leadsTo := by
        have filled : Function.update fs.leadsTo (fs.clusterSector goal, slot) none = fs.leadsTo :=
          Function.update_eq_self_iff.mpr here.symm
        rw [moved, filled]
        exact Function.update_eq_self_iff.mpr led.symm
      rw [unchanged]
      exact iff_of_true rooted.keepsNodes ⟨Or.inl wasDot, rfl⟩
    | some victim =>
      refine iff_of_false (rooted.not_keepsNodes_of_overwritten goalAt ⟨goalOwn, here⟩
        (Option.some_ne_none victim).symm known) ?_
      rintro ⟨-, wrong⟩
      cases wrong
  · rw [if_neg wasDot] at led known ⊢
    by_cases self : goal = found.cluster
    · -- A directory that gets an entry in itself.
      have isGoal : (⟨found.cluster, isDirectory found.attributes⟩ : Head) = ⟨goal, true⟩ := by
        rw [← fs.entry_eq] at reach goalAt
        exact tree.head_unique reach goalAt self.symm
      rw [isGoal] at led ⊢
      refine iff_of_false (rooted.not_keepsNodes_of_self inside ⟨own, led⟩
        (tree.owner layout goalAt goalOwn)) ?_
      rintro ⟨dotted | different, -⟩
      · exact wasDot dotted
      · exact different self
    · cases here : fs.leadsTo (fs.clusterSector goal, slot) with
      | none =>
        obtain ⟨deep', way⟩ := tree.aim_without layout reliable inside own led aimed kind
          (same.trans_ne self) (same.trans_ne elsewhere)
        rw [same] at way
        exact iff_of_true (rooted.keepsNodes_moved inside ⟨own, led⟩ goalOwn here
          (tree.owner layout goalAt goalOwn) way) ⟨Or.inr self, rfl⟩
      | some victim =>
        -- The slots are those of different directories, so that they lead to different things.
        have other : some (⟨found.cluster, isDirectory found.attributes⟩ : Head) ≠ some victim := by
          rintro equal
          rw [← equal] at here
          have unique := (rooted.unique goalAt inside ⟨goalOwn, here⟩ ⟨own, led⟩).1
          exact elsewhere (congrArg Head.cluster unique)
        refine iff_of_false (rooted.not_keepsNodes_of_overwritten goalAt ⟨goalOwn, here⟩ other known) ?_
        rintro ⟨-, wrong⟩
        cases wrong

end Moves

end FileSystem

end Pocky
