import Pocky.Fs.Lookups
import Pocky.Fs.RemovalLaws
import Pocky.Fs.Hierarchy

/-! What taking a name out of a directory and freeing a chain does to the slots and the table. -/

namespace Pocky

namespace FileSystem

/-- A slot holds the bytes it held. -/
def KeepsSlot (fs after : FileSystem) (place : Nat × Nat) : Prop :=
  ∀ byte < slotSize, after.block place.1 (slotSize * place.2 + byte) =
    fs.block place.1 (slotSize * place.2 + byte)

namespace KeepsSlot

variable {fs after : FileSystem} {place : Nat × Nat}

/-- The first byte of a slot that was kept. -/
theorem first (kept : fs.KeepsSlot after place) :
    after.block place.1 (slotSize * place.2) = fs.block place.1 (slotSize * place.2) :=
  kept 0 (by decide)

/-- Whether a slot that was kept holds an entry. -/
theorem liveAt (kept : fs.KeepsSlot after place) : after.LiveAt place ↔ fs.LiveAt place := by
  rw [LiveAt, LiveAt, kept.first, entryAttributes, entryAttributes, kept 11 (by decide)]

/-- The name in a slot that was kept. -/
theorem nameAt (kept : fs.KeepsSlot after place) : after.nameAt place = fs.nameAt place :=
  entryName_congr fun index small => kept index (Nat.lt_trans small (by decide))

/-- The start cluster in a slot that was kept. -/
theorem clusterAt (kept : fs.KeepsSlot after place) : after.clusterAt place = fs.clusterAt place := by
  simp only [FileSystem.clusterAt, entryCluster, halfAt, Nat.add_assoc, kept 26 (by decide),
    kept (26 + 1) (by decide)]

/-- Whether a slot that was kept is that of a directory. -/
theorem directoryAt (kept : fs.KeepsSlot after place) :
    after.directoryAt place = fs.directoryAt place := by
  simp only [FileSystem.directoryAt, entryAttributes, kept 11 (by decide)]

/-- What a slot that was kept leads to. -/
theorem slotHead (kept : fs.KeepsSlot after place) :
    slotHead (after.block place.1) place.2 = slotHead (fs.block place.1) place.2 :=
  slotHead_congr fun byte small => kept byte (Nat.lt_trans small (by decide))

end KeepsSlot

/-- A slot is where a directory's sectors are. -/
def InArea (fs : FileSystem) (place : Nat × Nat) : Prop :=
  place.2 < 16 ∧ fs.firstDataSector ≤ place.1

/-- A slot had a name, and is marked as deleted. -/
def Marked (fs after : FileSystem) (name : Name) (place : Nat × Nat) : Prop :=
  SlotNames (fs.block place.1) name (slotSize * place.2) ∧
    after.block place.1 (slotSize * place.2) = 0xE5

/-- A slot that is marked holds no entry. -/
theorem Marked.not_live {fs after : FileSystem} {name : Name} {place : Nat × Nat}
    (gone : fs.Marked after name place) : ¬ after.LiveAt place := by
  rintro ⟨live, -⟩
  rw [gone.2] at live
  cases live

/--
A chain has been freed, and slots of a directory that had a name have been marked as deleted.

The first slot that a lookup of the name finds is one of them.
-/
structure Prunes (fs after : FileSystem) (parent : Nat) (name : Name) (clusters : List Nat) :
    Prop where
  /-- Only the disk has changed. -/
  same : SameVolume fs after
  /-- The clusters of the chain are free, and the other entries of the table have stayed. -/
  table : ∀ cluster < fs.totalClusters,
    after.fatEntry cluster = if cluster ∈ clusters then 0 else fs.fatEntry cluster
  /-- A slot has stayed, or had the name and is marked. -/
  slots : ∀ place, fs.InArea place →
    fs.KeepsSlot after place ∨ fs.SlotOf parent place ∧ fs.Marked after name place
  /-- The slot that is found is marked. -/
  removed : ∀ found (place : Nat × Nat), fs.findFileInDirectory parent name = .ok (some found) →
    found.slot = some (place.1, slotSize * place.2) → fs.Marked after name place

/-- Marking slots and freeing a chain afterwards. -/
theorem Prunes.of_freed {fs middle after : FileSystem} (reliable : fs.Reliable) {parent : Nat} {name : Name} {clusters : List Nat}
    (same : SameVolume fs middle)
    (table : ∀ cluster < fs.totalClusters, middle.fatEntry cluster = fs.fatEntry cluster)
    (slots : ∀ place, fs.InArea place →
      fs.KeepsSlot middle place ∨ fs.SlotOf parent place ∧ fs.Marked middle name place)
    (removed : ∀ found (place : Nat × Nat), fs.findFileInDirectory parent name = .ok (some found) →
      found.slot = some (place.1, slotSize * place.2) →
      fs.InArea place ∧ fs.Marked middle name place)
    (freed : middle.Freed clusters after) : fs.Prunes after parent name clusters := by
  have total : middle.totalClusters = fs.totalClusters := by rw [same.fields]
  have first : middle.firstDataSector = fs.firstDataSector := by rw [same.fields]
  -- Freeing does not touch the data area.
  have data : ∀ sector, fs.firstDataSector ≤ sector → after.block sector = middle.block sector :=
    fun sector high => freed.data sector (first ▸ high)
  refine ⟨same.trans freed.same, ?_, ?_, ?_⟩
  · intro cluster small
    split
    · rename_i member
      exact freed.zero.mpr ((reliable.same same).frees _ _) cluster member
    · rename_i absent
      rw [freed.others cluster (total ▸ small) absent, table cluster small]
  · intro place area
    have block := data place.1 area.2
    rw [KeepsSlot, Marked, block]
    exact slots place area
  · intro found place looked slot
    obtain ⟨area, gone⟩ := removed found place looked slot
    have block := data place.1 area.2
    rw [Marked, block]
    exact gone

section Removal

variable {fs after : FileSystem} {name : Name}

/-- A sector in which the first slot of a name has been marked. -/
theorem marked_slot (fs : FileSystem) {sector : Nat} (slot : Nat)
    (shape : after.block sector = marked name (fs.block sector)) :
    fs.KeepsSlot after (sector, slot) ∨ fs.Marked after name (sector, slot) := by
  rw [KeepsSlot, Marked, shape]
  cases found : findName (fs.block sector) name 16 0 with
  | none =>
    rw [marked, found]
    exact Or.inl fun _ _ => rfl
  | some offset =>
    obtain ⟨place, inside, rfl, names, -⟩ := findName_eq_some_iff.mp found
    rw [marked, found]
    rw [Nat.zero_add] at names ⊢
    by_cases here : slot = place
    · subst here
      exact Or.inr ⟨names, Function.update_self _ _ _⟩
    · exact Or.inl fun byte within =>
        (changesSlot_update place (fs.block sector) 0xE5).bytes here within

/-- The slot that a lookup finds in such a sector. -/
theorem marked_hit {sector slot : Nat}
    (hit : findName (fs.block sector) name 16 0 = some (slotSize * slot))
    (shape : after.block sector = marked name (fs.block sector)) :
    slot < 16 ∧ fs.Marked after name (sector, slot) := by
  obtain ⟨place, small, equal, names, -⟩ := findName_eq_some_iff.mp hit
  refine ⟨?_, names, ?_⟩
  · simp only [slotSize] at equal
    omega
  · rw [shape, marked, hit]
    exact Function.update_self _ _ _

/-- On a device that refuses nothing, marking a name in the sectors of a cluster succeeds. -/
theorem markSectors_returns {fs : FileSystem} (layout : fs.Layout) (reliable : fs.Reliable)
    (name : Name) (sector remaining index : Nat) :
    ∃ after, fs.markSectors name sector remaining index = (true, after) := by
  -- By induction on the sectors that are left.
  induction remaining generalizing fs index with
  | zero => exact ⟨fs, rfl⟩
  | succ remaining ih =>
    rw [markSectors, readSector_eq layout.sector reliable]
    dsimp only
    split
    · exact ih layout reliable (index + 1)
    · rename_i offset found
      rw [writeSector_eq layout.sector reliable]
      have same := fs.store_same ((sector + index) % 2 ^ 32)
        (Function.update (fs.block ((sector + index) % 2 ^ 32)) offset 0xE5)
      exact ih (layout.same same) (reliable.same same) (index + 1)

/-- On a device that refuses nothing, marking a name in a directory succeeds. -/
theorem markChain_returns {fs : FileSystem} (layout : fs.Layout) (reliable : fs.Reliable)
    (name : Name) {clusters : List Nat} {start steps : Nat}
    (linked : Linked fs.fatEntry (endMark ≤ ·) clusters) (head : clusters.head? = some start)
    (valid : ∀ cluster ∈ clusters, fs.InVolume cluster) (enough : clusters.length ≤ steps) :
    ∃ after, fs.markChain name steps start = .ok (true, after) := by
  -- By induction along the chain.
  induction clusters generalizing fs start steps with
  | nil => exact linked.elim
  | cons cluster rest ih =>
    obtain rfl : cluster = start := Option.some.inj head
    obtain ⟨steps, rfl⟩ : ∃ fewer, steps = fewer + 1 :=
      Nat.exists_eq_succ_of_ne_zero (by simp only [List.length_cons] at enough; omega)
    have inside := valid cluster List.mem_cons_self
    have others : ∀ other ∈ rest, fs.InVolume other := fun other member =>
      valid other (List.mem_cons_of_mem _ member)
    obtain ⟨middle, marking⟩ :=
      markSectors_returns layout reliable name (fs.clusterSector cluster) fs.bpb.sectorsPerCluster 0
    have here : fs.Marks name (fs.clusterSectors cluster) middle :=
      markSectors_marks layout.sector (layout.clusterSectors_nodup inside) marking
    have links := here.fatEntry layout fun sector member => layout.clusterSectors_high inside member
    rw [markChain, marking]
    dsimp only
    rw [readFatEntry_eq (layout.same here.same).sector (reliable.same here.same),
      links cluster inside.2]
    cases rest with
    | nil =>
      have last : endMark ≤ fs.fatEntry cluster := linked
      rw [if_pos last]
      exact ⟨middle, rfl⟩
    | cons second rest =>
      have link : fs.fatEntry cluster = second := linked.1
      obtain ⟨small, inner⟩ := layout.not_mark (others second List.mem_cons_self)
      rw [link, if_neg inner, if_neg (Nat.ne_of_lt small)]
      exact ih (layout.same here.same) (reliable.same here.same)
        (linked.2.congr fun other member => links other (others other member).2) rfl
        (fun other member => here.same.inVolume.mpr (others other member))
        (Nat.le_of_succ_le_succ enough)

/-- There are enough steps for every chain. -/
theorem Links.length_le (layout : fs.Layout) (reliable : fs.Reliable) {start : Nat}
    {clusters : List Nat} (links : fs.Links start clusters) : clusters.length ≤ walkSteps :=
  (links.chain layout reliable).length_le layout

/-- On a device that refuses nothing, marking a name does not fail. -/
theorem Links.markChain_told {middle : FileSystem} {told : Bool} (layout : fs.Layout)
    (reliable : fs.Reliable) {parent : Nat} {directory : List Nat}
    (directoryLinks : fs.Links parent directory)
    (marking : fs.markChain name walkSteps parent = .ok (told, middle)) : told = true := by
  obtain ⟨middle', marks⟩ := markChain_returns layout reliable name directoryLinks.linked
    directoryLinks.head directoryLinks.valid (directoryLinks.length_le layout reliable)
  exact (Prod.mk.inj (Except.ok.inj (marks.symm.trans marking))).1.symm

/-- Taking a name out of a directory and freeing a chain. -/
theorem markChain_prunes {middle : FileSystem} (layout : fs.Layout)
    (reliable : fs.Reliable) {parent cluster : Nat} {directory clusters : List Nat}
    (directoryLinks : fs.Links parent directory) (links : fs.Links cluster clusters)
    (marking : fs.markChain name walkSteps parent = .ok (true, middle))
    (freeing : middle.freeChain walkSteps cluster = .ok after) :
    fs.Prunes after parent name clusters := by
  have marks := markChain_marks layout directoryLinks.linked directoryLinks.head
    directoryLinks.nodup directoryLinks.valid marking
  have table := marks.fatEntry layout fun _ => directoryLinks.high layout
  have links' := marks.same.links links fun other member => table other (links.valid other member).2
  obtain ⟨after', freed', freed⟩ := freeChain_freed (layout.same marks.same) links'.linked
    links'.head links'.nodup links'.valid (links.length_le layout reliable)
  obtain rfl := Except.ok.inj (freed'.symm.trans freeing)
  refine Prunes.of_freed reliable marks.same table ?_ ?_ freed
  · intro place area
    have block := marks.blocks place.1
    by_cases inside : place.1 ∈ fs.directorySectors directory
    · rw [if_pos inside] at block
      exact (marked_slot fs place.2 block).imp_right fun gone =>
        ⟨⟨directory, directoryLinks, inside, area.1⟩, gone⟩
    · rw [if_neg inside] at block
      exact Or.inl fun byte _ => by rw [block]
  · -- The sector with the slot that is found has the name.
    intro found place looked slot
    obtain ⟨sector, inside, offset, hit, rfl⟩ :=
      findFileInDirectory_some layout (directoryLinks.chain layout reliable) looked
    obtain ⟨rfl, rfl⟩ := Prod.mk.inj (Option.some.inj slot)
    have block := marks.blocks place.1
    rw [if_pos inside] at block
    obtain ⟨small, gone⟩ := marked_hit hit block
    exact ⟨⟨small, directoryLinks.high layout inside⟩, gone⟩

/-- Marking the first slot of a name in a directory and freeing a chain. -/
theorem editEntry_prunes {middle : FileSystem} {told : Bool} (layout : fs.Layout)
    (reliable : fs.Reliable) {parent cluster : Nat} {directory clusters : List Nat}
    (directoryLinks : fs.Links parent directory) (links : fs.Links cluster clusters)
    (marking : fs.editEntry parent name (fun entryData offset =>
      .ok (Function.update entryData offset 0xE5)) = .ok (told, middle)) :
    (told = false ∧ middle = fs ∧ fs.findFileInDirectory parent name = .ok none) ∨
    (told = true ∧ ∃ found, ∃ entry : Nat × Nat,
      fs.findFileInDirectory parent name = .ok (some found) ∧
      found.slot = some (entry.1, slotSize * entry.2) ∧
      ∀ after, middle.freeChain walkSteps cluster = .ok after →
        fs.Prunes after parent name clusters ∧
        ∀ place, fs.InArea place → place ≠ entry → fs.KeepsSlot after place) := by
  rw [editEntry] at marking
  rcases directoryLinks.findFileInDirectory_cases layout reliable name with
    ⟨looked, -⟩ | ⟨sector, inside, offset, hit, looked⟩
  · rw [looked] at marking
    cases marking
    exact Or.inl ⟨rfl, rfl, looked⟩
  · rw [looked, Run.ok_bind] at marking
    dsimp only at marking
    rw [readSector_eq layout.sector reliable] at marking
    dsimp only at marking
    rw [Run.ok_bind, writeSector_eq layout.sector reliable] at marking
    cases marking
    obtain ⟨here, small, rfl, -⟩ := findName_eq_some_iff.mp hit
    rw [Nat.zero_add] at hit looked ⊢
    refine Or.inr ⟨rfl, _, (sector, here), looked, rfl, fun after freeing => ?_⟩
    have same := fs.store_same sector (Function.update (fs.block sector) (slotSize * here) 0xE5)
    have table : ∀ other < fs.totalClusters, (fs.store sector (Function.update (fs.block sector)
        (slotSize * here) 0xE5)).fatEntry other = fs.fatEntry other := fun other small =>
      fatEntry_store layout _ (directoryLinks.high layout inside) small
    have links' := same.links links fun other member => table other (links.valid other member).2
    obtain ⟨after', freed', freed⟩ := freeChain_freed (layout.same same) links'.linked
      links'.head links'.nodup links'.valid (links.length_le layout reliable)
    obtain rfl := Except.ok.inj (freed'.symm.trans freeing)
    have block : (fs.store sector (Function.update (fs.block sector) (slotSize * here) 0xE5)).block
        sector = marked name (fs.block sector) := by
      have one := (Marks.one hit).blocks sector
      rwa [if_pos (by simp)] at one
    obtain ⟨-, gone⟩ := marked_hit hit block
    have frame : ∀ place : Nat × Nat, place ≠ (sector, here) → fs.KeepsSlot
        (fs.store sector (Function.update (fs.block sector) (slotSize * here) 0xE5)) place := by
      intro place different byte within
      by_cases equal : place.1 = sector
      · have other : place.2 ≠ here := fun same => different (Prod.ext equal same)
        rw [equal, block, marked, hit]
        exact (changesSlot_update here (fs.block sector) 0xE5).bytes other within
      · rw [store_block, if_neg equal]
    refine ⟨Prunes.of_freed reliable same table ?_ ?_ freed, ?_⟩
    · intro place area
      by_cases equal : place = (sector, here)
      · subst equal
        exact Or.inr ⟨⟨directory, directoryLinks, inside, small⟩, gone⟩
      · exact Or.inl (frame place equal)
    · intro found place looked' slot
      obtain rfl := Option.some.inj (Except.ok.inj (looked.symm.trans looked'))
      obtain ⟨rfl, equal⟩ := Prod.mk.inj (Option.some.inj slot)
      obtain rfl : here = place.2 := Nat.eq_of_mul_eq_mul_left (by decide) equal
      exact ⟨⟨small, directoryLinks.high layout inside⟩, gone⟩
    · intro place area different byte within
      rw [freed.data place.1 area.2]
      exact frame place different byte within

end Removal

end FileSystem

end Pocky
