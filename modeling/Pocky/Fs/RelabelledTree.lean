import Pocky.Fs.Catalogue
import Pocky.Fs.PrunedTree
import Pocky.Fs.Renaming
import Pocky.Lib.Slots

/-! What a change of directory slots does to the files and directories below the root. -/

namespace Pocky

/-- The names of a directory inside itself and inside its children. -/
def DotName (name : Name) : Prop := name = dot ∨ name = dotDot

instance (name : Name) : Decidable (DotName name) := inferInstanceAs (Decidable (_ ∨ _))

/-- A slot in use leads to what it says, unless it has a dot name. -/
theorem SlotNames.slotHead {data : Buffer} {name : Name} {slot : Nat}
    (names : SlotNames data name (slotSize * slot)) : slotHead data slot =
      if DotName name then none
      else some ⟨entryCluster data (slotSize * slot),
        isDirectory (entryAttributes data (slotSize * slot))⟩ := by
  obtain ⟨live, kind, named⟩ := names
  have nowhere : (freeByte (data (slotSize * slot)) = true ∨
      entryAttributes data (slotSize * slot) = 0x0F ∨ name = dot ∨ name = dotDot) ↔ DotName name := by
    simp [live, kind, DotName]
  rw [Pocky.slotHead, named]
  exact if_congr nowhere rfl rfl

namespace FileSystem

/-- A slot of a directory. -/
def HasSlot (fs : FileSystem) (directory : Head) (place : Nat × Nat) : Prop :=
  directory.directory = true ∧ fs.SlotOf directory.cluster place

/-- What a slot leads to. -/
def leadsTo (fs : FileSystem) (place : Nat × Nat) : Option Head :=
  slotHead (fs.block place.1) place.2

/-- Entries are slots that lead somewhere. -/
theorem entry_eq (fs : FileSystem) : fs.Entry = SlotEdge fs.HasSlot fs.leadsTo := by
  funext directory place head
  exact propext and_assoc.symm

/-- An entry of what can be reached leads to a cluster. -/
def EntryTo (fs : FileSystem) (parent : Head) (place : Nat × Nat) (cluster : Nat) : Prop :=
  ∃ depth kind, fs.Reachable parent depth ∧ fs.Entry parent place ⟨cluster, kind⟩

/-- There is exactly one such entry. -/
def OneEntry (fs : FileSystem) (cluster : Nat) : Prop :=
  ∃ parent place, fs.EntryTo parent place cluster ∧
    ∀ other place', fs.EntryTo other place' cluster → other = parent ∧ place' = place

/-- Every file and directory below the root still has one entry that can be reached from the root. -/
def LosesNothing (fs after : FileSystem) : Prop :=
  ∀ head depth, fs.Reachable head depth → head ≠ rootHead → after.OneEntry head.cluster

/-- The slots are the same, and this is what they lead to now. -/
structure Relabels (fs after : FileSystem) (leads : Nat × Nat → Option Head) : Prop where
  /-- Only the disk has changed. -/
  same : SameVolume fs after
  /-- Directories have the same slots. -/
  slots : after.HasSlot = fs.HasSlot
  /-- What they lead to. -/
  leadsTo : after.leadsTo = leads

variable {fs after : FileSystem}

/-- Nothing has changed. -/
theorem Relabels.refl (fs : FileSystem) : fs.Relabels fs fs.leadsTo :=
  ⟨SameVolume.refl fs, rfl, rfl⟩

/-- Two changes are one. -/
theorem Relabels.trans {middle : FileSystem} {leads leads' : Nat × Nat → Option Head}
    (left : fs.Relabels middle leads) (right : middle.Relabels after leads') :
    fs.Relabels after leads' :=
  ⟨left.same.trans right.same, right.slots.trans left.slots, right.leadsTo⟩

/-- The entries afterwards. -/
theorem Relabels.entry {leads : Nat × Nat → Option Head} (relabels : fs.Relabels after leads) :
    after.Entry = SlotEdge fs.HasSlot leads := by
  rw [after.entry_eq, relabels.slots, relabels.leadsTo]

/-- The chains of the table do not depend on the data area. -/
theorem links_store_iff (layout : fs.Layout) {sector start : Nat} {data : Buffer} {clusters : List Nat}
    (high : fs.firstDataSector ≤ sector) :
    (fs.store sector data).Links start clusters ↔ fs.Links start clusters := by
  constructor
  · intro links
    rw [Links, (fs.store_same sector data).inVolume_eq] at links
    exact links.congr fun cluster member =>
      (fatEntry_store layout data high (links.valid cluster member).2).symm
  · exact fun links => links.store layout high

/-- Storing a sector of the data area that differs in one slot changes what this slot leads to. -/
theorem relabels_store (layout : fs.Layout) {sector slot : Nat} {data : Buffer}
    (high : fs.firstDataSector ≤ sector) (change : ChangesSlot slot (fs.block sector) (cutBlock data)) :
    fs.Relabels (fs.store sector data)
      (Function.update fs.leadsTo (sector, slot) (slotHead (cutBlock data) slot)) := by
  have same := fs.store_same sector data
  refine ⟨same, ?_, ?_⟩
  · funext directory place
    simp only [HasSlot, SlotOf, links_store_iff layout high, same.directorySectors]
  · funext place
    rw [leadsTo, store_block]
    by_cases here : place = (sector, slot)
    · rw [here, Function.update_self, if_pos rfl]
    · rw [Function.update_of_ne here, leadsTo]
      split
      · rename_i equal
        rw [equal]
        exact change.slotHead fun equal' => here (Prod.ext equal equal')
      · rfl

/-- What could be reached is lost or not just as the nodes of the graph are. -/
theorem Relabels.losesNothing_iff {leads : Nat × Nat → Option Head} (relabels : fs.Relabels after leads)
    (tree : fs.Tree) (known : ∀ place target, leads place = some target →
      fs.leadsTo place = some target ∨ ∃ depth, fs.Reachable target depth) :
    fs.LosesNothing after ↔
      KeepsNodes (SlotEdge fs.HasSlot fs.leadsTo) (SlotEdge fs.HasSlot leads) rootHead := by
  have back : ∀ {head depth}, after.Reachable head depth → ∃ above, fs.Reachable head above := by
    intro head depth reach
    simp only [Reachable, relabels.entry, fs.entry_eq] at reach known ⊢
    exact reach.within known
  -- What an entry leads to was there before, so it is known by its cluster.
  have told : ∀ {head depth parent place}, fs.Reachable head depth →
      (after.EntryTo parent place head.cluster ↔
        (∃ above, Reach (SlotEdge fs.HasSlot leads) rootHead parent above) ∧
          SlotEdge fs.HasSlot leads parent place head) := by
    intro head depth parent place reach
    rw [← relabels.entry]
    constructor
    · rintro ⟨above, kind, way, entry⟩
      obtain ⟨_, way'⟩ := back (Reach.child way entry)
      rw [tree.head_unique way' reach rfl] at entry
      exact ⟨⟨above, way⟩, entry⟩
    · rintro ⟨⟨above, way⟩, entry⟩
      exact ⟨above, head.directory, way, entry⟩
  rw [LosesNothing, KeepsNodes, ← fs.entry_eq]
  refine forall₂_congr fun head depth => forall_congr' fun reach => imp_congr_right fun _ => ?_
  simp only [OneEntry, OneEdge, told reach, and_imp, and_assoc]

end FileSystem

end Pocky
