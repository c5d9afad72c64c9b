import Pocky.Fs.Hierarchy

/-! Volumes on which every file and directory is one sector, written down as a list. -/

namespace Pocky

/-- A slot in use has a name, and leads to the right directory if it is a dot entry. -/
def DotsLead (data : Buffer) (self parent slot : Nat) : Prop :=
  freeByte (data (slotSize * slot)) = false → entryAttributes data (slotSize * slot) ≠ 0x0F →
    entryName data (slotSize * slot) ≠ [] ∧
    (entryName data (slotSize * slot) = dot →
      isDirectory (entryAttributes data (slotSize * slot)) = true ∧
      entryCluster data (slotSize * slot) = self) ∧
    (entryName data (slotSize * slot) = dotDot →
      isDirectory (entryAttributes data (slotSize * slot)) = true ∧
      entryCluster data (slotSize * slot) = parent)

instance (data : Buffer) (self parent slot : Nat) : Decidable (DotsLead data self parent slot) :=
  inferInstanceAs (Decidable (_ → _ → _ ∧ (_ → _ ∧ _) ∧ (_ → _ ∧ _)))

namespace FileSystem

instance (fs : FileSystem) (cluster : Nat) : Decidable (fs.InVolume cluster) :=
  inferInstanceAs (Decidable (_ ∧ _))

/-- The slot of a cluster that is a directory. -/
def slotIn (fs : FileSystem) (directory slot : Nat) : Nat × Nat := (fs.dataSector directory 0, slot)

/-- The files and directories of a volume, and where the entry of each of them is. -/
structure Catalogue (fs : FileSystem) (known : List Head) (origin : Nat → Nat × Nat) : Prop where
  /-- The root is one of them. -/
  root : rootHead ∈ known
  /-- Each is a chain of one cluster. -/
  single : ∀ head ∈ known, fs.InVolume head.cluster ∧ endMark ≤ fs.fatEntry head.cluster
  /-- Each has a cluster of its own. -/
  distinct : ∀ head ∈ known, ∀ other ∈ known, head.cluster = other.cluster → head = other
  /-- What an entry leads to is one of them, and has its origin there. -/
  leads : ∀ head ∈ known, head.directory = true → ∀ slot < 16,
    ∀ target ∈ slotHead (fs.content head.cluster) slot, target ∈ known ∧ target ≠ rootHead ∧
      origin target.cluster = (head.cluster, slot)
  /-- The dot entries of a directory lead to itself and to its origin. -/
  dots : ∀ head ∈ known, head.directory = true → ∀ slot < 16,
    DotsLead (fs.content head.cluster) head.cluster
      (if head = rootHead then rootCluster else (origin head.cluster).1) slot

section Lists

variable {fs : FileSystem} {known : List Head} {origin : Nat → Nat × Nat}

/-- The slots of a directory of one sector. -/
theorem Single.slotOf (single : fs.Single directory) (sound : fs.Sound) {place : Nat × Nat} :
    fs.SlotOf directory place ↔ ∃ slot < 16, place = fs.slotIn directory slot := by
  constructor
  · rintro ⟨clusters, links, member, small⟩
    rw [links.eq sound.layout single.links, single.sectors sound] at member
    exact ⟨place.2, small, Prod.ext (List.mem_singleton.mp member) rfl⟩
  · rintro ⟨slot, small, rfl⟩
    refine ⟨_, single.links, ?_, small⟩
    rw [single.sectors sound]
    exact List.mem_singleton.mpr rfl

/-- The entries of the volume that can be reached form a tree. -/
theorem Catalogue.tree (catalogue : fs.Catalogue known origin) (sound : fs.Sound) : fs.Tree := by
  have single : ∀ {head}, head ∈ known → fs.Single head.cluster := fun member =>
    ⟨(catalogue.single _ member).1, (catalogue.single _ member).2⟩
  -- An entry of something known leads to something known.
  have step : ∀ {node label target}, node ∈ known → fs.Entry node label target →
      target ∈ known ∧ target ≠ rootHead ∧
        fs.slotIn (origin target.cluster).1 (origin target.cluster).2 = label ∧
        (origin target.cluster).1 = node.cluster := by
    rintro node label target member ⟨kind, slot, told⟩
    obtain ⟨number, small, rfl⟩ := ((single member).slotOf sound).mp slot
    obtain ⟨isKnown, notRoot, from'⟩ := catalogue.leads node member kind number small target told
    rw [from']
    exact ⟨isKnown, notRoot, rfl, rfl⟩
  have listed : ∀ {head depth}, fs.Reachable head depth → head ∈ known := by
    intro head depth reach
    induction reach with
    | root => exact catalogue.root
    | child above leads ih => exact (step ih leads).1
  have chain : ∀ {head depth clusters}, fs.Reachable head depth → fs.Links head.cluster clusters →
      clusters = [head.cluster] := fun reach links =>
    links.eq sound.layout (single (listed reach)).links
  have unique : ∀ {node node' label label' target depth depth'}, fs.Reachable node depth →
      fs.Reachable node' depth' → fs.Entry node label target → fs.Entry node' label' target →
      node = node' ∧ label = label' := by
    intro node node' label label' target depth depth' reach reach' leads leads'
    obtain ⟨-, -, place, at'⟩ := step (listed reach) leads
    obtain ⟨-, -, place', at''⟩ := step (listed reach') leads'
    exact ⟨catalogue.distinct _ (listed reach) _ (listed reach') (at'.symm.trans at''),
      place.symm.trans place'⟩
  refine ⟨⟨?_, unique⟩, ?_, ?_, ?_, ?_, ?_⟩
  · intro node label depth reach leads
    exact (step (listed reach) leads).2.1 rfl
  · intro head depth reach
    exact ⟨_, (single (listed reach)).links⟩
  · intro head head' depth depth' clusters clusters' cluster reach reach' links links' member member'
    rw [chain reach links] at member
    rw [chain reach' links'] at member'
    exact catalogue.distinct _ (listed reach) _ (listed reach')
      ((List.mem_singleton.mp member).symm.trans (List.mem_singleton.mp member'))
  · intro directory depth place inside slot live named
    obtain ⟨number, small, rfl⟩ := ((single (listed inside)).slotOf sound).mp slot
    exact (catalogue.dots _ (listed inside) rfl number small live.1 live.2).2.1 named
  · intro directory depth place inside slot live named
    obtain ⟨number, small, rfl⟩ := ((single (listed inside)).slotOf sound).mp slot
    obtain ⟨told, cluster⟩ :=
      (catalogue.dots _ (listed inside) rfl number small live.1 live.2).2.2 named
    refine ⟨told, ?_⟩
    show fs.Parent directory (entryCluster (fs.content directory) (slotSize * number))
    rw [cluster]
    split
    · rename_i isRoot
      exact Or.inl ⟨congrArg Head.cluster isRoot, rfl⟩
    · rename_i notRoot
      -- The last step of the way comes from the origin.
      rw [DirectoryAt] at inside
      cases inside with
      | root => exact absurd rfl notRoot
      | @child node _ label depth above leads =>
        obtain ⟨-, -, -, from'⟩ := step (listed above) leads
        obtain ⟨cluster', kind⟩ := node
        obtain rfl : kind = true := leads.1
        dsimp only at from' ⊢
        rw [from']
        exact Or.inr ⟨depth, label, above, leads⟩
  · intro directory depth place inside slot live
    obtain ⟨number, small, rfl⟩ := ((single (listed inside)).slotOf sound).mp slot
    exact (catalogue.dots _ (listed inside) rfl number small live.1 live.2).1

end Lists

/-- The small volume is sound. -/
theorem smallVolume_sound (bytes : Buffer) (current : Nat) : (smallVolume bytes current).Sound :=
  ⟨smallVolume_layout _ _, smallVolume_reliable _ _, rfl, by show 20 ≤ 65536; decide⟩

/--
The directories /a and /b, and the file /a/x, with one cluster each.

The root is cluster 2, /a is 3, /a/x is 4 and /b is 5.
-/
def twoDirectories : Buffer :=
  withEntry 2 0 dot 0x10 2 <| withEntry 2 1 dotDot 0x10 2 <|
  withEntry 2 2 [0x61] 0x10 3 <| withEntry 2 3 [0x62] 0x10 5 <|
  withEntry 3 0 dot 0x10 3 <| withEntry 3 1 dotDot 0x10 2 <| withEntry 3 2 [0x78] 0x20 4 <|
  withEntry 5 0 dot 0x10 5 <| withEntry 5 1 dotDot 0x10 2 <|
  withLink 2 endMark <| withLink 3 endMark <| withLink 4 endMark <| withLink 5 endMark fun _ => 0

/-- What is on that volume. -/
theorem twoDirectories_catalogue : (smallVolume twoDirectories 2).Catalogue
    [rootHead, ⟨3, true⟩, ⟨4, false⟩, ⟨5, true⟩]
    (fun cluster => (if cluster = 4 then 3 else 2, if cluster = 5 then 3 else 2)) :=
  ⟨by decide, by decide +kernel, by decide, by decide +kernel, by decide +kernel⟩

/-- Its entries form a tree to work in. -/
theorem twoDirectories_hierarchy : (smallVolume twoDirectories 2).Hierarchy :=
  ⟨twoDirectories_catalogue.tree (smallVolume_sound _ _), 0, Reach.root⟩

end FileSystem

end Pocky
