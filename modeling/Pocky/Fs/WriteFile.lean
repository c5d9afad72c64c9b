import Pocky.Fs.FileData

/-! Writing a file on clusters of one sector: its chain is rewritten, and no other cluster in use is touched. -/

namespace Pocky

namespace FileSystem

/--
The chain of a file has become another one.

The new chain uses clusters of the old one and clusters that were free.
-/
structure Rewrites (fs : FileSystem) (clusters : List Nat) (after : FileSystem) (start : Nat)
    (clusters' : List Nat) : Prop where
  /-- Only the disk has changed. -/
  same : SameVolume fs after
  /-- The new chain starts where the old one did. -/
  links : after.Links start clusters'
  /-- Its clusters are old or were free. -/
  fresh : ∀ cluster ∈ clusters', cluster ∈ clusters ∨ fs.fatEntry cluster = 0
  /-- Clusters in use outside the old chain keep their entries. -/
  fat : ∀ cluster, fs.InVolume cluster → cluster ∉ clusters → fs.fatEntry cluster ≠ 0 →
    after.fatEntry cluster = fs.fatEntry cluster
  /-- They keep their bytes. -/
  content : ∀ cluster, fs.InVolume cluster → cluster ∉ clusters → fs.fatEntry cluster ≠ 0 →
    after.content cluster = fs.content cluster

/-- The clusters of a list hold the data, sector by sector, as far as it goes. -/
def Stored (fs : FileSystem) (data : Buffer) (clusters : List Nat) (dataSize : Nat) : Prop :=
  ∀ index, 512 * index < dataSize → ∃ cluster, clusters[index]? = some cluster ∧
    fs.content cluster = cutBlock (shifted data (512 * index))

section OneSector

variable {fs after : FileSystem} {start dataSize : Nat} {clusters clusters' : List Nat} {data : Buffer}

/-- With one sector in a cluster, the bytes of the sector are those of the cluster. -/
theorem RewritesFile.rewrites (rewrites : fs.RewritesFile clusters after start clusters')
    (positive : 0 < fs.bpb.sectorsPerCluster) : fs.Rewrites clusters after start clusters' where
  same := rewrites.same
  links := rewrites.links
  fresh := rewrites.fresh
  fat := rewrites.fat
  content := fun cluster valid absent used => rewrites.data cluster valid absent used 0 positive

/-- With one sector in a cluster, the sectors of the data are held by one cluster each. -/
theorem HoldsData.stored (holds : fs.HoldsData data clusters dataSize)
    (one : fs.bpb.sectorsPerCluster = 1) : fs.Stored data clusters dataSize := by
  intro index inside
  obtain ⟨cluster, place, bytes⟩ := holds index inside
  rw [one, Nat.div_one] at place
  rw [one, Nat.mod_one] at bytes
  exact ⟨cluster, place, bytes⟩

/-- With one sector in a cluster, data takes up as many clusters as sectors. -/
theorem Sound.clustersFor (sound : fs.Sound) (dataSize : Nat) :
    fs.clustersFor dataSize = (dataSize + 511) / 512 := by
  rw [FileSystem.clustersFor, clusterSize, sound.one]

/-- Writing a file rewrites its chain, and stores the data if there is room. -/
theorem Sound.writeFile (sound : fs.Sound) (links : fs.Links start clusters) (data : Buffer)
    (dataSize : Nat) :
    ∃ told after clusters', fs.writeFile start data dataSize = (told, after) ∧
      fs.Rewrites clusters after start clusters' ∧
      (told = true → after.Stored data clusters' dataSize) ∧
      (told = false → clusters.length + fs.freeClusters.card < (dataSize + 511) / 512) := by
  -- It is a case of writing on clusters of any size.
  obtain ⟨told, after, clusters', returned, writes⟩ :=
    sound.layout.writeFile_writes sound.reliable links data dataSize
  have one : after.bpb.sectorsPerCluster = 1 := by
    rw [writes.rewrites.same.sectorsPerCluster]
    exact sound.one
  refine ⟨told, after, clusters', returned, writes.rewrites.rewrites sound.layout.cluster,
    fun success => (writes.holds success).stored one, fun failure => ?_⟩
  rw [← sound.clustersFor]
  exact writes.failed failure

end OneSector

end FileSystem

end Pocky
