import Mathlib.Logic.Equiv.Basic
import Pocky.Fs.AllOrNothing
import Pocky.Fs.DistinctNames
import Pocky.Fs.Renaming

/-! Volumes in whose directories every name is that of one entry, and what each call does to them. -/

namespace Pocky

namespace FileSystem

/-- A slot of one of some directories leads to something; it is known by the directory and its number. -/
def HasTarget (fs : FileSystem) (directories : Nat → Prop) (place : Nat × Nat) (head : Head) : Prop :=
  directories place.1 ∧ place.2 < 16 ∧ slotTarget (fs.content place.1) place.2 = some head

/--
Directories of one cluster each, in which every name is that of one entry.

They are closed under their entries, dot entries included, and each cluster but that of the root is
what at most one entry from outside it leads to. So giving up the cluster of an entry leaves no
other entry that leads there, and a cluster that is handed out is never one of a directory.
-/
structure NamedApart (fs : FileSystem) (directories : Nat → Prop) : Prop where
  /-- The volume is sound. -/
  sound : fs.Sound
  /-- The current directory is the root. -/
  here : fs.currentDirectoryCluster = rootCluster
  /-- The root is one of the directories. -/
  root : directories rootCluster
  /-- Directories have one cluster. -/
  single : ∀ directory, directories directory → fs.Single directory
  /-- Their names are different. -/
  distinct : ∀ directory, directories directory → Distinct (fs.content directory)
  /-- Entries lead to single clusters, those of directories to one of the directories. -/
  target : ∀ place head, fs.HasTarget directories place head →
    fs.Single head.cluster ∧ (head.directory = true ↔ directories head.cluster)
  /-- No two entries outside a cluster lead to it. -/
  unique : ∀ place other head head', fs.HasTarget directories place head →
    fs.HasTarget directories other head' → head.cluster = head'.cluster →
    head.cluster ≠ rootCluster → place.1 ≠ head.cluster → other.1 ≠ head.cluster → place = other
  /-- An entry of the root that leads back to it keeps it from being taken for empty. -/
  counted : ∀ slot < 16, slotTarget (fs.content rootCluster) slot = some ⟨rootCluster, true⟩ →
    Counted (fs.content rootCluster) (slotSize * slot)

/-- The other entries are where they were. -/
theorem EditsSlot.hasTarget {fs after : FileSystem}
    {directories : Nat → Prop} {directory slot : Nat} {data : Buffer}
    (edits : fs.EditsSlot directories directory slot data after) {place : Nat × Nat} {head : Head}
    (other : place ≠ (directory, slot)) :
    after.HasTarget directories place head ↔ fs.HasTarget directories place head := by
  refine and_congr_right fun inside => and_congr_right fun small => ?_
  by_cases equal : place.1 = directory
  · have elsewhere : place.2 ≠ slot := fun same => other (Prod.ext equal same)
    rw [equal, edits.here, slotTarget_congr fun byte => edits.change.bytes elsewhere]
  · rw [edits.elsewhere place.1 inside equal]

namespace NamedApart

variable {fs after : FileSystem} {directories : Nat → Prop} {slot : Nat}

/--
A change after which each entry is one that was there before, perhaps in another place.

Some clusters may be given up, if no entry that is left leads to them.
-/
theorem relocated (named : fs.NamedApart directories) (same : SameVolume fs after)
    (gone : Nat → Prop) (kept : ¬ gone rootCluster)
    (table : ∀ cluster, fs.InVolume cluster → ¬ gone cluster →
      after.fatEntry cluster = fs.fatEntry cluster)
    (distinct : ∀ directory, directories directory → ¬ gone directory →
      Distinct (after.content directory))
    (origin : Equiv.Perm (Nat × Nat))
    (entries : ∀ place head,
      after.HasTarget (fun directory => directories directory ∧ ¬ gone directory) place head →
      fs.HasTarget directories (origin place) head ∧ ¬ gone head.cluster ∧
        (head.cluster ≠ rootCluster → place.1 ≠ head.cluster → (origin place).1 ≠ head.cluster))
    (counted : ∀ slot < 16, slotTarget (after.content rootCluster) slot = some ⟨rootCluster, true⟩ →
      Counted (after.content rootCluster) (slotSize * slot)) :
    after.NamedApart fun directory => directories directory ∧ ¬ gone directory := by
  have single : ∀ cluster, fs.Single cluster → ¬ gone cluster → after.Single cluster := by
    intro cluster single stays
    refine ⟨same.inVolume.mpr single.valid, ?_⟩
    rw [table cluster single.valid stays]
    exact single.last
  refine ⟨named.sound.same same, ?_, ⟨named.root, kept⟩, ?_, ?_, ?_, ?_, counted⟩
  · rw [same.fields]
    exact named.here
  · rintro directory ⟨inside, stays⟩
    exact single directory (named.single directory inside) stays
  · rintro directory ⟨inside, stays⟩
    exact distinct directory inside stays
  · intro place head has
    obtain ⟨before, stays, -⟩ := entries place head has
    obtain ⟨alone, kind⟩ := named.target _ head before
    exact ⟨single _ alone stays, kind.trans (and_iff_left stays).symm⟩
  · intro place other head head' has has' equal notRoot outside outside'
    obtain ⟨before, -, apart⟩ := entries place head has
    obtain ⟨before', -, apart'⟩ := entries other head' has'
    rw [← equal] at apart'
    exact origin.injective (named.unique _ _ head head' before before' equal notRoot
      (apart notRoot outside) (apart' notRoot outside'))

/-- A volume in whose directories nothing has changed. -/
theorem unchanged (named : fs.NamedApart directories) (becomes : fs.Becomes after fs.fatEntry fs.content) :
    after.NamedApart directories := by
  have kept : ∀ directory, directories directory → after.content directory = fs.content directory :=
    fun directory inside => becomes.content directory (named.single directory inside).valid
  have moved := named.relocated becomes.same (fun _ => False) not_false
    (fun cluster valid _ => becomes.fat cluster valid.2)
    (fun directory inside _ => by
      rw [kept directory inside]
      exact named.distinct directory inside)
    (Equiv.refl _)
    (fun place head has => by
      obtain ⟨⟨inside, -⟩, small, leads⟩ := has
      rw [kept _ inside] at leads
      exact ⟨⟨inside, small, leads⟩, not_false, fun _ outside => outside⟩)
    (by rw [kept _ named.root]; exact named.counted)
  simpa only [not_false_eq_true, and_true] using moved

section Edits

variable {directory : Nat} {data : Buffer}

/-- The directories without the one edited have different names as before. -/
theorem distinct_edited (named : fs.NamedApart directories)
    (edits : fs.EditsSlot directories directory slot data after) (distinct : Distinct data) :
    ∀ other, directories other → Distinct (after.content other) := by
  intro other inside
  by_cases equal : other = directory
  · rw [equal, edits.here]
    exact distinct
  · rw [edits.elsewhere other inside equal]
    exact named.distinct other inside

/-- Entries of the root that lead to it still count for emptiness, if the slot edited does. -/
theorem counted_edited (named : fs.NamedApart directories)
    (edits : fs.EditsSlot directories rootCluster slot data after)
    (counts : slotTarget data slot = some ⟨rootCluster, true⟩ → Counted data (slotSize * slot)) :
    ∀ slot < 16, slotTarget (after.content rootCluster) slot = some ⟨rootCluster, true⟩ →
      Counted (after.content rootCluster) (slotSize * slot) := by
  intro other small leads
  rw [edits.here] at leads ⊢
  by_cases equal : other = slot
  · rw [equal] at leads ⊢
    exact counts leads
  · have same := fun byte (inside : byte < slotSize) => edits.change.bytes equal inside
    rw [slotTarget_congr same] at leads
    rw [counted_congr same]
    exact named.counted other small leads

/-- An entry of the root that is freed, and its cluster with it. -/
theorem removed (named : fs.NamedApart directories) {head : Head} (small : slot < 16)
    (led : slotTarget (fs.content rootCluster) slot = some head) (notRoot : head.cluster ≠ rootCluster)
    (edits : fs.EditsSlot directories rootCluster slot
      (Function.update (fs.content rootCluster) (slotSize * slot) 0xE5) after)
    (table : ∀ cluster, fs.InVolume cluster → cluster ≠ head.cluster →
      after.fatEntry cluster = fs.fatEntry cluster) :
    after.NamedApart fun directory => directories directory ∧ directory ≠ head.cluster := by
  have nowhere : slotTarget (Function.update (fs.content rootCluster) (slotSize * slot) 0xE5) slot =
      none := slotTarget_free (by rw [Function.update_self]; decide)
  refine named.relocated edits.same (· = head.cluster) (Ne.symm notRoot) table ?_ (Equiv.refl _) ?_ ?_
  · intro directory inside _
    exact named.distinct_edited edits ((named.distinct _ named.root).free slot) directory inside
  · rintro place other ⟨⟨inside, stays⟩, little, leads⟩
    have elsewhere : place ≠ (rootCluster, slot) := by
      rintro rfl
      rw [edits.here, nowhere] at leads
      cases leads
    have before := (edits.hasTarget elsewhere).mp ⟨inside, little, leads⟩
    refine ⟨before, fun same => elsewhere ?_, fun _ outside => outside⟩
    -- The entry freed was the only one from outside.
    exact named.unique place (rootCluster, slot) other head before ⟨named.root, small, led⟩ same
      (same ▸ notRoot) (same ▸ stays) (same ▸ notRoot.symm)
  · refine named.counted_edited edits fun leads => ?_
    rw [nowhere] at leads
    cases leads

/-- An entry that leads where it led, or nowhere any more. -/
theorem renamed (named : fs.NamedApart directories)
    (edits : fs.EditsSlot directories rootCluster slot data after) (distinct : Distinct data)
    (table : ∀ cluster < fs.totalClusters, after.fatEntry cluster = fs.fatEntry cluster)
    (leads : ∀ head, slotTarget data slot = some head →
      slotTarget (fs.content rootCluster) slot = some head)
    (counts : slotTarget data slot = some ⟨rootCluster, true⟩ → Counted data (slotSize * slot)) :
    after.NamedApart directories := by
  have moved := named.relocated edits.same (fun _ => False) not_false
    (fun cluster valid _ => table cluster valid.2)
    (fun directory inside _ => named.distinct_edited edits distinct directory inside)
    (Equiv.refl _) (fun place head has => by
      obtain ⟨⟨inside, -⟩, small, target⟩ := has
      refine ⟨?_, not_false, fun _ outside => outside⟩
      by_cases here : place = (rootCluster, slot)
      · subst here
        rw [edits.here] at target
        exact ⟨inside, small, leads head target⟩
      · exact (edits.hasTarget here).mp ⟨inside, small, target⟩)
    (named.counted_edited edits counts)
  simpa only [not_false_eq_true, and_true] using moved

/-- An entry that is moved from the root to another directory. -/
theorem moved (named : fs.NamedApart directories) {middle : FileSystem} {slot' : Nat} {data' : Buffer}
    (notRoot : directory ≠ rootCluster) (small : slot < 16)
    (enters : fs.EditsSlot directories directory slot' data' middle) (distinct : Distinct data')
    (leaves : middle.EditsSlot directories rootCluster slot
      (Function.update (fs.content rootCluster) (slotSize * slot) 0xE5) after)
    (table : ∀ cluster < fs.totalClusters, after.fatEntry cluster = fs.fatEntry cluster)
    (same : slotTarget data' slot' = slotTarget (fs.content rootCluster) slot) :
    after.NamedApart directories := by
  have nowhere : slotTarget (Function.update (fs.content rootCluster) (slotSize * slot) 0xE5) slot =
      none := slotTarget_free (by rw [Function.update_self]; decide)
  have rootSame : middle.content rootCluster = fs.content rootCluster :=
    enters.elsewhere rootCluster named.root notRoot.symm
  have relocated := named.relocated (enters.same.trans leaves.same) (fun _ => False) not_false
    (fun cluster valid _ => table cluster valid.2)
    (fun other within _ => ?_)
    (Equiv.swap (rootCluster, slot) (directory, slot')) (fun place head has => ?_) ?_
  · simpa only [not_false_eq_true, and_true] using relocated
  · by_cases equal : other = rootCluster
    · rw [equal, leaves.here]
      exact (named.distinct rootCluster named.root).free slot
    · rw [leaves.elsewhere other within equal]
      exact named.distinct_edited enters distinct other within
  · obtain ⟨⟨within, -⟩, little, target⟩ := has
    have away : place ≠ (rootCluster, slot) := by
      rintro rfl
      rw [leaves.here, nowhere] at target
      cases target
    have between := (leaves.hasTarget away).mp ⟨within, little, target⟩
    by_cases there : place = (directory, slot')
    · -- It is the entry that has been moved.
      subst there
      rw [Equiv.swap_apply_right]
      refine ⟨⟨named.root, small, ?_⟩, not_false, fun other _ => other.symm⟩
      rw [← same, ← enters.here]
      exact between.2.2
    · rw [Equiv.swap_apply_of_ne_of_ne away there]
      exact ⟨(enters.hasTarget there).mp between, not_false, fun _ outside => outside⟩
  · intro other little target
    by_cases equal : other = slot
    · rw [equal, leaves.here, nowhere] at target
      cases target
    · have bytes := fun byte (within : byte < slotSize) => leaves.change.bytes equal within
      rw [leaves.here, slotTarget_congr bytes, rootSame] at target
      rw [leaves.here, counted_congr bytes, rootSame]
      exact named.counted other little target

/-- A new entry of the root that leads to a cluster that was free, perhaps that of a new directory. -/
theorem inserted (named : fs.NamedApart directories)
    (edits : fs.EditsSlot directories rootCluster slot data after) (distinct : Distinct data) {cluster : Nat} {kind : Bool} (valid : fs.InVolume cluster)
    (free : fs.fatEntry cluster = 0)
    (table : ∀ other < fs.totalClusters,
      after.fatEntry other = Function.update fs.fatEntry cluster endMark other)
    (leads : slotTarget data slot = some ⟨cluster, kind⟩)
    (new : kind = true → Distinct (after.content cluster) ∧ ∀ slot' head,
      slotTarget (after.content cluster) slot' = some head →
        head = ⟨cluster, true⟩ ∨ head = ⟨rootCluster, true⟩) :
    after.NamedApart fun directory => directories directory ∨ kind = true ∧ directory = cluster := by
  have other : ∀ {single}, fs.Single single → single ≠ cluster := fun single => single.ne_free free
  have outside : ∀ directory, directories directory → directory ≠ cluster :=
    fun directory inside => other (named.single directory inside)
  have kept : ∀ {single}, fs.Single single → after.Single single := by
    intro old single
    refine ⟨edits.same.inVolume.mpr single.valid, ?_⟩
    rw [table old single.valid.2, Function.update_of_ne (other single)]
    exact single.last
  have fresh : after.Single cluster := by
    refine ⟨edits.same.inVolume.mpr valid, ?_⟩
    rw [table cluster valid.2, Function.update_self]
  -- An entry is the new one, an old one, or a dot entry of the new directory.
  have entries : ∀ place head, after.HasTarget
      (fun directory => directories directory ∨ kind = true ∧ directory = cluster) place head →
      place = (rootCluster, slot) ∧ head = ⟨cluster, kind⟩ ∨ fs.HasTarget directories place head ∨
        kind = true ∧ place.1 = cluster ∧ (head = ⟨cluster, true⟩ ∨ head = ⟨rootCluster, true⟩) := by
    rintro place head ⟨inside | ⟨directory, equal⟩, little, target⟩
    · by_cases here : place = (rootCluster, slot)
      · subst here
        rw [edits.here, leads] at target
        exact Or.inl ⟨rfl, (Option.some.inj target).symm⟩
      · exact Or.inr (Or.inl ((edits.hasTarget here).mp ⟨inside, little, target⟩))
    · rw [equal] at target
      exact Or.inr (Or.inr ⟨directory, equal, (new directory).2 _ head target⟩)
  refine ⟨named.sound.same edits.same, ?_, Or.inl named.root, ?_, ?_, ?_, ?_, ?_⟩
  · rw [edits.same.fields]
    exact named.here
  · rintro directory (inside | ⟨-, rfl⟩)
    · exact kept (named.single directory inside)
    · exact fresh
  · rintro directory (inside | ⟨directory', rfl⟩)
    · exact named.distinct_edited edits distinct directory inside
    · exact (new directory').1
  · intro place head has
    rcases entries place head has with ⟨-, rfl⟩ | old | ⟨isDir, -, rfl | rfl⟩
    · refine ⟨fresh, fun isDir => Or.inr ⟨isDir, rfl⟩, ?_⟩
      rintro (inside | ⟨isDir, -⟩)
      · exact absurd rfl (outside cluster inside)
      · exact isDir
    · obtain ⟨single, kinds⟩ := named.target place head old
      exact ⟨kept single, kinds.trans (or_iff_left fun both => other single both.2).symm⟩
    · exact ⟨fresh, iff_of_true rfl (Or.inr ⟨isDir, rfl⟩)⟩
    · exact ⟨kept (named.single _ named.root), iff_of_true rfl (Or.inl named.root)⟩
  · intro place place' head head' has has' equal notRoot away away'
    rcases entries place head has with ⟨rfl, rfl⟩ | old | ⟨-, inside, rfl | rfl⟩
    · rcases entries place' head' has' with ⟨rfl, -⟩ | old' | ⟨-, inside', rfl | rfl⟩
      · rfl
      · exact absurd equal.symm (other (named.target place' head' old').1)
      · exact absurd inside' away'
      · exact absurd equal notRoot
    · rcases entries place' head' has' with ⟨-, rfl⟩ | old' | ⟨-, inside', rfl | rfl⟩
      · exact absurd equal (other (named.target place head old).1)
      · exact named.unique place place' head head' old old' equal notRoot away away'
      · exact absurd (inside'.trans equal.symm) away'
      · exact absurd equal notRoot
    · exact absurd inside away
    · exact absurd rfl notRoot
  · refine named.counted_edited edits fun back => ?_
    rw [leads] at back
    exact absurd (congrArg Head.cluster (Option.some.inj back)).symm (outside _ named.root)

end Edits

end NamedApart

end FileSystem

end Pocky
