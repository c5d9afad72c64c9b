import Pocky.Fs.WriteFile
import Pocky.Lib.Ownership

/-! The tree of directories and files of a volume, and the changes that keep it separated. -/

namespace Pocky

/-- Who may own a chain: a directory its cluster, and a slot of a directory the chain of a file. -/
inductive Owner where
  /-- A directory. -/
  | directory (cluster : Nat)
  /-- A slot of a directory. -/
  | file (directory slot : Nat)
  deriving DecidableEq

namespace FileSystem

/-- The starts of the chains that the directories of a tree and their files own. -/
def Owns (fs : FileSystem) (tree : Nat → Prop) : Owner → Nat → Prop
  | .directory cluster, start => tree cluster ∧ start = cluster
  | .file directory slot, start =>
    tree directory ∧ slot < 16 ∧ slotHead (fs.content directory) slot = some ⟨start, false⟩

/-- A tree of directories of one cluster each, in which nothing is linked twice. -/
structure Separated (fs : FileSystem) (tree : Nat → Prop) : Prop where
  /-- The root is a directory. -/
  root : tree rootCluster
  /-- Directories have one cluster. -/
  single : ∀ directory, tree directory → fs.Single directory
  /-- Directories and files own disjoint chains. -/
  owned : Owned fs.fatEntry (endMark ≤ ·) fs.InVolume (fs.Owns tree)
  /-- Entries of directories lead to directories other than the root. -/
  subdirectory : ∀ directory slot cluster, tree directory → slot < 16 →
    slotHead (fs.content directory) slot = some ⟨cluster, true⟩ →
    tree cluster ∧ cluster ≠ rootCluster
  /-- No directory has two entries. -/
  unique : ∀ directory slot other slot' cluster, tree directory → tree other → slot < 16 →
    slot' < 16 → slotHead (fs.content directory) slot = some ⟨cluster, true⟩ →
    slotHead (fs.content other) slot' = some ⟨cluster, true⟩ → directory = other ∧ slot = slot'

/-- The clusters of the volume are the same. -/
theorem SameVolume.inVolume_eq {fs after : FileSystem} (same : SameVolume fs after) :
    after.InVolume = fs.InVolume := by
  funext cluster
  exact propext same.inVolume

namespace Separated

variable {fs after : FileSystem} {tree tree' : Nat → Prop}

/-- A chain of a file has no directory in it. -/
theorem directory_outside (separated : fs.Separated tree) {directory slot start : Nat}
    {clusters : List Nat} (owns : fs.Owns tree (.file directory slot) start)
    (links : fs.Links start clusters) {cluster : Nat} (inside : tree cluster) :
    cluster ∉ clusters := by
  intro member
  have owns' : fs.Owns tree (.directory cluster) cluster := ⟨inside, rfl⟩
  exact separated.owned.disjoint (.file directory slot) (.directory cluster) start cluster clusters
    [cluster] (by simp) owns owns' links (separated.single cluster inside).links cluster member
    (List.mem_singleton.mpr rfl)

/-- Owners after the chain of one of them has been replaced. -/
theorem replace (separated : fs.Separated tree) (layout : fs.Layout) (same : SameVolume fs after)
    (owner : Owner) (old new : List Nat)
    (kept : ∀ other start, other ≠ owner → after.Owns tree' other start → fs.Owns tree other start)
    (was : old = [] ∨ ∃ start, fs.Owns tree owner start ∧ fs.Links start old)
    (frame : ∀ cluster, fs.InVolume cluster → cluster ∉ old → fs.fatEntry cluster ≠ 0 →
      after.fatEntry cluster = fs.fatEntry cluster)
    (fresh : ∀ cluster ∈ new, cluster ∈ old ∨ fs.fatEntry cluster = 0)
    (becomes : ∀ start, after.Owns tree' owner start → after.Links start new) :
    Owned after.fatEntry (endMark ≤ ·) after.InVolume (after.Owns tree') := by
  have positive : 0 < endMark := by decide
  have fresh' : ∀ cluster ∈ new, cluster ∈ old ∨ ¬ fs.fatEntry cluster ≠ 0 :=
    fun cluster member => (fresh cluster member).imp_right not_not.mpr
  rw [same.inVolume_eq]
  refine separated.owned.replace (fun cluster valid => (layout.not_mark valid).2)
    (fun cluster => fs.fatEntry cluster ≠ 0) ?_ owner kept was frame fresh' ?_
  · rintro cluster (last | ⟨low, -⟩)
    · omega
    · omega
  · intro start owns
    have links := becomes start owns
    rwa [Links, same.inVolume_eq] at links

/-- A change that leaves the table and all that the slots lead to alone. -/
theorem congr (separated : fs.Separated tree) {content : Nat → Buffer}
    (becomes : fs.Becomes after fs.fatEntry content)
    (heads : ∀ directory slot, tree directory → slot < 16 →
      slotHead (after.content directory) slot = slotHead (fs.content directory) slot) :
    after.Separated tree := by
  have owns : ∀ owner start, after.Owns tree owner start → fs.Owns tree owner start := by
    intro owner start has
    cases owner with
    | directory cluster => exact has
    | file directory slot =>
      obtain ⟨inside, small, leads⟩ := has
      exact ⟨inside, small, heads directory slot inside small ▸ leads⟩
  have links : ∀ start clusters, fs.Links start clusters ↔ after.Links start clusters := by
    intro start clusters
    constructor
    · intro chain
      exact becomes.same.links chain fun cluster member =>
        becomes.fat cluster (chain.valid cluster member).2
    · intro chain
      rw [Links, becomes.same.inVolume_eq] at chain
      exact chain.congr fun cluster member => (becomes.fat cluster (chain.valid cluster member).2).symm
  refine ⟨separated.root, ?_, ⟨?_, ?_⟩, ?_, ?_⟩
  · intro directory inside
    obtain ⟨valid, last⟩ := separated.single directory inside
    exact ⟨becomes.same.inVolume.mpr valid, by rw [becomes.fat directory valid.2]; exact last⟩
  · intro owner start has
    obtain ⟨clusters, chain⟩ := separated.owned.chained owner start (owns owner start has)
    exact ⟨clusters, (links start clusters).mp chain⟩
  · intro owner other start start' clusters clusters' different has has' chain chain'
    exact separated.owned.disjoint owner other start start' clusters clusters' different
      (owns owner start has) (owns other start' has') ((links _ _).mpr chain) ((links _ _).mpr chain')
  · intro directory slot cluster inside small leads
    rw [heads directory slot inside small] at leads
    exact separated.subdirectory directory slot cluster inside small leads
  · intro directory slot other slot' cluster inside inside' small small' leads leads'
    rw [heads directory slot inside small] at leads
    rw [heads other slot' inside' small'] at leads'
    exact separated.unique directory slot other slot' cluster inside inside' small small' leads leads'

/-- Directories are in use. -/
theorem used (separated : fs.Separated tree) {directory : Nat} (inside : tree directory) :
    fs.InVolume directory ∧ fs.fatEntry directory ≠ 0 := by
  obtain ⟨valid, last⟩ := separated.single directory inside
  have positive : 0 < endMark := by decide
  exact ⟨valid, by omega⟩

/-- A directory whose entry of the table has stayed still has one cluster. -/
theorem single_of_eq (separated : fs.Separated tree) (same : SameVolume fs after) {directory : Nat}
    (inside : tree directory) (entry : after.fatEntry directory = fs.fatEntry directory) :
    after.Single directory := by
  obtain ⟨valid, last⟩ := separated.single directory inside
  exact ⟨same.inVolume.mpr valid, by rw [entry]; exact last⟩

/-- Replacing what one slot leads to: a file or nothing before, and a file or nothing after. -/
theorem replaceFile (separated : fs.Separated tree) (layout : fs.Layout)
    (same : SameVolume fs after) {directory slot : Nat} (inside : tree directory)
    (old new : List Nat)
    (was : old = [] ∨ ∃ start, fs.Owns tree (.file directory slot) start ∧ fs.Links start old)
    (heads : ∀ other slot', tree other → slot' < 16 → ¬ (other = directory ∧ slot' = slot) →
      slotHead (after.content other) slot' = slotHead (fs.content other) slot')
    (file : ∀ cluster, slotHead (after.content directory) slot ≠ some ⟨cluster, true⟩)
    (frame : ∀ cluster, fs.InVolume cluster → cluster ∉ old → fs.fatEntry cluster ≠ 0 →
      after.fatEntry cluster = fs.fatEntry cluster)
    (fresh : ∀ cluster ∈ new, cluster ∈ old ∨ fs.fatEntry cluster = 0)
    (becomes : ∀ start, slotHead (after.content directory) slot = some ⟨start, false⟩ →
      after.Links start new) : after.Separated tree := by
  -- Directories lie outside the chain that is given up.
  have outside : ∀ cluster, tree cluster → cluster ∉ old := by
    intro cluster member
    rcases was with rfl | ⟨start, owns, links⟩
    · simp
    · exact separated.directory_outside owns links member
  refine ⟨separated.root, ?_, ?_, ?_, ?_⟩
  · intro other member
    obtain ⟨valid, used⟩ := separated.used member
    exact separated.single_of_eq same member (frame other valid (outside other member) used)
  · refine separated.replace layout same (.file directory slot) old new ?_ was frame fresh ?_
    · intro owner start different owns
      cases owner with
      | directory cluster => exact owns
      | file other slot' =>
        obtain ⟨member, small, leads⟩ := owns
        refine ⟨member, small, ?_⟩
        rw [← heads other slot' member small]
        · exact leads
        · rintro ⟨rfl, rfl⟩
          exact different rfl
    · intro start owns
      exact becomes start owns.2.2
  · intro other slot' cluster member small leads
    have elsewhere : ¬ (other = directory ∧ slot' = slot) := by
      rintro ⟨rfl, rfl⟩
      exact file cluster leads
    rw [heads other slot' member small elsewhere] at leads
    exact separated.subdirectory other slot' cluster member small leads
  · intro first slot₁ second slot₂ cluster member member' small small' leads leads'
    have elsewhere : ¬ (first = directory ∧ slot₁ = slot) := by
      rintro ⟨rfl, rfl⟩
      exact file cluster leads
    have elsewhere' : ¬ (second = directory ∧ slot₂ = slot) := by
      rintro ⟨rfl, rfl⟩
      exact file cluster leads'
    rw [heads first slot₁ member small elsewhere] at leads
    rw [heads second slot₂ member' small' elsewhere'] at leads'
    exact separated.unique first slot₁ second slot₂ cluster member member' small small' leads leads'

/-- A slot that led nowhere leads to a new directory without entries. -/
theorem insertDirectory (separated : fs.Separated tree) (layout : fs.Layout)
    (same : SameVolume fs after) {directory slot cluster : Nat} (inside : tree directory)
    (valid : fs.InVolume cluster) (free : fs.fatEntry cluster = 0)
    (heads : ∀ other slot', tree other → slot' < 16 → ¬ (other = directory ∧ slot' = slot) →
      slotHead (after.content other) slot' = slotHead (fs.content other) slot')
    (leads : slotHead (after.content directory) slot = some ⟨cluster, true⟩)
    (empty : ∀ slot' < 16, slotHead (after.content cluster) slot' = none)
    (frame : ∀ other, fs.InVolume other → fs.fatEntry other ≠ 0 →
      after.fatEntry other = fs.fatEntry other)
    (last : endMark ≤ after.fatEntry cluster) :
    after.Separated fun other => tree other ∨ other = cluster := by
  have outside : ¬ tree cluster := fun member => (separated.used member).2 free
  have single : after.Single cluster := ⟨same.inVolume.mpr valid, last⟩
  -- An entry of the new tree is an old one, or the new one.
  have entries : ∀ other slot' head, (tree other ∨ other = cluster) → slot' < 16 →
      slotHead (after.content other) slot' = some head →
      (other = directory ∧ slot' = slot ∧ head = ⟨cluster, true⟩) ∨
        tree other ∧ ¬ (other = directory ∧ slot' = slot) ∧
          slotHead (fs.content other) slot' = some head := by
    rintro other slot' head (member | rfl) small entry
    · by_cases here : other = directory ∧ slot' = slot
      · obtain ⟨rfl, rfl⟩ := here
        exact Or.inl ⟨rfl, rfl, Option.some.inj (entry.symm.trans leads)⟩
      · exact Or.inr ⟨member, here, heads other slot' member small here ▸ entry⟩
    · rw [empty slot' small] at entry
      cases entry
  refine ⟨Or.inl separated.root, ?_, ?_, ?_, ?_⟩
  · rintro other (member | rfl)
    · obtain ⟨valid', used⟩ := separated.used member
      exact separated.single_of_eq same member (frame other valid' used)
    · exact single
  · refine separated.replace layout same (.directory cluster) [] [cluster] ?_ (Or.inl rfl)
      (fun other valid' _ used => frame other valid' used) ?_ ?_
    · intro owner start different owns
      cases owner with
      | directory other =>
        obtain ⟨member | rfl, rfl⟩ := owns
        · exact ⟨member, rfl⟩
        · exact absurd rfl different
      | file other slot' =>
        obtain ⟨member, small, entry⟩ := owns
        rcases entries other slot' _ member small entry with ⟨-, -, wrong⟩ | ⟨member', -, entry'⟩
        · cases wrong
        · exact ⟨member', small, entry'⟩
    · intro other member
      rw [List.mem_singleton.mp member]
      exact Or.inr free
    · rintro start ⟨-, rfl⟩
      exact single.links
  · intro other slot' target member small entry
    rcases entries other slot' _ member small entry with ⟨-, -, equal⟩ | ⟨member', -, entry'⟩
    · cases equal
      refine ⟨Or.inr rfl, ?_⟩
      rintro rfl
      exact outside separated.root
    · obtain ⟨inTree, notRoot⟩ := separated.subdirectory other slot' target member' small entry'
      exact ⟨Or.inl inTree, notRoot⟩
  · intro first slot₁ second slot₂ target member member' small small' entry entry'
    rcases entries first slot₁ _ member small entry with ⟨rfl, rfl, equal⟩ | ⟨old, -, before⟩
    · cases equal
      rcases entries second slot₂ _ member' small' entry' with ⟨rfl, rfl, -⟩ | ⟨old, -, before⟩
      · exact ⟨rfl, rfl⟩
      · exact absurd (separated.subdirectory second slot₂ cluster old small' before).1 outside
    · rcases entries second slot₂ _ member' small' entry' with ⟨rfl, rfl, equal⟩ | ⟨old', -, before'⟩
      · cases equal
        exact absurd (separated.subdirectory first slot₁ cluster old small before).1 outside
      · exact separated.unique first slot₁ second slot₂ target old old' small small' before before'

/-- A slot that led to a directory leads nowhere, and the directory is given up. -/
theorem removeDirectory (separated : fs.Separated tree) (layout : fs.Layout)
    (same : SameVolume fs after) {directory slot cluster : Nat} (inside : tree directory)
    (small : slot < 16) (led : slotHead (fs.content directory) slot = some ⟨cluster, true⟩)
    (heads : ∀ other slot', tree other → slot' < 16 → ¬ (other = directory ∧ slot' = slot) →
      slotHead (after.content other) slot' = slotHead (fs.content other) slot')
    (gone : slotHead (after.content directory) slot = none)
    (frame : ∀ other, fs.InVolume other → other ≠ cluster → fs.fatEntry other ≠ 0 →
      after.fatEntry other = fs.fatEntry other) :
    after.Separated fun other => tree other ∧ other ≠ cluster := by
  obtain ⟨inTree, notRoot⟩ := separated.subdirectory directory slot cluster inside small led
  -- An entry of the new tree is an old one, and not the one removed.
  have entries : ∀ other slot' head, tree other → slot' < 16 →
      slotHead (after.content other) slot' = some head →
      ¬ (other = directory ∧ slot' = slot) ∧ slotHead (fs.content other) slot' = some head := by
    intro other slot' head member small' entry
    have elsewhere : ¬ (other = directory ∧ slot' = slot) := by
      rintro ⟨rfl, rfl⟩
      rw [gone] at entry
      cases entry
    exact ⟨elsewhere, heads other slot' member small' elsewhere ▸ entry⟩
  refine ⟨⟨separated.root, notRoot.symm⟩, ?_, ?_, ?_, ?_⟩
  · rintro other ⟨member, different⟩
    obtain ⟨valid', used⟩ := separated.used member
    exact separated.single_of_eq same member (frame other valid' different used)
  · refine separated.replace layout same (.directory cluster) [cluster] [] ?_
      (Or.inr ⟨cluster, ⟨inTree, rfl⟩, (separated.single cluster inTree).links⟩) ?_ ?_ ?_
    · intro owner start different owns
      cases owner with
      | directory other => exact ⟨owns.1.1, owns.2⟩
      | file other slot' =>
        obtain ⟨⟨member, -⟩, small', entry⟩ := owns
        exact ⟨member, small', (entries other slot' _ member small' entry).2⟩
    · intro other valid outside used
      exact frame other valid (fun equal => outside (List.mem_singleton.mpr equal)) used
    · simp
    · rintro start ⟨⟨-, wrong⟩, -⟩
      exact absurd rfl wrong
  · rintro other slot' target ⟨member, -⟩ small' entry
    obtain ⟨elsewhere, before⟩ := entries other slot' _ member small' entry
    obtain ⟨inTree', notRoot'⟩ := separated.subdirectory other slot' target member small' before
    refine ⟨⟨inTree', ?_⟩, notRoot'⟩
    rintro rfl
    exact elsewhere (separated.unique other slot' directory slot target member inside small' small
      before led)
  · rintro first slot₁ second slot₂ target ⟨member, -⟩ ⟨member', -⟩ small₁ small₂ entry entry'
    exact separated.unique first slot₁ second slot₂ target member member' small₁ small₂
      (entries first slot₁ _ member small₁ entry).2 (entries second slot₂ _ member' small₂ entry').2

end Separated

end FileSystem

end Pocky
