import Pocky.Fs.VolumeLaws

/-! Taking clusters and giving them back, on any device. -/

namespace Pocky

namespace FileSystem

/-- The scan for a free cluster takes the first one it meets. -/
theorem allocateFrom_scan (fs : FileSystem) (remaining cluster : Nat) :
    (fs.allocateFrom remaining cluster = (0, fs) ∧
      ∀ other, cluster ≤ other → other < cluster + remaining → fs.readFatEntry other ≠ 0) ∨
    ∃ taken, fs.allocateFrom remaining cluster = (taken, (fs.updateFatEntry taken endMark).2) ∧
      cluster ≤ taken ∧ taken < cluster + remaining ∧ fs.readFatEntry taken = 0 ∧
      ∀ other, cluster ≤ other → other < taken → fs.readFatEntry other ≠ 0 := by
  -- By induction on the clusters that are left.
  induction remaining generalizing cluster with
  | zero => exact Or.inl ⟨rfl, fun other low high => absurd high (by omega)⟩
  | succ remaining ih =>
    rw [allocateFrom]
    by_cases free : fs.readFatEntry cluster = 0
    · rw [if_pos free]
      exact Or.inr ⟨cluster, rfl, Nat.le_refl _, by omega, free,
        fun other low high => absurd high (by omega)⟩
    · rw [if_neg free]
      -- This cluster is in use, and so are those that are skipped later.
      have more : ∀ limit, (∀ other, cluster + 1 ≤ other → other < limit → fs.readFatEntry other ≠ 0) →
          ∀ other, cluster ≤ other → other < limit → fs.readFatEntry other ≠ 0 := by
        intro limit later other low high
        rcases Nat.eq_or_lt_of_le low with rfl | above
        · exact free
        · exact later other above high
      rcases ih (cluster + 1) with ⟨none, used⟩ | ⟨taken, found, low, high, zero, used⟩
      · left
        refine ⟨none, more _ fun other low high => used other low ?_⟩
        omega
      · exact Or.inr ⟨taken, found, by omega, by omega, zero, more taken used⟩

/-- Taking a cluster takes the first free one that the scan meets. -/
theorem allocateCluster_scan (fs : FileSystem) :
    (fs.allocateCluster = (0, fs) ∧ ∀ other, fs.InVolume other → fs.readFatEntry other ≠ 0) ∨
    ∃ taken, fs.allocateCluster = (taken, (fs.updateFatEntry taken endMark).2) ∧
      fs.InVolume taken ∧ fs.readFatEntry taken = 0 ∧
      ∀ other, 2 ≤ other → other < taken → fs.readFatEntry other ≠ 0 := by
  rcases fs.allocateFrom_scan (fs.totalClusters - 2) 2 with
    ⟨none, used⟩ | ⟨taken, found, low, high, zero, used⟩
  · exact Or.inl ⟨none, fun other valid => used other valid.1 (by have := valid.2; omega)⟩
  · exact Or.inr ⟨taken, found, ⟨low, by omega⟩, zero, used⟩

/-- A cluster is taken if one is free, and then it is the first. -/
theorem allocateCluster_cases {fs : FileSystem} (layout : fs.Layout) :
    (fs.allocateCluster = (0, fs) ∧ ∀ other, fs.InVolume other → fs.readFatEntry other ≠ 0) ∨
    ∃ taken after, fs.allocateCluster = (taken, after) ∧ fs.InVolume taken ∧
      fs.readFatEntry taken = 0 ∧ fs.Updates taken endMark after ∧
      ∀ other, 2 ≤ other → other < taken → fs.readFatEntry other ≠ 0 := by
  -- The update of the entry is one that may be refused.
  rcases fs.allocateCluster_scan with full | ⟨taken, found, valid, zero, used⟩
  · exact Or.inl full
  · exact Or.inr ⟨taken, _, found, valid, zero, updateFatEntry_updates layout valid.2 endMark, used⟩

/-- Freeing a cluster of the volume updates its entry. -/
theorem freeCluster_updates {fs : FileSystem} (layout : fs.Layout) {cluster : Nat}
    (valid : fs.InVolume cluster) : fs.Updates cluster 0 (fs.freeCluster cluster) := by
  obtain ⟨low, high⟩ := valid
  rw [freeCluster, if_neg (by omega)]
  exact updateFatEntry_updates layout high 0

end FileSystem

end Pocky
