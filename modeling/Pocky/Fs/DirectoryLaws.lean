import Pocky.Fs.Directory
import Pocky.Fs.VolumeLaws
import Pocky.Lib.Chains

/-! Scans of a directory, and the slot a new entry ends up in. -/

namespace Pocky

/-- Which slot a search for a free one returns. -/
theorem findFree_some {data : Buffer} {remaining offset entry : Nat}
    (found : findFree data remaining offset = some entry) :
    ∃ slot < remaining, entry = offset + slotSize * slot ∧ freeByte (data entry) = true ∧
      ∀ earlier < slot, freeByte (data (offset + slotSize * earlier)) = false := by
  -- By induction on the slots that are left.
  induction remaining generalizing offset with
  | zero => cases found
  | succ remaining ih =>
    rw [findFree] at found
    split at found
    · rename_i free
      cases found
      exact ⟨0, Nat.succ_pos _, rfl, free, fun _ wrong => absurd wrong (Nat.not_lt_zero _)⟩
    · rename_i used
      obtain ⟨slot, inside, place, free, before⟩ := ih found
      refine ⟨slot + 1, Nat.succ_lt_succ inside, ?_, free, ?_⟩
      · rw [place]
        simp only [slotSize]
        omega
      · intro earlier below
        cases earlier with
        | zero => simpa [Bool.not_eq_true] using used
        | succ earlier =>
          have previous := before earlier (Nat.lt_of_succ_lt_succ below)
          rw [show offset + slotSize * (earlier + 1) = offset + slotSize + slotSize * earlier by
            simp only [slotSize]; omega]
          exact previous

/-- A search for a free slot fails only if there is none. -/
theorem findFree_none {data : Buffer} {remaining offset : Nat}
    (absent : findFree data remaining offset = none) {slot : Nat} (inside : slot < remaining) :
    freeByte (data (offset + slotSize * slot)) = false := by
  -- By induction on the slots that are left.
  induction remaining generalizing offset slot with
  | zero => exact absurd inside (Nat.not_lt_zero _)
  | succ remaining ih =>
    rw [findFree] at absent
    split at absent
    · cases absent
    · rename_i used
      cases slot with
      | zero => simpa [Bool.not_eq_true] using used
      | succ slot =>
        have later := ih absent (Nat.lt_of_succ_lt_succ inside)
        rw [show offset + slotSize * (slot + 1) = offset + slotSize + slotSize * slot by
          simp only [slotSize]; omega]
        exact later

namespace FileSystem

section Scan

variable {α : Type} {fs : FileSystem} {find : Nat → Buffer → Option α} {failed ended : α}

/-- A scan of sectors answers with its failure or with what some sector said. -/
theorem scanSectors_answer {answer : α} {sector remaining index : Nat} (property : α → Prop)
    (onFailed : property failed)
    (onFound : ∀ sector data answer, find sector data = some answer → property answer)
    (scanned : fs.scanSectors find failed sector remaining index = some answer) :
    property answer := by
  -- By induction on the sectors that are left.
  induction remaining generalizing index with
  | zero => cases scanned
  | succ remaining ih =>
    rw [scanSectors] at scanned
    split at scanned
    · cases scanned
      exact onFailed
    · split at scanned
      · rename_i found
        cases scanned
        exact onFound _ _ _ found
      · exact ih scanned

/-- A scan of a chain answers with its failure, its end, or with what some sector said. -/
theorem scanChain_answer {answer : α} {steps cluster : Nat} (property : α → Prop)
    (onFailed : property failed) (onEnded : property ended)
    (onFound : ∀ sector data answer, find sector data = some answer → property answer)
    (scanned : fs.scanChain find failed ended steps cluster = .ok answer) : property answer := by
  -- By induction on the steps; a walk without end has no answer.
  induction steps generalizing cluster with
  | zero => cases scanned
  | succ steps ih =>
    rw [scanChain] at scanned
    split at scanned
    · rename_i found
      cases scanned
      exact scanSectors_answer property onFailed onFound found
    · dsimp only at scanned
      split at scanned
      · cases scanned
        exact onEnded
      · split at scanned
        · cases scanned
          exact onFailed
        · exact ih scanned

/-- The first sector of a chain is asked first. -/
theorem scanChain_first (find : Nat → Buffer → Option α) (failed ended : α) {answer : α}
    {steps cluster : Nat} {data : Buffer} (clusters : 0 < fs.bpb.sectorsPerCluster)
    (read : fs.readSector (fs.clusterSector cluster) = some data)
    (found : find (fs.clusterSector cluster) data = some answer) (enough : 0 < steps) :
    fs.scanChain find failed ended steps cluster = .ok answer := by
  -- Both loops are entered, and the sector number needs no reduction.
  obtain ⟨steps, rfl⟩ : ∃ rest, steps = rest + 1 := ⟨steps - 1, by omega⟩
  obtain ⟨sectors, shape⟩ : ∃ rest, fs.bpb.sectorsPerCluster = rest + 1 :=
    ⟨fs.bpb.sectorsPerCluster - 1, by omega⟩
  have number : (fs.clusterSector cluster + 0) % 2 ^ 32 = fs.clusterSector cluster := by
    rw [Nat.add_zero, clusterSector, Nat.mod_mod]
  simp only [scanChain, shape, scanSectors, number, read, found]

end Scan

/-- With sectors of one block there are sixteen slots in each. -/
theorem slotsPerSector_eq {fs : FileSystem} (sector512 : fs.bpb.bytesPerSector = 512) :
    fs.slotsPerSector = 16 := by
  rw [slotsPerSector, sector512]

/-- The offset a search for a free slot returns is that of a slot. -/
theorem findFreeDirectoryEntry_offset {fs : FileSystem} (sector512 : fs.bpb.bytesPerSector = 512)
    {cluster entryIndex : Nat} (found : fs.findFreeDirectoryEntry cluster = .ok (some entryIndex)) :
    ∃ slot < 16, entryIndex = slotSize * slot := by
  -- Whatever sector it comes from, the offset was counted from that sector's start.
  refine scanChain_answer
    (fun answer => ∀ entryIndex, answer = some entryIndex → ∃ slot < 16, entryIndex = slotSize * slot)
    (by simp) (by simp) ?_ found entryIndex rfl
  intro sector data answer told entryIndex same
  obtain ⟨offset, free, rfl⟩ := Option.map_eq_some_iff.mp told
  cases same
  rw [slotsPerSector_eq sector512] at free
  obtain ⟨slot, inside, place, -⟩ := findFree_some free
  exact ⟨slot, inside, by simpa using place⟩

/-- A free slot of the first sector is found before any other. -/
theorem findFreeDirectoryEntry_first {fs : FileSystem} (sector512 : fs.bpb.bytesPerSector = 512)
    (clusters : 0 < fs.bpb.sectorsPerCluster) {cluster : Nat} {entryIndex : Nat}
    (read : fs.readSector (fs.clusterSector cluster) = some (fs.block (fs.clusterSector cluster)))
    {slot : Nat} (inside : slot < 16)
    (free : freeByte (fs.block (fs.clusterSector cluster) (slotSize * slot)) = true)
    (found : fs.findFreeDirectoryEntry cluster = .ok (some entryIndex)) :
    freeByte (fs.block (fs.clusterSector cluster) entryIndex) = true := by
  -- The search in the first sector succeeds, and the scan stops there.
  cases first : findFree (fs.block (fs.clusterSector cluster)) 16 0 with
  | none =>
    have used := findFree_none first inside
    rw [Nat.zero_add, free] at used
    cases used
  | some offset =>
    have many : 0 < walkSteps := by decide
    have scan := scanChain_first (fun _ data => (findFree data fs.slotsPerSector 0).map some)
      none none clusters read (by rw [slotsPerSector_eq sector512, first]; rfl) many
    rw [findFreeDirectoryEntry, scan] at found
    cases found
    obtain ⟨_, -, -, free', -⟩ := findFree_some first
    exact free'

end FileSystem

end Pocky
