import Pocky.Fs.AllocationLaws
import Pocky.Fs.ChainLaws

/-! Removing a name from a directory and a chain from the table, on any device. -/

namespace Pocky

/-- Which slot a lookup returns. -/
theorem findName_some {data : Buffer} {name : Name} {remaining offset entry : Nat}
    (found : findName data name remaining offset = some entry) :
    ∃ slot < remaining, entry = offset + slotSize * slot ∧ freeByte (data entry) = false ∧
      entryAttributes data entry ≠ 0x0F ∧ entryName data entry = name ∧
      ∀ earlier ≤ slot, data (offset + slotSize * earlier) ≠ 0x00 := by
  -- By induction on the slots that are left.
  induction remaining generalizing offset with
  | zero => cases found
  | succ remaining ih =>
    rw [findName] at found
    -- Unless this slot is the one, the search goes on at the next.
    have later : data offset ≠ 0x00 → findName data name remaining (offset + slotSize) = some entry →
        ∃ slot < remaining + 1, entry = offset + slotSize * slot ∧ freeByte (data entry) = false ∧
          entryAttributes data entry ≠ 0x0F ∧ entryName data entry = name ∧
          ∀ earlier ≤ slot, data (offset + slotSize * earlier) ≠ 0x00 := by
      intro used rest
      obtain ⟨slot, inside, place, live, attributes, named, before⟩ := ih rest
      have shift : ∀ slot, offset + slotSize * (slot + 1) = offset + slotSize + slotSize * slot := by
        intro slot
        simp only [slotSize]
        omega
      refine ⟨slot + 1, Nat.succ_lt_succ inside, by rw [place, shift], live, attributes, named, ?_⟩
      intro earlier below
      cases earlier with
      | zero => simpa using used
      | succ earlier =>
        rw [shift]
        exact before earlier (Nat.le_of_succ_le_succ below)
    split at found
    · cases found
    · rename_i used
      split at found
      · exact later used found
      · rename_i kept
        split at found
        · exact later used found
        · rename_i attributes
          split at found
          · rename_i named
            cases found
            refine ⟨0, Nat.succ_pos _, rfl, ?_, attributes, named, ?_⟩
            · simp [freeByte, used, kept]
            · intro earlier below
              obtain rfl := Nat.le_zero.mp below
              simpa using used
          · exact later used found

/-- A sector after the first slot of a name has been marked as deleted. -/
def marked (name : Name) (data : Buffer) : Buffer :=
  match findName data name 16 0 with
  | none => data
  | some offset => Function.update data offset 0xE5

/-- Whether a sector has a slot of a name. -/
def hasName (name : Name) (data : Buffer) : Bool := (findName data name 16 0).isSome

namespace FileSystem

/-- A name has been marked in each of some sectors. -/
structure Marks (fs : FileSystem) (name : Name) (sectors : List Nat) (after : FileSystem) :
    Prop where
  /-- Only the disk has changed. -/
  same : SameVolume fs after
  /-- These sectors have, and no others. -/
  blocks : ∀ sector, after.block sector =
    if sector ∈ sectors then marked name (fs.block sector) else fs.block sector
  /-- One write was tried for each sector that has the name. -/
  clock : after.disk.clock =
    fs.disk.clock + sectors.countP fun sector => hasName name (fs.block sector)

/-- Marks in some sectors and then in others. -/
theorem Marks.append {fs middle after : FileSystem} {name : Name} {first second : List Nat}
    (left : fs.Marks name first middle) (right : middle.Marks name second after)
    (disjoint : ∀ sector ∈ second, sector ∉ first) : fs.Marks name (first ++ second) after := by
  -- The second sectors have not been touched by the first marks.
  have fresh : ∀ sector ∈ second, middle.block sector = fs.block sector := by
    intro sector member
    rw [left.blocks, if_neg (disjoint sector member)]
  refine ⟨left.same.trans right.same, ?_, ?_⟩
  · intro sector
    rw [right.blocks]
    by_cases inSecond : sector ∈ second
    · rw [if_pos inSecond, fresh sector inSecond, if_pos (List.mem_append_right _ inSecond)]
    · rw [if_neg inSecond, left.blocks]
      simp [List.mem_append, inSecond]
  · have counts : second.countP (fun sector => hasName name (middle.block sector)) =
        second.countP fun sector => hasName name (fs.block sector) :=
      List.countP_congr fun sector member => by rw [fresh sector member]
    rw [right.clock, left.clock, List.countP_append, counts]
    omega

/-- Nothing to mark. -/
theorem Marks.nil (fs : FileSystem) (name : Name) : fs.Marks name [] fs :=
  ⟨SameVolume.refl fs, fun _ => by simp, rfl⟩

/-- A sector without the name. -/
theorem Marks.skip {fs : FileSystem} {name : Name} {sector : Nat}
    (absent : findName (fs.block sector) name 16 0 = none) : fs.Marks name [sector] fs := by
  refine ⟨SameVolume.refl fs, ?_, by simp [hasName, absent]⟩
  intro other
  by_cases equal : other = sector
  · subst equal
    simp [marked, absent]
  · simp [equal]

/-- A sector with the name that has been written. -/
theorem Marks.one {fs : FileSystem} {name : Name} {sector offset : Nat}
    (found : findName (fs.block sector) name 16 0 = some offset) :
    fs.Marks name [sector] (fs.store sector (Function.update (fs.block sector) offset 0xE5)) := by
  refine ⟨fs.store_same _ _, ?_, by simp [hasName, found, store]⟩
  obtain ⟨slot, inside, place, -⟩ := findName_some found
  have within : offset < 512 := by
    simp only [slotSize] at place
    omega
  intro other
  rw [store_block]
  by_cases equal : other = sector
  · subst equal
    simp only [List.mem_singleton, if_true, marked, found]
    -- The marked byte lies inside the block.
    funext index
    by_cases small : index < 512
    · simp [cutBlock, small]
    · have different : index ≠ offset := by omega
      simp [cutBlock, small, block, different]
  · simp [equal]

/-- The sectors of a cluster in which a name could be marked without failure. -/
theorem markSectors_marks {fs after : FileSystem} (sector512 : fs.bpb.bytesPerSector = 512)
    {name : Name} {sector remaining index : Nat}
    (apart : ((List.range' index remaining).map fun i => (sector + i) % 2 ^ 32).Nodup)
    (returned : fs.markSectors name sector remaining index = (true, after)) :
    fs.Marks name ((List.range' index remaining).map fun i => (sector + i) % 2 ^ 32) after := by
  -- By induction on the sectors that are left.
  induction remaining generalizing fs index with
  | zero =>
    cases returned
    exact Marks.nil _ name
  | succ remaining ih =>
    rw [List.range'_succ, List.map_cons] at apart ⊢
    obtain ⟨absent, apart⟩ := List.nodup_cons.mp apart
    have disjoint : ∀ other ∈ (List.range' (index + 1) remaining).map fun i =>
        (sector + i) % 2 ^ 32, other ∉ [(sector + index) % 2 ^ 32] := by
      intro other member equal
      obtain rfl := List.mem_singleton.mp equal
      exact absent member
    rw [markSectors] at returned
    split at returned
    · cases returned
    · rename_i data read
      obtain rfl := block_of_readSector sector512 read
      rw [slotsPerSector_eq sector512] at returned
      split at returned
      · rename_i missing
        exact (Marks.skip missing).append (ih sector512 apart returned) disjoint
      · rename_i offset found
        split at returned
        · cases returned
        · rename_i middle written
          obtain rfl := store_of_writeSector sector512 written
          have rest := ih (show (fs.store _ _).bpb.bytesPerSector = 512 from sector512) apart returned
          exact (Marks.one found).append rest disjoint

/-- Marks in the data area leave the table alone. -/
theorem Marks.fatEntry {fs after : FileSystem} {name : Name} {sectors : List Nat}
    (marks : fs.Marks name sectors after) (layout : fs.Layout)
    (high : ∀ sector ∈ sectors, fs.firstDataSector ≤ sector) :
    ∀ cluster < fs.totalClusters, after.fatEntry cluster = fs.fatEntry cluster := by
  -- None of the sectors marked belongs to the table.
  intro cluster small
  refine fatEntry_congr layout marks.same ?_ small
  intro sector low
  have outside : sector ∉ sectors := fun member => by
    have := high sector member
    omega
  rw [marks.blocks, if_neg outside]

/-- A walk that marks a name in every sector of a chain, and that no transfer ended. -/
theorem markChain_marks {fs after : FileSystem} (layout : fs.Layout) {name : Name}
    {clusters : List Nat} {start steps : Nat}
    (linked : Linked fs.fatEntry (endMark ≤ ·) clusters) (head : clusters.head? = some start)
    (nodup : clusters.Nodup) (valid : ∀ cluster ∈ clusters, fs.InVolume cluster)
    (returned : fs.markChain name steps start = .ok (true, after)) :
    fs.Marks name (fs.directorySectors clusters) after := by
  -- By induction along the chain.
  induction clusters generalizing fs start steps with
  | nil => exact linked.elim
  | cons cluster rest ih =>
    obtain rfl : cluster = start := Option.some.inj head
    obtain ⟨absent, nodup⟩ := List.nodup_cons.mp nodup
    have inside := valid cluster List.mem_cons_self
    have others : ∀ other ∈ rest, fs.InVolume other := fun other member =>
      valid other (List.mem_cons_of_mem _ member)
    cases steps with
    | zero => cases returned
    | succ steps =>
      rw [markChain] at returned
      split at returned
      · cases returned
      · rename_i middle marking
        have here : fs.Marks name (fs.clusterSectors cluster) middle :=
          markSectors_marks layout.sector (layout.clusterSectors_nodup inside) marking
        have links := here.fatEntry layout fun sector member =>
          layout.clusterSectors_high inside member
        have disjoint := layout.directorySectors_disjoint inside others absent
        rw [directorySectors_cons]
        -- The table was read after the marks, but they have not changed it.
        have next := readFatEntry_cases (here.same.bytesPerSector.trans layout.sector) cluster
        rw [links cluster inside.2] at next
        cases rest with
        | nil =>
          have stop : after = middle := by
            split at next
            · have last : endMark ≤ fs.fatEntry cluster := linked
              rw [next, if_pos last] at returned
              exact (Prod.mk.inj (Except.ok.inj returned)).2.symm
            · have order : ¬ endMark ≤ badMark := by decide
              rw [next, if_neg order, if_pos rfl] at returned
              cases returned
          rw [stop]
          simpa [directorySectors] using here
        | cons second rest =>
          have link : fs.fatEntry cluster = second := linked.1
          obtain ⟨small, inner⟩ := layout.not_mark (others second List.mem_cons_self)
          have further : middle.markChain name steps second = .ok (true, after) := by
            split at next
            · rw [next, link, if_neg inner, if_neg (by omega)] at returned
              exact returned
            · have order : ¬ endMark ≤ badMark := by decide
              rw [next, if_neg order, if_pos rfl] at returned
              cases returned
          have tail := ih (layout.same here.same)
            (linked.2.congr fun other member => links other (others other member).2) rfl nodup
            (fun other member => here.same.inVolume.mpr (others other member)) further
          rw [here.same.directorySectors] at tail
          exact here.append tail disjoint

/-- The device reads and writes the entries of a chain, one after the other from a given time on. -/
def Frees (fs : FileSystem) : Nat → List Nat → Prop
  | _, [] => True
  | clock, cluster :: rest =>
    fs.disk.readOk clock (fs.fatSector cluster) = true ∧ fs.disk.writeOk clock = true ∧
      fs.Frees (clock + attempts fs.disk.writeOk clock fs.bpb.tableCount) rest

/-- What the device does is not on the disk. -/
theorem SameVolume.frees {fs after : FileSystem} (same : SameVolume fs after) (clock : Nat)
    (clusters : List Nat) : after.Frees clock clusters ↔ fs.Frees clock clusters := by
  -- By induction on the clusters; all that is asked is the device and the geometry.
  induction clusters generalizing clock with
  | nil => exact Iff.rfl
  | cons cluster rest ih =>
    have table : after.bpb = fs.bpb := by rw [same.fields]
    rw [Frees, Frees, ih, same.readOk, same.writeOk, (same.fatSector cluster).1, table]

/-- A device that refuses nothing frees every chain. -/
theorem Reliable.frees {fs : FileSystem} (reliable : fs.Reliable) (clock : Nat)
    (clusters : List Nat) : fs.Frees clock clusters := by
  induction clusters generalizing clock with
  | nil => trivial
  | cons cluster rest ih => exact ⟨reliable.read _ _, reliable.write _, ih _⟩

/-- The entries of a chain are not those of free clusters. -/
theorem fatEntry_ne_zero {fs : FileSystem} {clusters : List Nat}
    (linked : Linked fs.fatEntry (endMark ≤ ·) clusters)
    (valid : ∀ cluster ∈ clusters, fs.InVolume cluster) {cluster : Nat}
    (member : cluster ∈ clusters) : fs.fatEntry cluster ≠ 0 := by
  have positive : 0 < endMark := by decide
  rcases linked.next_cases member with last | inside
  · omega
  · have := (valid _ inside).1
    omega

/-- The result of freeing a chain: which entries are zero depends on the device. -/
structure Freed (fs : FileSystem) (clusters : List Nat) (after : FileSystem) : Prop where
  /-- Only the disk has changed. -/
  same : SameVolume fs after
  /-- The data area has not. -/
  data : ∀ sector, fs.firstDataSector ≤ sector → after.block sector = fs.block sector
  /-- Entries outside the chain have not. -/
  others : ∀ other < fs.totalClusters, other ∉ clusters → after.fatEntry other = fs.fatEntry other
  /-- All entries of the chain are zero exactly if the device has gone along. -/
  zero : (∀ cluster ∈ clusters, after.fatEntry cluster = 0) ↔ fs.Frees fs.disk.clock clusters

/-- Freeing the first cluster of a chain and then the rest. -/
theorem Freed.cons {fs middle after : FileSystem} {cluster : Nat} {rest : List Nat}
    (update : fs.Updates cluster 0 middle) (tail : middle.Freed rest after)
    (nonzero : fs.fatEntry cluster ≠ 0) (small : cluster < fs.totalClusters)
    (absent : cluster ∉ rest) : fs.Freed (cluster :: rest) after := by
  have total : middle.totalClusters = fs.totalClusters := by rw [update.same.fields]
  have first : middle.firstDataSector = fs.firstDataSector := by rw [update.same.fields]
  have here : after.fatEntry cluster = middle.fatEntry cluster :=
    tail.others cluster (total ▸ small) absent
  refine ⟨update.same.trans tail.same, ?_, ?_, ?_⟩
  · intro sector high
    rw [tail.data sector (first ▸ high), update.data sector high]
  · intro other inside outside
    obtain ⟨different, elsewhere⟩ := not_or.mp (mt List.mem_cons.mpr outside)
    rw [tail.others other (total ▸ inside) elsewhere, update.others other inside different]
  · rw [List.forall_mem_cons, tail.zero, here, update.same.frees, Frees]
    -- Whether the first entry is zero depends on the first two transfers.
    by_cases accepted : fs.disk.readOk fs.disk.clock (fs.fatSector cluster) = true ∧
        fs.disk.writeOk fs.disk.clock = true
    · obtain ⟨zero, clock⟩ := update.accepted accepted.1 accepted.2
      rw [clock, zero]
      exact ⟨fun ⟨_, rest⟩ => ⟨accepted.1, accepted.2, rest⟩, fun ⟨_, _, rest⟩ => ⟨rfl, rest⟩⟩
    · rw [update.refused accepted]
      exact ⟨fun ⟨zero, _⟩ => absurd zero nonzero,
        fun ⟨read, write, _⟩ => absurd ⟨read, write⟩ accepted⟩

/-- A chain that is not freed any further. -/
theorem Freed.stop {fs middle : FileSystem} {cluster : Nat} {rest : List Nat}
    (update : fs.Updates cluster 0 middle) (nonzero : fs.fatEntry cluster ≠ 0)
    (unread : fs.disk.readOk fs.disk.clock (fs.fatSector cluster) ≠ true) :
    fs.Freed (cluster :: rest) middle := by
  have kept := update.refused fun accepted => unread accepted.1
  refine ⟨update.same, update.data, ?_, ?_⟩
  · intro other inside outside
    exact update.others other inside fun equal => outside (by simp [equal])
  · rw [List.forall_mem_cons, kept, Frees]
    exact ⟨fun zero => absurd zero.1 nonzero, fun frees => absurd frees.1 unread⟩

/-- Freeing a chain comes to an end. -/
theorem freeChain_freed {fs : FileSystem} (layout : fs.Layout) {clusters : List Nat}
    {start steps : Nat} (linked : Linked fs.fatEntry (endMark ≤ ·) clusters)
    (head : clusters.head? = some start) (nodup : clusters.Nodup)
    (valid : ∀ cluster ∈ clusters, fs.InVolume cluster) (enough : clusters.length ≤ steps) :
    ∃ after, fs.freeChain steps start = .ok after ∧ fs.Freed clusters after := by
  -- By induction along the chain.
  induction clusters generalizing fs start steps with
  | nil => exact linked.elim
  | cons cluster rest ih =>
    obtain rfl : cluster = start := Option.some.inj head
    obtain ⟨absent, nodup⟩ := List.nodup_cons.mp nodup
    obtain ⟨steps, rfl⟩ : ∃ fewer, steps = fewer + 1 :=
      Nat.exists_eq_succ_of_ne_zero (by simp only [List.length_cons] at enough; omega)
    have few : rest.length ≤ steps := Nat.le_of_succ_le_succ enough
    have inside := valid cluster List.mem_cons_self
    have others : ∀ other ∈ rest, fs.InVolume other := fun other member =>
      valid other (List.mem_cons_of_mem _ member)
    have nonzero := fatEntry_ne_zero linked valid List.mem_cons_self
    have update := freeCluster_updates layout inside
    have order : ¬ endMark ≤ badMark := by decide
    rw [freeChain, if_neg (layout.not_mark inside).2]
    dsimp only
    by_cases read : fs.disk.readOk fs.disk.clock (fs.fatSector cluster) = true
    · rw [readFatEntry_cases layout.sector, if_pos read]
      cases rest with
      | nil =>
        have last : endMark ≤ fs.fatEntry cluster := linked
        rw [if_pos last]
        refine ⟨_, rfl, Freed.cons update ?_ nonzero inside.2 absent⟩
        exact ⟨SameVolume.refl _, fun _ _ => rfl, fun _ _ _ => rfl, by simp [Frees]⟩
      | cons second rest =>
        have link : fs.fatEntry cluster = second := linked.1
        obtain ⟨small, inner⟩ := layout.not_mark (others second List.mem_cons_self)
        have links : ∀ other ∈ second :: rest,
            (fs.freeCluster cluster).fatEntry other = fs.fatEntry other := fun other member =>
          update.others other (others other member).2 fun equal => absent (equal ▸ member)
        obtain ⟨after, freed, tail⟩ := ih (layout.same update.same) (linked.2.congr links) rfl nodup
          (fun other member => update.same.inVolume.mpr (others other member)) few
        rw [link, if_neg inner, if_neg (by omega)]
        exact ⟨after, freed, Freed.cons update tail nonzero inside.2 absent⟩
    · -- An entry that cannot be read looks bad, and the loop ends there.
      rw [readFatEntry_cases layout.sector, if_neg read, if_neg order, if_pos rfl]
      exact ⟨_, rfl, Freed.stop update nonzero read⟩

end FileSystem

end Pocky
