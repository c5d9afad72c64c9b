import Pocky.Fs.PathLaws
import Pocky.Fs.SoundVolume

/-! Lookups and searches in a directory on a device that refuses nothing. -/

namespace Pocky

/-- A slot in use has a name that a lookup compares. -/
def SlotNames (data : Buffer) (name : Name) (offset : Nat) : Prop :=
  freeByte (data offset) = false ∧ entryAttributes data offset ≠ 0x0F ∧ entryName data offset = name

instance (data : Buffer) (name : Name) (offset : Nat) : Decidable (SlotNames data name offset) :=
  inferInstanceAs (Decidable (_ ∧ _ ∧ _))

/-- A slot that has a name is in use. -/
theorem SlotNames.used {data : Buffer} {name : Name} {offset : Nat}
    (names : SlotNames data name offset) : data offset ≠ 0x00 := by
  -- An unused slot is free.
  intro unused
  have live := names.1
  rw [unused] at live
  cases live

/-- A lookup ends at an unused slot, stops at a slot with the name, and passes over the others. -/
theorem findName_succ (data : Buffer) (name : Name) (remaining offset : Nat) :
    findName data name (remaining + 1) offset =
      if data offset = 0x00 then none
      else if SlotNames data name offset then some offset
      else findName data name remaining (offset + slotSize) := by
  rw [findName]
  by_cases unused : data offset = 0x00
  · rw [if_pos unused, if_pos unused]
  · rw [if_neg unused, if_neg unused]
    by_cases deleted : data offset = 0xE5
    · have free : ¬ SlotNames data name offset := by
        rintro ⟨live, -⟩
        rw [deleted] at live
        cases live
      rw [if_pos deleted, if_neg free]
    · have live : freeByte (data offset) = false := by simp [freeByte, unused, deleted]
      rw [if_neg deleted]
      simp only [SlotNames, live, true_and]
      by_cases part : entryAttributes data offset = 0x0F
      · simp [part]
      · simp [part]

/-- Offsets counted from the next slot. -/
theorem nextSlot_offset (offset slot : Nat) :
    offset + slotSize + slotSize * slot = offset + slotSize * (slot + 1) := by
  simp only [slotSize]
  omega

/-- A lookup returns the first slot with the name, if no unused slot comes before it. -/
theorem findName_eq_some_iff {data : Buffer} {name : Name} {remaining offset entry : Nat} :
    findName data name remaining offset = some entry ↔
      ∃ slot < remaining, entry = offset + slotSize * slot ∧ SlotNames data name entry ∧
        ∀ earlier < slot, data (offset + slotSize * earlier) ≠ 0x00 ∧
          ¬ SlotNames data name (offset + slotSize * earlier) := by
  -- By induction on the slots that are left.
  induction remaining generalizing offset with
  | zero => simp [findName]
  | succ remaining ih =>
    rw [findName_succ]
    constructor
    · intro found
      split at found
      · cases found
      · rename_i used
        split at found
        · rename_i names
          cases found
          exact ⟨0, Nat.succ_pos _, rfl, names, fun _ wrong => absurd wrong (Nat.not_lt_zero _)⟩
        · rename_i other
          obtain ⟨slot, inside, rfl, names, before⟩ := ih.mp found
          refine ⟨slot + 1, Nat.succ_lt_succ inside, nextSlot_offset offset slot, names, ?_⟩
          intro earlier below
          cases earlier with
          | zero => exact ⟨used, other⟩
          | succ earlier =>
            rw [← nextSlot_offset]
            exact before earlier (Nat.lt_of_succ_lt_succ below)
    · rintro ⟨slot, inside, rfl, names, before⟩
      cases slot with
      | zero =>
        rw [Nat.mul_zero, Nat.add_zero] at names ⊢
        rw [if_neg names.used, if_pos names]
      | succ slot =>
        obtain ⟨used, other⟩ := before 0 (Nat.succ_pos _)
        rw [Nat.mul_zero, Nat.add_zero] at used other
        rw [if_neg used, if_neg other]
        refine ih.mpr ⟨slot, Nat.lt_of_succ_lt_succ inside, (nextSlot_offset offset slot).symm, names, ?_⟩
        intro earlier below
        rw [nextSlot_offset]
        exact before (earlier + 1) (Nat.succ_lt_succ below)

/-- A lookup fails just when no slot in front of the first unused one has the name. -/
theorem findName_eq_none_iff {data : Buffer} {name : Name} {remaining offset : Nat} :
    findName data name remaining offset = none ↔
      ∀ slot < remaining, (∀ earlier < slot, data (offset + slotSize * earlier) ≠ 0x00) →
        ¬ SlotNames data name (offset + slotSize * slot) := by
  -- By induction on the slots that are left.
  induction remaining generalizing offset with
  | zero => simp [findName]
  | succ remaining ih =>
    rw [findName_succ]
    constructor
    · intro absent slot inside used
      cases slot with
      | zero =>
        rw [Nat.mul_zero, Nat.add_zero]
        intro names
        rw [if_neg names.used, if_pos names] at absent
        cases absent
      | succ slot =>
        have first := used 0 (Nat.succ_pos _)
        rw [Nat.mul_zero, Nat.add_zero] at first
        rw [if_neg first] at absent
        split at absent
        · cases absent
        · rw [← nextSlot_offset]
          refine ih.mp absent slot (Nat.lt_of_succ_lt_succ inside) fun earlier below => ?_
          rw [nextSlot_offset]
          exact used (earlier + 1) (Nat.succ_lt_succ below)
    · intro absent
      split
      · rfl
      · rename_i used
        have first := absent 0 (Nat.succ_pos _) fun _ wrong => absurd wrong (Nat.not_lt_zero _)
        rw [Nat.mul_zero, Nat.add_zero] at first
        rw [if_neg first]
        refine ih.mpr fun slot inside before => ?_
        rw [nextSlot_offset]
        refine absent (slot + 1) (Nat.succ_lt_succ inside) fun earlier below => ?_
        cases earlier with
        | zero =>
          rw [Nat.mul_zero, Nat.add_zero]
          exact used
        | succ earlier =>
          rw [← nextSlot_offset]
          exact before earlier (Nat.lt_of_succ_lt_succ below)

/-- Whether a slot has a name depends on its first twelve bytes. -/
theorem slotNames_congr {data data' : Buffer} {name : Name} {slot : Nat}
    (same : ∀ byte < slotSize, data' (slotSize * slot + byte) = data (slotSize * slot + byte)) :
    SlotNames data' name (slotSize * slot) ↔ SlotNames data name (slotSize * slot) := by
  have first := same 0 (by decide)
  rw [Nat.add_zero] at first
  rw [SlotNames, SlotNames, first, entryAttributes, entryAttributes, same 11 (by decide),
    entryName_congr fun index small => same index (Nat.lt_trans small (by decide))]

/-- A lookup asks of each slot whether it is unused and whether it has the name. -/
theorem findName_congr {data data' : Buffer} {name : Name}
    (same : ∀ slot < 16, (data' (slotSize * slot) = 0x00 ↔ data (slotSize * slot) = 0x00) ∧
      (SlotNames data' name (slotSize * slot) ↔ SlotNames data name (slotSize * slot))) :
    findName data' name 16 0 = findName data name 16 0 := by
  have rest : ∀ remaining first, first + remaining ≤ 16 →
      findName data' name remaining (slotSize * first) =
        findName data name remaining (slotSize * first) := by
    -- By induction on the slots that are left.
    intro remaining
    induction remaining with
    | zero => exact fun _ _ => rfl
    | succ remaining ih =>
      intro first within
      obtain ⟨unused, names⟩ := same first (by omega)
      have later := ih (first + 1) (by omega)
      have next : slotSize * first + slotSize = slotSize * (first + 1) := rfl
      simp only [findName_succ, unused, names, next, later]
  exact rest 16 0 (Nat.le_refl 16)

/-- A slot behind live ones that gets a new name is the one a lookup of that name finds. -/
theorem findName_replaced {data data' : Buffer} {name : Name} {slot : Nat} (small : slot < 16)
    (change : ChangesSlot slot data data')
    (live : ∀ earlier < slot, freeByte (data (slotSize * earlier)) = false)
    (absent : findName data name 16 0 = none) (names : SlotNames data' name (slotSize * slot)) :
    findName data' name 16 0 = some (slotSize * slot) := by
  refine findName_eq_some_iff.mpr ⟨slot, small, (Nat.zero_add _).symm, names, ?_⟩
  intro earlier below
  have same := fun byte (inside : byte < slotSize) => change.bytes (Nat.ne_of_lt below) inside
  have first := same 0 (by decide)
  have used : ∀ other < slot, data (slotSize * other) ≠ 0x00 := by
    intro other under unused
    have wrong := live other under
    rw [unused] at wrong
    cases wrong
  rw [Nat.add_zero] at first
  rw [Nat.zero_add, first, slotNames_congr same]
  -- The slots in front are live and were passed over before.
  refine ⟨used earlier below, ?_⟩
  have passed := findName_eq_none_iff.mp absent earlier (Nat.lt_trans below small) fun other under => by
    rw [Nat.zero_add]
    exact used other (Nat.lt_trans under below)
  rwa [Nat.zero_add] at passed

/-- No lookup finds a name that a replaced slot does not have, nor the slots it uncovers. -/
theorem findName_not_replaced {data data' : Buffer} {name : Name} {slot : Nat}
    (change : ChangesSlot slot data data')
    (covered : data (slotSize * slot) = 0x00 → ∀ later < 16, slot < later →
      freeByte (data (slotSize * later)) = true)
    (absent : findName data name 16 0 = none) (other : ¬ SlotNames data' name (slotSize * slot)) :
    findName data' name 16 0 = none := by
  refine findName_eq_none_iff.mpr fun place small used => ?_
  rw [Nat.zero_add]
  by_cases here : place = slot
  · rw [here]
    exact other
  · have same := fun byte (inside : byte < slotSize) => change.bytes here inside
    rw [slotNames_congr same]
    by_cases hidden : data (slotSize * slot) = 0x00 ∧ slot < place
    · -- The slots behind an unused one are free.
      rintro ⟨live, -⟩
      rw [covered hidden.1 place small hidden.2] at live
      cases live
    · have passed := findName_eq_none_iff.mp absent place small fun earlier below => ?_
      · rwa [Nat.zero_add] at passed
      · rw [Nat.zero_add]
        by_cases equal : earlier = slot
        · subst equal
          exact fun unused => hidden ⟨unused, below⟩
        · have first := change.bytes equal (show 0 < slotSize by decide)
          have before := used earlier below
          rw [Nat.add_zero] at first
          rwa [Nat.zero_add, first] at before

namespace FileSystem

section Scans

variable {fs : FileSystem} {start : Nat} {clusters : List Nat}

/-- A scan of a chain depends on the sectors of the chain. -/
theorem Links.scan_congr {α : Type} {after : FileSystem} (layout : fs.Layout)
    (reliable : fs.Reliable) (same : SameVolume fs after) (links : fs.Links start clusters)
    (links' : after.Links start clusters)
    (blocks : ∀ sector ∈ fs.directorySectors clusters, after.block sector = fs.block sector)
    (find : Nat → Buffer → Option α) (failed ended : α) :
    after.scanChain find failed ended walkSteps start =
      fs.scanChain find failed ended walkSteps start := by
  have layout' := layout.same same
  have reliable' := reliable.same same
  -- Both scans return the first answer, and the sectors say the same.
  have answers : after.firstAnswer find (fs.directorySectors clusters) =
      fs.firstAnswer find (fs.directorySectors clusters) := by
    generalize fs.directorySectors clusters = sectors at blocks
    induction sectors with
    | nil => rfl
    | cons sector rest ih =>
      have later := ih fun other member => blocks other (List.mem_cons_of_mem _ member)
      simp only [firstAnswer] at later ⊢
      rw [List.findSome?_cons, List.findSome?_cons, blocks sector List.mem_cons_self, later]
  rw [(links'.chain layout' reliable').scan_eq layout' reliable',
    (links.chain layout reliable).scan_eq layout reliable, same.directorySectors, answers]

/-- A lookup depends on the slots that it finds in the sectors of the directory. -/
theorem Links.findFileInDirectory_eq {after : FileSystem} (layout : fs.Layout)
    (reliable : fs.Reliable) (same : SameVolume fs after) (links : fs.Links start clusters)
    (links' : after.Links start clusters) {name : Name}
    (told : ∀ sector ∈ fs.directorySectors clusters,
      findName (after.block sector) name 16 0 = findName (fs.block sector) name 16 0 ∧
      ∀ slot, findName (fs.block sector) name 16 0 = some (slotSize * slot) → ∀ byte < slotSize,
        after.block sector (slotSize * slot + byte) = fs.block sector (slotSize * slot + byte)) :
    after.findFileInDirectory start name = fs.findFileInDirectory start name := by
  have layout' := layout.same same
  have reliable' := reliable.same same
  rw [findFileInDirectory, findFileInDirectory, slotsPerSector_eq layout.sector,
    slotsPerSector_eq layout'.sector, (links.chain layout reliable).scan_eq layout reliable,
    (links'.chain layout' reliable').scan_eq layout' reliable', same.directorySectors]
  -- In each sector both scans find the same slot, which holds the same bytes.
  have answers : ∀ sector ∈ fs.directorySectors clusters,
      ((findName (after.block sector) name 16 0).map fun offset =>
        some (⟨entryCluster (after.block sector) offset, entrySize (after.block sector) offset,
          entryAttributes (after.block sector) offset, some (sector, offset)⟩ : Found)) =
      (findName (fs.block sector) name 16 0).map fun offset =>
        some (⟨entryCluster (fs.block sector) offset, entrySize (fs.block sector) offset,
          entryAttributes (fs.block sector) offset, some (sector, offset)⟩ : Found) := by
    intro sector member
    obtain ⟨equal, bytes⟩ := told sector member
    rw [equal]
    cases hit : findName (fs.block sector) name 16 0 with
    | none => rfl
    | some offset =>
      obtain ⟨slot, -, rfl, -⟩ := findName_eq_some_iff.mp hit
      rw [Nat.zero_add] at hit ⊢
      have kept := bytes slot hit
      simp only [Option.map_some, entryCluster, entrySize, entryAttributes, wordAt, halfAt,
        Nat.add_assoc, kept 11 (by decide), kept 26 (by decide), kept (26 + 1) (by decide),
        kept 28 (by decide), kept (28 + 1) (by decide), kept (28 + 2) (by decide),
        kept (28 + (2 + 1)) (by decide)]
  rw [firstAnswer, firstAnswer]
  generalize fs.directorySectors clusters = sectors at answers
  induction sectors with
  | nil => rfl
  | cons sector rest ih =>
    have later := ih fun other member => answers other (List.mem_cons_of_mem _ member)
    rw [List.findSome?_cons, List.findSome?_cons, answers sector List.mem_cons_self]
    cases (findName (fs.block sector) name 16 0).map _ with
    | none => exact later
    | some answer => rfl

/-- A lookup depends on the sectors of the directory. -/
theorem Links.findFileInDirectory_congr {after : FileSystem} (layout : fs.Layout)
    (reliable : fs.Reliable) (same : SameVolume fs after) (links : fs.Links start clusters)
    (links' : after.Links start clusters)
    (blocks : ∀ sector ∈ fs.directorySectors clusters, after.block sector = fs.block sector)
    (name : Name) : after.findFileInDirectory start name = fs.findFileInDirectory start name := by
  refine links.findFileInDirectory_eq layout reliable same links' fun sector member => ?_
  rw [blocks sector member]
  exact ⟨rfl, fun _ _ _ _ => rfl⟩

/-- A lookup in a directory returns. -/
theorem Links.findFileInDirectory_returns (layout : fs.Layout) (reliable : fs.Reliable)
    (links : fs.Links start clusters) (name : Name) :
    ∃ answer, fs.findFileInDirectory start name = .ok answer := by
  rw [findFileInDirectory, (links.chain layout reliable).scan_eq layout reliable]
  exact ⟨_, rfl⟩

/-- The search for a free slot depends on the sectors of the directory. -/
theorem Links.findFreeDirectoryEntry_congr {after : FileSystem} (layout : fs.Layout)
    (reliable : fs.Reliable) (same : SameVolume fs after) (links : fs.Links start clusters)
    (links' : after.Links start clusters)
    (blocks : ∀ sector ∈ fs.directorySectors clusters, after.block sector = fs.block sector) :
    after.findFreeDirectoryEntry start = fs.findFreeDirectoryEntry start := by
  have slots : after.slotsPerSector = fs.slotsPerSector := by
    rw [slotsPerSector_eq layout.sector, slotsPerSector_eq (layout.same same).sector]
  rw [findFreeDirectoryEntry, findFreeDirectoryEntry, slots]
  exact links.scan_congr layout reliable same links' blocks _ _ _

/-- A directory has a slot that may be filled. -/
def HasFreeSlot (fs : FileSystem) (clusters : List Nat) : Prop :=
  ∃ sector ∈ fs.directorySectors clusters, ∃ slot < 16,
    freeByte (fs.block sector (slotSize * slot)) = true

/-- The search for a free slot fails just when there is none. -/
theorem Links.findFreeDirectoryEntry_cases (layout : fs.Layout) (reliable : fs.Reliable)
    (links : fs.Links start clusters) :
    (fs.findFreeDirectoryEntry start = .ok none ∧ ¬ fs.HasFreeSlot clusters) ∨
    ∃ last < 16, fs.findFreeDirectoryEntry start = .ok (some (slotSize * last)) ∧
      fs.HasFreeSlot clusters := by
  rw [findFreeDirectoryEntry, slotsPerSector_eq layout.sector,
    (links.chain layout reliable).scan_eq layout reliable]
  cases answered : fs.firstAnswer (fun _ data => (findFree data 16 0).map some)
      (fs.directorySectors clusters) with
  | none =>
    -- Every sector has said that it has no free slot.
    refine Or.inl ⟨rfl, ?_⟩
    rintro ⟨sector, member, slot, small, free⟩
    have silent := List.findSome?_eq_none_iff.mp answered sector member
    have used := findFree_none (Option.map_eq_none_iff.mp silent) small
    rw [Nat.zero_add, free] at used
    cases used
  | some answer =>
    obtain ⟨sector, member, told⟩ := List.exists_of_findSome?_eq_some answered
    obtain ⟨offset, found, rfl⟩ := Option.map_eq_some_iff.mp told
    obtain ⟨last, small, place, free, -⟩ := findFree_some found
    rw [Nat.zero_add] at place
    subst place
    exact Or.inr ⟨last, small, rfl, sector, member, last, small, free⟩

end Scans

/-- The first sector of a directory is one of its sectors. -/
theorem Links.first_mem {fs : FileSystem} (layout : fs.Layout) {start : Nat} {clusters : List Nat}
    (links : fs.Links start clusters) : fs.clusterSector start ∈ fs.directorySectors clusters := by
  -- It is sector zero of the first cluster.
  have number : (fs.clusterSector start + 0) % 2 ^ 32 = fs.clusterSector start := by
    rw [Nat.add_zero, clusterSector, Nat.mod_mod]
  refine mem_directorySectors.mpr ⟨start, links.start_mem, ?_⟩
  rw [clusterSectors, List.mem_map]
  refine ⟨0, List.mem_range'_1.mpr ⟨Nat.le_refl _, ?_⟩, number⟩
  have positive := layout.cluster
  omega

/-- The sectors of a chain of the table's bytes lie in the data area. -/
theorem Links.high {fs : FileSystem} (layout : fs.Layout) {start : Nat} {clusters : List Nat}
    (links : fs.Links start clusters) {sector : Nat}
    (member : sector ∈ fs.directorySectors clusters) : fs.firstDataSector ≤ sector := by
  obtain ⟨cluster, inside, here⟩ := mem_directorySectors.mp member
  exact layout.clusterSectors_high (links.valid cluster inside) here

/-- A lookup in a directory finds the name in one of its sectors, or none of them has it. -/
theorem Links.findFileInDirectory_cases {fs : FileSystem} {start : Nat} {clusters : List Nat}
    (layout : fs.Layout) (reliable : fs.Reliable) (links : fs.Links start clusters) (name : Name) :
    (fs.findFileInDirectory start name = .ok none ∧
      ∀ sector ∈ fs.directorySectors clusters, findName (fs.block sector) name 16 0 = none) ∨
    ∃ sector ∈ fs.directorySectors clusters, ∃ offset,
      findName (fs.block sector) name 16 0 = some offset ∧
      fs.findFileInDirectory start name = .ok (some ⟨entryCluster (fs.block sector) offset,
        entrySize (fs.block sector) offset, entryAttributes (fs.block sector) offset,
        some (sector, offset)⟩) := by
  rw [findFileInDirectory, slotsPerSector_eq layout.sector,
    (links.chain layout reliable).scan_eq layout reliable]
  cases answered : fs.firstAnswer (fun sector data =>
      (findName data name 16 0).map fun offset =>
        some (⟨entryCluster data offset, entrySize data offset, entryAttributes data offset,
          some (sector, offset)⟩ : Found)) (fs.directorySectors clusters) with
  | none =>
    refine Or.inl ⟨rfl, fun sector member => ?_⟩
    exact Option.map_eq_none_iff.mp (List.findSome?_eq_none_iff.mp answered sector member)
  | some answer =>
    obtain ⟨sector, member, told⟩ := List.exists_of_findSome?_eq_some answered
    obtain ⟨offset, found, rfl⟩ := Option.map_eq_some_iff.mp told
    exact Or.inr ⟨sector, member, offset, found, rfl⟩

/-- A name in the first sector of a directory is found there. -/
theorem findFileInDirectory_first {fs : FileSystem} (layout : fs.Layout) (reliable : fs.Reliable)
    {start offset : Nat} {name : Name}
    (found : findName (fs.block (fs.clusterSector start)) name 16 0 = some offset) :
    fs.findFileInDirectory start name =
      .ok (some ⟨entryCluster (fs.block (fs.clusterSector start)) offset,
        entrySize (fs.block (fs.clusterSector start)) offset,
        entryAttributes (fs.block (fs.clusterSector start)) offset,
        some (fs.clusterSector start, offset)⟩) := by
  rw [findFileInDirectory]
  refine scanChain_first _ _ _ layout.cluster (readSector_eq layout.sector reliable _) ?_ (by decide)
  rw [slotsPerSector_eq layout.sector, found]
  rfl

/-- The slots of the first sector in front of the position of a free slot are in use. -/
theorem findFreeDirectoryEntry_live {fs : FileSystem} (layout : fs.Layout) (reliable : fs.Reliable)
    {start slot : Nat} (small : slot < 16)
    (found : fs.findFreeDirectoryEntry start = .ok (some (slotSize * slot))) :
    ∀ earlier < slot, freeByte (fs.block (fs.clusterSector start) (slotSize * earlier)) = false := by
  intro earlier below
  -- Either the first sector is full, or the slot is its first free one.
  cases first : findFree (fs.block (fs.clusterSector start)) 16 0 with
  | none =>
    have used := findFree_none first (Nat.lt_trans below small)
    rwa [Nat.zero_add] at used
  | some offset =>
    have scan := scanChain_first (fun _ data => (findFree data fs.slotsPerSector 0).map some) none none
      layout.cluster (readSector_eq layout.sector reliable (fs.clusterSector start))
      (by rw [slotsPerSector_eq layout.sector, first]; rfl) (show 0 < walkSteps by decide)
    rw [findFreeDirectoryEntry, scan] at found
    obtain ⟨slot', -, place, -, before⟩ := findFree_some first
    have equal := Option.some.inj (Except.ok.inj found)
    have used := before earlier (by simp only [slotSize] at *; omega)
    rwa [Nat.zero_add] at used

end FileSystem

end Pocky
