import Pocky.Memory.AddressLookup

/-! What mapping a page leaves behind when the frames for its tables run out. -/

namespace Pocky

open PageTableEntry VirtualMemoryManager

namespace VirtualMemoryManager

/-- A frame has been handed out between two states. -/
def Handed (vmm after : VirtualMemoryManager) (frame : Nat) : Prop :=
  frame ∈ vmm.frames ∧ frame ∉ after.frames

/-- A frame holds one of the tables. -/
def HoldsTable (table : Nat → Nat → Option Nat) (frame : Nat) : Prop :=
  ∃ level number, table level number = some frame

/-- The physical address a page mapped to another is to have. -/
def mappedAddress (virtualAddr physicalAddr : BitVec 64) : BitVec 64 :=
  frameBits physicalAddr ||| (virtualAddr &&& 0xFFF#64)

/-- Entries present before are unchanged, and new ones point to tables that were allocated and zeroed. -/
structure AddsOnlyTables (vmm after : VirtualMemoryManager) (table : Nat → Nat → Option Nat) : Prop where
  /-- Entries present before are unchanged. -/
  kept : ∀ frame index, HoldsTable table frame → index < 512 →
    (vmm.readEntry frame index).present = true → after.readEntry frame index = vmm.readEntry frame index
  /-- Every other entry that is present points to a table allocated and zeroed meanwhile. -/
  added : ∀ frame index, HoldsTable table frame ∨ vmm.Handed after frame → index < 512 →
    (after.readEntry frame index).present = true →
    HoldsTable table frame ∧ (vmm.readEntry frame index).present = true ∨
    vmm.Handed after (after.readEntry frame index).address.toNat ∧
      ∀ other < 512, after.readEntry (after.readEntry frame index).address.toNat other = emptyEntry

/-- Mapping a page installs its translation or adds only tables, and nothing is written through null. -/
def MapsSafely (vmm : VirtualMemoryManager) (table : Nat → Nat → Option Nat)
    (virtualAddr physicalAddr : BitVec 64) (writable : Bool) : Prop :=
  let after := vmm.mapPage virtualAddr physicalAddr writable
  (after.translate virtualAddr = some (mappedAddress virtualAddr physicalAddr) ∨
    vmm.AddsOnlyTables after table) ∧
  ∀ place < 4096, after.memory place = vmm.memory place

/-- The walk of an address comes to a table through the entry of a large page, and an entry gets lost there. -/
def Strays (vmm : VirtualMemoryManager) (table : Nat → Nat → Option Nat)
    (virtualAddr physicalAddr : BitVec 64) : Prop :=
  (512 ≤ pageNumber virtualAddr ∧ pageNumber virtualAddr < 4096) ∧
  HoldsTable table (pageNumber virtualAddr / 512 * 0x200000) ∧
  (vmm.strayEntry virtualAddr).present = false ∧
  vmm.translate virtualAddr ≠ some (mappedAddress virtualAddr physicalAddr)

end VirtualMemoryManager

/-- Doing nothing adds only tables. -/
theorem addsOnlyTables_refl (vmm : VirtualMemoryManager) (table : Nat → Nat → Option Nat) :
    vmm.AddsOnlyTables vmm table := by
  refine ⟨fun _ _ _ _ _ => rfl, ?_⟩
  rintro frame index (holds | handed) _ present
  · exact Or.inl ⟨holds, present⟩
  · exact absurd handed.1 handed.2

/-- An entry made to point somewhere is present, whatever it held. -/
theorem pointTo_present (entry : PageTableEntry) (addr : BitVec 64) (writable : Bool) :
    (pointTo entry addr writable).present = true := by
  -- Later flags leave the first bit alone.
  rw [present, flag_eq_getLsbD _ (by decide), pointTo, setUser, getLsbD_setFlag _ _ _ (by decide),
    if_neg (by decide), setWritable, getLsbD_setFlag _ _ _ (by decide), if_neg (by decide), setPresent,
    getLsbD_setFlag _ _ _ (by decide), if_pos rfl]

/-- An empty entry pointed to a page shows the hardware the frame of that page. -/
theorem frameBits_pointTo (physicalAddr : BitVec 64) (writable : Bool) :
    (pointTo emptyEntry (physicalAddr &&& pageMask) writable).frameBits =
      frameBits physicalAddr := by
  -- The flags and the page offset are hidden.
  apply BitVec.eq_of_getLsbD_eq
  intro i inside
  rw [frameBits, frameBits, BitVec.getLsbD_and, BitVec.getLsbD_and, getLsbD_frameMask i inside]
  by_cases high : 12 ≤ i
  · rw [getLsbD_pointTo_high emptyEntry_flags.2 _ _ inside high, BitVec.getLsbD_and,
      (getLsbD_masks i inside).2.2, decide_eq_true high, Bool.and_true]
  · rw [decide_eq_false fun both => high both.1, Bool.and_false, Bool.and_false]

namespace PageTables

variable {vmm : VirtualMemoryManager} {table : Nat → Nat → Option Nat} {broken : List Nat}

/-- Outside the large pages mapping is safe exactly if the frames are enough for the missing tables. -/
theorem mapPage_safe_ordinary (tables : PageTables vmm table broken) {virtualAddr : BitVec 64}
    (ordinary : 4096 ≤ pageNumber virtualAddr) (physicalAddr : BitVec 64) (writable : Bool) :
    vmm.MapsSafely table virtualAddr physicalAddr writable ↔
      vmm.missingTables virtualAddr ≤ vmm.frames.length := by
  have outcome := tables.mapPage_outcome ordinary physicalAddr writable
  rw [MapsSafely]
  generalize vmm.mapPage virtualAddr physicalAddr writable = after at outcome
  cases outcome with
  | nothing none =>
    exact ⟨fun _ => by omega, fun _ => ⟨Or.inr (addsOnlyTables_refl vmm table), fun _ _ => rfl⟩⟩
  | filled tables' grown here enough nullPage entry =>
    refine ⟨fun _ => enough, fun _ => ⟨Or.inl ?_, nullPage⟩⟩
    -- The hardware finds the new entry.
    rw [tables'.translate_last ordinary here, entry, pointTo_present, if_pos rfl, frameBits_pointTo,
      mappedAddress]
  | @short after table' place tables' grown absent few fresh =>
    refine ⟨fun safe => ?_, fun enough => absurd enough (by omega)⟩
    obtain ⟨present, -, address, -⟩ := nullEntry_spec
    rcases safe.1 with installed | adds
    · rw [tables'.translate_none ordinary absent] at installed
      cases installed
    · -- The entry that broke is present, and points to no table.
      obtain ⟨null, level, number, addr, index, -, here, inside, rfl⟩ :=
        tables'.nulls place List.mem_cons_self
      obtain ⟨taken, split, new⟩ := grown.taken
      have entry : after.readEntry addr index = nullEntry := null
      have known : HoldsTable table addr ∨ vmm.Handed after addr := by
        rcases new level number addr here with old | member
        · exact Or.inl ⟨level, number, old⟩
        · exact Or.inr ⟨split ▸ List.mem_append_left _ member, (tables'.placed here).2⟩
      rcases adds.added addr index known inside (by rw [entry]; exact present) with
        ⟨⟨level', number', old⟩, before⟩ | ⟨handed, -⟩
      · rw [fresh level' number' addr index old inside rfl] at before
        cases before
      · rw [entry, address] at handed
        exact absurd rfl (tables.supply.2 _ handed.1).1

/-- Under a large page an entry is stored in the page, unless the word there looks present. -/
theorem mapPage_large (tables : PageTables vmm table broken) {virtualAddr : BitVec 64}
    (high : 512 ≤ pageNumber virtualAddr) (large : pageNumber virtualAddr < 4096)
    (physicalAddr : BitVec 64) (writable : Bool) :
    vmm.mapPage virtualAddr physicalAddr writable =
      if (vmm.strayEntry virtualAddr).present then vmm
      else vmm.writeEntry (pageNumber virtualAddr / 512 * 0x200000) (pageNumber virtualAddr % 512)
        (pointTo (vmm.strayEntry virtualAddr) (physicalAddr &&& pageMask) writable) := by
  obtain ⟨-, -, -, last⟩ := tableIndex_pageNumber virtualAddr
  have nonzero : pageNumber virtualAddr / 512 * 0x200000 ≠ 0 := by omega
  have word : vmm.readEntry (pageNumber virtualAddr / 512 * 0x200000) (pageNumber virtualAddr % 512) =
      vmm.strayEntry virtualAddr := rfl
  simp only [mapPage, walk_eq_walkDown, (tables.walkDown_large large true).1, if_neg nonzero, last, word]
  cases (vmm.strayEntry virtualAddr).present <;> rfl

/-- Under a large page mapping is safe exactly if no table gets the entry. -/
theorem mapPage_safe_large (tables : PageTables vmm table broken) {virtualAddr : BitVec 64}
    (large : pageNumber virtualAddr < 4096) (physicalAddr : BitVec 64) (writable : Bool) :
    vmm.MapsSafely table virtualAddr physicalAddr writable ↔
      ¬ vmm.Strays table virtualAddr physicalAddr := by
  have still : vmm.mapPage virtualAddr physicalAddr writable = vmm →
      vmm.MapsSafely table virtualAddr physicalAddr writable := by
    intro same
    rw [MapsSafely, same]
    exact ⟨Or.inr (addsOnlyTables_refl vmm table), fun _ _ => rfl⟩
  by_cases high : 512 ≤ pageNumber virtualAddr
  case neg =>
    exact iff_of_true (still (tables.mapPage_low (Nat.lt_of_not_le high) _ _)) fun strays => high strays.1.1
  have stored := tables.mapPage_large high large physicalAddr writable
  cases present : (vmm.strayEntry virtualAddr).present with
  | true =>
    rw [present, if_pos rfl] at stored
    exact iff_of_true (still stored) fun strays => by rw [strays.2.2.1] at present; cases present
  | false =>
    rw [present, if_neg Bool.false_ne_true] at stored
    have shown := pointTo_present (vmm.strayEntry virtualAddr) (physicalAddr &&& pageMask) writable
    generalize pointTo (vmm.strayEntry virtualAddr) (physicalAddr &&& pageMask) writable = written
      at stored shown
    have inside : pageNumber virtualAddr % 512 < 512 := Nat.mod_lt _ (by decide)
    have nullPage : ∀ place < 4096, (vmm.mapPage virtualAddr physicalAddr writable).memory place =
        vmm.memory place := by
      intro place low
      rw [stored, memory_writeEntry, if_neg (by omega)]
    -- Entries of tables stay where they are present, since the word written was not.
    have kept : ∀ level number addr index, table level number = some addr → index < 512 →
        (vmm.readEntry addr index).present = true →
        (vmm.mapPage virtualAddr physicalAddr writable).readEntry addr index =
          vmm.readEntry addr index := by
      intro level number addr index _ _ before
      have other : addr + 8 * index ≠
          pageNumber virtualAddr / 512 * 0x200000 + 8 * (pageNumber virtualAddr % 512) := by
        intro same
        rw [readEntry, same, ← readEntry, ← strayEntry, present] at before
        cases before
      rw [stored, readEntry, memory_writeEntry, if_neg other, readEntry]
    have translated := tables.translate_large_of_kept large (show
      (vmm.mapPage virtualAddr physicalAddr writable).pml4 = vmm.pml4 by rw [stored]; rfl) kept
    rw [← tables.translate_large large] at translated
    rw [MapsSafely, translated, Strays, and_iff_left nullPage]
    by_cases holds : HoldsTable table (pageNumber virtualAddr / 512 * 0x200000)
    · -- The entry lost in a table points to none.
      have adds : ¬ vmm.AddsOnlyTables (vmm.mapPage virtualAddr physicalAddr writable) table := by
        intro adds
        have entry : (vmm.mapPage virtualAddr physicalAddr writable).readEntry
            (pageNumber virtualAddr / 512 * 0x200000) (pageNumber virtualAddr % 512) = written := by
          rw [stored, readEntry, memory_writeEntry, if_pos rfl]
        rcases adds.added _ _ (Or.inl holds) inside (by rw [entry]; exact shown) with
          ⟨-, before⟩ | ⟨⟨owned, gone⟩, -⟩
        · rw [← strayEntry, present] at before
          cases before
        · have frames : (vmm.mapPage virtualAddr physicalAddr writable).frames = vmm.frames := by
            rw [stored]
            rfl
          exact gone (frames ▸ owned)
      simp only [adds, or_false, holds, high, large, present, true_and, and_self, not_not, ne_eq]
    · -- No entry of a table has changed.
      refine iff_of_true (Or.inr ⟨?_, ?_⟩) fun strays => holds strays.2.1
      · rintro frame index ⟨level, number, here⟩ small before
        exact kept level number frame index here small before
      · rintro frame index (⟨level, number, here⟩ | handed) small after
        · have other : frame + 8 * index ≠
              pageNumber virtualAddr / 512 * 0x200000 + 8 * (pageNumber virtualAddr % 512) := by
            intro same
            obtain ⟨⟨-, aligned, -⟩, -⟩ := tables.placed here
            obtain ⟨rfl, -⟩ := PageTree.entry_apart aligned (by omega) small inside same
            exact holds ⟨level, number, here⟩
          rw [stored, readEntry, memory_writeEntry, if_neg other] at after
          exact Or.inl ⟨⟨level, number, here⟩, after⟩
        · rw [stored] at handed
          exact absurd handed.1 handed.2

end PageTables

/--
Mapping a page is safe exactly if the frames are enough, and no table is taken for a large page.

The tables may have entries broken earlier, and the allocator any number of frames left.
-/
theorem mapPage_safe_iff {vmm : VirtualMemoryManager} {table : Nat → Nat → Option Nat} {broken : List Nat}
    (tables : PageTables vmm table broken) (virtualAddr physicalAddr : BitVec 64) (writable : Bool) :
    vmm.MapsSafely table virtualAddr physicalAddr writable ↔
      vmm.missingTables virtualAddr ≤ vmm.frames.length ∧ ¬ vmm.Strays table virtualAddr physicalAddr := by
  by_cases ordinary : 4096 ≤ pageNumber virtualAddr
  · -- The walk meets no large page.
    rw [tables.mapPage_safe_ordinary ordinary, and_iff_left]
    exact fun strays => absurd ordinary (Nat.not_le.mpr strays.1.2)
  · -- No table is missing on the way to a large page.
    have large := Nat.lt_of_not_le ordinary
    rw [tables.mapPage_safe_large large, missingTables, (tables.walkDown_large large true).2,
      and_iff_right (Nat.zero_le _)]

/-- Memory with the firmware's interrupt vectors in the null page, and only the frames needed at boot. -/
def fourFrames : VirtualMemoryManager :=
  { memory := fun place => if place < 1024 then 0xF000FF53F000FF53#64 else emptyEntry
    pml4 := 0
    frames := [0x205000, 0x206000, 0x207000, 0x208000] }

/-- Those frames are fit for the tables built at boot. -/
theorem fourFrames_fit : fourFrames.frames.Nodup ∧ ∀ frame ∈ fourFrames.frames, TableFrame frame := by
  unfold TableFrame
  decide

/-- With no frame left a page of the first two megabytes is still mapped safely. -/
theorem mapPage_safe_iff_low : ∃ table, PageTables fourFrames.initializeTables table [] ∧
    (fourFrames.initializeTables.MapsSafely table 0x1000#64 0x1000#64 true ↔
      fourFrames.initializeTables.missingTables 0x1000#64 ≤ fourFrames.initializeTables.frames.length ∧
      ¬ fourFrames.initializeTables.Strays table 0x1000#64 0x1000#64) := by
  obtain ⟨table, tables, -⟩ := PageTables.boot rfl fourFrames_fit.1 fourFrames_fit.2
  exact ⟨table, tables, mapPage_safe_iff tables 0x1000#64 0x1000#64 true⟩

/-- With no frame left a page at one gigabyte is not mapped safely. -/
theorem mapPage_breaks_without_frame : ∃ table, PageTables fourFrames.initializeTables table [] ∧
    ¬ fourFrames.initializeTables.MapsSafely table 0x40000000#64 0x5000#64 true := by
  obtain ⟨table, tables, -⟩ := PageTables.boot rfl fourFrames_fit.1 fourFrames_fit.2
  refine ⟨table, tables, fun safe => ?_⟩
  -- The interrupt vectors have been overwritten.
  have overwritten : (fourFrames.initializeTables.mapPage 0x40000000#64 0x5000#64 true).memory 0 ≠
      fourFrames.initializeTables.memory 0 := by
    decide +kernel
  exact overwritten (safe.2 0 (by decide))

end Pocky
