import Pocky.Memory.VirtualMemoryLaws

/-! Page tables as any calls leave them, also where a frame was missing for a table. -/

namespace Pocky

open PageTableEntry VirtualMemoryManager

/-- The entry left behind when no frame is there for a table: present, and pointing to null. -/
def nullEntry : PageTableEntry := pointTo emptyEntry 0#64 true

/-- That entry is present and ordinary, and shows address zero to code and hardware. -/
theorem nullEntry_spec : nullEntry.present = true ∧ nullEntry.hugePage = false ∧
    nullEntry.address = 0#64 ∧ nullEntry.frameBits = 0#64 := by
  -- It is a constant.
  decide

namespace VirtualMemoryManager

/-- The state with the entries at some places emptied. -/
def without (vmm : VirtualMemoryManager) (broken : List Nat) : VirtualMemoryManager :=
  { vmm with memory := fun place => if place ∈ broken then emptyEntry else vmm.memory place }

/-- The state after a table could not be created: the null page is zeroed, and the entry points there. -/
def breakEntry (vmm : VirtualMemoryManager) (addr index : Nat) : VirtualMemoryManager :=
  (vmm.clearTable 0).writeEntry addr index nullEntry

/-- The steps of the walk to a page from a table that many levels above the last. -/
def walkDown (page : Nat) (create : Bool) :
    Nat → VirtualMemoryManager → Nat → Nat × VirtualMemoryManager
  | 0, vmm, table => (table, vmm)
  | levels + 1, vmm, table =>
    let (next, vmm) := vmm.getNextLevel table (page / 512 ^ (levels + 1) % 512) create
    if next = 0 then (0, vmm) else walkDown page create levels vmm next

/-- How many tables are missing on the way to a page from a table that many levels above the last. -/
def missingBelow (vmm : VirtualMemoryManager) (page : Nat) : Nat → Nat → Nat
  | 0, _ => 0
  | levels + 1, table =>
    let entry := vmm.readEntry table (page / 512 ^ (levels + 1) % 512)
    if !entry.present then levels + 1
    else if entry.address.toNat = 0 then 0
    else missingBelow vmm page levels entry.address.toNat

/-- How many tables are missing on the way to the page of an address. -/
def missingTables (vmm : VirtualMemoryManager) (virtualAddr : BitVec 64) : Nat :=
  vmm.missingBelow (pageNumber virtualAddr) 3 vmm.pml4

end VirtualMemoryManager

/-- The walk to the last table of an address takes the steps one after the other. -/
theorem walk_eq_walkDown (vmm : VirtualMemoryManager) (virtualAddr : BitVec 64) (create : Bool) :
    vmm.walk (virtualAddr &&& pageMask) create =
      walkDown (pageNumber virtualAddr) create 3 vmm vmm.pml4 := by
  obtain ⟨first, second, third, -⟩ := tableIndex_pageNumber virtualAddr
  obtain ⟨small, -⟩ := PageTree.pageNumber_parts virtualAddr
  -- The last step is the only one after which the null pointer is not asked for.
  have last : ∀ result : Nat × VirtualMemoryManager,
      (if result.1 = 0 then (0, result.2) else (result.1, result.2)) = result := by
    intro result
    split
    · rename_i zero
      rw [← zero]
    · rfl
  rw [← Nat.mod_eq_of_lt small] at first
  simp only [walk, walkDown, first, second, third, Nat.zero_add, Nat.reduceAdd, Nat.pow_one, last]

/-- Memory after an entry has been stored. -/
theorem memory_writeEntry (vmm : VirtualMemoryManager) (table index : Nat) (entry : PageTableEntry)
    (place : Nat) : (vmm.writeEntry table index entry).memory place =
      if place = table + 8 * index then entry else vmm.memory place :=
  Function.update_apply _ _ _ _

/-- Memory after the page of a table has been zeroed. -/
theorem memory_clearTable (vmm : VirtualMemoryManager) (table place : Nat) :
    (vmm.clearTable table).memory place =
      if table ≤ place ∧ place < table + 4096 then emptyEntry else vmm.memory place := rfl

/-- Memory after a table has been hung into an entry. -/
theorem memory_hangTable (vmm : VirtualMemoryManager) (frame : Nat) (rest : List Nat) (addr index : Nat)
    (entry : PageTableEntry) (place : Nat) :
    (PageTree.hangTable vmm frame rest addr index entry).memory place =
      if place = addr + 8 * index then entry
      else if frame ≤ place ∧ place < frame + 4096 then emptyEntry else vmm.memory place := by
  -- The frame is zeroed first.
  rw [PageTree.hangTable, memory_writeEntry]
  rfl

/-- Memory with the entries at some places emptied. -/
theorem memory_without (vmm : VirtualMemoryManager) (broken : List Nat) (place : Nat) :
    (vmm.without broken).memory place = if place ∈ broken then emptyEntry else vmm.memory place := rfl

/--
Page tables with some entries broken by a missing frame.

Without the broken entries they are a tree, in which code and hardware read every entry alike.
-/
structure PageTables (vmm : VirtualMemoryManager) (table : Nat → Nat → Option Nat)
    (broken : List Nat) : Prop where
  /-- Without the broken entries the tables form a tree. -/
  tree : ∃ pages, PageTree 8 (vmm.without broken) table pages
  /-- The tables of the first large pages are there. -/
  low : (table 1 0).isSome ∧ (table 2 0).isSome
  /-- Code and hardware read the other entries alike. -/
  clean : AllClean 8 (vmm.without broken) table
  /-- A broken entry is one of an upper table, and points to null. -/
  nulls : ∀ place ∈ broken, vmm.memory place = nullEntry ∧
    ∃ level number addr index, level < 3 ∧ table level number = some addr ∧ index < 512 ∧
      place = addr + 8 * index
  /-- The null page was zeroed with the first of them. -/
  blank : broken ≠ [] → ∀ place < 4096, vmm.memory place = emptyEntry

/-- An address lies in the frame of one of the tables. -/
def InTables (table : Nat → Nat → Option Nat) (place : Nat) : Prop :=
  ∃ level number addr, table level number = some addr ∧ addr ≤ place ∧ place < addr + 4096

/-- What a step does to the tables: some are added, and nothing present changes. -/
structure Grown (vmm : VirtualMemoryManager) (table : Nat → Nat → Option Nat)
    (after : VirtualMemoryManager) (table' : Nat → Nat → Option Nat) : Prop where
  /-- No table goes. -/
  grow : ∀ level number addr, table level number = some addr → table' level number = some addr
  /-- New tables are made of frames from the allocator. -/
  taken : ∃ taken, vmm.frames = taken ++ after.frames ∧
    ∀ level number addr, table' level number = some addr → table level number = some addr ∨ addr ∈ taken
  /-- Entries that are present stay. -/
  kept : ∀ level number addr index, table level number = some addr → index < 512 →
    (vmm.readEntry addr index).present = true → after.readEntry addr index = vmm.readEntry addr index
  /-- Memory outside the tables and the null page stays. -/
  outside : ∀ place, 4096 ≤ place → ¬ InTables table' place → after.memory place = vmm.memory place

namespace Grown

variable {vmm after last : VirtualMemoryManager} {table table' table'' : Nat → Nat → Option Nat}

/-- Doing nothing. -/
theorem refl (vmm : VirtualMemoryManager) (table : Nat → Nat → Option Nat) :
    Grown vmm table vmm table :=
  ⟨fun _ _ _ here => here, ⟨[], rfl, fun _ _ _ here => Or.inl here⟩, fun _ _ _ _ _ _ _ => rfl,
    fun _ _ _ => rfl⟩

/-- One step after another. -/
theorem trans (first : Grown vmm table after table') (second : Grown after table' last table'') :
    Grown vmm table last table'' := by
  refine ⟨fun level number addr here => second.grow _ _ _ (first.grow _ _ _ here), ?_, ?_, ?_⟩
  · -- The frames taken add up.
    obtain ⟨taken₁, split₁, new₁⟩ := first.taken
    obtain ⟨taken₂, split₂, new₂⟩ := second.taken
    refine ⟨taken₁ ++ taken₂, by rw [split₁, split₂, List.append_assoc], ?_⟩
    intro level number addr here
    rcases new₂ level number addr here with here | member
    · rcases new₁ level number addr here with here | member
      · exact Or.inl here
      · exact Or.inr (List.mem_append_left _ member)
    · exact Or.inr (List.mem_append_right _ member)
  · -- An entry kept by the first step is still present for the second.
    intro level number addr index here inside present
    have same := first.kept level number addr index here inside present
    rw [second.kept level number addr index (first.grow _ _ _ here) inside (by rw [same]; exact present),
      same]
  · -- A place outside the tables was outside them before.
    intro place high apart
    have earlier : ¬ InTables table' place := by
      rintro ⟨level, number, addr, here, within⟩
      exact apart ⟨level, number, addr, second.grow _ _ _ here, within⟩
    rw [second.outside place high apart, first.outside place high earlier]

/-- Filling an entry of a table that was empty changes nothing else. -/
theorem fill {level number addr index : Nat} (here : table level number = some addr)
    (inside : index < 512) (absent : (vmm.readEntry addr index).present = false)
    (entry : PageTableEntry) :
    Grown vmm table (vmm.writeEntry addr index entry) table := by
  refine ⟨fun _ _ _ same => same, ⟨[], rfl, fun _ _ _ same => Or.inl same⟩, ?_, ?_⟩
  · -- What was present is another entry.
    intro level' number' addr' index' _ _ shown
    have other : addr' + 8 * index' ≠ addr + 8 * index := by
      intro same
      rw [readEntry, same] at shown
      rw [readEntry, shown] at absent
      cases absent
    rw [readEntry, memory_writeEntry, if_neg other, readEntry]
  · intro place _ apart
    have other : place ≠ addr + 8 * index := by
      rintro rfl
      exact apart ⟨level, number, addr, here, by omega, by omega⟩
    rw [memory_writeEntry, if_neg other]

end Grown

namespace PageTables

variable {vmm : VirtualMemoryManager} {table : Nat → Nat → Option Nat} {broken : List Nat}

/-- A table lies in a frame of its own, above the null page. -/
theorem placed (tables : PageTables vmm table broken) {level number addr : Nat}
    (here : table level number = some addr) : TableFrame addr ∧ addr ∉ vmm.frames := by
  obtain ⟨pages, tree⟩ := tables.tree
  exact tree.placed level number addr here

/-- The frames to come are fit for tables and all different. -/
theorem supply (tables : PageTables vmm table broken) :
    vmm.frames.Nodup ∧ ∀ frame ∈ vmm.frames, TableFrame frame := by
  obtain ⟨pages, tree⟩ := tables.tree
  exact tree.supply

/-- The top table is the root. -/
theorem root (tables : PageTables vmm table broken) : table 0 0 = some vmm.pml4 := by
  obtain ⟨pages, tree⟩ := tables.tree
  exact tree.root

/-- No frame holds two tables. -/
theorem distinct (tables : PageTables vmm table broken) {level number level' number' addr : Nat}
    (here : table level number = some addr) (here' : table level' number' = some addr) :
    level = level' ∧ number = number' := by
  obtain ⟨pages, tree⟩ := tables.tree
  exact tree.distinct _ _ _ _ _ here here'

/-- An entry that is not broken is read as without the broken ones. -/
theorem readEntry_without (vmm : VirtualMemoryManager) {addr index : Nat}
    (whole : addr + 8 * index ∉ broken) :
    (vmm.without broken).readEntry addr index = vmm.readEntry addr index := if_neg whole

/-- A broken entry is read as empty without the broken ones. -/
theorem readEntry_without_broken (vmm : VirtualMemoryManager) {addr index : Nat}
    (member : addr + 8 * index ∈ broken) :
    (vmm.without broken).readEntry addr index = emptyEntry := if_pos member

/-- An entry of an upper table outside the large pages points to a table, is broken or is empty. -/
theorem entry_cases (tables : PageTables vmm table broken) {level number addr index : Nat}
    (upper : level < 3) (here : table level number = some addr) (inside : index < 512)
    (ordinary : ¬ (level = 2 ∧ 512 * number + index < 8)) :
    (table (level + 1) (512 * number + index) = some (vmm.readEntry addr index).address.toNat ∧
      (vmm.readEntry addr index).present = true ∧ (vmm.readEntry addr index).hugePage = false ∧
      (vmm.readEntry addr index).frameBits = (vmm.readEntry addr index).address ∧
      (vmm.readEntry addr index).address.toNat ≠ 0) ∨
    (table (level + 1) (512 * number + index) = none ∧ vmm.readEntry addr index = nullEntry ∧
      addr + 8 * index ∈ broken) ∨
    (table (level + 1) (512 * number + index) = none ∧ vmm.readEntry addr index = emptyEntry ∧
      addr + 8 * index ∉ broken) := by
  obtain ⟨pages, tree⟩ := tables.tree
  by_cases member : addr + 8 * index ∈ broken
  · -- Without the broken entries there is nothing here, so no table is below.
    have empty := readEntry_without_broken vmm member
    rcases tree.slot_cases upper here inside ordinary with ⟨absent, -⟩ | ⟨-, present, -⟩
    · exact Or.inr (Or.inl ⟨absent, (tables.nulls _ member).1, member⟩)
    · rw [empty, emptyEntry_flags.1] at present
      cases present
  · have same := readEntry_without vmm member
    have clean := tables.clean level number addr index here inside
    rw [Clean, if_neg ordinary, same] at clean
    rcases tree.slot_cases upper here inside ordinary with ⟨absent, empty⟩ | ⟨child, present, small⟩
    · exact Or.inr (Or.inr ⟨absent, same ▸ empty, member⟩)
    · rw [same] at child present small
      exact Or.inl ⟨child, present, small, clean.2 upper, (tables.placed child).1.1⟩

/-- A large page has the entry made at boot. -/
theorem largeEntry_here (tables : PageTables vmm table broken) {addr index : Nat}
    (here : table 2 0 = some addr) (few : index < 8) : vmm.readEntry addr index = largeEntry index := by
  have inside : index < 512 := by omega
  have clean := tables.clean 2 0 addr index here inside
  rw [Clean, if_pos ⟨rfl, by omega⟩, show 512 * 0 + index = index by omega] at clean
  by_cases member : addr + 8 * index ∈ broken
  · -- The entry of a large page is not empty, so it is not broken.
    rw [readEntry_without_broken vmm member] at clean
    have present : ∀ index < 8, (largeEntry index).present = true := by decide
    have wrong := present index few
    rw [← clean, emptyEntry_flags.1] at wrong
    cases wrong
  · rw [← clean, readEntry_without vmm member]

/-- A frame of a table and a frame of the allocator do not overlap. -/
theorem frame_apart (tables : PageTables vmm table broken) {level number addr frame index : Nat}
    (here : table level number = some addr) (inside : index < 512) (fresh : frame ∈ vmm.frames) :
    ¬ (frame ≤ addr + 8 * index ∧ addr + 8 * index < frame + 4096) := by
  -- Both are page-aligned, and they are different.
  obtain ⟨⟨-, aligned, -⟩, unowned⟩ := tables.placed here
  obtain ⟨-, aligned', -⟩ := tables.supply.2 frame fresh
  have other : addr ≠ frame := fun same => unowned (same ▸ fresh)
  omega

/-- Entries of tables lie above the null page. -/
theorem above_null (tables : PageTables vmm table broken) {level number addr : Nat}
    (here : table level number = some addr) (index : Nat) : 4096 ≤ addr + 8 * index := by
  -- A table's frame is not null, and page-aligned.
  obtain ⟨⟨nonzero, aligned, -⟩, -⟩ := tables.placed here
  omega

/-- Hanging a table where none is loses none. -/
theorem attach_grow {level number : Nat} (below : table level number = none) (frame : Nat) :
    ∀ level' number' addr, table level' number' = some addr →
      PageTree.attach table level number frame level' number' = some addr := by
  intro level' number' addr here
  rw [PageTree.attach, if_neg]
  · exact here
  · rintro ⟨rfl, rfl⟩
    rw [below] at here
    cases here

/-- Emptying the broken entries before or after a table is hung makes no difference. -/
theorem hangTable_without (vmm : VirtualMemoryManager) (frame : Nat) (rest : List Nat)
    {addr index : Nat} (whole : addr + 8 * index ∉ broken) (entry : PageTableEntry) :
    (PageTree.hangTable vmm frame rest addr index entry).without broken =
      PageTree.hangTable (vmm.without broken) frame rest addr index entry := by
  have memory : ((PageTree.hangTable vmm frame rest addr index entry).without broken).memory =
      (PageTree.hangTable (vmm.without broken) frame rest addr index entry).memory := by
    funext place
    simp only [memory_without, memory_hangTable]
    by_cases same : place = addr + 8 * index
    · rw [if_pos same, if_pos same, same, if_neg whole]
    · rw [if_neg same, if_neg same]
      split <;> split <;> rfl
  exact congrArg (fun memory => (⟨memory, vmm.pml4, rest⟩ : VirtualMemoryManager)) memory

/-- Hanging a fresh table into an empty entry. -/
theorem hang (tables : PageTables vmm table broken) {frame : Nat} {rest : List Nat}
    (next : vmm.frames = frame :: rest) {level number addr index : Nat} (upper : level < 3)
    (here : table level number = some addr) (inside : index < 512)
    (ordinary : ¬ (level = 2 ∧ 512 * number + index < 8))
    (below : table (level + 1) (512 * number + index) = none)
    (free : level + 1 = 2 → 8 ≤ 512 * (512 * number + index))
    (empty : vmm.readEntry addr index = emptyEntry) (whole : addr + 8 * index ∉ broken) :
    let after := PageTree.hangTable vmm frame rest addr index
      (pointTo emptyEntry (BitVec.ofNat 64 frame) true)
    let table' := PageTree.attach table (level + 1) (512 * number + index) frame
    PageTables after table' broken ∧ Grown vmm table after table' ∧
      (∀ index' < 512, after.readEntry frame index' = emptyEntry) ∧
      ∀ place < 4096, after.memory place = vmm.memory place := by
  intro after table'
  obtain ⟨pages, tree⟩ := tables.tree
  have fresh : frame ∈ vmm.frames := next ▸ List.mem_cons_self
  obtain ⟨nonzero, aligned, bounded⟩ := tables.supply.2 frame fresh
  obtain ⟨present, small, address⟩ := pointTo_spec emptyEntry_flags.2 (BitVec.ofNat 64 frame) true
  have high := tables.above_null here index
  -- What the two writes leave alone.
  have kept : ∀ place, ¬ (frame ≤ place ∧ place < frame + 4096) → place ≠ addr + 8 * index →
      after.memory place = vmm.memory place := by
    intro place apart other
    simp only [after, memory_hangTable, if_neg other, if_neg apart]
  have grow : ∀ level' number' addr', table level' number' = some addr' →
      table' level' number' = some addr' := attach_grow below frame
  have commutes : after.without broken = PageTree.hangTable (vmm.without broken) frame rest addr index
      (pointTo emptyEntry (BitVec.ofNat 64 frame) true) :=
    hangTable_without vmm frame rest whole _
  have emptied : (vmm.without broken).readEntry addr index = emptyEntry := by
    rw [readEntry_without vmm whole, empty]
  refine ⟨⟨⟨pages, ?_⟩, ?_, ?_, ?_, ?_⟩, ⟨grow, ⟨[frame], next, ?_⟩, ?_, ?_⟩, ?_, ?_⟩
  · rw [commutes]
    exact tree.hang next upper here inside below ordinary free present small
      (by rw [address, tableAddress_masked aligned bounded])
  · exact ⟨PageTree.isSome_of_grow grow tables.low.1, PageTree.isSome_of_grow grow tables.low.2⟩
  · rw [commutes]
    exact tree.clean_hang tables.clean next here inside below free (clean_pointTo ordinary bounded true)
  · -- Broken entries are neither in the fresh frame nor the entry written.
    intro place member
    obtain ⟨null, level', number', addr', index', upper', here', inside', rfl⟩ := tables.nulls place member
    refine ⟨?_, level', number', addr', index', upper', grow _ _ _ here', inside', rfl⟩
    rw [kept _ (tables.frame_apart here' inside' fresh) fun same => whole (same ▸ member)]
    exact null
  · intro some place low
    rw [kept place (by omega) (by omega)]
    exact tables.blank some place low
  · intro level' number' addr' here'
    change PageTree.attach table (level + 1) (512 * number + index) frame level' number' = _ at here'
    unfold PageTree.attach at here'
    split at here'
    · cases here'
      exact Or.inr (List.mem_singleton_self _)
    · exact Or.inl here'
  · -- The entry written was empty.
    intro level' number' addr' index' here' inside' shown
    refine kept _ (tables.frame_apart here' inside' fresh) fun same => ?_
    rw [readEntry, same] at shown
    rw [show vmm.memory (addr + 8 * index) = emptyEntry from empty, emptyEntry_flags.1] at shown
    cases shown
  · -- Both writes lie in frames of tables.
    intro place _ apart
    refine kept place (fun within => apart ⟨level + 1, 512 * number + index, frame, ?_, within⟩) ?_
    · exact if_pos ⟨rfl, rfl⟩
    · rintro rfl
      exact apart ⟨level, number, addr, grow _ _ _ here, by omega, by omega⟩
  · -- The fresh frame is zeroed, and the entry written lies elsewhere.
    intro index' inside'
    obtain ⟨⟨-, aligned', -⟩, unowned⟩ := tables.placed here
    have other : frame + 8 * index' ≠ addr + 8 * index := by
      intro same
      obtain ⟨rfl, -⟩ := PageTree.entry_apart aligned aligned' inside' inside same
      exact unowned fresh
    simp only [after, readEntry, memory_hangTable, if_neg other]
    exact if_pos (by omega)
  · intro place low
    exact kept place (by omega) (by omega)

/-- Failing to hang a table into an empty entry. -/
theorem breaks (tables : PageTables vmm table broken) {level number addr index : Nat} (upper : level < 3)
    (here : table level number = some addr) (inside : index < 512)
    (empty : vmm.readEntry addr index = emptyEntry) (whole : addr + 8 * index ∉ broken) :
    PageTables (vmm.breakEntry addr index) table ((addr + 8 * index) :: broken) ∧
      Grown vmm table (vmm.breakEntry addr index) table := by
  obtain ⟨pages, tree⟩ := tables.tree
  have high := tables.above_null here index
  -- What the two writes leave alone.
  have kept : ∀ place, 4096 ≤ place → place ≠ addr + 8 * index →
      (vmm.breakEntry addr index).memory place = vmm.memory place := by
    intro place above other
    rw [breakEntry, memory_writeEntry, if_neg other, memory_clearTable, if_neg (by omega)]
  have cleared : ∀ place < 4096, (vmm.breakEntry addr index).memory place = emptyEntry := by
    intro place low
    rw [breakEntry, memory_writeEntry, if_neg (by omega), memory_clearTable, if_pos (by omega)]
  -- Without the new broken entry only the null page has changed.
  have memory : ((vmm.breakEntry addr index).without ((addr + 8 * index) :: broken)).memory =
      ((vmm.without broken).clearTable 0).memory := by
    funext place
    rw [memory_without, memory_clearTable, memory_without]
    by_cases low : place < 4096
    · rw [cleared place low, if_pos (show 0 ≤ place ∧ place < 0 + 4096 by omega)]
      split <;> rfl
    · rw [if_neg (show ¬ (0 ≤ place ∧ place < 0 + 4096) by omega)]
      by_cases same : place = addr + 8 * index
      · rw [same, if_pos List.mem_cons_self, if_neg whole]
        exact empty.symm
      · rw [kept place (by omega) same]
        simp only [List.mem_cons, same, false_or]
  have commutes : (vmm.breakEntry addr index).without ((addr + 8 * index) :: broken) =
      (vmm.without broken).clearTable 0 := by
    exact congrArg (fun memory => (⟨memory, vmm.pml4, vmm.frames⟩ : VirtualMemoryManager)) memory
  refine ⟨⟨⟨pages, ?_⟩, tables.low, ?_, ?_, ?_⟩,
    ⟨fun _ _ _ same => same, ⟨[], rfl, fun _ _ _ same => Or.inl same⟩, ?_, ?_⟩⟩
  · rw [commutes]
    exact tree.clearFrame rfl fun level' number' here' => (tables.placed here').1.1 rfl
  · -- No table lies in the null page.
    rw [commutes]
    intro level' number' addr' index' here' inside'
    have above := tables.above_null here' index'
    rw [readEntry, memory_clearTable, if_neg (by omega)]
    exact tables.clean level' number' addr' index' here' inside'
  · -- The new entry is broken, and the others are left alone.
    intro place member
    by_cases same : place = addr + 8 * index
    · refine ⟨?_, level, number, addr, index, upper, here, inside, same⟩
      rw [same, breakEntry, memory_writeEntry, if_pos rfl]
    · obtain ⟨null, level', number', addr', index', upper', here', inside', rfl⟩ :=
        tables.nulls place ((List.mem_cons.mp member).resolve_left same)
      refine ⟨?_, level', number', addr', index', upper', here', inside', rfl⟩
      rw [kept _ (tables.above_null here' index') same]
      exact null
  · exact fun _ place low => cleared place low
  · -- The entry written was empty.
    intro level' number' addr' index' here' inside' shown
    refine kept _ (tables.above_null here' index') fun same => ?_
    rw [readEntry, same] at shown
    rw [show vmm.memory (addr + 8 * index) = emptyEntry from empty, emptyEntry_flags.1] at shown
    cases shown
  · intro place above apart
    refine kept place above ?_
    rintro rfl
    exact apart ⟨level, number, addr, here, by omega, by omega⟩

/-- A broken entry lies in an upper table, so it is none of a last one. -/
theorem leaf_whole (tables : PageTables vmm table broken) {number addr index : Nat}
    (here : table 3 number = some addr) (inside : index < 512) : addr + 8 * index ∉ broken := by
  intro member
  obtain ⟨-, level, number', addr', index', upper, here', inside', same⟩ := tables.nulls _ member
  obtain ⟨⟨-, aligned, -⟩, -⟩ := tables.placed here
  obtain ⟨⟨-, aligned', -⟩, -⟩ := tables.placed here'
  obtain ⟨rfl, -⟩ := PageTree.entry_apart aligned aligned' inside inside' same
  have last := (tables.distinct here here').1
  omega

/-- Storing an entry of a last table. -/
theorem writeLeaf (tables : PageTables vmm table broken) {number addr index : Nat}
    (here : table 3 number = some addr) (inside : index < 512) {entry : PageTableEntry}
    {page : Option (BitVec 64)} (leaf : Leaf entry page) (small : entry.hugePage = false) :
    PageTables (vmm.writeEntry addr index entry) table broken := by
  obtain ⟨pages, tree⟩ := tables.tree
  have whole : ∀ place ∈ broken, place ≠ addr + 8 * index := by
    rintro place member rfl
    exact tables.leaf_whole here inside member
  have commutes : (vmm.writeEntry addr index entry).without broken =
      (vmm.without broken).writeEntry addr index entry := by
    have memory : ((vmm.writeEntry addr index entry).without broken).memory =
        ((vmm.without broken).writeEntry addr index entry).memory := by
      funext place
      simp only [memory_without, memory_writeEntry]
      by_cases same : place = addr + 8 * index
      · rw [if_pos same, if_pos same, if_neg fun member => whole place member same]
      · rw [if_neg same, if_neg same]
    exact congrArg (fun memory => (⟨memory, vmm.pml4, vmm.frames⟩ : VirtualMemoryManager)) memory
  refine ⟨⟨Function.update pages (512 * number + index) page, ?_⟩, tables.low, ?_, ?_, ?_⟩
  · rw [commutes]
    exact tree.writeLeaf here inside leaf
  · rw [commutes]
    intro level' number' addr' index' here' inside'
    by_cases same : addr' + 8 * index' = addr + 8 * index
    · -- The entry written is one of a last table.
      obtain ⟨⟨-, aligned, -⟩, -⟩ := tables.placed here
      obtain ⟨⟨-, aligned', -⟩, -⟩ := tables.placed here'
      obtain ⟨rfl, rfl⟩ := PageTree.entry_apart aligned' aligned inside' inside same
      obtain ⟨rfl, rfl⟩ := tables.distinct here' here
      rw [readEntry, memory_writeEntry, if_pos rfl, Clean, if_neg (by omega)]
      exact ⟨small, fun wrong => absurd wrong (by decide)⟩
    · rw [readEntry, memory_writeEntry, if_neg same]
      exact tables.clean level' number' addr' index' here' inside'
  · intro place member
    obtain ⟨null, found⟩ := tables.nulls place member
    rw [memory_writeEntry, if_neg (whole place member)]
    exact ⟨null, found⟩
  · intro some place low
    have high := tables.above_null here index
    rw [memory_writeEntry, if_neg (by omega)]
    exact tables.blank some place low

/-- Following an entry that is present and not null. -/
theorem getNextLevel_present {addr index : Nat} (present : (vmm.readEntry addr index).present = true)
    (create : Bool) :
    vmm.getNextLevel addr index create = ((vmm.readEntry addr index).address.toNat, vmm) := by
  simp [getNextLevel, present]

/-- Following a broken entry. -/
theorem getNextLevel_broken {addr index : Nat} (null : vmm.readEntry addr index = nullEntry)
    (create : Bool) : vmm.getNextLevel addr index create = (0, vmm) := by
  -- It is present, and shows address zero.
  obtain ⟨present, -, address, -⟩ := nullEntry_spec
  rw [getNextLevel_present (by rw [null]; exact present), null, address]
  rfl

/-- Creating a table in an empty entry of a table. -/
theorem getNextLevel_hangs (tables : PageTables vmm table broken) {frame : Nat} {rest : List Nat}
    (next : vmm.frames = frame :: rest) {level number addr index : Nat}
    (here : table level number = some addr) (inside : index < 512)
    (empty : vmm.readEntry addr index = emptyEntry) :
    vmm.getNextLevel addr index true = (frame, PageTree.hangTable vmm frame rest addr index
      (pointTo emptyEntry (BitVec.ofNat 64 frame) true)) := by
  have fresh : frame ∈ vmm.frames := next ▸ List.mem_cons_self
  obtain ⟨-, aligned, bounded⟩ := tables.supply.2 frame fresh
  obtain ⟨present, -, address⟩ := pointTo_spec emptyEntry_flags.2 (BitVec.ofNat 64 frame) true
  -- Zeroing the fresh frame leaves the entry empty, and then it is made to point there.
  have still : ({ vmm with frames := rest }.clearTable frame).readEntry addr index = emptyEntry := by
    rw [readEntry, memory_clearTable, if_neg (tables.frame_apart here inside fresh)]
    exact empty
  have created : vmm.createPageTable = (frame, { vmm with frames := rest }.clearTable frame) := by
    simp [createPageTable, nextFrame, next]
  have written : (PageTree.hangTable vmm frame rest addr index
      (pointTo emptyEntry (BitVec.ofNat 64 frame) true)).readEntry addr index =
      pointTo emptyEntry (BitVec.ofNat 64 frame) true := by
    rw [readEntry, memory_hangTable, if_pos rfl]
  simp only [getNextLevel, empty, emptyEntry_flags.1, Bool.not_false, Bool.and_self, if_true, created,
    still]
  rw [← PageTree.hangTable, written, present, address, tableAddress_masked aligned bounded]
  rfl

/-- Creating a table in an empty entry of a table without a frame to make it of. -/
theorem getNextLevel_breaks (tables : PageTables vmm table broken) (short : vmm.frames = [])
    {level number addr index : Nat} (here : table level number = some addr)
    (empty : vmm.readEntry addr index = emptyEntry) :
    vmm.getNextLevel addr index true = (0, vmm.breakEntry addr index) := by
  have high := tables.above_null here index
  obtain ⟨present, -, address, -⟩ := nullEntry_spec
  -- The null page is zeroed as if it were a table, and the entry is made to point there.
  have still : (vmm.clearTable 0).readEntry addr index = emptyEntry := by
    rw [readEntry, memory_clearTable, if_neg (by omega)]
    exact empty
  have created : vmm.createPageTable = (0, vmm.clearTable 0) := by
    simp [createPageTable, nextFrame, short]
  have written : (vmm.breakEntry addr index).readEntry addr index = nullEntry := by
    rw [readEntry, breakEntry, memory_writeEntry, if_pos rfl]
  simp only [getNextLevel, empty, emptyEntry_flags.1, Bool.not_false, Bool.and_self, if_true, created,
    still]
  rw [show pointTo emptyEntry (BitVec.ofNat 64 0) true = nullEntry from rfl, ← breakEntry, written,
    present, address]
  rfl

end PageTables

end Pocky
