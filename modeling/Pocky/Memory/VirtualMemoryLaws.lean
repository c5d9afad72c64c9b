import Pocky.Memory.Translation

/-! The page tables translate as a partial map from page numbers to physical pages. -/

namespace Pocky

open PageTableEntry VirtualMemoryManager

/-- The tables represent a partial map, with the first sixteen megabytes under large pages. -/
def Represents (vmm : VirtualMemoryManager) (pages : Nat → Option (BitVec 64)) : Prop :=
  ∃ table, PageTree 8 vmm table pages ∧ (table 1 0).isSome ∧ (table 2 0).isSome

/-- The walk to the last table of an address passes an entry for a large page. -/
def meetsHugePage (vmm : VirtualMemoryManager) (virtualAddr : BitVec 64) : Bool :=
  let virtualAddr := virtualAddr &&& pageMask
  let pml4Entry := vmm.readEntry vmm.pml4 (pml4Index virtualAddr)
  let pdptEntry := vmm.readEntry pml4Entry.address.toNat (pdptIndex virtualAddr)
  let pdEntry := vmm.readEntry pdptEntry.address.toNat (pdIndex virtualAddr)
  -- The walk goes on only through entries that are present.
  pml4Entry.present && (pml4Entry.hugePage ||
    pdptEntry.present && (pdptEntry.hugePage || pdEntry.present && pdEntry.hugePage))

namespace PageTree

variable {vmm : VirtualMemoryManager} {table : Nat → Nat → Option Nat}
  {pages : Nat → Option (BitVec 64)}

/-- The parts of a page number the three upper levels go by. -/
theorem pageNumber_parts (virtualAddr : BitVec 64) :
    pageNumber virtualAddr / 512 ^ 3 < 512 ∧
    512 * 0 + pageNumber virtualAddr / 512 ^ 3 = pageNumber virtualAddr / 512 ^ 3 ∧
    512 * (pageNumber virtualAddr / 512 ^ 3) + pageNumber virtualAddr / 512 ^ 2 % 512 =
      pageNumber virtualAddr / 512 ^ 2 ∧
    512 * (pageNumber virtualAddr / 512 ^ 2) + pageNumber virtualAddr / 512 % 512 =
      pageNumber virtualAddr / 512 ∧
    512 * (pageNumber virtualAddr / 512) + pageNumber virtualAddr % 512 =
      pageNumber virtualAddr := by
  -- A page number has thirty-six bits, nine for each level.
  have bounded : pageNumber virtualAddr < 2 ^ 36 := Nat.mod_lt _ (by decide)
  generalize pageNumber virtualAddr = page at bounded
  omega

/-- A walk that creates tables ends at the last table of the page. -/
theorem walk_ensure (tree : PageTree 8 vmm table pages) (low : (table 2 0).isSome)
    {virtualAddr : BitVec 64} (ordinary : 4096 ≤ pageNumber virtualAddr)
    (available : 3 ≤ vmm.frames.length) :
    ∃ pt vmm' table', vmm.walk (virtualAddr &&& pageMask) true = (pt, vmm') ∧ pt ≠ 0 ∧
      PageTree 8 vmm' table' pages ∧ table' 3 (pageNumber virtualAddr / 512) = some pt ∧
      (∀ level number addr, table level number = some addr → table' level number = some addr) ∧
      ∃ taken, vmm.frames = taken ++ vmm'.frames ∧ taken.length ≤ 3 ∧
        (∀ level number addr, table' level number = some addr → table level number = some addr ∨
          addr ∈ taken ∧ level ≤ 3 ∧ number = pageNumber virtualAddr / 512 ^ (4 - level)) ∧
        ∀ frame ∈ taken, ∃ level number, table' level number = some frame := by
  obtain ⟨first, second, third, -⟩ := tableIndex_pageNumber virtualAddr
  obtain ⟨small, top, middle, bottom, -⟩ := pageNumber_parts virtualAddr
  have inside₁ : pageNumber virtualAddr / 512 ^ 2 % 512 < 512 := Nat.mod_lt _ (by decide)
  have inside₂ : pageNumber virtualAddr / 512 % 512 < 512 := Nat.mod_lt _ (by decide)
  -- One step for each of the three upper levels.
  obtain ⟨pdpt, vmm₁, table₁, step₁, nonzero₁, tree₁, here₁, grow₁, taken₁, split₁, few₁, new₁,
      made₁⟩ :=
    tree.getNextLevel_ensure (by decide) tree.root small (fun both => absurd both.1 (by decide))
      (fun _ wrong => absurd wrong (by decide)) (by omega)
  rw [top] at here₁
  have left₁ := congrArg List.length split₁
  rw [List.length_append] at left₁
  obtain ⟨pd, vmm₂, table₂, step₂, nonzero₂, tree₂, here₂, grow₂, taken₂, split₂, few₂, new₂,
      made₂⟩ :=
    tree₁.getNextLevel_ensure (by decide) here₁ inside₁ (fun both => absurd both.1 (by decide))
      (by
        -- The table of the first large pages exists, so a missing one lies further up.
        intro absent _
        rw [middle] at absent ⊢
        by_contra few
        have zero : pageNumber virtualAddr / 512 ^ 2 = 0 := by omega
        obtain ⟨addr, there⟩ := Option.isSome_iff_exists.mp low
        rw [zero, grow₁ _ _ _ there] at absent
        cases absent)
      (by omega)
  rw [middle] at here₂
  have left₂ := congrArg List.length split₂
  rw [List.length_append] at left₂
  obtain ⟨pt, vmm₃, table₃, step₃, nonzero₃, tree₃, here₃, grow₃, taken₃, split₃, few₃, new₃,
      made₃⟩ :=
    tree₂.getNextLevel_ensure (by decide) here₂ inside₂ (by omega) (fun _ wrong => absurd wrong (by decide)) (by omega)
  rw [bottom] at here₃
  refine ⟨pt, vmm₃, table₃, ?_, nonzero₃, tree₃, here₃,
    fun level number addr here => grow₃ _ _ _ (grow₂ _ _ _ (grow₁ _ _ _ here)),
    taken₁ ++ taken₂ ++ taken₃, ?_, ?_, ?_, ?_⟩
  · simp only [walk, first, second, third, step₁, step₂, step₃, if_neg nonzero₁, if_neg nonzero₂]
  · rw [split₁, split₂, split₃]
    simp
  · simp only [List.length_append]
    omega
  · -- A new table is one of the three on the way to the page.
    intro level number addr here
    simp only [List.mem_append]
    rcases new₃ level number addr here with here | ⟨member, rfl, rfl⟩
    · rcases new₂ level number addr here with here | ⟨member, rfl, rfl⟩
      · rcases new₁ level number addr here with here | ⟨member, rfl, rfl⟩
        · exact Or.inl here
        · exact Or.inr ⟨Or.inl (Or.inl member), by decide, top⟩
      · exact Or.inr ⟨Or.inl (Or.inr member), by decide, middle⟩
    · exact Or.inr ⟨Or.inr member, by decide, by simpa using bottom⟩
  · -- Every frame taken has become a table, and no table goes again.
    intro frame member
    simp only [List.mem_append] at member
    rcases member with (member | member) | member
    · obtain ⟨level, number, here⟩ := made₁ frame member
      exact ⟨level, number, grow₃ _ _ _ (grow₂ _ _ _ here)⟩
    · obtain ⟨level, number, here⟩ := made₂ frame member
      exact ⟨level, number, grow₃ _ _ _ here⟩
    · exact made₃ frame member

/-- A walk that creates nothing finds the last table of the page, if there is one. -/
theorem walk_find (tree : PageTree 8 vmm table pages) {virtualAddr : BitVec 64}
    (ordinary : 4096 ≤ pageNumber virtualAddr) :
    (vmm.walk (virtualAddr &&& pageMask) false = (0, vmm) ∧
      table 3 (pageNumber virtualAddr / 512) = none) ∨
    ∃ pt, vmm.walk (virtualAddr &&& pageMask) false = (pt, vmm) ∧ pt ≠ 0 ∧
      table 3 (pageNumber virtualAddr / 512) = some pt := by
  obtain ⟨first, second, third, -⟩ := tableIndex_pageNumber virtualAddr
  obtain ⟨small, top, middle, bottom, -⟩ := pageNumber_parts virtualAddr
  have inside₁ : pageNumber virtualAddr / 512 ^ 2 % 512 < 512 := Nat.mod_lt _ (by decide)
  have inside₂ : pageNumber virtualAddr / 512 % 512 < 512 := Nat.mod_lt _ (by decide)
  have up₁ : pageNumber virtualAddr / 512 ^ 2 / 512 = pageNumber virtualAddr / 512 ^ 3 := by omega
  have up₂ : pageNumber virtualAddr / 512 / 512 = pageNumber virtualAddr / 512 ^ 2 := by omega
  -- A missing table leaves nothing below it.
  have missing : ∀ level number, table level (number / 512) = none →
      table (level + 1) number = none := by
    intro level number absent
    by_contra some
    have parent := tree.parent level number (Option.isSome_iff_ne_none.mpr some)
    rw [absent] at parent
    cases parent
  cases here₁ : table 1 (pageNumber virtualAddr / 512 ^ 3) with
  | none =>
    have step := tree.getNextLevel_none (by decide) tree.root small (by rw [top]; exact here₁)
      (fun both => absurd both.1 (by decide))
    refine Or.inl ⟨by simp only [walk, first, step, reduceIte], missing 2 _ ?_⟩
    rw [up₂]
    apply missing 1
    rw [up₁]
    exact here₁
  | some pdpt =>
    have step₁ := tree.getNextLevel_child (by decide) tree.root small (by rw [top]; exact here₁) false
    obtain ⟨⟨nonzero₁, -⟩, -⟩ := tree.placed _ _ _ here₁
    cases here₂ : table 2 (pageNumber virtualAddr / 512 ^ 2) with
    | none =>
      have step := tree.getNextLevel_none (by decide) here₁ inside₁ (by rw [middle]; exact here₂)
        (fun both => absurd both.1 (by decide))
      refine Or.inl ⟨by simp only [walk, first, second, step₁, step, if_neg nonzero₁, reduceIte],
        missing 2 _ ?_⟩
      rw [up₂]
      exact here₂
    | some pd =>
      have step₂ := tree.getNextLevel_child (by decide) here₁ inside₁ (by rw [middle]; exact here₂) false
      obtain ⟨⟨nonzero₂, -⟩, -⟩ := tree.placed _ _ _ here₂
      cases here₃ : table 3 (pageNumber virtualAddr / 512) with
      | none =>
        have step := tree.getNextLevel_none (by decide) here₂ inside₂ (by rw [bottom]; exact here₃)
          (by omega)
        refine Or.inl ⟨?_, rfl⟩
        simp only [walk, first, second, third, step₁, step₂, step, if_neg nonzero₁, if_neg nonzero₂]
      | some pt =>
        have step₃ := tree.getNextLevel_child (by decide) here₂ inside₂ (by rw [bottom]; exact here₃) false
        obtain ⟨⟨nonzero₃, -⟩, -⟩ := tree.placed _ _ _ here₃
        refine Or.inr ⟨pt, ?_, nonzero₃, rfl⟩
        simp only [walk, first, second, third, step₁, step₂, step₃, if_neg nonzero₁, if_neg nonzero₂]

/-- A table that was there is there when none has gone. -/
theorem isSome_of_grow {table' : Nat → Nat → Option Nat} {level number : Nat}
    (grow : ∀ level number addr, table level number = some addr →
      table' level number = some addr) (there : (table level number).isSome) :
    (table' level number).isSome := by
  -- It has the same address.
  obtain ⟨addr, same⟩ := Option.isSome_iff_exists.mp there
  rw [grow level number addr same]
  rfl

/--
Mapping a page keeps the tree, and adds the page to the map unless it is there already.

New tables are made of the frames taken, on the way to the page.
-/
theorem mapPage (tree : PageTree 8 vmm table pages) (low : (table 2 0).isSome)
    {virtualAddr physicalAddr : BitVec 64} (ordinary : 4096 ≤ pageNumber virtualAddr)
    (small : physicalAddr.toNat < 2 ^ 48) (writable : Bool) (available : 3 ≤ vmm.frames.length) :
    ∃ table', PageTree 8 (vmm.mapPage virtualAddr physicalAddr writable) table'
        (Function.update pages (pageNumber virtualAddr)
          (some ((pages (pageNumber virtualAddr)).getD physicalAddr))) ∧
      (∀ level number addr, table level number = some addr → table' level number = some addr) ∧
      ∃ taken, vmm.frames = taken ++ (vmm.mapPage virtualAddr physicalAddr writable).frames ∧
        taken.length ≤ 3 ∧
        (∀ level number addr, table' level number = some addr → table level number = some addr ∨
          addr ∈ taken ∧ level ≤ 3 ∧ number = pageNumber virtualAddr / 512 ^ (4 - level)) ∧
        ∀ frame ∈ taken, ∃ level number, table' level number = some frame := by
  obtain ⟨-, -, -, last⟩ := tableIndex_pageNumber virtualAddr
  obtain ⟨-, -, -, -, whole⟩ := pageNumber_parts virtualAddr
  have inside : pageNumber virtualAddr % 512 < 512 := Nat.mod_lt _ (by decide)
  obtain ⟨pt, vmm', table', walked, nonzero, tree', here, grow, left⟩ :=
    tree.walk_ensure low ordinary available
  simp only [VirtualMemoryManager.mapPage, walked, if_neg nonzero, last]
  rcases whole ▸ tree'.leaves _ _ _ here inside with
    ⟨empty, none⟩ | ⟨mapped, already, -, present, -⟩
  · -- An empty entry is written.
    simp only [empty, emptyEntry_flags, Bool.not_false, if_true, none, Option.getD_none]
    refine ⟨table', ?_, grow, left⟩
    obtain ⟨shown, -, address⟩ :=
      pointTo_spec emptyEntry_flags.2 (physicalAddr &&& pageMask) writable
    have written := tree'.writeLeaf here inside
      (Or.inr ⟨physicalAddr, rfl, small, shown, address⟩ : Leaf _ (some physicalAddr))
    rw [whole] at written
    exact written
  · -- A page mapped already is left alone.
    have same : Function.update pages (pageNumber virtualAddr) (some mapped) = pages := by
      rw [← already, Function.update_eq_self]
    simp only [present, Bool.not_true, Bool.false_eq_true, if_false, already, Option.getD_some, same]
    exact ⟨table', tree', grow, left⟩

/-- Looking a page up in the tree answers what the map says. -/
theorem translates (tree : PageTree 8 vmm table pages) {virtualAddr : BitVec 64}
    (ordinary : 4096 ≤ pageNumber virtualAddr) :
    vmm.getPhysicalAddress virtualAddr =
      ((pages (pageNumber virtualAddr)).map pageAddress).getD 0#64 := by
  obtain ⟨-, -, -, last⟩ := tableIndex_pageNumber virtualAddr
  obtain ⟨-, -, -, -, whole⟩ := pageNumber_parts virtualAddr
  have inside : pageNumber virtualAddr % 512 < 512 := Nat.mod_lt _ (by decide)
  rcases tree.walk_find ordinary with ⟨ended, absent⟩ | ⟨pt, found, nonzero, here⟩
  · -- Without a last table the page is not mapped.
    simp [getPhysicalAddress, ended, tree.unmapped _ absent]
  · -- Otherwise its entry is empty or shows the page.
    rcases whole ▸ tree.leaves _ _ _ here inside with
      ⟨empty, none⟩ | ⟨physicalAddr, mapped, small, present, shown⟩
    · simp [getPhysicalAddress, found, nonzero, last, empty, emptyEntry_flags, none]
    · simp only [getPhysicalAddress, found, if_neg nonzero, last, present, shown, mapped,
        pageAddress_shown small, Bool.not_true, Bool.false_eq_true, if_false, Option.map_some,
        Option.getD_some]

/-- Unmapping a page keeps the tables and removes the page from the map. -/
theorem unmapPage (tree : PageTree 8 vmm table pages) {virtualAddr : BitVec 64}
    (ordinary : 4096 ≤ pageNumber virtualAddr) :
    PageTree 8 (vmm.unmapPage virtualAddr) table
      (Function.update pages (pageNumber virtualAddr) none) ∧
    (vmm.unmapPage virtualAddr).frames = vmm.frames := by
  obtain ⟨-, -, -, last⟩ := tableIndex_pageNumber virtualAddr
  obtain ⟨-, -, -, -, whole⟩ := pageNumber_parts virtualAddr
  have inside : pageNumber virtualAddr % 512 < 512 := Nat.mod_lt _ (by decide)
  rcases tree.walk_find ordinary with ⟨ended, absent⟩ | ⟨pt, found, nonzero, here⟩
  · -- Without a last table the page was not mapped.
    have same : Function.update pages (pageNumber virtualAddr) none = pages := by
      rw [← tree.unmapped _ absent, Function.update_eq_self]
    simp only [VirtualMemoryManager.unmapPage, ended, if_true, same]
    exact ⟨tree, trivial⟩
  · -- Otherwise its entry is emptied.
    simp only [VirtualMemoryManager.unmapPage, found, if_neg nonzero, last]
    refine ⟨?_, rfl⟩
    have written := tree.writeLeaf here inside (Or.inl ⟨rfl, rfl⟩ : Leaf emptyEntry none)
    rw [whole] at written
    exact written

end PageTree

namespace Represents

variable {vmm : VirtualMemoryManager} {pages : Nat → Option (BitVec 64)}

/-- Exactly the first sixteen megabytes lie under large pages. -/
theorem meetsHugePage_iff (represents : Represents vmm pages) (virtualAddr : BitVec 64) :
    meetsHugePage vmm virtualAddr = true ↔ pageNumber virtualAddr < 4096 := by
  obtain ⟨table, tree, low₁, low₂⟩ := represents
  obtain ⟨first, second, third, -⟩ := tableIndex_pageNumber virtualAddr
  obtain ⟨small, top, middle, bottom, -⟩ := PageTree.pageNumber_parts virtualAddr
  have inside₁ : pageNumber virtualAddr / 512 ^ 2 % 512 < 512 := Nat.mod_lt _ (by decide)
  have inside₂ : pageNumber virtualAddr / 512 % 512 < 512 := Nat.mod_lt _ (by decide)
  simp only [meetsHugePage, first, second, third]
  -- The walk is followed level by level, as far as there are tables.
  rcases tree.slot_cases (by decide) tree.root small (fun both => absurd both.1 (by decide)) with
    ⟨absent, empty⟩ | ⟨here₁, present₁, ordinary₁⟩
  · rw [empty]
    simp only [emptyEntry_flags, Bool.false_and, Bool.false_eq_true, false_iff, Nat.not_lt]
    by_contra few
    rw [top, show pageNumber virtualAddr / 512 ^ 3 = 0 by omega] at absent
    rw [absent] at low₁
    cases low₁
  rw [top] at here₁
  simp only [present₁, ordinary₁, Bool.true_and, Bool.false_or]
  rcases tree.slot_cases (by decide) here₁ inside₁ (fun both => absurd both.1 (by decide)) with
    ⟨absent, empty⟩ | ⟨here₂, present₂, ordinary₂⟩
  · rw [empty]
    simp only [emptyEntry_flags, Bool.false_and, Bool.false_eq_true, false_iff, Nat.not_lt]
    by_contra few
    rw [middle, show pageNumber virtualAddr / 512 ^ 2 = 0 by omega] at absent
    rw [absent] at low₂
    cases low₂
  rw [middle] at here₂
  simp only [present₂, ordinary₂, Bool.true_and, Bool.false_or]
  -- At the third level the large pages themselves are met.
  rcases tree.slots 2 _ _ _ (by decide) here₂ inside₂ with
    ⟨large, present, huge, -⟩ | ⟨ordinary, empty, -⟩ | ⟨ordinary, -, plain, -⟩
  · simp only [present, huge, Bool.true_and, true_iff]
    omega
  · rw [empty]
    simp only [emptyEntry_flags, Bool.false_and, Bool.false_eq_true, false_iff, Nat.not_lt]
    omega
  · simp only [plain, Bool.and_false, Bool.false_eq_true, false_iff, Nat.not_lt]
    omega

/-- Looking a page up answers what the map says. -/
theorem getPhysicalAddress_eq (represents : Represents vmm pages) {virtualAddr : BitVec 64}
    (ordinary : 4096 ≤ pageNumber virtualAddr) :
    vmm.getPhysicalAddress virtualAddr =
      ((pages (pageNumber virtualAddr)).map pageAddress).getD 0#64 := by
  -- The tree answers.
  obtain ⟨table, tree, -⟩ := represents
  exact tree.translates ordinary

/-- Unmapping a page removes it from the map. -/
theorem unmapPage (represents : Represents vmm pages) {virtualAddr : BitVec 64}
    (ordinary : 4096 ≤ pageNumber virtualAddr) :
    Represents (vmm.unmapPage virtualAddr)
      (Function.update pages (pageNumber virtualAddr) none) ∧
    (vmm.unmapPage virtualAddr).frames = vmm.frames := by
  -- No table comes or goes.
  obtain ⟨table, tree, low⟩ := represents
  obtain ⟨tree', frames⟩ := tree.unmapPage ordinary
  exact ⟨⟨table, tree', low⟩, frames⟩

/-- Mapping a page adds it to the map, unless it is there already. -/
theorem mapPage (represents : Represents vmm pages) {virtualAddr physicalAddr : BitVec 64}
    (ordinary : 4096 ≤ pageNumber virtualAddr) (small : physicalAddr.toNat < 2 ^ 48)
    (writable : Bool) (available : 3 ≤ vmm.frames.length) :
    Represents (vmm.mapPage virtualAddr physicalAddr writable)
      (Function.update pages (pageNumber virtualAddr)
        (some ((pages (pageNumber virtualAddr)).getD physicalAddr))) ∧
    vmm.frames.length ≤ (vmm.mapPage virtualAddr physicalAddr writable).frames.length + 3 := by
  -- The tables of the first large pages are kept, and at most three frames are taken.
  obtain ⟨table, tree, low₁, low₂⟩ := represents
  obtain ⟨table', tree', grow, taken, split, few, -⟩ :=
    tree.mapPage low₂ ordinary small writable available
  have left := congrArg List.length split
  rw [List.length_append] at left
  exact ⟨⟨table', tree', PageTree.isSome_of_grow grow low₁, PageTree.isSome_of_grow grow low₂⟩,
    by omega⟩

end Represents

/-- A new entry with its flags set first shows the address given to it afterwards. -/
theorem flagged_setAddress (addr : BitVec 64) :
    (flagged.setAddress addr).present = true ∧ (flagged.setAddress addr).hugePage = false ∧
      (flagged.setAddress addr).address = addr &&& 0xFFFFFFFFF000#64 := by
  -- The flags lie below the twelfth bit and the address above it.
  have small : flagged.hugePage = false := by decide
  have bits := fun {i : Nat} (inside : i < 64) => getLsbD_setAddress small addr inside
  have ordinary : (flagged.setAddress addr).hugePage = false := by
    rw [hugePage, flag_eq_getLsbD _ (by decide), bits (by decide), if_pos (by decide)]
    decide
  refine ⟨?_, ordinary, address_of_bits ordinary ?_⟩
  · rw [present, flag_eq_getLsbD _ (by decide), bits (by decide), if_pos (by decide)]
    decide
  · intro i inside high
    rw [bits inside, if_neg (by omega)]

/-- Such an entry is clean outside the large pages. -/
theorem clean_flagged {large level number frame : Nat} (ordinary : ¬ (level = 2 ∧ number < large))
    (bounded : frame < 2 ^ 48) :
    Clean large level number (flagged.setAddress (BitVec.ofNat 64 frame)) := by
  -- Its high bits are those of the frame.
  have small := (flagged_setAddress (BitVec.ofNat 64 frame)).2.1
  rw [Clean, if_neg ordinary]
  refine ⟨small, fun _ => frameBits_eq_address small bounded fun i inside high => ?_⟩
  rw [getLsbD_setAddress (by decide) _ inside, if_neg (by omega)]

/-- Mapping a page under a large page at address zero changes nothing. -/
theorem mapPage_under_large {vmm : VirtualMemoryManager} {table : Nat → Nat → Option Nat}
    {pages : Nat → Option (BitVec 64)} (tree : PageTree 8 vmm table pages) {pdpt pd : Nat}
    (here₁ : table 1 0 = some pdpt) (here₂ : table 2 0 = some pd)
    (large : (vmm.readEntry pd 0).address = 0#64) {virtualAddr : BitVec 64}
    (low : pageNumber virtualAddr < 512) (physicalAddr : BitVec 64) (writable : Bool) :
    vmm.mapPage virtualAddr physicalAddr writable = vmm := by
  obtain ⟨first, second, third, -⟩ := tableIndex_pageNumber virtualAddr
  rw [show pageNumber virtualAddr / 512 ^ 3 = 0 by omega] at first
  rw [show pageNumber virtualAddr / 512 ^ 2 % 512 = 0 by omega] at second
  rw [show pageNumber virtualAddr / 512 % 512 = 0 by omega] at third
  have zero : 0 < 512 := by decide
  have step₁ := tree.getNextLevel_child (by decide) tree.root zero here₁ true
  have step₂ := tree.getNextLevel_child (by decide) here₁ zero here₂ true
  obtain ⟨⟨nonzero₁, -⟩, -⟩ := tree.placed _ _ _ here₁
  obtain ⟨⟨nonzero₂, -⟩, -⟩ := tree.placed _ _ _ here₂
  -- The entry of the large page is followed as if a table lay at its address, which is null.
  have step₃ : vmm.getNextLevel pd 0 true = (0, vmm) := by
    rcases tree.slots 2 0 pd 0 (by decide) here₂ (by decide) with
      ⟨-, present, -⟩ | ⟨ordinary, -⟩ | ⟨ordinary, -⟩
    · simp [getNextLevel, present, large]
    · exact absurd ⟨rfl, by decide⟩ ordinary
    · exact absurd ⟨rfl, by decide⟩ ordinary
  simp [VirtualMemoryManager.mapPage, walk, first, second, third, step₁, step₂, step₃, nonzero₁,
    nonzero₂]

/-- The tables built at boot before the one for the kernel's half. -/
def lowTables (memory : Nat → PageTableEntry) (pml4 pdpt pd : Nat) (rest : List Nat) :
    VirtualMemoryManager :=
  let top := VirtualMemoryManager.clearTable ⟨memory, pml4, pdpt :: pd :: rest⟩ pml4
  let second := PageTree.hangTable top pdpt (pd :: rest) pml4 0
    (pointTo emptyEntry (BitVec.ofNat 64 pdpt) true)
  let third := PageTree.hangTable second pd rest pdpt 0 (flagged.setAddress (BitVec.ofNat 64 pd))
  third.mapFirstPages pd 8

/-- Three tables and eight large pages represent the empty map, and are clean. -/
theorem lowTables_clean {pml4 pdpt pd : Nat} {rest : List Nat}
    (nodup : (pml4 :: pdpt :: pd :: rest).Nodup)
    (fit : ∀ frame ∈ pml4 :: pdpt :: pd :: rest, TableFrame frame)
    (memory : Nat → PageTableEntry) :
    ∃ table, PageTree 8 (lowTables memory pml4 pdpt pd rest) table (fun _ => none) ∧
      AllClean 8 (lowTables memory pml4 pdpt pd rest) table ∧
      table 1 0 = some pdpt ∧ table 2 0 = some pd ∧ table 1 511 = none ∧
      ((lowTables memory pml4 pdpt pd rest).readEntry pd 0).address = 0#64 ∧
      ∀ level number addr, table level number = some addr →
        (level, number, addr) ∈ [(0, 0, pml4), (1, 0, pdpt), (2, 0, pd)] := by
  have zero : 0 < 512 := by decide
  obtain ⟨-, aligned₁, bounded₁⟩ := fit pdpt (by simp)
  obtain ⟨-, aligned₂, bounded₂⟩ := fit pd (by simp)
  -- The top table alone, then the second and the third below it.
  have tree₀ := PageTree.single nodup fit memory
  have root₀ : PageTree.attach (fun _ _ => none) 0 0 pml4 0 0 = some pml4 := rfl
  obtain ⟨present₁, small₁, address₁⟩ :=
    pointTo_spec emptyEntry_flags.2 (BitVec.ofNat 64 pdpt) true
  have tree₁ := tree₀.hang rfl (by decide) root₀ zero rfl (by omega) (by omega) present₁ small₁
    (by rw [address₁, tableAddress_masked aligned₁ bounded₁])
  have clean₁ := tree₀.clean_hang (PageTree.clean_single pml4 _ memory) rfl root₀ zero rfl (by omega)
    (clean_pointTo (by omega) bounded₁ true)
  have here₁ : PageTree.attach (PageTree.attach (fun _ _ => none) 0 0 pml4) 1 0 pdpt 1 0 =
    some pdpt := rfl
  obtain ⟨present₂, small₂, address₂⟩ := flagged_setAddress (BitVec.ofNat 64 pd)
  have tree₂ := tree₁.hang rfl (by decide) here₁ zero rfl (by omega) (by omega) present₂ small₂
    (by rw [address₂, tableAddress_masked aligned₂ bounded₂])
  have clean₂ := tree₁.clean_hang clean₁ rfl here₁ zero rfl (by omega)
    (clean_flagged (by omega) bounded₂)
  have here₂ : PageTree.attach (PageTree.attach (PageTree.attach (fun _ _ => none) 0 0 pml4)
    1 0 pdpt) 2 0 pd 2 0 = some pd := rfl
  -- The large pages come last.
  obtain ⟨tree₃, large⟩ := tree₂.mapFirstPages here₂ (fun _ => rfl) 8 (Nat.le_refl _)
  have clean₃ := tree₂.clean_mapFirstPages clean₂ here₂ (fun _ => rfl) 8 (Nat.le_refl _)
  refine ⟨_, tree₃, clean₃, rfl, rfl, rfl, large (by decide), ?_⟩
  intro level number addr here
  simp only [PageTree.attach] at here
  -- The table found is the last one hung in at its place.
  split at here
  · simp_all
  · split at here
    · simp_all
    · split at here
      · simp_all
      · cases here

/-- The four tables built at boot form a tree that represents the empty map, and are clean. -/
theorem initializeTables_clean {vmm : VirtualMemoryManager} {pml4 pdpt pd kernelPdpt : Nat}
    {rest : List Nat} (frames : vmm.frames = pml4 :: pdpt :: pd :: kernelPdpt :: rest)
    (nodup : vmm.frames.Nodup) (fit : ∀ frame ∈ vmm.frames, TableFrame frame) :
    ∃ table, PageTree 8 vmm.initializeTables table (fun _ => none) ∧
      AllClean 8 vmm.initializeTables table ∧
      (table 1 0).isSome ∧ (table 2 0).isSome ∧ vmm.initializeTables.frames = rest ∧
      ∀ level number addr, table level number = some addr ↔
        (level, number, addr) ∈ [(0, 0, pml4), (1, 0, pdpt), (2, 0, pd), (1, 511, kernelPdpt)] := by
  rw [frames] at nodup fit
  obtain ⟨nonzero₀, -⟩ := fit pml4 (by simp)
  obtain ⟨nonzero₁, -⟩ := fit pdpt (by simp)
  obtain ⟨nonzero₂, -⟩ := fit pd (by simp)
  obtain ⟨nonzero₃, aligned₃, bounded₃⟩ := fit kernelPdpt (by simp)
  obtain ⟨table, tree, clean, here₁, here₂, absent, large, only⟩ :=
    lowTables_clean nodup fit vmm.memory
  have zero : 0 < 512 := by decide
  have last : 511 < 512 := by decide
  have next : (lowTables vmm.memory pml4 pdpt pd (kernelPdpt :: rest)).frames =
    kernelPdpt :: rest := rfl
  have root : table 0 0 = some pml4 := tree.root
  -- The kernel's table is hung into the last entry of the top table, which is empty.
  have empty : (lowTables vmm.memory pml4 pdpt pd (kernelPdpt :: rest)).readEntry pml4 511 =
      emptyEntry := by
    rcases tree.slot_cases (by decide) root last (by omega) with ⟨-, empty⟩ | ⟨child, -⟩
    · exact empty
    · rw [show 512 * 0 + 511 = 511 from rfl, absent] at child
      cases child
  have still := (tree.readEntry_fresh next root last).trans empty
  obtain ⟨present, small, address⟩ :=
    pointTo_spec emptyEntry_flags.2 (BitVec.ofNat 64 kernelPdpt) true
  have hung := tree.hang next (by decide) root last absent (by omega) (by omega) present small
    (by rw [address, tableAddress_masked aligned₃ bounded₃])
  have hungClean := tree.clean_hang clean next root last absent (by omega)
    (clean_pointTo (by omega) bounded₃ true)
  have low₁ : PageTree.attach table (0 + 1) (512 * 0 + 511) kernelPdpt 1 0 = some pdpt := here₁
  have low₂ : PageTree.attach table (0 + 1) (512 * 0 + 511) kernelPdpt 2 0 = some pd := here₂
  -- The first large page is still in place, so the last step maps nothing.
  obtain ⟨-, kept⟩ := tree.readEntry_hangTable next root last
    (pointTo emptyEntry (BitVec.ofNat 64 kernelPdpt) true)
  have first := kept 2 0 pd 0 here₂ zero
  rw [if_neg (by omega)] at first
  have screen := mapPage_under_large hung low₁ low₂ (by rw [first]; exact large)
    (show pageNumber 0xB8000#64 < 512 by decide) 0xB8000#64 true
  have built : vmm.initializeTables =
      (PageTree.hangTable (lowTables vmm.memory pml4 pdpt pd (kernelPdpt :: rest)) kernelPdpt rest
        pml4 511 (pointTo emptyEntry (BitVec.ofNat 64 kernelPdpt) true)).mapPage
        0xB8000#64 0xB8000#64 true := by
    rw [← still]
    simp only [initializeTables, nextFrame, createPageTable, frames, if_neg nonzero₀,
      if_neg nonzero₁, if_neg nonzero₂, clearTable, writeEntry]
    exact if_neg nonzero₃
  rw [built, screen]
  refine ⟨_, hung, hungClean, by rw [low₁]; rfl, by rw [low₂]; rfl, rfl, fun level number addr => ⟨?_, ?_⟩⟩
  · intro here
    unfold PageTree.attach at here
    split at here
    · rename_i new
      obtain ⟨rfl, rfl⟩ := new
      cases here
      simp
    · have member := only level number addr here
      simp only [List.mem_cons, List.not_mem_nil, or_false] at member ⊢
      rcases member with member | member | member
      · exact Or.inl member
      · exact Or.inr (Or.inl member)
      · exact Or.inr (Or.inr (Or.inl member))
  · intro member
    simp only [List.mem_cons, List.not_mem_nil, or_false, Prod.mk.injEq] at member
    rcases member with ⟨rfl, rfl, rfl⟩ | ⟨rfl, rfl, rfl⟩ | ⟨rfl, rfl, rfl⟩ | ⟨rfl, rfl, rfl⟩
    · exact root
    · exact low₁
    · exact low₂
    · rfl

/-- The four tables built at boot form a tree that represents the empty map. -/
theorem initializeTables_tree {vmm : VirtualMemoryManager} {pml4 pdpt pd kernelPdpt : Nat}
    {rest : List Nat} (frames : vmm.frames = pml4 :: pdpt :: pd :: kernelPdpt :: rest)
    (nodup : vmm.frames.Nodup) (fit : ∀ frame ∈ vmm.frames, TableFrame frame) :
    ∃ table, PageTree 8 vmm.initializeTables table (fun _ => none) ∧
      (table 1 0).isSome ∧ (table 2 0).isSome ∧ vmm.initializeTables.frames = rest ∧
      ∀ level number addr, table level number = some addr ↔
        (level, number, addr) ∈ [(0, 0, pml4), (1, 0, pdpt), (2, 0, pd), (1, 511, kernelPdpt)] := by
  -- They are clean besides.
  obtain ⟨table, tree, -, rest⟩ := initializeTables_clean frames nodup fit
  exact ⟨table, tree, rest⟩

/-- The tables built at boot represent the empty map. -/
theorem initializeTables_represents {vmm : VirtualMemoryManager} {pml4 pdpt pd kernelPdpt : Nat}
    {rest : List Nat} (frames : vmm.frames = pml4 :: pdpt :: pd :: kernelPdpt :: rest)
    (nodup : vmm.frames.Nodup) (fit : ∀ frame ∈ vmm.frames, TableFrame frame) :
    Represents vmm.initializeTables (fun _ => none) ∧ vmm.initializeTables.frames = rest := by
  -- The tree is there, whatever its tables are.
  obtain ⟨table, tree, low₁, low₂, left, -⟩ := initializeTables_tree frames nodup fit
  exact ⟨⟨table, tree, low₁, low₂⟩, left⟩

/-- The calls that change translations. -/
inductive PageCall where
  /-- Mapping a page. -/
  | mapPage (virtualAddr physicalAddr : BitVec 64) (writable : Bool)
  /-- Unmapping a page. -/
  | unmapPage (virtualAddr : BitVec 64)
  deriving Repr, DecidableEq

namespace PageCall

/-- The address a call is about. -/
def virtualAddr : PageCall → BitVec 64
  | .mapPage virtualAddr _ _ => virtualAddr
  | .unmapPage virtualAddr => virtualAddr

/-- The state after a call. -/
def step (vmm : VirtualMemoryManager) : PageCall → VirtualMemoryManager
  | .mapPage virtualAddr physicalAddr writable => vmm.mapPage virtualAddr physicalAddr writable
  | .unmapPage virtualAddr => vmm.unmapPage virtualAddr

/-- The walk of a call meets no large page, and its physical address is below the limit. -/
def Allowed (vmm : VirtualMemoryManager) : PageCall → Prop
  | .mapPage virtualAddr physicalAddr _ =>
    meetsHugePage vmm virtualAddr = false ∧ physicalAddr.toNat < 2 ^ 48
  | .unmapPage virtualAddr => meetsHugePage vmm virtualAddr = false

/-- What a call does to the partial map: the first mapping of a page stays until it is unmapped. -/
def mapStep (pages : Nat → Option (BitVec 64)) : PageCall → Nat → Option (BitVec 64)
  | .mapPage virtualAddr physicalAddr _ =>
    Function.update pages (pageNumber virtualAddr)
      (some ((pages (pageNumber virtualAddr)).getD physicalAddr))
  | .unmapPage virtualAddr => Function.update pages (pageNumber virtualAddr) none

end PageCall

/-- The state after a sequence of calls. -/
def runPageCalls (vmm : VirtualMemoryManager) (calls : List PageCall) : VirtualMemoryManager :=
  calls.foldl PageCall.step vmm

/-- Every call of a sequence is allowed when its turn comes. -/
def AllAllowed (vmm : VirtualMemoryManager) : List PageCall → Prop
  | [] => True
  | call :: calls => call.Allowed vmm ∧ AllAllowed (call.step vmm) calls

/-- The calls before others are allowed by themselves. -/
theorem allAllowed_of_append {vmm : VirtualMemoryManager} {earlier later : List PageCall}
    (allowed : AllAllowed vmm (earlier ++ later)) : AllAllowed vmm earlier := by
  -- By induction on the earlier calls, with the state they start from.
  induction earlier generalizing vmm with
  | nil => trivial
  | cons call earlier ih => exact ⟨allowed.1, ih allowed.2⟩

/-- For each page, the address of its first mapping since it was last unmapped. -/
def mappedPages (calls : List PageCall) : Nat → Option (BitVec 64) :=
  calls.foldl PageCall.mapStep fun _ => none

/-- A call does to the tables what it does to the map. -/
theorem Represents.step {vmm : VirtualMemoryManager} {pages : Nat → Option (BitVec 64)}
    (represents : Represents vmm pages) {call : PageCall} (allowed : call.Allowed vmm)
    (available : 3 ≤ vmm.frames.length) :
    Represents (call.step vmm) (call.mapStep pages) ∧
      vmm.frames.length ≤ (call.step vmm).frames.length + 3 := by
  -- Only pages outside the large ones are walkable.
  have ordinary : ∀ virtualAddr, meetsHugePage vmm virtualAddr = false →
      4096 ≤ pageNumber virtualAddr := by
    intro virtualAddr clear
    rw [← Nat.not_lt, ← represents.meetsHugePage_iff, clear]
    exact Bool.false_ne_true
  cases call with
  | mapPage virtualAddr physicalAddr writable =>
    exact represents.mapPage (ordinary _ allowed.1) allowed.2 writable available
  | unmapPage virtualAddr =>
    obtain ⟨represents', frames⟩ := represents.unmapPage (ordinary _ allowed)
    refine ⟨represents', ?_⟩
    rw [PageCall.step, frames]
    exact Nat.le_add_right _ _

/-- A sequence of calls does to the tables what it does to the map. -/
theorem Represents.run {vmm : VirtualMemoryManager} {pages : Nat → Option (BitVec 64)}
    (represents : Represents vmm pages) {calls : List PageCall} (allowed : AllAllowed vmm calls)
    (available : 3 * calls.length ≤ vmm.frames.length) :
    Represents (runPageCalls vmm calls) (calls.foldl PageCall.mapStep pages) := by
  -- By induction on the calls, each of which takes at most three frames.
  induction calls generalizing vmm pages with
  | nil => exact represents
  | cons call calls ih =>
    rw [List.length_cons] at available
    obtain ⟨represents', left⟩ := represents.step allowed.1 (by omega)
    exact ih represents' allowed.2 (by omega)

/-- Calls about other pages leave the map at a page alone. -/
theorem PageCall.mapStep_other (pages : Nat → Option (BitVec 64)) (call : PageCall) {page : Nat}
    (other : page ≠ pageNumber call.virtualAddr) : call.mapStep pages page = pages page := by
  -- Both kinds of call update the map at one page.
  cases call with
  | mapPage virtualAddr physicalAddr writable => exact Function.update_of_ne other _ _
  | unmapPage virtualAddr => exact Function.update_of_ne other _ _

/-- The four frames that go into the tables built at boot. -/
theorem boot_frames {frames : List Nat} (enough : 4 ≤ frames.length) :
    ∃ pml4 pdpt pd kernelPdpt rest, frames = pml4 :: pdpt :: pd :: kernelPdpt :: rest := by
  -- A shorter list is not long enough.
  match frames, enough with
  | pml4 :: pdpt :: pd :: kernelPdpt :: rest, _ => exact ⟨_, _, _, _, _, rfl⟩
  | [], short | [_], short | [_, _], short | [_, _, _], short =>
    simp only [List.length_cons, List.length_nil] at short
    omega

/--
The four-level tables refine a partial map.

The allocator hands out enough frames, none of them twice.
After any allowed calls, an address whose walk meets no large page is translated as the map says.
The last of the calls has changed the translation of no other page.
-/
theorem pageTables_run {vmm : VirtualMemoryManager} {calls : List PageCall}
    (nodup : vmm.frames.Nodup) (fit : ∀ frame ∈ vmm.frames, TableFrame frame)
    (enough : 4 + 3 * calls.length ≤ vmm.frames.length)
    (allowed : AllAllowed vmm.initializeTables calls) :
    let after := runPageCalls vmm.initializeTables calls
    ∀ virtualAddr, meetsHugePage after virtualAddr = false →
      after.getPhysicalAddress virtualAddr =
        ((mappedPages calls (pageNumber virtualAddr)).map pageAddress).getD 0#64 ∧
      ∀ earlier call, calls = earlier ++ [call] →
        pageNumber virtualAddr ≠ pageNumber call.virtualAddr →
        after.getPhysicalAddress virtualAddr =
          (runPageCalls vmm.initializeTables earlier).getPhysicalAddress virtualAddr := by
  intro after virtualAddr clear
  -- Four frames go into the tables built at boot.
  obtain ⟨pml4, pdpt, pd, kernelPdpt, rest, frames⟩ := boot_frames (show 4 ≤ vmm.frames.length by omega)
  obtain ⟨start, left⟩ := initializeTables_represents frames nodup fit
  rw [frames] at enough
  simp only [List.length_cons] at enough
  have represents := start.run allowed (by rw [left]; omega)
  have ordinary : 4096 ≤ pageNumber virtualAddr := by
    rw [← Nat.not_lt, ← represents.meetsHugePage_iff, clear]
    exact Bool.false_ne_true
  have translated := represents.getPhysicalAddress_eq ordinary
  refine ⟨translated, ?_⟩
  intro earlier call split other
  subst split
  -- The calls before the last one are a run of their own.
  rw [List.length_append] at enough
  have before := start.run (allAllowed_of_append allowed) (by rw [left]; omega)
  rw [before.getPhysicalAddress_eq ordinary, translated, List.foldl_concat,
    call.mapStep_other _ other]

/-- Memory holding nothing, and ten frames to build tables from. -/
def tenFrames : VirtualMemoryManager :=
  { memory := fun _ => emptyEntry
    pml4 := 0
    frames := (List.range 10).map fun i => 0x205000 + 0x1000 * i }

/-- A page at one gigabyte mapped twice keeps its first mapping. -/
theorem pageTables_run_mapped_twice :
    let calls := [PageCall.mapPage 0x40000000#64 0x5123#64 true,
      PageCall.mapPage 0x40000000#64 0x7000#64 true]
    (tenFrames.frames.Nodup ∧ (∀ frame ∈ tenFrames.frames, TableFrame frame) ∧
      AllAllowed tenFrames.initializeTables calls) ∧
    (runPageCalls tenFrames.initializeTables calls).getPhysicalAddress 0x40000000#64 = 0x5000#64 := by
  intro calls
  have nodup : tenFrames.frames.Nodup := by decide
  have fit : ∀ frame ∈ tenFrames.frames, TableFrame frame := by
    unfold TableFrame
    decide
  have allowed : AllAllowed tenFrames.initializeTables calls :=
    ⟨⟨by rfl, by decide⟩, ⟨by rfl, by decide⟩, trivial⟩
  have translated := pageTables_run nodup fit (by decide) allowed 0x40000000#64 (by decide)
  exact ⟨⟨nodup, fit, allowed⟩, translated.1⟩

end Pocky
