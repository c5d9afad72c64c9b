import Pocky.Memory.PageTables

/-! How the walk to a last table can end, and what mapping and unmapping leave behind. -/

namespace Pocky

open PageTableEntry VirtualMemoryManager

namespace PageTables

variable {vmm : VirtualMemoryManager} {table : Nat → Nat → Option Nat} {broken : List Nat}

/-- What can come of a walk that creates tables. -/
inductive Outcome (vmm : VirtualMemoryManager) (table : Nat → Nat → Option Nat) (broken : List Nat)
    (page missing : Nat) : Nat × VirtualMemoryManager → Prop where
  /-- The last table is reached, and was there already or is new. -/
  | reached {pt : Nat} {after : VirtualMemoryManager} {table' : Nat → Nat → Option Nat}
      (tables : PageTables after table' broken) (grown : Grown vmm table after table')
      (here : table' 3 (page / 512) = some pt) (enough : missing ≤ vmm.frames.length)
      (nullPage : ∀ place < 4096, after.memory place = vmm.memory place)
      (fresh : missing = 0 ∧ after = vmm ∨ ∀ index < 512, after.readEntry pt index = emptyEntry) :
      Outcome vmm table broken page missing (pt, after)
  /-- The walk meets a broken entry. -/
  | blocked (nothing : missing = 0) (absent : table 3 (page / 512) = none) :
      Outcome vmm table broken page missing (0, vmm)
  /-- A frame is missing, and one more entry gets broken. -/
  | short {after : VirtualMemoryManager} {table' : Nat → Nat → Option Nat} {place : Nat}
      (tables : PageTables after table' (place :: broken)) (grown : Grown vmm table after table')
      (absent : table' 3 (page / 512) = none) (few : vmm.frames.length < missing)
      (fresh : ∀ level number addr index, table level number = some addr → index < 512 →
        place = addr + 8 * index → (vmm.readEntry addr index).present = false) :
      Outcome vmm table broken page missing (0, after)

/-- A missing table leaves nothing below it. -/
theorem missing_below (tables : PageTables vmm table broken) {level number : Nat}
    (absent : table level (number / 512) = none) : table (level + 1) number = none := by
  obtain ⟨pages, tree⟩ := tables.tree
  by_contra some
  have parent := tree.parent level number (Option.isSome_iff_ne_none.mpr some)
  rw [absent] at parent
  cases parent

/-- A table missing on the way to a page means that the last one is missing. -/
theorem last_missing (tables : PageTables vmm table broken) {page levels level : Nat}
    (depth : level + levels = 3) (absent : table level (page / 512 ^ (levels + 1)) = none) :
    table 3 (page / 512) = none := by
  -- By induction on the levels between them.
  induction levels generalizing level with
  | zero =>
    obtain rfl : level = 3 := depth
    rw [Nat.zero_add, Nat.pow_one] at absent
    exact absent
  | succ levels ih =>
    apply @ih (level + 1) (by omega)
    apply tables.missing_below
    rw [Nat.div_div_eq_div_mul, ← Nat.pow_succ]
    exact absent

/-- The parts of a page number at one level of the walk. -/
theorem step_number (page levels : Nat) :
    512 * (page / 512 ^ (levels + 2)) + page / 512 ^ (levels + 1) % 512 = page / 512 ^ (levels + 1) := by
  -- The number of the next table is the quotient with the index appended.
  rw [show page / 512 ^ (levels + 2) = page / 512 ^ (levels + 1) / 512 by
    rw [Nat.div_div_eq_div_mul, ← Nat.pow_succ]]
  exact Nat.div_add_mod _ _

/-- Pages from the sixteenth megabyte on are not under the entries of large pages. -/
theorem step_ordinary {page levels level : Nat} (ordinary : 4096 ≤ page) (depth : level + (levels + 1) = 3) :
    ¬ (level = 2 ∧ 512 * (page / 512 ^ (levels + 2)) + page / 512 ^ (levels + 1) % 512 < 8) := by
  rintro ⟨rfl, few⟩
  obtain rfl : levels = 0 := by omega
  rw [step_number] at few
  omega

/-- A missing table of the second level lies above no large page. -/
theorem second_free (tables : PageTables vmm table broken) {number index level : Nat}
    (absent : table (level + 1) (512 * number + index) = none) :
    level + 1 = 2 → 8 ≤ 512 * (512 * number + index) := by
  -- The one above the large pages is there.
  rintro same
  rw [same] at absent
  by_contra few
  obtain ⟨addr, there⟩ := Option.isSome_iff_exists.mp tables.low.2
  rw [show 512 * number + index = 0 by omega, there] at absent
  cases absent

/-- In a fresh table nothing below is there yet. -/
theorem missingBelow_fresh {addr : Nat} (fresh : ∀ index < 512, vmm.readEntry addr index = emptyEntry)
    (page levels : Nat) : vmm.missingBelow page levels addr = levels := by
  -- The first entry looked at is empty.
  cases levels with
  | zero => rfl
  | succ levels =>
    rw [missingBelow, fresh _ (Nat.mod_lt _ (by decide))]
    rfl

/-- A walk that creates tables ends in one of the three ways. -/
theorem walkDown_outcome {page : Nat} (ordinary : 4096 ≤ page) (levels level : Nat)
    (depth : level + levels = 3) {addr : Nat} (tables : PageTables vmm table broken)
    (here : table level (page / 512 ^ (levels + 1)) = some addr) :
    Outcome vmm table broken page (vmm.missingBelow page levels addr)
      (walkDown page true levels vmm addr) := by
  -- By induction on the levels left, with the state the walk has come to.
  induction levels generalizing level vmm table addr with
  | zero =>
    obtain rfl : level = 3 := depth
    rw [Nat.zero_add, Nat.pow_one] at here
    exact .reached tables (Grown.refl vmm table) here (Nat.zero_le _) (fun _ _ => rfl) (Or.inl ⟨rfl, rfl⟩)
  | succ levels ih =>
    have inside : page / 512 ^ (levels + 1) % 512 < 512 := Nat.mod_lt _ (by decide)
    have outside := step_ordinary ordinary depth
    have number := step_number page levels
    rcases tables.entry_cases (by omega) here inside outside with
      ⟨child, present, -, -, nonzero⟩ | ⟨absent, null, -⟩ | ⟨absent, empty, whole⟩
    · -- The table is there, and the walk goes on from it.
      rw [number] at child
      simp only [walkDown, missingBelow, getNextLevel_present present, present, Bool.not_true,
        Bool.false_eq_true, if_false, if_neg nonzero]
      exact ih (level + 1) (by omega) tables child
    · -- The entry is broken, and the walk ends.
      rw [number] at absent
      obtain ⟨present, -, address, -⟩ := nullEntry_spec
      have missing : vmm.missingBelow page (levels + 1) addr = 0 := by
        simp [missingBelow, null, present, address]
      simp only [walkDown, getNextLevel_broken null, if_true, missing]
      exact .blocked rfl (tables.last_missing (show level + 1 + levels = 3 by omega) absent)
    · -- The entry is empty, and a table is created if there is a frame.
      have missing : vmm.missingBelow page (levels + 1) addr = levels + 1 := by
        simp [missingBelow, empty, emptyEntry_flags]
      rw [missing]
      cases frames : vmm.frames with
      | nil =>
        simp only [walkDown, tables.getNextLevel_breaks frames here empty, if_true]
        obtain ⟨tables', grown⟩ := tables.breaks (by omega) here inside empty whole
        rw [number] at absent
        refine .short tables' grown (tables.last_missing (show level + 1 + levels = 3 by omega) absent)
          (by rw [frames]; exact Nat.succ_pos _) ?_
        intro level' number' addr' index' here' inside' same
        rw [readEntry, ← same, show vmm.memory (addr + 8 * _) = emptyEntry from empty]
        exact emptyEntry_flags.1
      | cons frame rest =>
        have nonzero := (tables.supply.2 frame (frames ▸ List.mem_cons_self)).1
        simp only [walkDown, tables.getNextLevel_hangs frames here inside empty, if_neg nonzero]
        obtain ⟨tables', grown, fresh, nullPage⟩ := tables.hang frames (by omega) here inside outside
          absent (tables.second_free absent) empty whole
        have next := ih (level + 1) (by omega) tables' (if_pos ⟨rfl, number.symm⟩)
        rw [missingBelow_fresh fresh] at next
        generalize walked : walkDown page true levels _ frame = result at next
        cases next with
        | reached last grown' here' enough nullPage' fresh' =>
          refine .reached last (grown.trans grown') here' ?_
            (fun place low => (nullPage' place low).trans (nullPage place low)) (Or.inr ?_)
          · rw [frames]
            exact Nat.succ_le_succ enough
          · -- The last table is the one just made, or made later on the way.
            rcases fresh' with ⟨rfl, same⟩ | fresh'
            · obtain ⟨rfl, -⟩ := Prod.mk.inj walked
              rw [same]
              exact fresh
            · exact fresh'
        | blocked nothing absent' =>
          subst nothing
          exact absurd (Prod.mk.inj walked).1 nonzero
        | short last grown' absent' few fresh' =>
          refine .short last (grown.trans grown') absent' ?_ ?_
          · rw [frames]
            exact Nat.succ_lt_succ few
          · -- A place in a table that was there has not been touched so far, or was empty.
            intro level' number' addr' index' here' inside' same
            have later := fresh' level' number' addr' index' (grown.grow _ _ _ here') inside' same
            by_contra shown
            rw [Bool.not_eq_false] at shown
            rw [grown.kept level' number' addr' index' here' inside' shown, shown] at later
            cases later

/-- A walk that creates nothing finds the last table, if there is one. -/
theorem walkDown_find {page : Nat} (ordinary : 4096 ≤ page) (levels level : Nat)
    (depth : level + levels = 3) {addr : Nat} (tables : PageTables vmm table broken)
    (here : table level (page / 512 ^ (levels + 1)) = some addr) :
    walkDown page false levels vmm addr = (0, vmm) ∧ table 3 (page / 512) = none ∨
    ∃ pt, walkDown page false levels vmm addr = (pt, vmm) ∧ table 3 (page / 512) = some pt := by
  -- By induction on the levels left.
  induction levels generalizing level addr with
  | zero =>
    obtain rfl : level = 3 := depth
    rw [Nat.zero_add, Nat.pow_one] at here
    exact Or.inr ⟨addr, rfl, here⟩
  | succ levels ih =>
    have inside : page / 512 ^ (levels + 1) % 512 < 512 := Nat.mod_lt _ (by decide)
    have number := step_number page levels
    rcases tables.entry_cases (by omega) here inside (step_ordinary ordinary depth) with
      ⟨child, present, -, -, nonzero⟩ | ⟨absent, null, -⟩ | ⟨absent, empty, -⟩
    · rw [number] at child
      simp only [walkDown, getNextLevel_present present, if_neg nonzero]
      exact ih (level + 1) (by omega) child
    · -- A broken entry ends the walk as an empty one does.
      rw [number] at absent
      simp only [walkDown, getNextLevel_broken null, if_true]
      exact Or.inl ⟨trivial, tables.last_missing (show level + 1 + levels = 3 by omega) absent⟩
    · rw [number] at absent
      have stops : vmm.getNextLevel addr (page / 512 ^ (levels + 1) % 512) false = (0, vmm) := by
        simp [getNextLevel, empty, emptyEntry_flags]
      simp only [walkDown, stops, if_true]
      exact Or.inl ⟨trivial, tables.last_missing (show level + 1 + levels = 3 by omega) absent⟩

/-- The top table, as the walk to any page finds it. -/
theorem root_of_page (tables : PageTables vmm table broken) (virtualAddr : BitVec 64) :
    table 0 (pageNumber virtualAddr / 512 ^ (3 + 1)) = some vmm.pml4 := by
  -- A page number has thirty-six bits.
  have bounded : pageNumber virtualAddr < 2 ^ 36 := Nat.mod_lt _ (by decide)
  rw [Nat.div_eq_of_lt (by omega)]
  exact tables.root

/-- An entry of a last table is empty, or present and ordinary. -/
theorem leaf_cases (tables : PageTables vmm table broken) {number addr index : Nat}
    (here : table 3 number = some addr) (inside : index < 512) :
    vmm.readEntry addr index = emptyEntry ∨
    (vmm.readEntry addr index).present = true ∧ (vmm.readEntry addr index).hugePage = false := by
  obtain ⟨pages, tree⟩ := tables.tree
  have whole := tables.leaf_whole here inside
  have clean := tables.clean 3 number addr index here inside
  rw [Clean, if_neg (by omega), readEntry_without vmm whole] at clean
  have leaf := tree.leaves number addr index here inside
  rw [readEntry_without vmm whole] at leaf
  rcases leaf with ⟨empty, -⟩ | ⟨-, -, -, present, -⟩
  · exact Or.inl empty
  · exact Or.inr ⟨present, clean.1⟩

/-- What an entry for any physical address shows is a page below the limit. -/
theorem leaf_pointTo (physicalAddr : BitVec 64) (writable : Bool) :
    ∃ page, Leaf (pointTo emptyEntry (physicalAddr &&& pageMask) writable) page := by
  obtain ⟨present, -, address⟩ :=
    pointTo_spec emptyEntry_flags.2 (physicalAddr &&& pageMask) writable
  -- The bits from the forty-eighth on are not shown.
  have masks : pageMask &&& 0xFFFFFFFFF000#64 =
      0xFFFFFFFFFFFF#64 &&& (pageMask &&& 0xFFFFFFFFF000#64) := by decide
  refine ⟨some (physicalAddr &&& 0xFFFFFFFFFFFF#64), Or.inr ⟨_, rfl, ?_, present, ?_⟩⟩
  · rw [BitVec.toNat_and]
    exact Nat.lt_of_le_of_lt Nat.and_le_right (by decide)
  · rw [address, pageAddress, BitVec.and_assoc, masks]
    simp only [BitVec.and_assoc]

/-- What can come of mapping a page outside the large ones. -/
inductive Mapping (vmm : VirtualMemoryManager) (table : Nat → Nat → Option Nat) (broken : List Nat)
    (virtualAddr physicalAddr : BitVec 64) (writable : Bool) : VirtualMemoryManager → Prop where
  /-- Nothing happens: the page is mapped already, or its walk meets a broken entry. -/
  | nothing (none : vmm.missingTables virtualAddr = 0) :
      Mapping vmm table broken virtualAddr physicalAddr writable vmm
  /-- The page gets its entry. -/
  | filled {pt : Nat} {after : VirtualMemoryManager} {table' : Nat → Nat → Option Nat}
      (tables : PageTables after table' broken) (grown : Grown vmm table after table')
      (here : table' 3 (pageNumber virtualAddr / 512) = some pt)
      (enough : vmm.missingTables virtualAddr ≤ vmm.frames.length)
      (nullPage : ∀ place < 4096, after.memory place = vmm.memory place)
      (entry : after.readEntry pt (pageNumber virtualAddr % 512) =
        pointTo emptyEntry (physicalAddr &&& pageMask) writable) :
      Mapping vmm table broken virtualAddr physicalAddr writable after
  /-- A frame is missing, and one more entry gets broken. -/
  | short {after : VirtualMemoryManager} {table' : Nat → Nat → Option Nat} {place : Nat}
      (tables : PageTables after table' (place :: broken)) (grown : Grown vmm table after table')
      (absent : table' 3 (pageNumber virtualAddr / 512) = none)
      (few : vmm.frames.length < vmm.missingTables virtualAddr)
      (fresh : ∀ level number addr index, table level number = some addr → index < 512 →
        place = addr + 8 * index → (vmm.readEntry addr index).present = false) :
      Mapping vmm table broken virtualAddr physicalAddr writable after

/-- Mapping a page outside the large ones ends in one of the three ways. -/
theorem mapPage_outcome (tables : PageTables vmm table broken) {virtualAddr : BitVec 64}
    (ordinary : 4096 ≤ pageNumber virtualAddr) (physicalAddr : BitVec 64) (writable : Bool) :
    Mapping vmm table broken virtualAddr physicalAddr writable
      (vmm.mapPage virtualAddr physicalAddr writable) := by
  obtain ⟨-, -, -, last⟩ := tableIndex_pageNumber virtualAddr
  have inside : pageNumber virtualAddr % 512 < 512 := Nat.mod_lt _ (by decide)
  have walk := walkDown_outcome ordinary 3 0 rfl tables (tables.root_of_page virtualAddr)
  simp only [mapPage, walk_eq_walkDown]
  generalize walkDown (pageNumber virtualAddr) true 3 vmm vmm.pml4 = result at walk
  cases walk with
  | @reached pt after table' tables' grown here enough nullPage fresh =>
    have nonzero := (tables'.placed here).1.1
    simp only [if_neg nonzero, last]
    rcases tables'.leaf_cases here inside with empty | ⟨present, -⟩
    · -- The entry is empty, and is filled.
      simp only [empty, emptyEntry_flags.1, Bool.not_false, if_true]
      obtain ⟨page, leaf⟩ := leaf_pointTo physicalAddr writable
      have small := (pointTo_spec emptyEntry_flags.2 (physicalAddr &&& pageMask) writable).2.1
      refine .filled (tables'.writeLeaf here inside leaf small)
        (grown.trans (Grown.fill here inside (by rw [empty]; exact emptyEntry_flags.1) _)) here enough ?_ ?_
      · intro place low
        have high := tables'.above_null here (pageNumber virtualAddr % 512)
        rw [memory_writeEntry, if_neg (by omega), nullPage place low]
      · rw [readEntry, memory_writeEntry, if_pos rfl]
    · -- The entry is present, so no table was created on the way.
      simp only [present, Bool.not_true, Bool.false_eq_true, if_false]
      rcases fresh with ⟨none, rfl⟩ | fresh
      · exact .nothing none
      · rw [fresh _ inside, emptyEntry_flags.1] at present
        cases present
  | blocked nothing absent =>
    simp only [if_true]
    exact .nothing nothing
  | short tables' grown absent few fresh =>
    simp only [if_true]
    exact .short tables' grown absent few fresh

/-- Unmapping a page outside the large ones empties its entry, if there is one. -/
theorem unmapPage_cases (tables : PageTables vmm table broken) {virtualAddr : BitVec 64}
    (ordinary : 4096 ≤ pageNumber virtualAddr) :
    vmm.unmapPage virtualAddr = vmm ∨
    ∃ pt, table 3 (pageNumber virtualAddr / 512) = some pt ∧
      vmm.unmapPage virtualAddr = vmm.writeEntry pt (pageNumber virtualAddr % 512) emptyEntry := by
  obtain ⟨-, -, -, last⟩ := tableIndex_pageNumber virtualAddr
  simp only [unmapPage, walk_eq_walkDown]
  rcases walkDown_find ordinary 3 0 rfl tables (tables.root_of_page virtualAddr) with
    ⟨ended, -⟩ | ⟨pt, found, here⟩
  · exact Or.inl (by simp only [ended, if_true])
  · have nonzero := (tables.placed here).1.1
    exact Or.inr ⟨pt, here, by simp only [found, if_neg nonzero, last]⟩

/-- The entry of a large page shows the start of its two megabytes. -/
theorem largeEntry_spec : ∀ index < 8, (largeEntry index).present = true ∧
    (largeEntry index).hugePage = true ∧ (largeEntry index).address.toNat = index * 0x200000 ∧
    (largeEntry index).largeFrameBits = BitVec.ofNat 64 (index * 0x200000) := by
  -- There are eight of them.
  decide

/-- The way to the entries of the large pages. -/
theorem low_entries (tables : PageTables vmm table broken) :
    ∃ pdpt pd, table 1 0 = some pdpt ∧ table 2 0 = some pd ∧
      ((vmm.readEntry vmm.pml4 0).present = true ∧ (vmm.readEntry vmm.pml4 0).address.toNat = pdpt ∧
        (vmm.readEntry vmm.pml4 0).frameBits = (vmm.readEntry vmm.pml4 0).address) ∧
      (vmm.readEntry pdpt 0).present = true ∧ (vmm.readEntry pdpt 0).address.toNat = pd ∧
        (vmm.readEntry pdpt 0).frameBits = (vmm.readEntry pdpt 0).address := by
  obtain ⟨pdpt, second⟩ := Option.isSome_iff_exists.mp tables.low.1
  obtain ⟨pd, third⟩ := Option.isSome_iff_exists.mp tables.low.2
  have zero : 0 < 512 := by decide
  -- The two upper entries point to the tables made at boot.
  refine ⟨pdpt, pd, second, third, ?_, ?_⟩
  · rcases tables.entry_cases (by decide) tables.root zero (by omega) with
      ⟨child, present, -, shown, -⟩ | ⟨absent, -⟩ | ⟨absent, -⟩
    · exact ⟨present, Option.some.inj (child.symm.trans second), shown⟩
    · cases second.symm.trans absent
    · cases second.symm.trans absent
  · rcases tables.entry_cases (by decide) second zero (by omega) with
      ⟨child, present, -, shown, -⟩ | ⟨absent, -⟩ | ⟨absent, -⟩
    · exact ⟨present, Option.some.inj (child.symm.trans third), shown⟩
    · cases third.symm.trans absent
    · cases third.symm.trans absent

/-- The walk to a page under a large one takes the large page for a table, and misses none. -/
theorem walkDown_large (tables : PageTables vmm table broken) {page : Nat} (large : page < 4096)
    (create : Bool) : walkDown page create 3 vmm vmm.pml4 = (page / 512 * 0x200000, vmm) ∧
      vmm.missingBelow page 3 vmm.pml4 = 0 := by
  obtain ⟨pdpt, pd, second, third, ⟨present₁, shows₁, -⟩, present₂, shows₂, -⟩ := tables.low_entries
  have few : page / 512 < 8 := by omega
  obtain ⟨present₃, -, shows₃, -⟩ := largeEntry_spec _ few
  have entry := tables.largeEntry_here third few
  have nonzero₁ := (tables.placed second).1.1
  have nonzero₂ := (tables.placed third).1.1
  have index₁ : page / 512 ^ (2 + 1) % 512 = 0 := by omega
  have index₂ : page / 512 ^ (1 + 1) % 512 = 0 := by omega
  have index₃ : page / 512 ^ (0 + 1) % 512 = page / 512 := by omega
  constructor
  · -- The first two steps lead to the table of the large pages, and the last one to the large page.
    have step₃ : vmm.getNextLevel pd (page / 512) create = (page / 512 * 0x200000, vmm) := by
      rw [getNextLevel_present (by rw [entry]; exact present₃), entry, shows₃]
    simp only [walkDown, index₁, index₂, index₃, getNextLevel_present present₁, shows₁,
      getNextLevel_present present₂, shows₂, step₃, if_neg nonzero₁, if_neg nonzero₂]
    split
    · rename_i null
      rw [null]
    · rfl
  · simp only [missingBelow, index₁, index₂, index₃, present₁, shows₁, present₂, shows₂, entry, present₃,
      Bool.not_true, Bool.false_eq_true, if_false, if_neg nonzero₁, if_neg nonzero₂, ite_self]

/-- The indices the hardware goes by, from the page number. -/
theorem index_page (virtualAddr : BitVec 64) :
    pml4Index virtualAddr = pageNumber virtualAddr / 512 ^ 3 ∧
    pdptIndex virtualAddr = pageNumber virtualAddr / 512 ^ 2 % 512 ∧
    pdIndex virtualAddr = pageNumber virtualAddr / 512 % 512 ∧
    ptIndex virtualAddr = pageNumber virtualAddr % 512 := by
  -- Each shift is a division.
  simp only [pml4Index, pdptIndex, pdIndex, ptIndex, tableIndex_eq, pageNumber]
  omega

/-- The hardware finds the page of an address in its last table. -/
theorem translate_last (tables : PageTables vmm table broken) {virtualAddr : BitVec 64}
    (ordinary : 4096 ≤ pageNumber virtualAddr) {pt : Nat}
    (here : table 3 (pageNumber virtualAddr / 512) = some pt) :
    vmm.translate virtualAddr =
      if (vmm.readEntry pt (pageNumber virtualAddr % 512)).present then
        some ((vmm.readEntry pt (pageNumber virtualAddr % 512)).frameBits ||| (virtualAddr &&& 0xFFF#64))
      else none := by
  obtain ⟨first, second, third, last⟩ := index_page virtualAddr
  obtain ⟨small, top, middle, bottom, -⟩ := PageTree.pageNumber_parts virtualAddr
  have inside₁ : pageNumber virtualAddr / 512 ^ 2 % 512 < 512 := Nat.mod_lt _ (by decide)
  have inside₂ : pageNumber virtualAddr / 512 % 512 < 512 := Nat.mod_lt _ (by decide)
  -- Where the last table is there, the ones above it are.
  have there : ∀ levels level, level + levels = 3 →
      table level (pageNumber virtualAddr / 512 ^ (levels + 1)) ≠ none := by
    intro levels level depth absent
    rw [tables.last_missing depth absent] at here
    cases here
  rcases tables.entry_cases (by decide) tables.root small (by omega) with
    ⟨child₁, present₁, -, shown₁, -⟩ | ⟨absent, -⟩ | ⟨absent, -⟩
  case inr.inl | inr.inr => exact absurd (top ▸ absent) (there 2 1 rfl)
  rw [top] at child₁
  rcases tables.entry_cases (by decide) child₁ inside₁ (by omega) with
    ⟨child₂, present₂, -, shown₂, -⟩ | ⟨absent, -⟩ | ⟨absent, -⟩
  case inr.inl | inr.inr => exact absurd (middle ▸ absent) (there 1 2 rfl)
  rw [middle] at child₂
  rcases tables.entry_cases (by decide) child₂ inside₂ (by omega) with
    ⟨child₃, present₃, plain, shown₃, -⟩ | ⟨absent, -⟩ | ⟨absent, -⟩
  case inr.inl | inr.inr =>
    rw [bottom] at absent
    cases here.symm.trans absent
  rw [bottom] at child₃
  obtain rfl := Option.some.inj (here.symm.trans child₃)
  simp only [VirtualMemoryManager.translate, first, second, third, last, present₁, present₂, present₃,
    plain, shown₁, shown₂, shown₃, Bool.not_true, Bool.false_eq_true, if_false]
  cases (vmm.readEntry _ (pageNumber virtualAddr % 512)).present <;> rfl

/-- The hardware finds nothing below an entry of the null page. -/
theorem readEntry_null (tables : PageTables vmm table broken) (some : broken ≠ []) {index : Nat}
    (inside : index < 512) : vmm.readEntry 0 index = emptyEntry := by
  -- The null page was zeroed.
  exact tables.blank some _ (by omega)

/-- The hardware finds no page of an address without a last table. -/
theorem translate_none (tables : PageTables vmm table broken) {virtualAddr : BitVec 64}
    (ordinary : 4096 ≤ pageNumber virtualAddr)
    (absent : table 3 (pageNumber virtualAddr / 512) = none) : vmm.translate virtualAddr = none := by
  obtain ⟨first, second, third, last⟩ := index_page virtualAddr
  obtain ⟨small, top, middle, bottom, -⟩ := PageTree.pageNumber_parts virtualAddr
  have inside₁ : pageNumber virtualAddr / 512 ^ 2 % 512 < 512 := Nat.mod_lt _ (by decide)
  have inside₂ : pageNumber virtualAddr / 512 % 512 < 512 := Nat.mod_lt _ (by decide)
  have inside₃ : pageNumber virtualAddr % 512 < 512 := Nat.mod_lt _ (by decide)
  obtain ⟨shown, plain, -, null⟩ := nullEntry_spec
  have zero : nullEntry.frameBits.toNat = 0 := by
    rw [null]
    rfl
  have notPresent := emptyEntry_flags.1
  -- An empty entry ends the walk, and a broken one leads it to the null page.
  rcases tables.entry_cases (by decide) tables.root small (by omega) with
    ⟨child₁, present₁, -, shown₁, -⟩ | ⟨-, broken₁, member⟩ | ⟨-, empty, -⟩
  · rw [top] at child₁
    rcases tables.entry_cases (by decide) child₁ inside₁ (by omega) with
      ⟨child₂, present₂, -, shown₂, -⟩ | ⟨-, broken₂, member⟩ | ⟨-, empty, -⟩
    · rw [middle] at child₂
      rcases tables.entry_cases (by decide) child₂ inside₂ (by omega) with
        ⟨child₃, -⟩ | ⟨-, broken₃, member⟩ | ⟨-, empty, -⟩
      · rw [bottom, absent] at child₃
        cases child₃
      · have blank := tables.readEntry_null (List.ne_nil_of_mem member) inside₃
        simp only [VirtualMemoryManager.translate, first, second, third, last, present₁, shown₁, present₂,
          shown₂, broken₃, shown, plain, zero, blank, notPresent, Bool.not_true, Bool.not_false,
          Bool.false_eq_true, if_false, if_true]
      · simp only [VirtualMemoryManager.translate, first, second, third, present₁, shown₁, present₂,
          shown₂, empty, notPresent, Bool.not_true, Bool.not_false, Bool.false_eq_true, if_false, if_true]
    · have blank := tables.readEntry_null (List.ne_nil_of_mem member) inside₂
      simp only [VirtualMemoryManager.translate, first, second, third, present₁, shown₁, broken₂, shown,
        zero, blank, notPresent, Bool.not_true, Bool.not_false, Bool.false_eq_true, if_false, if_true]
    · simp only [VirtualMemoryManager.translate, first, second, present₁, shown₁, empty, notPresent,
        Bool.not_true, Bool.not_false, Bool.false_eq_true, if_false, if_true]
  · have blank := tables.readEntry_null (List.ne_nil_of_mem member) inside₁
    simp only [VirtualMemoryManager.translate, first, second, broken₁, shown, zero, blank, notPresent,
      Bool.not_true, Bool.not_false, Bool.false_eq_true, if_false, if_true]
  · simp only [VirtualMemoryManager.translate, first, empty, notPresent, Bool.not_false, if_true]

/-- The hardware finds the addresses under the large pages where they are, whatever else memory holds. -/
theorem translate_large_of_kept (tables : PageTables vmm table broken) {virtualAddr : BitVec 64}
    (large : pageNumber virtualAddr < 4096) {after : VirtualMemoryManager} (root : after.pml4 = vmm.pml4)
    (kept : ∀ level number addr index, table level number = some addr → index < 512 →
      (vmm.readEntry addr index).present = true →
      after.readEntry addr index = vmm.readEntry addr index) :
    after.translate virtualAddr =
      some (BitVec.ofNat 64 (pageNumber virtualAddr / 512 * 0x200000) ||| (virtualAddr &&& 0x1FFFFF#64)) := by
  obtain ⟨first, second, third, -⟩ := index_page virtualAddr
  obtain ⟨pdpt, pd, here₁, here₂, ⟨present₁, shows₁, shown₁⟩, present₂, shows₂, shown₂⟩ :=
    tables.low_entries
  have zero : 0 < 512 := by decide
  have few : pageNumber virtualAddr / 512 < 8 := by omega
  rw [show pageNumber virtualAddr / 512 ^ 3 = 0 by omega] at first
  rw [show pageNumber virtualAddr / 512 ^ 2 % 512 = 0 by omega] at second
  rw [show pageNumber virtualAddr / 512 % 512 = pageNumber virtualAddr / 512 by omega] at third
  obtain ⟨present₃, huge, -, shown₃⟩ := largeEntry_spec _ few
  have entry := tables.largeEntry_here here₂ few
  -- The three entries on the way are present, so they are still the same.
  have same₁ := kept _ _ _ _ tables.root zero present₁
  have same₂ := kept _ _ _ _ here₁ zero present₂
  have same₃ := kept _ _ _ _ here₂ (show pageNumber virtualAddr / 512 < 512 by omega)
    (by rw [entry]; exact present₃)
  simp only [VirtualMemoryManager.translate, root, first, second, third, same₁, present₁, shown₁, shows₁,
    same₂, present₂, shown₂, shows₂, same₃, entry, present₃, huge, shown₃, Bool.not_true, Bool.false_eq_true, if_false,
    if_true]

/-- The hardware finds the addresses under the large pages where they are. -/
theorem translate_large (tables : PageTables vmm table broken) {virtualAddr : BitVec 64}
    (large : pageNumber virtualAddr < 4096) :
    vmm.translate virtualAddr =
      some (BitVec.ofNat 64 (pageNumber virtualAddr / 512 * 0x200000) ||| (virtualAddr &&& 0x1FFFFF#64)) :=
  tables.translate_large_of_kept large rfl fun _ _ _ _ _ _ _ => rfl

/-- The tables built at boot have no broken entry. -/
theorem boot {vmm : VirtualMemoryManager} {pml4 pdpt pd kernelPdpt : Nat} {rest : List Nat}
    (frames : vmm.frames = pml4 :: pdpt :: pd :: kernelPdpt :: rest) (nodup : vmm.frames.Nodup)
    (fit : ∀ frame ∈ vmm.frames, TableFrame frame) :
    ∃ table, PageTables vmm.initializeTables table [] ∧ vmm.initializeTables.frames = rest ∧
      ∀ level number addr, table level number = some addr →
        addr ∈ [pml4, pdpt, pd, kernelPdpt] ∧ level < 3 := by
  obtain ⟨table, tree, clean, low₁, low₂, left, only⟩ := initializeTables_clean frames nodup fit
  have same : vmm.initializeTables.without [] = vmm.initializeTables := by
    simp [without]
  refine ⟨table, ⟨⟨_, by rw [same]; exact tree⟩, ⟨low₁, low₂⟩, by rw [same]; exact clean, ?_, ?_⟩, left, ?_⟩
  · exact fun place member => absurd member List.not_mem_nil
  · exact fun some => absurd rfl some
  · intro level number addr here
    have member := (only level number addr).mp here
    simp only [List.mem_cons, List.not_mem_nil, or_false, Prod.mk.injEq] at member ⊢
    rcases member with ⟨rfl, -, rfl⟩ | ⟨rfl, -, rfl⟩ | ⟨rfl, -, rfl⟩ | ⟨rfl, -, rfl⟩
    · exact ⟨Or.inl rfl, by decide⟩
    · exact ⟨Or.inr (Or.inl rfl), by decide⟩
    · exact ⟨Or.inr (Or.inr (Or.inl rfl)), by decide⟩
    · exact ⟨Or.inr (Or.inr (Or.inr rfl)), by decide⟩

end PageTables

end Pocky
