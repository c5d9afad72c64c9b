import Mathlib.Data.List.Nodup
import Pocky.Memory.PageTableEntryLaws

/-! The page tables form a tree without sharing, and every write to them keeps it. -/

namespace Pocky

open PageTableEntry VirtualMemoryManager

/-- What an entry of the three upper levels says about the table below it. -/
def Slot (large : Prop) (entry : PageTableEntry) (child : Option Nat) : Prop :=
  -- A large page has no table below it, and every other entry is empty or points to one.
  (large ∧ entry.present = true ∧ entry.hugePage = true ∧ child = none) ∨
  (¬ large ∧ entry = emptyEntry ∧ child = none) ∨
  (¬ large ∧ entry.present = true ∧ entry.hugePage = false ∧ child = some entry.address.toNat)

/-- What an entry of a last table says about its page. -/
def Leaf (entry : PageTableEntry) (page : Option (BitVec 64)) : Prop :=
  -- An entry is empty, or shows a physical page below the limit.
  (entry = emptyEntry ∧ page = none) ∨
  ∃ physicalAddr, page = some physicalAddr ∧ physicalAddr.toNat < 2 ^ 48 ∧
    entry.present = true ∧ entry.address = pageAddress physicalAddr &&& 0xFFFFFFFFF000#64

/-- A frame fit to hold a table. -/
def TableFrame (frame : Nat) : Prop := frame ≠ 0 ∧ frame % 4096 = 0 ∧ frame < 2 ^ 48

/--
The tables form a tree without sharing that represents a partial map.

A table is named by its level and by the part of the page number that leads to it.
The first large pages, as many as given, have no table below them.
-/
structure PageTree (large : Nat) (vmm : VirtualMemoryManager) (table : Nat → Nat → Option Nat)
    (pages : Nat → Option (BitVec 64)) : Prop where
  /-- The top table is the root. -/
  root : table 0 0 = some vmm.pml4
  /-- A table below the root hangs from a table. -/
  parent : ∀ level number, (table (level + 1) number).isSome → (table level (number / 512)).isSome
  /-- Every table is a frame the allocator no longer owns. -/
  placed : ∀ level number addr, table level number = some addr →
    TableFrame addr ∧ addr ∉ vmm.frames
  /-- No frame is used twice. -/
  distinct : ∀ level number level' number' addr, table level number = some addr →
    table level' number' = some addr → level = level' ∧ number = number'
  /-- Upper entries point to the tables below. -/
  slots : ∀ level number addr index, level < 3 → table level number = some addr → index < 512 →
    Slot (level = 2 ∧ 512 * number + index < large) (vmm.readEntry addr index)
      (table (level + 1) (512 * number + index))
  /-- Last entries show the pages. -/
  leaves : ∀ number addr index, table 3 number = some addr → index < 512 →
    Leaf (vmm.readEntry addr index) (pages (512 * number + index))
  /-- A page without a table is not mapped. -/
  unmapped : ∀ page, table 3 (page / 512) = none → pages page = none
  /-- The frames to come are fit for tables and all different. -/
  supply : vmm.frames.Nodup ∧ ∀ frame ∈ vmm.frames, TableFrame frame

namespace PageTree

variable {large : Nat} {vmm : VirtualMemoryManager} {table : Nat → Nat → Option Nat}
  {pages : Nat → Option (BitVec 64)}

/-- Entries of different tables, or at different indices, are different words. -/
theorem entry_apart {first second i j : Nat} (aligned : first % 4096 = 0)
    (aligned' : second % 4096 = 0) (inside : i < 512) (inside' : j < 512)
    (same : first + 8 * i = second + 8 * j) : first = second ∧ i = j := by
  -- A table is one page long, and pages do not overlap.
  omega

/-- An entry outside the large pages is empty without a table below it, and points to it otherwise. -/
theorem slot_cases (tree : PageTree large vmm table pages) {level number addr index : Nat}
    (upper : level < 3) (here : table level number = some addr) (inside : index < 512)
    (ordinary : ¬ (level = 2 ∧ 512 * number + index < large)) :
    (table (level + 1) (512 * number + index) = none ∧ vmm.readEntry addr index = emptyEntry) ∨
    (table (level + 1) (512 * number + index) = some (vmm.readEntry addr index).address.toNat ∧
      (vmm.readEntry addr index).present = true ∧
      (vmm.readEntry addr index).hugePage = false) := by
  -- The first kind of entry is ruled out.
  rcases tree.slots level number addr index upper here inside with
    ⟨huge, -⟩ | ⟨-, empty, none⟩ | ⟨-, present, small, child⟩
  · exact absurd huge ordinary
  · exact Or.inl ⟨none, empty⟩
  · exact Or.inr ⟨child, present, small⟩

/-- Following an entry that points to a table. -/
theorem getNextLevel_child (tree : PageTree large vmm table pages) {level number addr index child : Nat}
    (upper : level < 3) (here : table level number = some addr) (inside : index < 512)
    (below : table (level + 1) (512 * number + index) = some child) (create : Bool) :
    vmm.getNextLevel addr index create = (child, vmm) := by
  -- Of the three kinds of entry only a pointer has a table below it.
  rcases tree.slots level number addr index upper here inside with
    ⟨-, -, -, none⟩ | ⟨-, -, none⟩ | ⟨-, present, -, child'⟩
  · rw [below] at none
    cases none
  · rw [below] at none
    cases none
  · rw [below] at child'
    have same := Option.some.inj child'
    simp [getNextLevel, present, same]

/-- Without a table below, a walk that creates nothing ends. -/
theorem getNextLevel_none (tree : PageTree large vmm table pages) {level number addr index : Nat}
    (upper : level < 3) (here : table level number = some addr) (inside : index < 512)
    (below : table (level + 1) (512 * number + index) = none)
    (ordinary : ¬ (level = 2 ∧ 512 * number + index < large)) :
    vmm.getNextLevel addr index false = (0, vmm) := by
  -- The entry is empty.
  rcases tree.slot_cases upper here inside ordinary with ⟨-, empty⟩ | ⟨child, -⟩
  · simp [getNextLevel, empty, emptyEntry_flags]
  · rw [below] at child
    cases child

/-- The tables after one more has been hung into the tree. -/
def attach (table : Nat → Nat → Option Nat) (level number addr : Nat) : Nat → Nat → Option Nat :=
  fun level' number' => if level' = level ∧ number' = number then some addr else table level' number'

/-- The state after a fresh frame has been zeroed and an entry made to point to it. -/
def hangTable (vmm : VirtualMemoryManager) (frame : Nat) (rest : List Nat) (addr index : Nat)
    (entry : PageTableEntry) : VirtualMemoryManager :=
  ({ vmm with frames := rest }.clearTable frame).writeEntry addr index entry

/-- Zeroing a fresh frame leaves every table alone. -/
theorem readEntry_fresh (tree : PageTree large vmm table pages) {frame : Nat}
    {rest : List Nat} (next : vmm.frames = frame :: rest) {level number addr index : Nat}
    (here : table level number = some addr) (inside : index < 512) :
    ({ vmm with frames := rest }.clearTable frame).readEntry addr index =
      vmm.readEntry addr index := by
  -- The fresh frame is none of the tables, and different frames do not overlap.
  obtain ⟨⟨-, aligned, -⟩, unowned⟩ := tree.placed level number addr here
  obtain ⟨-, fresh, -⟩ := tree.supply.2 frame (by rw [next]; exact List.mem_cons_self)
  rw [next] at unowned
  have apart : addr ≠ frame := fun same => unowned (same ▸ List.mem_cons_self)
  have outside : ¬ (frame ≤ addr + 8 * index ∧
      addr + 8 * index < frame + 8 * entriesPerTable) := by
    simp only [entriesPerTable]
    omega
  simp only [readEntry, clearTable, if_neg outside]

/-- Reading any entry after a table has been hung in. -/
theorem readEntry_hangTable (tree : PageTree large vmm table pages) {frame : Nat}
    {rest : List Nat} (next : vmm.frames = frame :: rest) {level number addr index : Nat}
    (here : table level number = some addr) (inside : index < 512) (entry : PageTableEntry) :
    (∀ j < 512, (hangTable vmm frame rest addr index entry).readEntry frame j = emptyEntry) ∧
    ∀ level' number' addr' j, table level' number' = some addr' → j < 512 →
      (hangTable vmm frame rest addr index entry).readEntry addr' j =
        if level' = level ∧ number' = number ∧ j = index then entry else vmm.readEntry addr' j := by
  -- The fresh frame is none of the tables, so the two writes touch different pages.
  obtain ⟨⟨-, aligned, -⟩, unowned⟩ := tree.placed level number addr here
  obtain ⟨-, fresh, -⟩ := tree.supply.2 frame (by rw [next]; exact List.mem_cons_self)
  rw [next] at unowned
  have apart : addr ≠ frame := fun same => unowned (same ▸ List.mem_cons_self)
  constructor
  · intro j small
    have other : frame + 8 * j ≠ addr + 8 * index := by omega
    have cleared : frame ≤ frame + 8 * j ∧ frame + 8 * j < frame + 8 * entriesPerTable := by
      simp only [entriesPerTable]
      omega
    simp only [hangTable, readEntry, writeEntry, Function.update_of_ne other, clearTable,
      if_pos cleared]
  · intro level' number' addr' j here' small
    obtain ⟨⟨-, aligned', -⟩, -⟩ := tree.placed level' number' addr' here'
    by_cases same : level' = level ∧ number' = number ∧ j = index
    · obtain ⟨rfl, rfl, rfl⟩ := same
      rw [here] at here'
      cases here'
      simp [hangTable, readEntry, writeEntry]
    · have other : addr' + 8 * j ≠ addr + 8 * index := by
        intro equal
        obtain ⟨rfl, rfl⟩ := entry_apart aligned' aligned small inside equal
        obtain ⟨rfl, rfl⟩ := tree.distinct _ _ _ _ _ here' here
        exact same ⟨rfl, rfl, rfl⟩
      have kept := tree.readEntry_fresh next here' small
      simp only [readEntry] at kept
      simp only [hangTable, readEntry, writeEntry, Function.update_of_ne other, if_neg same, kept]

/-- Hanging a fresh table into an empty entry keeps the tree and the map it represents. -/
theorem hang (tree : PageTree large vmm table pages) {frame : Nat} {rest : List Nat}
    (next : vmm.frames = frame :: rest) {level number addr index : Nat} (upper : level < 3)
    (here : table level number = some addr) (inside : index < 512)
    (below : table (level + 1) (512 * number + index) = none)
    (ordinary : ¬ (level = 2 ∧ 512 * number + index < large))
    (free : level + 1 = 2 → large ≤ 512 * (512 * number + index)) {entry : PageTableEntry}
    (present : entry.present = true) (small : entry.hugePage = false)
    (shows : entry.address.toNat = frame) :
    PageTree large (hangTable vmm frame rest addr index entry)
      (attach table (level + 1) (512 * number + index) frame) pages := by
  obtain ⟨fresh, kept⟩ := readEntry_hangTable tree next here inside entry
  obtain ⟨nodup, fit⟩ := tree.supply
  rw [next] at nodup fit
  -- Nothing hangs below the new table yet.
  have bare : ∀ j, j < 512 →
      table (level + 1 + 1) (512 * (512 * number + index) + j) = none := by
    intro j inside'
    by_contra some
    have parent := tree.parent (level + 1) _ (Option.isSome_iff_ne_none.mpr some)
    rw [show (512 * (512 * number + index) + j) / 512 = 512 * number + index by omega,
      below] at parent
    cases parent
  -- The frame itself was still the allocator's.
  have unused : ∀ level' number', table level' number' ≠ some frame := by
    intro level' number' used
    obtain ⟨-, unowned⟩ := tree.placed level' number' frame used
    exact unowned (next ▸ List.mem_cons_self)
  constructor
  case root =>
    rw [attach, if_neg (by omega)]
    exact tree.root
  case parent =>
    intro level' number' some
    unfold attach at some ⊢
    split
    · rfl
    · split at some
      · rename_i new
        obtain ⟨same, rfl⟩ := new
        obtain rfl : level' = level := by omega
        rw [show (512 * number + index) / 512 = number by omega, here]
        rfl
      · exact tree.parent level' number' some
  case placed =>
    intro level' number' addr' here'
    unfold attach at here'
    split at here'
    · cases here'
      exact ⟨fit _ List.mem_cons_self, (List.nodup_cons.mp nodup).1⟩
    · obtain ⟨frame', unowned⟩ := tree.placed level' number' addr' here'
      rw [next] at unowned
      exact ⟨frame', fun owned => unowned (List.mem_cons_of_mem _ owned)⟩
  case distinct =>
    intro level' number' level'' number'' addr' first second
    unfold attach at first second
    split at first
    · split at second
      · rename_i left right
        exact ⟨left.1.trans right.1.symm, left.2.trans right.2.symm⟩
      · cases first
        exact absurd second (unused _ _)
    · split at second
      · cases second
        exact absurd first (unused _ _)
      · exact tree.distinct _ _ _ _ _ first second
  case slots =>
    intro level' number' addr' j upper' here' inside'
    unfold attach at here'
    split at here'
    · -- Every entry of the new table is empty.
      rename_i new
      obtain ⟨rfl, rfl⟩ := new
      cases here'
      refine Or.inr (Or.inl ⟨?_, fresh j inside', ?_⟩)
      · rintro ⟨second, low⟩
        have := free second
        omega
      · rw [attach, if_neg (by omega)]
        exact bare j inside'
    · rw [kept level' number' addr' j here' inside']
      by_cases same : level' = level ∧ number' = number ∧ j = index
      · -- The entry just written points to the new table.
        obtain ⟨rfl, rfl, rfl⟩ := same
        rw [if_pos ⟨rfl, rfl, rfl⟩, attach, if_pos ⟨rfl, rfl⟩, ← shows]
        exact Or.inr (Or.inr ⟨ordinary, present, small, rfl⟩)
      · rw [if_neg same, attach, if_neg (by omega)]
        exact tree.slots level' number' addr' j upper' here' inside'
  case leaves =>
    intro number' addr' j here' inside'
    unfold attach at here'
    split at here'
    · -- A new last table has no page mapped, and there was none before.
      rename_i new
      obtain ⟨last, rfl⟩ := new
      cases here'
      refine Or.inl ⟨fresh j inside', tree.unmapped _ ?_⟩
      rw [show (512 * (512 * number + index) + j) / 512 = 512 * number + index by omega, last]
      exact below
    · rw [kept 3 number' addr' j here' inside', if_neg (by omega)]
      exact tree.leaves number' addr' j here' inside'
  case unmapped =>
    intro page absent
    unfold attach at absent
    split at absent
    · cases absent
    · exact tree.unmapped page absent
  case supply =>
    exact ⟨(List.nodup_cons.mp nodup).2, fun frame' owned => fit frame' (List.mem_cons_of_mem _ owned)⟩

/-- Creating the next table in an empty entry. -/
theorem getNextLevel_create (tree : PageTree large vmm table pages) {frame : Nat}
    {rest : List Nat} (next : vmm.frames = frame :: rest) {level number addr index : Nat}
    (here : table level number = some addr) (inside : index < 512)
    (empty : vmm.readEntry addr index = emptyEntry) :
    vmm.getNextLevel addr index true = (frame, hangTable vmm frame rest addr index
      (pointTo emptyEntry (BitVec.ofNat 64 frame) true)) := by
  -- Zeroing the fresh frame leaves the entry empty, and then it is made to point there.
  obtain ⟨-, fresh, bounded⟩ := tree.supply.2 frame (by rw [next]; exact List.mem_cons_self)
  obtain ⟨present, -, address⟩ :=
    pointTo_spec emptyEntry_flags.2 (BitVec.ofNat 64 frame) true
  have still := (tree.readEntry_fresh next here inside).trans empty
  have written : (hangTable vmm frame rest addr index
      (pointTo emptyEntry (BitVec.ofNat 64 frame) true)).readEntry addr index =
      pointTo emptyEntry (BitVec.ofNat 64 frame) true := by
    simp [hangTable, readEntry, writeEntry]
  have created : vmm.createPageTable =
      (frame, { vmm with frames := rest }.clearTable frame) := by
    simp [createPageTable, nextFrame, next]
  simp only [getNextLevel, empty, emptyEntry_flags.1, Bool.not_false, Bool.and_self, if_true, created,
    still]
  rw [← hangTable, written, present, address, tableAddress_masked fresh bounded]
  rfl

/-- A walk that may create tables always finds the next one. -/
theorem getNextLevel_ensure (tree : PageTree large vmm table pages)
    {level number addr index : Nat} (upper : level < 3)
    (here : table level number = some addr) (inside : index < 512)
    (ordinary : ¬ (level = 2 ∧ 512 * number + index < large))
    (free : table (level + 1) (512 * number + index) = none →
      level + 1 = 2 → large ≤ 512 * (512 * number + index))
    (available : 1 ≤ vmm.frames.length) :
    ∃ child vmm' table', vmm.getNextLevel addr index true = (child, vmm') ∧ child ≠ 0 ∧
      PageTree large vmm' table' pages ∧
      table' (level + 1) (512 * number + index) = some child ∧
      (∀ level' number' addr', table level' number' = some addr' →
        table' level' number' = some addr') ∧
      ∃ taken, vmm.frames = taken ++ vmm'.frames ∧ taken.length ≤ 1 ∧
        (∀ level' number' addr', table' level' number' = some addr' →
          table level' number' = some addr' ∨
            addr' ∈ taken ∧ level' = level + 1 ∧ number' = 512 * number + index) ∧
        ∀ frame ∈ taken, ∃ level' number', table' level' number' = some frame := by
  -- Either the table is there, or the entry is empty and a frame is hung into it.
  cases below : table (level + 1) (512 * number + index) with
  | some child =>
    obtain ⟨⟨nonzero, -⟩, -⟩ := tree.placed _ _ _ below
    exact ⟨child, vmm, table, tree.getNextLevel_child upper here inside below true, nonzero, tree,
      below, fun _ _ _ same => same, [], rfl, Nat.zero_le _, fun _ _ _ same => Or.inl same,
      fun _ member => absurd member List.not_mem_nil⟩
  | none =>
    obtain ⟨frame, rest, next⟩ := List.exists_cons_of_length_pos available
    have empty : vmm.readEntry addr index = emptyEntry := by
      rcases tree.slot_cases upper here inside ordinary with ⟨-, empty⟩ | ⟨child, -⟩
      · exact empty
      · rw [below] at child
        cases child
    obtain ⟨nonzero, fresh, bounded⟩ :=
      tree.supply.2 frame (by rw [next]; exact List.mem_cons_self)
    obtain ⟨present, small, address⟩ :=
      pointTo_spec emptyEntry_flags.2 (BitVec.ofNat 64 frame) true
    refine ⟨frame, _, _, tree.getNextLevel_create next here inside empty, nonzero,
      tree.hang next upper here inside below ordinary (free below) present small ?_, ?_, ?_,
      [frame], next, Nat.le_refl _, ?_, ?_⟩
    · rw [address, tableAddress_masked fresh bounded]
    · rw [attach, if_pos ⟨rfl, rfl⟩]
    · intro level' number' addr' here'
      rw [attach, if_neg]
      · exact here'
      · rintro ⟨rfl, rfl⟩
        rw [below] at here'
        cases here'
    · -- The only new table is the one made of the frame.
      intro level' number' addr' here'
      unfold attach at here'
      split at here'
      · rename_i new
        cases here'
        exact Or.inr ⟨List.mem_singleton_self _, new⟩
      · exact Or.inl here'
    · intro other member
      rw [List.mem_singleton.mp member]
      exact ⟨level + 1, 512 * number + index, by rw [attach, if_pos ⟨rfl, rfl⟩]⟩

/-- The tree stays as long as the entries of its tables do. -/
theorem congr (tree : PageTree large vmm table pages) {memory : Nat → PageTableEntry}
    (same : ∀ level number addr index, table level number = some addr → index < 512 →
      memory (addr + 8 * index) = vmm.memory (addr + 8 * index)) :
    PageTree large { vmm with memory := memory } table pages := by
  have read : ∀ level number addr index, table level number = some addr → index < 512 →
      VirtualMemoryManager.readEntry { vmm with memory := memory } addr index =
        vmm.readEntry addr index := same
  refine ⟨tree.root, tree.parent, tree.placed, tree.distinct, ?_, ?_, tree.unmapped, tree.supply⟩
  · intro level number addr index upper here inside
    rw [read level number addr index here inside]
    exact tree.slots level number addr index upper here inside
  · intro number addr index here inside
    rw [read 3 number addr index here inside]
    exact tree.leaves number addr index here inside

/-- Zeroing a page that holds no table keeps the tree. -/
theorem clearFrame (tree : PageTree large vmm table pages) {frame : Nat} (aligned : frame % 4096 = 0)
    (apart : ∀ level number, table level number ≠ some frame) :
    PageTree large (vmm.clearTable frame) table pages := by
  -- No entry of a table lies in the page.
  refine tree.congr fun level number addr index here inside => ?_
  obtain ⟨⟨-, aligned', -⟩, -⟩ := tree.placed level number addr here
  have other : addr ≠ frame := fun same => apart level number (same ▸ here)
  refine if_neg ?_
  simp only [entriesPerTable]
  omega

/-- The frames to come may be others, if they are fit for tables, all different and no tables yet. -/
theorem resupply (tree : PageTree large vmm table pages) {frames : List Nat} (nodup : frames.Nodup)
    (fit : ∀ frame ∈ frames, TableFrame frame)
    (unused : ∀ level number addr, table level number = some addr → addr ∉ frames) :
    PageTree large { vmm with frames := frames } table pages :=
  ⟨tree.root, tree.parent, fun level number addr here =>
      ⟨(tree.placed level number addr here).1, unused level number addr here⟩,
    tree.distinct, tree.slots, tree.leaves, tree.unmapped, nodup, fit⟩

/-- Writing an entry of a last table changes the map at that page only. -/
theorem writeLeaf (tree : PageTree large vmm table pages) {number addr index : Nat}
    (here : table 3 number = some addr) (inside : index < 512) {entry : PageTableEntry}
    {page : Option (BitVec 64)} (leaf : Leaf entry page) :
    PageTree large (vmm.writeEntry addr index entry) table
      (Function.update pages (512 * number + index) page) := by
  -- Every other entry is another word of memory.
  obtain ⟨⟨-, aligned, -⟩, -⟩ := tree.placed 3 number addr here
  have read : ∀ level' number' addr' j, table level' number' = some addr' → j < 512 →
      (vmm.writeEntry addr index entry).readEntry addr' j =
        if level' = 3 ∧ number' = number ∧ j = index then entry else vmm.readEntry addr' j := by
    intro level' number' addr' j here' small
    obtain ⟨⟨-, aligned', -⟩, -⟩ := tree.placed level' number' addr' here'
    by_cases same : level' = 3 ∧ number' = number ∧ j = index
    · obtain ⟨rfl, rfl, rfl⟩ := same
      rw [here] at here'
      cases here'
      simp [readEntry, writeEntry]
    · have other : addr' + 8 * j ≠ addr + 8 * index := by
        intro equal
        obtain ⟨rfl, rfl⟩ := entry_apart aligned' aligned small inside equal
        obtain ⟨rfl, rfl⟩ := tree.distinct _ _ _ _ _ here' here
        exact same ⟨rfl, rfl, rfl⟩
      simp only [readEntry, writeEntry, Function.update_of_ne other, if_neg same]
  refine ⟨tree.root, tree.parent, tree.placed, tree.distinct, ?_, ?_, ?_, tree.supply⟩
  · intro level' number' addr' j upper here' small
    rw [read level' number' addr' j here' small, if_neg (by omega)]
    exact tree.slots level' number' addr' j upper here' small
  · intro number' addr' j here' small
    rw [read 3 number' addr' j here' small]
    by_cases same : number' = number ∧ j = index
    · obtain ⟨rfl, rfl⟩ := same
      rw [if_pos ⟨rfl, rfl, rfl⟩, Function.update_self]
      exact leaf
    · rw [if_neg (fun all => same all.2), Function.update_of_ne (by omega)]
      exact tree.leaves number' addr' j here' small
  · intro page' absent
    have other : page' ≠ 512 * number + index := by
      rintro rfl
      rw [show (512 * number + index) / 512 = number by omega, here] at absent
      cases absent
    rw [Function.update_of_ne other]
    exact tree.unmapped page' absent

end PageTree

namespace PageTree

variable {large : Nat} {vmm : VirtualMemoryManager} {table : Nat → Nat → Option Nat}
  {pages : Nat → Option (BitVec 64)}

/-- A zeroed top table alone represents the empty map. -/
theorem single {frame : Nat} {rest : List Nat} (nodup : (frame :: rest).Nodup)
    (fit : ∀ other ∈ frame :: rest, TableFrame other) (memory : Nat → PageTableEntry) :
    PageTree 0 (VirtualMemoryManager.clearTable ⟨memory, frame, rest⟩ frame)
      (attach (fun _ _ => none) 0 0 frame) (fun _ => none) := by
  -- The only table is the root, and all its entries are empty.
  have only : ∀ level number addr, attach (fun _ _ => none) 0 0 frame level number = some addr →
      level = 0 ∧ number = 0 ∧ addr = frame := by
    intro level number addr here
    unfold attach at here
    split at here
    · rename_i root
      cases here
      exact ⟨root.1, root.2, rfl⟩
    · cases here
  constructor
  case root => rfl
  case parent =>
    intro level number some
    obtain ⟨addr, here⟩ := Option.isSome_iff_exists.mp some
    exact absurd (only _ _ _ here).1 (Nat.succ_ne_zero level)
  case placed =>
    intro level number addr here
    obtain ⟨-, -, rfl⟩ := only level number addr here
    exact ⟨fit _ List.mem_cons_self, (List.nodup_cons.mp nodup).1⟩
  case distinct =>
    intro level number level' number' addr here here'
    obtain ⟨rfl, rfl, -⟩ := only _ _ _ here
    obtain ⟨rfl, rfl, -⟩ := only _ _ _ here'
    exact ⟨rfl, rfl⟩
  case slots =>
    intro level number addr index upper here inside
    obtain ⟨rfl, rfl, rfl⟩ := only level number addr here
    refine Or.inr (Or.inl ⟨by omega, ?_, ?_⟩)
    · simp only [readEntry, clearTable, entriesPerTable]
      exact if_pos (by omega)
    · rw [attach, if_neg (by omega)]
  case leaves =>
    intro number addr index here inside
    exact absurd (only _ _ _ here).1 (by decide)
  case unmapped => exact fun page _ => rfl
  case supply =>
    exact ⟨(List.nodup_cons.mp nodup).2, fun other member => fit other (List.mem_cons_of_mem _ member)⟩

/-- One more large page may be entered where no table hangs. -/
theorem enlarge (tree : PageTree large vmm table pages) {addr : Nat} (inside : large < 512)
    (here : table 2 0 = some addr) (below : table 3 large = none) {entry : PageTableEntry}
    (present : entry.present = true) (huge : entry.hugePage = true) :
    PageTree (large + 1) (vmm.writeEntry addr large entry) table pages := by
  -- The written entry is the only one whose kind changes.
  obtain ⟨⟨-, aligned, -⟩, -⟩ := tree.placed 2 0 addr here
  have read : ∀ level number addr' index, table level number = some addr' → index < 512 →
      ¬ (level = 2 ∧ number = 0 ∧ index = large) →
      (vmm.writeEntry addr large entry).readEntry addr' index = vmm.readEntry addr' index := by
    intro level number addr' index here' small other
    obtain ⟨⟨-, aligned', -⟩, -⟩ := tree.placed level number addr' here'
    have apart : addr' + 8 * index ≠ addr + 8 * large := by
      intro equal
      obtain ⟨rfl, rfl⟩ := entry_apart aligned' aligned small inside equal
      obtain ⟨rfl, rfl⟩ := tree.distinct _ _ _ _ _ here' here
      exact other ⟨rfl, rfl, rfl⟩
    simp only [readEntry, writeEntry, Function.update_of_ne apart]
  refine ⟨tree.root, tree.parent, tree.placed, tree.distinct, ?_, ?_, tree.unmapped, tree.supply⟩
  · intro level number addr' index upper here' small
    by_cases this : level = 2 ∧ number = 0 ∧ index = large
    · obtain ⟨rfl, rfl, rfl⟩ := this
      rw [here] at here'
      cases here'
      have stored : (vmm.writeEntry addr index entry).readEntry addr index = entry := by
        simp [readEntry, writeEntry]
      rw [stored]
      exact Or.inl ⟨by omega, present, huge, by simpa using below⟩
    · rw [read level number addr' index here' small this]
      have same : (level = 2 ∧ 512 * number + index < large + 1) ↔
          (level = 2 ∧ 512 * number + index < large) := by omega
      simp only [Slot, same]
      exact tree.slots level number addr' index upper here' small
  · intro number addr' index here' small
    rw [read 3 number addr' index here' small (by omega)]
    exact tree.leaves number addr' index here' small

/-- Entering the first large pages, one after the other. -/
theorem mapFirstPages (tree : PageTree 0 vmm table pages) {addr : Nat}
    (here : table 2 0 = some addr) (bare : ∀ number, table 3 number = none) (count : Nat)
    (few : count ≤ 8) :
    PageTree count (vmm.mapFirstPages addr count) table pages ∧
      (0 < count → ((vmm.mapFirstPages addr count).readEntry addr 0).address = 0#64) := by
  -- The flags are independent of the address, which is looked at only for the first page.
  have flags : ∀ index < 8, (largeEntry index).present = true ∧
      (largeEntry index).hugePage = true := by decide
  have zero : (largeEntry 0).address = 0#64 := by decide
  induction count with
  | zero => exact ⟨tree, fun wrong => absurd wrong (by decide)⟩
  | succ count ih =>
    obtain ⟨before, first⟩ := ih (by omega)
    obtain ⟨present, huge⟩ := flags count (by omega)
    refine ⟨before.enlarge (by omega) here (bare count) present huge, fun _ => ?_⟩
    cases count with
    | zero =>
      simp only [VirtualMemoryManager.mapFirstPages, readEntry, writeEntry, Function.update_self]
      exact zero
    | succ count =>
      have apart : addr + 8 * 0 ≠ addr + 8 * (count + 1) := by omega
      rw [← first (by omega)]
      rw [VirtualMemoryManager.mapFirstPages]
      simp only [readEntry, writeEntry, Function.update_of_ne apart]

end PageTree

end Pocky
